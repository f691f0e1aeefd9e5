import AuthCore.Proofs.Log.Actions
import AuthCore.Proofs.Log.Shown
import AuthCore.Proofs.Session
import AuthCore.Proofs.Store.Groups

/-!
# What a session logs

The events of a step of a session are of two kinds (`Event.Told`). Either an entry for a new refresh
token was written to the cache or refused, and then the key of the entry is in the event; or the
event shows no token that is not in a name which was handed in. Passwords, one-time codes and the
tokens that a caller presents are no such names.

## The model

* `Operation.names`, `Call.names`: the names that are handed in.
* `Call.logs_perform`: what a call logs is told by its names.
-/

namespace AuthCore

open Text (ShowsOnly)

variable {α β : Type}

/-! ### Events and names -/

/-- An event is about the entry of a refresh token made at a moment, or it shows no token but
through some names. -/
def Event.Told (ns : List String) (t : Tokens) (m : Moment) (e : Event) : Prop :=
  (∃ user, e.IsWrite (Tokens.key (t.minted user m))) ∨ ∀ s ∈ e.names, ShowsOnly ns s

variable {ns : List String} {t : Tokens} {m : Moment} {n : Notifier}

namespace Event

theorem told_of_nil {e : Event} (h : e.names = []) : e.Told ns t m := by
  refine .inr ?_
  rw [h]
  exact List.forall_mem_nil _

theorem told_of_singleton {e : Event} {s : String} (h : e.names = [s]) (hs : ShowsOnly ns s) :
    e.Told ns t m := by
  refine .inr ?_
  rw [h]
  exact List.forall_mem_singleton.2 hs

theorem told_of_mem {e : Event} {s : String} (h : e.names = [s]) (hs : s ∈ ns) :
    e.Told ns t m :=
  told_of_singleton h (Text.showsOnly_of_mem hs)

theorem told_of_isWrite {e : Event} {key : String} (hk : ShowsOnly ns key)
    (h : e.IsWrite key) : e.Told ns t m := by
  rcases h with rfl | ⟨capacity, rfl⟩
  · exact told_of_singleton rfl hk
  · exact told_of_singleton rfl hk

end Event

open AuthCore.Action
open AuthCore.Event (Told told_of_nil told_of_mem told_of_singleton told_of_isWrite)

/-- The names that an action logs are among given ones, but for the keys of new tokens. -/
abbrev Action.Tells (ns : List String) (t : Tokens) (m : Moment) (n : Notifier)
    (x : Action α) : Prop := x.Logs (Told ns t m) m n

/-! ### Permissions and groups -/

namespace Permissions

theorem logs_effective {u : User} (h : u.groups ⊆ ns) :
    (effective u).Tells ns t m n := by
  refine (logs_pure _).ite <| (logs_query _).bind fun groups => ?_
  refine (logs_forM fun name hname => logs_log (told_of_mem rfl (h ?_))).bind fun _ => logs_pure _
  exact List.mem_of_mem_filter hname

theorem logs_check {u : User} {scope : Option Scope} (h : u.groups ⊆ ns)
    (hs : ∀ s ∈ scope, s.entity ∈ ns ∧ s.rule ∈ ns) : (check u scope).Tells ns t m n := by
  unfold check
  cases scope with
  | none => exact logs_pure ()
  | some s =>
    refine (logs_effective h).bind fun map => (logs_pure ()).ite ?_
    refine (logs_log (.inr ?_)).bind fun _ => logs_reject _
    obtain ⟨hentity, hrule⟩ := hs s rfl
    exact List.forall_mem_cons.2 ⟨Text.showsOnly_of_mem hentity,
      List.forall_mem_singleton.2 (Text.showsOnly_of_mem hrule)⟩

theorem logs_validate {P : Event → Prop} (ps : List Permission) : (validate ps).Logs P m n :=
  logs_forM fun _ _ => (logs_query _).bind fun e => (logs_orReject _ e).bind fun _ =>
    logs_require _ _

end Permissions

/-- A group that was created has the name that was asked for. -/
theorem Store.name_of_createGroup {s : Store} {g g' : Group} (h : (s.createGroup g).1 = .ok g') :
    g'.name = g.name := by
  cases s with
  | memory m =>
    simp only [createGroup, ofMemory, MemoryStore.createGroup] at h
    split at h <;> cases h
    rfl
  | database db =>
    rcases db.createGroup_cases g with ⟨e, hx, -⟩ | ⟨rows, -, -, hx⟩
    · simp only [createGroup, ofDatabase, hx] at h
      cases h
    · simp only [createGroup, ofDatabase, hx] at h
      cases h
      rfl

namespace Groups

theorem logs_create {g : Group} (h : g.name ∈ ns) : (create g).Tells ns t m n := by
  refine (Permissions.logs_validate _).bind fun _ => (logs_change _).bind_of_ok fun w g' v hw => ?_
  -- the name that is logged is that of the answer of the store
  have hname : g'.name = g.name := Store.name_of_createGroup (Prod.mk.inj hw).1
  exact (logs_log (told_of_mem rfl (hname ▸ h))).bind fun _ => logs_pure _

theorem logs_update {name : String} (h : name ∈ ns) (u : GroupUpdate) :
    (update name u).Tells ns t m n := by
  have hrest (_ : PUnit) : Action.Tells ns t m n (do
      let g ← Action.change (·.updateGroup name u)
      Action.log (.groupUpdated name)
      return g) :=
    (logs_change _).bind fun _ => (logs_log (told_of_mem rfl h)).bind fun _ => logs_pure _
  unfold update
  cases u.permissions with
  | some ps => exact (Permissions.logs_validate ps).bind hrest
  | none => exact (logs_pure ()).bind hrest

theorem logs_delete (names : List String) : (delete names).Tells ns t m n :=
  (logs_query _).bind fun _ => (logs_change _).bind fun _ => (logs_log (told_of_nil rfl)).bind
    fun _ => (logs_pure _).ite (logs_reject _)

end Groups

/-! ### Tokens -/

namespace Tokens

theorem logs_issue (user : Int) (role : Role) (limited : Bool) :
    (t.issue user role limited).Tells ns t m n := by
  refine Logs.read_bind ?_
  refine (logs_cacheSet (fun e he => .inl ⟨user, he⟩) _ _).bind fun _ => ?_
  exact (logs_log (told_of_nil rfl)).bind fun _ => logs_pure _

theorem logs_issueLimited {P : Event → Prop} (user : Int) (role : Role) :
    (t.issueLimited user role).Logs P m n :=
  Logs.read_bind (logs_pure _)

theorem logs_verify {P : Event → Prop} (token : String) : (t.verify token).Logs P m n :=
  Logs.read_bind (logs_ofAnswer _)

theorem logs_refresh (token : String) : (t.refresh token).Tells ns t m n := by
  rw [refresh_eq]
  refine (logs_cached _).bind fun o => (logs_orReject _ o).bind fun entry => ?_
  refine (logs_ofAnswer _).bind fun id => Logs.ite ?_ ?_
  · exact (logs_log (told_of_nil rfl)).bind fun _ => logs_reject _
  · refine (logs_query _).bind fun o => (logs_orReject _ o).bind fun user => ?_
    refine (logs_require _ _).bind fun _ => (logs_cached _).bind fun _ => ?_
    refine (logs_require _ _).bind fun _ => (logs_issue _ _ _).bind fun _ => ?_
    exact (logs_log (told_of_nil rfl)).bind fun _ => logs_pure _

end Tokens

/-! ### One-time codes -/

/-- The names that may be logged when a message is delivered: an outbox may report any error. -/
def Notifier.names : Notifier → List String
  | outbox (some e) => [e.message]
  | _ => []

/-- The names in messages with one-time codes: the subjects of e-mails. -/
def OtpConfig.subjects (c : OtpConfig) : List String :=
  [c.emailSubjectVerification, c.emailSubjectResetPassword]

theorem OtpConfig.subject_mem (c : OtpConfig) (purpose : OtpPurpose) :
    c.subject purpose ∈ c.subjects := by
  cases purpose
  · exact List.mem_cons_self
  · exact List.mem_cons_of_mem _ List.mem_cons_self

theorem Status.showsOnly_text (status : Nat) : ShowsOnly ns (Status.text status) := by
  have hall : ∀ p ∈ phrases, '.' ∉ p.2.toList := by decide +kernel
  refine (Text.showsOnly_showNat status).gap (by decide) (Text.showsOnly_of_plain ?_)
  cases hl : phrases.lookup status with
  | none =>
    show '.' ∉ "<unknown status code>".toList
    decide
  | some phrase =>
    obtain ⟨before, after, heq, -⟩ := List.lookup_eq_some_iff.1 hl
    exact hall (status, phrase) (heq ▸ List.mem_append_right _ List.mem_cons_self)

namespace Notifier

variable {recipient : String} {message : Message}

/-- The errors of a gateway show no token. -/
theorem fails_post (c : NotifierConfig) (recipient : String) (message : Message) :
    (post c recipient message).Fails fun e => ShowsOnly ns e.message := by
  have hfailed : ShowsOnly ns (Error.network .failed).message :=
    Text.showsOnly_of_plain (by decide)
  unfold post
  cases c.endpoint message.channel with
  | none =>
    refine fails_throw ?_
    have hchannel : ∀ channel : Channel,
        '.' ∉ (Error.config (.noEndpoint channel.title)).message.toList := by
      rintro (_ | _) <;> decide
    exact Text.showsOnly_of_plain (hchannel _)
  | some url =>
    refine (fails_fetch hfailed _).bind fun response => (fails_log _).ite (fails_throw ?_)
    have htitle : ShowsOnly ns message.channel.title := by
      cases message.channel <;> exact Text.showsOnly_of_plain (by decide)
    exact .behind (by decide) (htitle.gap (by decide) (Status.showsOnly_text response.status))

/-- An error of a delivery shows no token, unless an outbox was told to report it. -/
theorem fails_deliver (hn : n.names ⊆ ns) :
    (n.deliver recipient message).Fails fun e => ShowsOnly ns e.message := by
  unfold deliver
  cases n with
  | outbox failure =>
    cases failure with
    | none => exact fun _ _ => Answer.fails_ok ()
    | some e =>
      exact fun _ _ => Answer.fails_error (Text.showsOnly_of_mem (hn List.mem_cons_self))
  | log => exact fails_log _
  | webhook c => exact fails_post c recipient message

theorem logs_post (c : NotifierConfig) (recipient : String) (message : Message) :
    (post c recipient message).Tells ns t m n := by
  unfold post
  cases c.endpoint message.channel with
  | none => exact logs_throw _
  | some url =>
    refine (logs_fetch _).bind fun response => Logs.ite ?_ (logs_throw _)
    exact logs_log (told_of_nil rfl)

theorem logs_deliver (h : (message.logged recipient).names ⊆ ns) :
    (n.deliver recipient message).Tells ns t m n := by
  unfold deliver
  cases n with
  | outbox failure => cases failure <;> exact fun _ _ => .silent rfl rfl
  | log => exact logs_log (.inr fun s hs => Text.showsOnly_of_mem (h hs))
  | webhook c => exact logs_post c recipient message

end Notifier

namespace Otp

variable {c : OtpConfig} {u : Username}

theorem showsOnly_key (h : u.value ∈ ns) : ShowsOnly ns (key u) :=
  .behind (by decide) (Text.showsOnly_of_mem h)

theorem logs_deliver {recipient : String} {message : Message} (hn : n.names ⊆ ns)
    (hr : recipient ∈ ns) (h : (message.logged recipient).names ⊆ ns) :
    (deliver recipient message).Tells ns t m n := by
  refine Logs.get_bind fun w hw => ?_
  subst hw
  refine (Notifier.logs_deliver h).tryCatch (Notifier.fails_deliver hn) fun e he => ?_
  refine logs_log (.inr (List.forall_mem_cons.2 ⟨Text.showsOnly_of_mem hr, ?_⟩))
  exact List.forall_mem_singleton.2 he

theorem logs_request (hn : n.names ⊆ ns) (hc : c.subjects ⊆ ns) (hu : u.value ∈ ns)
    (purpose : OtpPurpose) (greeted : Option String) :
    (request c u purpose greeted).Tells ns t m n := by
  have hnames (code : String) :
      ((message c u code purpose greeted).logged u.value).names ⊆ ns := by
    cases u with
    | phone value => exact List.cons_subset.2 ⟨hu, List.nil_subset _⟩
    | email value =>
      refine List.cons_subset.2 ⟨hu, List.cons_subset.2 ⟨?_, List.nil_subset _⟩⟩
      exact hc (c.subject_mem purpose)
  refine Logs.read_bind ?_
  refine (logs_cacheCreate (fun e => told_of_isWrite (showsOnly_key hu)) _ _).bind fun _ => ?_
  refine (logs_require _ _).bind fun _ => (logs_log (told_of_mem rfl hu)).bind fun _ => ?_
  exact (logs_pure ()).ite (logs_deliver hn hu (hnames _))

theorem logs_verify (hu : u.value ∈ ns) (guess : String) :
    (verify c u guess).Tells ns t m n := by
  refine (logs_cached _).bind fun r => ?_
  cases r with
  | matched => exact logs_log (told_of_mem rfl hu)
  | mismatch k => exact (logs_log (told_of_mem rfl hu)).bind fun _ => logs_reject _
  | locked => exact (logs_log (told_of_mem rfl hu)).bind fun _ => logs_reject _
  | missing => exact logs_reject _

end Otp

/-! ### Accounts -/

/-- Asking a provider for the profile behind a code logs no names. -/
def OuterProvider.Discreet (p : OuterProvider) : Prop :=
  ∀ code m n, (p.exchangeCode code).Logs (fun e => e.names = []) m n

namespace OuterProvider

theorem logs_address {P : Event → Prop} (url : String) :
    (IdentityProvider.address url).Logs P m n :=
  (logs_pure url).ite (logs_throw _)

theorem logs_fetch {P : Event → Prop} (name : String) (f : Json → Option α) (r : Request) :
    (IdentityProvider.fetch name f r).Logs P m n := by
  refine (Action.logs_fetch r).bind fun response => Logs.ite ?_ (logs_throw _)
  split
  · exact logs_pure _
  · exact logs_throw _

theorem discreet_google (c : GoogleConfig) : (google c).Discreet := fun _ _ _ =>
  (logs_address _).bind fun _ => (logs_fetch _ _ _).bind fun _ =>
    (logs_log (P := fun e => e.names = []) rfl).bind fun _ =>
    (logs_address _).bind fun _ => (logs_fetch _ _ _).bind fun _ => logs_pure _

theorem discreet_facebook (c : FacebookConfig) : (facebook c).Discreet := fun _ _ _ =>
  (logs_address _).bind fun _ => (logs_fetch _ _ _).bind fun _ =>
    (logs_address _).bind fun _ => (logs_fetch _ _ _).bind fun _ => logs_pure _

end OuterProvider

namespace Accounts

variable {a : Accounts}

theorem logs_needUser {P : Event → Prop} (name : Username) : (needUser name).Logs P m n :=
  (logs_query _).bind fun o => logs_orReject _ o

theorem logs_needUserById {P : Event → Prop} (id : Int) : (needUserById id).Logs P m n :=
  (logs_query _).bind fun o => logs_orReject _ o

theorem logs_hashPassword {P : Event → Prop} (password : String) :
    (a.hashPassword password).Logs P m n :=
  Logs.read_bind (logs_ofAnswer _)

theorem logs_needActiveUser {P : Event → Prop} (id : Int) : (needActiveUser id).Logs P m n := by
  refine (logs_needUserById id).bind fun u => ?_
  cases inactive? u with
  | some r => exact logs_reject r
  | none => exact logs_pure u

theorem logs_authenticate {P : Event → Prop} (token : String) :
    (a.authenticate token).Logs P m n :=
  (Tokens.logs_verify token).bind fun _ => (logs_require _ _).bind fun _ => logs_needActiveUser _

theorem logs_authenticateLimited {P : Event → Prop} (token : String) :
    (a.authenticateLimited token).Logs P m n := by
  refine (Tokens.logs_verify token).bind fun c => Logs.ite ?_ ?_
  · exact (logs_needActiveUser _).bind fun _ => logs_pure _
  · exact (logs_needUserById _).bind fun _ => (logs_require _ _).bind fun _ =>
      (logs_require _ _).bind fun _ => logs_pure _

theorem logs_complete (u : User) (extra : UserChanges) :
    (a.complete u extra).Tells ns a.tokens m n :=
  Logs.read_bind <| (logs_change _).bind fun _ => (Tokens.logs_issue _ _ _).bind fun _ =>
    (logs_log (told_of_nil rfl)).bind fun _ => logs_pure _

theorem logs_signInWithPassword {name : Username} (h : name.value ∈ ns) (password : String)
    (roles : Option (List Role)) :
    (a.signInWithPassword name password roles).Tells ns a.tokens m n := by
  rw [signInWithPassword_eq]
  refine (logs_query _).bind fun o => (logs_orReject _ o).bind fun u => Logs.ite ?_ ?_
  · exact (logs_log (told_of_mem rfl h)).bind fun _ => logs_reject _
  · refine (logs_require _ _).bind fun _ => ?_
    cases unverified? name u with
    | some r => exact logs_reject r
    | none => exact logs_complete u {}

theorem logs_findOrRegister {name : Username} (h : name.value ∈ ns) :
    (findOrRegister name).Tells ns t m n := by
  refine (logs_query _).bind fun o => ?_
  cases o with
  | some u => exact (logs_require _ _).bind fun _ => (logs_require _ _).bind fun _ => logs_pure u
  | none =>
    exact (logs_change _).bind fun u => (logs_log (told_of_mem rfl h)).bind fun _ => logs_pure u

theorem logs_signInWithCode {name : Username} (h : name.value ∈ ns) (code : String) :
    (a.signInWithCode name code).Tells ns a.tokens m n :=
  (Otp.logs_verify h code).bind fun _ => (logs_findOrRegister h).bind fun u => logs_complete u _

theorem logs_findOrCreate {P : Event → Prop} (p : SocialProfile) (email : String) :
    (a.findOrCreate p email).Logs P m n := by
  refine (logs_query _).bind fun o => ?_
  cases o with
  | some u => exact logs_pure u
  | none => exact Logs.read_bind <| (logs_hashPassword _).bind fun _ => logs_change _

theorem logs_signInWithProfile (p : SocialProfile) :
    (a.signInWithProfile p).Tells ns a.tokens m n := by
  refine (logs_orReject _ _).bind fun email => (logs_findOrCreate p email).bind fun u => ?_
  refine (logs_require _ _).bind fun _ => (logs_require _ _).bind fun _ => ?_
  cases inReview? u with
  | some r => exact logs_reject r
  | none => exact logs_complete u _

theorem logs_signInWithProvider {p : OuterProvider} (hp : p.Discreet) (h : p.name ∈ ns)
    (code : String) : (a.signInWithProvider p.toIdentityProvider code).Tells ns a.tokens m n :=
  ((hp code m n).mono fun _ => told_of_nil).bind fun profile =>
    (logs_log (told_of_mem rfl h)).bind fun _ => logs_signInWithProfile profile

theorem logs_signOut (actor : User) (target : Option Int) :
    (signOut actor target).Tells ns t m n :=
  (logs_require _ _).bind fun _ => (logs_change _).bind fun _ => (logs_log (told_of_nil rfl)).bind
    fun _ => logs_pure _

theorem logs_changePassword (u : User) (old : Option String) (new : String) (limited : Bool) :
    (a.changePassword u old new limited).Tells ns a.tokens m n := by
  cases limited with
  | true =>
    rw [changePassword_limited]
    exact (logs_hashPassword new).bind fun _ => (logs_complete u _).map some
  | false =>
    rw [changePassword_full]
    refine Logs.bind ((logs_orReject _ old).bind fun _ => logs_require _ _) fun _ => ?_
    refine (logs_hashPassword new).bind fun _ => (logs_change _).bind fun _ => ?_
    exact (logs_log (told_of_nil rfl)).bind fun _ => logs_pure none

end Accounts

/-! ### Operations -/

namespace Operation

/-- The names that are handed in with an operation. -/
def names : Operation → List String
  | signInWithPassword name _ _ | signInWithCode name _ | requestSignInCode name
  | requestResetCode name | verifyCode name _ | verifyResetCode name _ | requestCode name _ _
  | checkCode name _ => [name.value]
  | signInWithProvider provider _ => [provider.name]
  | effective u => u.groups
  | authorize u scope | authorizeStaff u scope =>
    u.groups ++ scope.elim [] fun s => [s.entity, s.rule]
  | createGroup g => [g.name]
  | updateGroup name _ => [name]
  | _ => []

/-- A provider that is asked by an operation logs no names. -/
def Discreet : Operation → Prop
  | signInWithProvider provider _ => provider.Discreet
  | _ => True

/-- What an operation logs is told by its names. -/
theorem logs_perform {a : Accounts} {op : Operation} (hop : op.Discreet) (h : op.names ⊆ ns)
    (ha : a.otp.subjects ⊆ ns) (hn : n.names ⊆ ns) : (op.perform a).Tells ns a.tokens m n := by
  have hscope {u : User} {scope : Option Scope}
      (h : u.groups ++ scope.elim [] (fun s => [s.entity, s.rule]) ⊆ ns) :
      (Permissions.check u scope).Tells ns a.tokens m n := by
    obtain ⟨hgroups, hrule⟩ := List.append_subset.1 h
    refine Permissions.logs_check hgroups fun s hs => ?_
    obtain rfl := Option.mem_def.1 hs
    exact ⟨hrule List.mem_cons_self, hrule (List.mem_cons_of_mem _ List.mem_cons_self)⟩
  unfold perform
  cases op with
  | signInWithPassword name password roles =>
    exact (Accounts.logs_signInWithPassword (h List.mem_cons_self) password roles).map _
  | signInWithCode name code =>
    exact (Accounts.logs_signInWithCode (h List.mem_cons_self) code).map _
  | signInWithProfile p => exact (Accounts.logs_signInWithProfile p).map _
  | signInWithProvider provider code =>
    exact (Accounts.logs_signInWithProvider hop (h List.mem_cons_self) code).map _
  | signOut actor target => exact (Accounts.logs_signOut actor target).map _
  | changePassword u old new limited => exact (Accounts.logs_changePassword u old new limited).map _
  | requestSignInCode name =>
    refine Logs.map ((logs_query _).bind fun u => ?_) _
    exact Otp.logs_request hn ha (h List.mem_cons_self) _ _
  | requestResetCode name =>
    refine Logs.map ((Accounts.logs_needUser name).bind fun u => ?_) _
    exact Otp.logs_request hn ha (h List.mem_cons_self) _ _
  | verifyCode name code =>
    refine Logs.map ((Accounts.logs_needUser name).bind fun u => ?_) _
    exact (Otp.logs_verify (h List.mem_cons_self) code).bind fun _ => Accounts.logs_complete u _
  | verifyResetCode name code =>
    refine Logs.map ((Accounts.logs_needUser name).bind fun u => ?_) _
    exact (Otp.logs_verify (h List.mem_cons_self) code).bind fun _ => Tokens.logs_issueLimited _ _
  | authenticate token => exact (Accounts.logs_authenticate token).map _
  | authenticateLimited token => exact (Accounts.logs_authenticateLimited token).map _
  | effective u => exact (Permissions.logs_effective h).map _
  | authorize u scope => exact (hscope h).map _
  | authorizeStaff u scope => exact Logs.map ((logs_require _ _).bind fun _ => hscope h) _
  | issue user role limited => exact (Tokens.logs_issue user role limited).map _
  | issueLimited user role => exact (Tokens.logs_issueLimited user role).map _
  | verifyToken token => exact (Tokens.logs_verify token).map _
  | refresh token => exact (Tokens.logs_refresh token).map _
  | requestCode name purpose greeted =>
    exact (Otp.logs_request hn ha (h List.mem_cons_self) purpose greeted).map _
  | checkCode name code => exact (Otp.logs_verify (h List.mem_cons_self) code).map _
  | createGroup g => exact (Groups.logs_create (h List.mem_cons_self)).map _
  | updateGroup name u => exact (Groups.logs_update (h List.mem_cons_self) u).map _
  | deleteGroups names => exact (Groups.logs_delete names).map _

end Operation

/-! ### Upkeep -/

/-- A refusal tells of a column with a short name, if of any. -/
def Refusal.Brief : Refusal → Prop
  | duplicate column => column.toList.length < 20
  | _ => True

theorem Refusal.Brief.showsOnly {r : Refusal} (h : r.Brief) : ShowsOnly ns r.message := by
  cases r with
  | readOnly => exact Text.showsOnly_of_plain (by decide +kernel)
  | damaged => exact Text.showsOnly_of_plain (by decide +kernel)
  | duplicate column =>
    refine .behind (by decide +kernel) ?_
    exact .behind (by decide +kernel) (Text.showsOnly_of_short h)

namespace Migration

/-- If something fails, then with a brief refusal. -/
def FailsBriefly (r : Except Refusal Unit × Database) : Prop := ∀ e, r.1 = .error e → e.Brief

theorem failsBriefly_insertAll {ρ : Type} {insert : ρ → Database → Bool × Database}
    {column : String} (hc : column.toList.length < 20) (rows : List ρ) (db : Database) :
    FailsBriefly (insertAll insert column rows db) := by
  induction rows generalizing db with
  | nil => exact nofun
  | cons r rows ih =>
    unfold insertAll
    split
    · exact ih _
    · rintro e ⟨⟩
      exact hc

theorem failsBriefly_up (step : Migration) (db : Database) : FailsBriefly (step.up db) := by
  unfold up
  split
  · rintro e ⟨⟩
    trivial
  · cases step with
    | usersTable => exact nofun
    | groupsTable => exact nofun
    | entitiesTable => exact nofun
    | defaultContents =>
      have hentities : FailsBriefly (insertAll Database.insertEntityRow "entities.code_name"
          Seed.entityRows db) := failsBriefly_insertAll (by decide) _ _
      dsimp only
      split
      · exact failsBriefly_insertAll (by decide) _ _
      · exact hentities

end Migration

open AuthCore.Migration (FailsBriefly failsBriefly_up) in
theorem Database.failsBriefly_applyAll (steps : List Migration) (db : Database) :
    FailsBriefly (applyAll steps db) := by
  induction steps generalizing db with
  | nil => exact nofun
  | cons step steps ih =>
    have hstep := failsBriefly_up step db
    unfold applyAll
    split
    · exact ih _
    · exact hstep

open AuthCore.Migration (FailsBriefly) in
theorem Database.failsBriefly_migrateUp (steps : Option Nat) (db : Database) :
    FailsBriefly (db.migrateUp steps) := by
  have hstart : FailsBriefly db.startRecord := by
    unfold startRecord
    split
    · rintro e ⟨⟩
      trivial
    · split
      · exact nofun
      · split
        · rintro e ⟨⟩
          trivial
        · exact nofun
  unfold migrateUp
  split
  · exact failsBriefly_applyAll _ _
  · exact hstart

namespace Upkeep

theorem logs_onDatabase {P : Event → Prop} (f : Database → Except Refusal α × Database)
    (otherwise : α) : (onDatabase f otherwise).Logs P m n := fun w _ => by
  rw [perform_onDatabase]
  cases w.store <;> exact .silent rfl rfl

theorem logs_migrate : migrate.Tells ns t m n := by
  refine (logs_log (told_of_nil rfl)).bind fun _ => ?_
  refine (logs_onDatabase _ _).bind_of_ok fun w r v hw => ?_
  cases r with
  | ok => exact logs_log (told_of_nil rfl)
  | error r =>
    have hr : r.Brief := by
      rw [perform_onDatabase] at hw
      cases hs : w.store with
      | memory _ =>
        rw [hs] at hw
        cases hw
      | database db =>
        rw [hs] at hw
        exact db.failsBriefly_migrateUp none r (Except.ok.inj (Prod.mk.inj hw).1)
    exact (logs_log (told_of_singleton rfl hr.showsOnly)).bind fun _ => logs_throw _

theorem logs_migrateDown {P : Event → Prop} (steps : Option Nat) :
    (migrateDown steps).Logs P m n := by
  refine (logs_onDatabase _ _).bind fun r => ?_
  cases r with
  | ok => exact logs_pure ()
  | error _ => exact logs_throw _

theorem logs_pending : pending.Tells ns t m n := by
  refine (logs_onDatabase _ _).bind fun r => ?_
  cases r with
  | ok k =>
    dsimp only
    split
    · exact (logs_log (told_of_nil rfl)).bind fun _ => logs_pure k
    · exact logs_pure k
  | error _ => exact logs_throw _

end Upkeep

/-! ### Calls -/

/-- The names that are handed in with a call of a cache: those that it may put into it. -/
def CacheCall.names : CacheCall α → List String
  | set key _ _ | createHash key _ _ => [key]
  | _ => []

theorem CacheCall.logs_act {c : CacheCall α} (h : c.names ⊆ ns) : c.act.Tells ns t m n := by
  have hkey {key : String} (hk : key ∈ ns) (e : Event) : e.IsWrite key → e.Told ns t m :=
    told_of_isWrite (Text.showsOnly_of_mem hk)
  cases c with
  | set key text ttl => exact (logs_cacheSet (hkey (h List.mem_cons_self)) text ttl).map _
  | createHash key fields ttl =>
    exact (logs_cacheCreate (hkey (h List.mem_cons_self)) fields ttl).map _
  | _ => exact logs_cached _

namespace Call

/-- The names that are handed in with a call. -/
def names : Call → List String
  | operation op => op.names
  | cache c => c.names
  | _ => []

/-- A provider that is asked by a call logs no names. -/
def Discreet : Call → Prop
  | operation op => op.Discreet
  | _ => True

/-- What a call logs is told by its names, the subjects of e-mails and the error of an outbox. -/
theorem logs_perform {a : Accounts} {c : Call} (hc : c.Discreet) (h : c.names ⊆ ns)
    (ha : a.otp.subjects ⊆ ns) (hn : n.names ⊆ ns) : (c.perform a).Tells ns a.tokens m n := by
  cases c with
  | operation op => exact (op.logs_perform hc h ha hn).map _
  | cache c => exact (c.logs_act h).map _
  | ping => exact logs_cached _
  | store c => exact (logs_change _).map _
  | validate ps => exact Permissions.logs_validate ps
  | migrate => exact Upkeep.logs_migrate
  | migrateDown steps => exact Upkeep.logs_migrateDown steps
  | countPending => exact Upkeep.logs_pending.map _
  | edit e => exact logs_change _

end Call

end AuthCore
