import AuthCore.Proofs.Account.Users
import AuthCore.Proofs.Otp.Lifecycle
import AuthCore.Proofs.Store.Sound
import AuthCore.Proofs.Token.Exchange

/-!
# What a failure leaves behind

A refresh token and a one-time code are taken out of the cache before the new refresh token goes in.
In memory the new one then always finds room: the cache holds no more than it may, and the entry
that was taken away has left a place. So no error can come after a credential has been used up.

A sign-in that does not bring such a credential has no place of its own. It fails if the cache is
full, and by then the user has been updated (`Accounts.full_of_admitted`).
-/

namespace AuthCore

open AuthCore.Frame

namespace Accounts

variable {a : Accounts} {m : Moment} {w : World} {c : MemoryCache}

/-! ### With a free place in the cache -/

/-- Somebody who is found and can be updated is signed in if there is room for a refresh token. -/
theorem complete_of_room {u : User} (hf : w.store.findById u.id = .ok (some u))
    (hs : w.store.Serves m.timestamp) (hc : w.cache = .memory c)
    (hr : ∀ key, (c.makeRoom m.now key).hasRoom key = true) (extra : UserChanges) :
    ∃ p, ((a.complete u extra).perform m w).1 = .ok p := by
  have hu := Store.updateUser_of_found hf (hs.takes hf extra)
  rcases hx : w.store.updateUser u.id (signInChanges u extra m) with ⟨r, s⟩
  rw [hx] at hu
  subst hu
  rw [perform_complete_of_ok hx]
  have hi := (a.tokens.issue_of_hasRoom ((signInChanges u extra m).apply u).id
    ((signInChanges u extra m).apply u).role false (w := { w with store := s }) hc (hr _)).1
  rcases hp : (a.tokens.issue ((signInChanges u extra m).apply u).id
    ((signInChanges u extra m).apply u).role false).perform m { w with store := s } with ⟨r, v⟩
  rw [hp] at hi
  subst hi
  exact ⟨_, perform_welcome_of_ok hp⟩

/-- A guess that passes leaves the place of its code free, and nothing else is touched. -/
theorem room_of_verify {name : Username} {guess : String} (hc : w.cache = .memory c)
    (hcw : c.Within) (h : ((Otp.verify a.otp name guess).perform m w).1 = .ok ()) :
    ∃ v, (Otp.verify a.otp name guess).perform m w = (.ok (), v) ∧ v.store = w.store ∧
      ∃ d, v.cache = .memory d ∧ ∀ key, (d.makeRoom m.now key).hasRoom key = true := by
  obtain ⟨⟨e, he⟩, hd⟩ := Otp.live_of_verify hc h
  have hs : ((Otp.verify a.otp name guess).perform m w).2.store = w.store :=
    Otp.keeps_verify (allowsCode_store name) _ _ m w
  exact ⟨_, Prod.ext h rfl, hs, _, hd, MemoryCache.hasRoom_makeRoom_drop hcw he m.now⟩

/-- A welcome fails only for want of room, and leaves the store as it is. -/
theorem error_of_welcome {u : User} (hc : w.cache = .memory c) {e : Error}
    (h : ((a.welcome u).perform m w).1 = .error e) :
    e = .cache (.full c.capacity) ∧ ∃ key, (c.makeRoom m.now key).hasRoom key = false := by
  cases hr : (c.makeRoom m.now (Tokens.key (a.tokens.minted u.id m))).hasRoom
    (Tokens.key (a.tokens.minted u.id m)) with
  | true =>
    have hi := (a.tokens.issue_of_hasRoom u.id u.role false hc hr).1
    rw [perform_welcome_of_ok (Prod.ext hi rfl)] at h
    cases h
  | false =>
    have hi := (a.tokens.issue_of_full u.id u.role false hc hr).1
    rw [perform_welcome_of_error (Prod.ext hi rfl)] at h
    exact ⟨(Except.error.inj h).symm, _, hr⟩

/-- Whoever comes with a one-time code leaves a free place behind. -/
theorem room_of_entrant {op : Operation} {x : Action (User × UserChanges)} {name : Username}
    (hx : op.entrant? a = some x) (hname : op.codeName? = some name) (hc : w.cache = .memory c)
    (hcw : c.Within) {e : User × UserChanges} {v : World} (h : x.perform m w = (.ok e, v)) :
    ∃ d, v.cache = .memory d ∧ ∀ key, (d.makeRoom m.now key).hasRoom key = true := by
  cases op <;> cases hname
  case signInWithCode code =>
    cases hx
    obtain ⟨_, v₁, hv, h₁⟩ := Action.perform_bind_eq_ok.1 h
    obtain ⟨u, v₂, hu, h₂⟩ := Action.perform_bind_eq_ok.1 h₁
    obtain ⟨v', hv', -, d, hd, hroom⟩ := room_of_verify hc hcw (congrArg Prod.fst hv)
    have hkeep := keeps_findOrRegister allowsWrites_cache name m v₁
    rw [hv] at hv'
    obtain ⟨-, rfl⟩ := Prod.mk.inj hv'
    rw [hu] at hkeep
    obtain ⟨-, rfl⟩ := Prod.mk.inj h₂
    exact ⟨d, hkeep.trans hd, hroom⟩
  case verifyCode code =>
    cases hx
    obtain ⟨u, v₁, hu, h₁⟩ := Action.perform_bind_eq_ok.1 h
    obtain ⟨_, v₂, hv, h₂⟩ := Action.perform_bind_eq_ok.1 h₁
    have hkeep := keeps_needUser (F := Frame.cache) name m w
    rw [hu] at hkeep
    obtain ⟨v', hv', -, d, hd, hroom⟩ := room_of_verify (hkeep.trans hc) hcw (congrArg Prod.fst hv)
    rw [hv] at hv'
    obtain ⟨-, rfl⟩ := Prod.mk.inj hv'
    obtain ⟨-, rfl⟩ := Prod.mk.inj h₂
    exact ⟨d, hd, hroom⟩
  all_goals cases hx

/-- A sign-in that fails although the user has been updated brought no one-time code and found the
cache full. -/
theorem full_of_admitted {op : Operation} {id : Int} (hc : w.cache = .memory c) (hcw : c.Within)
    (h : op.admits? a m w = some id) {e : Error} (he : ((op.perform a).perform m w).1 = .error e) :
    (∃ n, e = .cache (.full n)) ∧ op.codeName? = none := by
  cases hx : op.entrant? a with
  | none =>
    rw [Operation.admits?, hx] at h
    cases h
  | some x =>
    rcases Operation.admits_cases hx m w with ⟨hn, -, -⟩ | ⟨u, extra, v, u', s, hxv, -, -, -, hp⟩
    · cases hn.symm.trans h
    · have hmem : (Frame.keys fun _ => False).Keeps x :=
        Operation.keeps_entrant hx allowsWrites_keys fun _ _ => allowsCode_keys not_false
      obtain ⟨d, hd, -, -⟩ := hmem m w c hc hcw
      rw [hxv] at hd
      rw [hp, Action.perform_map] at he
      rcases hr : (a.welcome u').perform m { v with store := s } with ⟨e' | p, v'⟩ <;> rw [hr] at he
      · obtain ⟨rfl, key, hfull⟩ := error_of_welcome (w := { v with store := s }) hd
          (congrArg Prod.fst hr)
        refine ⟨⟨_, (Except.error.inj he).symm⟩, ?_⟩
        cases hname : op.codeName? with
        | none => rfl
        | some name =>
          obtain ⟨d', hd', hroom⟩ := room_of_entrant hx hname hc hcw hxv
          cases hd.symm.trans hd'
          cases (hroom key).symm.trans hfull
      · cases he

/-- With a full cache, who comes is signed in and gets an error. -/
theorem perform_entrant_of_full {op : Operation} {x : Action (User × UserChanges)} {u u' : User}
    {extra : UserChanges} {v : World} {s : Store} (hx : op.entrant? a = some x)
    (hxv : x.perform m w = (.ok (u, extra), v))
    (hu : v.store.updateUser u.id (signInChanges u extra m) = (.ok u', s))
    (hc : v.cache = .memory c)
    (hr : ∀ token, (c.makeRoom m.now (Tokens.key token)).hasRoom (Tokens.key token) = false) :
    ((op.perform a).perform m w).1 = .error (.cache (.full c.capacity)) ∧
      ((op.perform a).perform m w).2.store = s := by
  have hi := (a.tokens.issue_of_full u'.id u'.role false (w := { v with store := s }) hc (hr _)).1
  refine ⟨?_, Operation.store_of_entrant hx hxv hu⟩
  rw [Operation.perform_of_entrant hx, Action.perform_map, Action.perform_bind_ok hxv,
    perform_complete_of_ok hu, perform_welcome_of_error (Prod.ext hi rfl)]
  rfl

/-- Wherever a run has led that began with a memory cache: an operation on users that fails has left
the store as it was, but for a row that a database cannot read back, or it has signed somebody in
without a one-time code and has then found the cache full. -/
theorem store_of_failed (a : Accounts) (hc : w.cache = .memory c) (hcw : c.Within)
    (steps : List Step) (s : Step) (hop : s.operation.writesUsers = true) {e : Error}
    (he : (a.step s (a.after w steps)).1 = .error e) :
    (a.after w steps).store.Spoils (a.step s (a.after w steps)).2.store ∨
      (∃ n, e = .cache (.full n)) ∧ s.operation.codeName? = none ∧
        ∃ id, s.operation.admits? a s.moment (a.after w steps) = some id := by
  obtain ⟨k, hk, hkw⟩ := memory_after (a := a) hc hcw steps
  rw [step] at he ⊢
  cases hx : s.operation.entrant? a with
  | some x =>
    rcases Operation.admits_cases hx s.moment (a.after w steps) with
      ⟨-, -, hspoils⟩ | ⟨u, _, _, _, _, -, -, -, hadmits, -⟩
    · exact .inl hspoils
    · obtain ⟨hfull, hname⟩ := full_of_admitted hk hkw hadmits he
      exact .inr ⟨hfull, hname, u.id, hadmits⟩
  | none =>
    -- what is left are updates without a welcome
    refine .inl ?_
    cases hop' : s.operation <;> rw [hop'] at hx hop he
    case signOut actor target =>
      exact ((updates_signOut actor target).map _).spoils_of_error he
    case changePassword u old new limited =>
      cases limited with
      | true => cases hx
      | false =>
        exact ((updates_changePassword u old new).map _).spoils_of_error he
    case signInWithPassword => cases hx
    case signInWithCode => cases hx
    case signInWithProfile => cases hx
    case signInWithProvider => cases hx
    case verifyCode => cases hx
    all_goals cases hop

/-- Somebody who was signed out guesses at a code, while the only code there is was made for another
number: the users are those of before, and that one still has to sign in again. -/
theorem store_of_failed_guess :
    let a : Accounts := ⟨⟨⟨"secret", .hs256⟩, 60, 120⟩, { testMode := true }, 4, 16⟩
    let d : Draws := ⟨id, id, id, id⟩
    let u : User := (NewUser.customer (.phone "+491234567")).toUser 1
    let w := Action.worldOf (.memory (.new 1)) (.memory (MemoryStore.empty.insertUser u)) .log
    let steps : List Step :=
      [⟨0, d, .signOut u none⟩, ⟨1, d, .requestCode (.phone "+497654321") .verification none⟩]
    let s : Step := ⟨2, d, .signInWithCode (.phone "+491234567") "1"⟩
    (a.step s (a.after w steps)).1 = .error (.auth .otpExpiredOrInvalid) ∧
      (a.after w steps).store.Spoils (a.step s (a.after w steps)).2.store ∧
      (a.step s (a.after w steps)).2.store.findById 1 =
        .ok (some { u with isForceLogin := true }) := by
  intro a d u w steps s
  have he : (a.step s (a.after w steps)).1 = .error (.auth .otpExpiredOrInvalid) := rfl
  have hfailed := a.store_of_failed rfl (MemoryCache.within_new 1) steps s rfl he
  refine ⟨he, hfailed.resolve_right ?_, rfl⟩
  rintro ⟨⟨n, hn⟩, -⟩
  cases hn

/-- A one-time code takes the only place of a cache. Now a user who was signed out comes with a
profile: there is no room for a refresh token, and the answer is an error, but the user need not
sign in again any more. -/
theorem signed_in_by_failure :
    let a : Accounts := ⟨⟨⟨"secret", .hs256⟩, 60, 120⟩, { testMode := true }, 4, 16⟩
    let d : Draws := ⟨id, id, id, id⟩
    let u : User := { (NewUser.customer (.email "a@b")).toUser 1 with isForceLogin := true }
    let w := Action.worldOf (.memory (.new 1)) (.memory (MemoryStore.empty.insertUser u)) .log
    let request : Step := ⟨0, d, .requestCode (.phone "+491234567") .verification none⟩
    let signIn : Step := ⟨1, d, .signInWithProfile ⟨some "a@b", none, none, none, true⟩⟩
    (a.step signIn (a.after w [request])).1 = .error (.cache (.full 1)) ∧
      (a.after w [request]).store.findById 1 = .ok (some u) ∧
      ∃ v, (a.step signIn (a.after w [request])).2.store.findById 1 = .ok (some v) ∧
        v.isForceLogin = false := by
  intro a d u w request signIn
  let k : MemoryCache := (MemoryCache.new 1).put (Otp.key (.phone "+491234567"))
    ⟨.hash (.ofList [(Otp.codeField, "12345"), (Otp.retryField, "0")]),
      some (request.moment.now + seconds (Otp.window a.otp))⟩
  have hk : (a.after w [request]).cache = .memory k := rfl
  have hfull (token : String) :
      (k.makeRoom signIn.moment.now (Tokens.key token)).hasRoom (Tokens.key token) = false := by
    refine (MemoryCache.hasRoom_makeRoom (le_refl 1)).2 ⟨?_, le_refl 1⟩
    exact MemoryCache.live?_put_of_ne (Tokens.key_ne_otpKey _ _) _
  have hentrant : (a.profileEntrant ⟨some "a@b", none, none, none, true⟩).perform signIn.moment
      (a.after w [request]) = (.ok (u, { emailVerified := some true }), a.after w [request]) := rfl
  let v : User := (signInChanges u { emailVerified := some true } signIn.moment).apply u
  have hu : (a.after w [request]).store.updateUser u.id
      (signInChanges u { emailVerified := some true } signIn.moment) =
        (.ok v, .memory (MemoryStore.empty.insertUser v)) := rfl
  have hx : signIn.operation.entrant? a =
      some (a.profileEntrant ⟨some "a@b", none, none, none, true⟩) := rfl
  obtain ⟨hanswer, hstore⟩ := perform_entrant_of_full hx hentrant hu hk hfull
  have hcapacity : k.capacity = 1 := rfl
  rw [hcapacity] at hanswer
  have hfound : (a.step signIn (a.after w [request])).2.store.findById 1 = .ok (some v) := by
    rw [step, hstore]
    rfl
  exact ⟨hanswer, rfl, v, hfound, rfl⟩

end Accounts

end AuthCore
