import AuthCore.Proofs.Secret.Operations

/-!
# The log keeps secrets

Two sessions over a memory cache make the same steps at the same times, with the same nonces, but
with other passwords, one-time codes and hashes, and they draw other codes, salts and passwords. As
long as what is handed over is right in both sessions or in none, they log the same
(`Accounts.log_blind_to_secrets`).

## The model

* `Call.Akin`, `SessionStep.Akin`: two calls or steps differ in secrets only.
* `Call.verdict`: what a call finds out about the secrets that it is given.
* `Accounts.Alongside`: the steps of two sessions differ in secrets only, with the same verdicts.
-/

namespace AuthCore

open AuthCore.Action

variable {α : Type} {m m' : Moment} {w w' : World}

/-! ### Calls of the cache -/

namespace CacheCall

/-- Two calls are the same but for one-time codes that are put into the cache or compared with what
is there. -/
inductive Akin : CacheCall α → CacheCall α → Prop
  | same (c : CacheCall α) : Akin c c
  | createHash (key : String) {fields fields' : List (String × String)}
      (h : fields.map (fun f => (f.1, CacheValue.veilField f.1 f.2)) =
        fields'.map fun f => (f.1, CacheValue.veilField f.1 f.2)) (ttl : Nat) :
      Akin (.createHash key fields ttl) (.createHash key fields' ttl)
  | check (key guess guess' counter : String) (limit : Int) :
      Akin (.check key Otp.codeField guess counter limit)
        (.check key Otp.codeField guess' counter limit)

/-- What a call finds out about a one-time code: whether a guess at it is right, and, should wrong
guesses be counted in the code itself, whether they are too many. -/
def verdict (now : Nat) (c : Cache) : CacheCall α → Bool × Bool
  | check key field guess counter limit =>
    (field == Otp.codeField && c.holds now key field guess,
      counter == Otp.codeField && c.locks now key counter limit)
  | _ => (false, false)

/-- Two checks with the same verdict. -/
theorem akin_check (hm : m.Akin m') (hw : w.Akin w') {key field guess guess' counter : String}
    {limit : Int} (hguess : field ≠ Otp.codeField → guess = guess')
    (hv : (check key field guess counter limit : CacheCall α).verdict m.now w.cache =
      (check key field guess' counter limit : CacheCall α).verdict m'.now w'.cache) :
    (((check key field guess counter limit : CacheCall α).act).perform m w).2.Akin
      (((check key field guess' counter limit : CacheCall α).act).perform m' w').2 := by
  refine akin_cached hm hw fun c d hc hd hcd => ?_
  obtain ⟨hholds, hlocks⟩ := Prod.mk.inj hv
  rw [hc, hd, ← hm.now] at hholds hlocks
  refine ⟨_, _, rfl, rfl, (MemoryCache.check_akin hcd hguess (fun hf => ?_) fun hn => ?_).2⟩
  · subst hf
    simpa [Cache.holds] using hholds
  · subst hn
    simpa [Cache.locks] using hlocks

/-- Two calls of a memory cache that differ in secrets only, and have the same verdict, leave caches
that differ in secrets only, and log the same. -/
theorem akin_act (hm : m.Akin m') (hw : w.Akin w') {c c' : CacheCall α} (h : c.Akin c')
    (hv : c.verdict m.now w.cache = c'.verdict m'.now w'.cache) :
    (c.act.perform m w).2.Akin (c'.act.perform m' w').2 := by
  cases h with
  | createHash key h ttl =>
    exact ((akin_cacheCreate hm key h ttl).map (S := fun _ _ => True) fun _ _ _ => trivial)
      w w' hw |>.world
  | check key guess guess' counter limit =>
    exact akin_check hm hw (fun hf => absurd rfl hf) hv
  | same =>
    cases c with
    | set key text ttl =>
      exact ((akin_cacheSet hm key text ttl).map (S := fun _ _ => True) fun _ _ _ => trivial)
        w w' hw |>.world
    | createHash key fields ttl =>
      exact ((akin_cacheCreate hm key rfl ttl).map (S := fun _ _ => True) fun _ _ _ => trivial)
        w w' hw |>.world
    | get key reader =>
      refine akin_cached hm hw fun c d _ _ hcd => ⟨_, _, rfl, rfl, ?_⟩
      exact (MemoryCache.akin_of_veil hcd (c.get_veil m.now key) (d.get_veil m.now key)).2
    | delete key =>
      refine akin_cached hm hw fun c d _ _ hcd => ⟨_, _, rfl, rfl, ?_⟩
      exact (MemoryCache.akin_of_veil hcd (c.delete_veil m.now key) (d.delete_veil m.now key)).2
    | contains key => exact akin_cached hm hw fun c d _ _ hcd => ⟨c, d, rfl, rfl, hcd⟩
    | expire key ttl =>
      refine akin_cached hm hw fun c d _ _ hcd => ⟨_, _, rfl, rfl, ?_⟩
      exact (MemoryCache.akin_of_veil hcd (c.expire_veil m.now key ttl)
        (d.expire_veil m.now key ttl)).2
    | getHash key =>
      refine akin_cached hm hw fun c d _ _ hcd => ⟨_, _, rfl, rfl, ?_⟩
      show (c.getHash m.now key).2.veil = (d.getHash m.now key).2.veil
      rw [← c.getHash_veil, ← d.getHash_veil, hcd]
    | increment key field delta =>
      exact akin_cached hm hw fun c d _ _ hcd =>
        ⟨_, _, rfl, rfl, MemoryCache.increment_akin hcd delta⟩
    | check key field guess counter limit => exact akin_check hm hw (fun _ => rfl) hv
    | compareAndDelete key text =>
      refine akin_cached hm hw fun c d _ _ hcd => ⟨_, _, rfl, rfl, ?_⟩
      exact (MemoryCache.akin_of_veil hcd (c.compareAndDelete_veil m.now key text)
        (d.compareAndDelete_veil m.now key text)).2

end CacheCall

/-! ### Upkeep -/

namespace Upkeep

theorem akin_onDatabase {f : Database → Except Refusal α × Database} (hf : Database.Blind f)
    (otherwise : α) : (onDatabase f otherwise).Akin Eq m m' (onDatabase f otherwise) := by
  intro w w' hw
  have hstore := hw.store
  rw [perform_onDatabase, perform_onDatabase]
  cases hs : w.store <;> cases hs' : w'.store <;> rw [hs, hs'] at hstore
  case memory.memory => exact ⟨rfl, hw⟩
  case database.database db db' =>
    obtain ⟨hanswer, hveil⟩ := Prod.mk.inj
      ((hf db).symm.trans ((congrArg f (Store.database.inj hstore)).trans (hf db')))
    have hstore' : (Store.database (f db).2).veil = (Store.database (f db').2).veil :=
      congrArg Store.database hveil
    exact ⟨hanswer, hw.of_store hstore'⟩
  all_goals cases hstore

theorem akin_migrate : migrate.Akin Eq m m' migrate := by
  refine (akin_log _).bind_same fun _ => ?_
  refine (akin_onDatabase (Database.blind_migrateUp none) _).bind_same fun r => ?_
  cases r with
  | ok => exact akin_log _
  | error r => exact (akin_log _).bind_same fun _ => akin_throw _

theorem akin_migrateDown (steps : Option Nat) :
    (migrateDown steps).Akin Eq m m' (migrateDown steps) := by
  refine (akin_onDatabase (Database.blind_migrateDown steps) _).bind_same fun r => ?_
  cases r with
  | ok => exact akin_pure rfl
  | error r => exact akin_throw _

theorem akin_pending : pending.Akin Eq m m' pending := by
  refine (akin_onDatabase Database.blind_pendingCount _).bind_same fun r => ?_
  cases r with
  | ok k =>
    dsimp only
    split
    · exact (akin_log _).bind_same fun _ => akin_pure rfl
    · exact akin_pure rfl
  | error r => exact akin_throw _

end Upkeep

/-! ### Calls -/

namespace Call

/-- Two calls are the same but for secrets. -/
inductive Akin : Call → Call → Prop
  | operation {op op' : Operation} (h : op.Akin op') : Akin (.operation op) (.operation op')
  | cache {c c' : CacheCall Json} (h : c.Akin c') : Akin (.cache c) (.cache c')
  | ping : Akin .ping .ping
  | store {c c' : StoreCall} (h : c.veil = c'.veil) : Akin (.store c) (.store c')
  | validate (ps : List Permission) : Akin (.validate ps) (.validate ps)
  | migrate : Akin .migrate .migrate
  | migrateDown (steps : Option Nat) : Akin (.migrateDown steps) (.migrateDown steps)
  | countPending : Akin .countPending .countPending
  | edit {e e' : StoreEdit} (h : e.veil = e'.veil) : Akin (.edit e) (.edit e')

/-- What a call finds out about the secrets that it is given. -/
def verdict (m : Moment) (w : World) : Call → Bool × Bool
  | operation op => (op.verdict m w, false)
  | cache c => c.verdict m.now w.cache
  | _ => (false, false)

/-- A provider that is asked by a call does not look at secrets. -/
def Blind : Call → Prop
  | operation op => op.Blind
  | _ => True

/-- Two calls that differ in secrets only, and have the same verdict, leave worlds that differ in
secrets only. -/
theorem akin_perform {a : Accounts} {c c' : Call} (h : c.Akin c') (hb : c.Blind)
    (hm : m.Akin m') (hw : w.Akin w') (hv : c.verdict m w = c'.verdict m' w') :
    ((c.perform a).perform m w).2.Akin ((c'.perform a).perform m' w').2 := by
  cases h with
  | operation h =>
    simp only [perform, perform_map]
    exact (Operation.parallel_perform h hb hm hw (Prod.mk.inj hv).1).world
  | cache h =>
    simp only [perform, perform_map]
    exact CacheCall.akin_act hm hw h hv
  | ping => exact akin_cached hm hw fun c d _ _ hcd => ⟨c, d, rfl, rfl, hcd⟩
  | @store c c' h =>
    simp only [perform, perform_map, perform_change]
    have hveil := (c.perform_veil w.store).symm.trans
      ((congr (congrArg (fun s c => StoreCall.perform s c) hw.store) h).trans
        (c'.perform_veil w'.store))
    exact hw.of_store (Prod.mk.inj hveil).2
  | validate ps => exact (Permissions.akin_validate ps w w' hw).world
  | migrate => exact (Upkeep.akin_migrate w w' hw).world
  | migrateDown steps => exact (Upkeep.akin_migrateDown steps w w' hw).world
  | countPending =>
    simp only [perform, perform_map]
    exact (Upkeep.akin_pending w w' hw).world
  | @edit e e' h =>
    simp only [perform, perform_change]
    have hveil := (StoreEdit.perform_veil w.store e).symm.trans
      ((congr (congrArg (fun s e => StoreEdit.perform s e) hw.store) h).trans
        (StoreEdit.perform_veil w'.store e'))
    exact hw.of_store hveil

end Call

/-! ### Sessions -/

/-- All one-time codes of a number of digits have the same size. -/
theorem Draws.utf8ByteSize_code (d : Draws) (now n : Nat) :
    ((d.moment now).code n).utf8ByteSize = n := by
  have hdigit : ∀ i, (codeDigits.getD i 'A').utf8Size = 1 := by
    intro i
    rw [List.getD_eq_getElem?_getD]
    cases hc : codeDigits[i]? with
    | none => rfl
    | some c =>
      have hdigits : codeDigits.all (·.utf8Size == 1) = true := by decide
      exact beq_iff_eq.1 (List.all_eq_true.1 hdigits c (List.mem_of_getElem? hc))
  have hall : ∀ c ∈ (List.range n).map fun k => codeDigits.getD (d.code k % codeDigits.length) 'A',
      c.utf8Size = 1 := List.forall_mem_map.2 fun _ _ => hdigit _
  have hsize := Text.utf8ByteSize_of_forall hall
  rwa [List.length_map, List.length_range] at hsize

/-- Two steps differ in secrets only. -/
structure SessionStep.Akin (s s' : SessionStep) : Prop where
  now : s.now = s'.now
  nonce : s.draws.nonce = s'.draws.nonce
  call : s.call.Akin s'.call

theorem SessionStep.Akin.moment {s s' : SessionStep} (h : s.Akin s') :
    s.moment.Akin s'.moment where
  now := h.now
  nonce := congrArg (Draws.text Draws.alphanumeric · RefreshToken.nonceLength) h.nonce
  code n := (s.draws.utf8ByteSize_code s.now n).trans (s'.draws.utf8ByteSize_code s'.now n).symm

namespace Accounts

variable {a : Accounts} {steps steps' : List SessionStep}

/-- Two sessions make steps that differ in secrets only, and whatever is handed over is right in
both or in none. -/
inductive Alongside (a : Accounts) : World → World → List SessionStep → List SessionStep → Prop
  | nil (w w' : World) : Alongside a w w' [] []
  | cons {w w' : World} {s s' : SessionStep} {steps steps' : List SessionStep} (h : s.Akin s')
      (hv : s.call.verdict s.moment w = s'.call.verdict s'.moment w')
      (hrest : Alongside a (a.turn s w) (a.turn s' w') steps steps') :
      Alongside a w w' (s :: steps) (s' :: steps')

theorem akin_turn {s s' : SessionStep} (h : s.Akin s') (hb : s.call.Blind) (hw : w.Akin w')
    (hv : s.call.verdict s.moment w = s'.call.verdict s'.moment w') :
    (a.turn s w).Akin (a.turn s' w') := by
  obtain ⟨c, d, hc, hd, -⟩ := hw.cache
  rw [turn, turn, World.serve_of_memory hc, World.serve_of_memory hd]
  exact Call.akin_perform h.call hb h.moment hw hv

/-- Sessions alongside each other stay in worlds that differ in secrets only. -/
theorem akin_afterSession (h : a.Alongside w w' steps steps') (hb : ∀ s ∈ steps, s.call.Blind)
    (hw : w.Akin w') : (a.afterSession w steps).Akin (a.afterSession w' steps') := by
  induction h with
  | nil => exact hw
  | cons h hv _ ih =>
    obtain ⟨hbs, hb⟩ := List.forall_mem_cons.1 hb
    exact ih hb (akin_turn h hbs hw hv)

/-- Over a memory cache, with any store and any way of delivering messages: two sessions that differ
in secrets only log the same events, as long as each password and each one-time code that is handed
over is right in both or in none. -/
theorem log_blind_to_secrets (a : Accounts) (hw : w.Akin w')
    (hb : ∀ s ∈ steps, s.call.Blind) (h : a.Alongside w w' steps steps') :
    (a.afterSession w steps).log = (a.afterSession w' steps').log :=
  (akin_afterSession h hb hw).log

/-- A user asks for a one-time code, tries a wrong password and comes with the code. The hashes of
the password, the passwords and the codes are others in the other session. -/
theorem log_blind_to_secrets_code :
    let a : Accounts := ⟨⟨⟨"secret", .hs256⟩, 60, 120⟩, {}, 4, 16⟩
    let name : Username := .phone "+491234567"
    let u (hash : String) : User :=
      { (NewUser.customer name).toUser 1 with hashedPassword := some hash }
    let w (hash : String) :=
      Action.worldOf (.memory (.new 2)) (.memory (MemoryStore.empty.insertUser (u hash))) .log
    let steps (digit : Nat) (password code : String) : List SessionStep :=
      [⟨0, ⟨id, fun _ => digit, id, id⟩, [], .operation (.requestSignInCode name)⟩,
       ⟨1, ⟨id, id, id, id⟩, [], .operation (.signInWithPassword name password none)⟩,
       ⟨2, ⟨id, id, id, id⟩, [], .operation (.signInWithCode name code)⟩]
    (w "x").Akin (w "y") ∧ (∀ s ∈ steps 0 "p" "11111", s.call.Blind) ∧
      a.Alongside (w "x") (w "y") (steps 0 "p" "11111") (steps 1 "q" "22222") ∧
      (a.afterSession (w "x") (steps 0 "p" "11111")).log =
        (a.afterSession (w "y") (steps 1 "q" "22222")).log := by
  intro a name u w steps
  have hw : (w "x").Akin (w "y") := ⟨⟨_, _, rfl, rfl, rfl⟩, rfl, rfl, rfl, rfl⟩
  have hb : ∀ s ∈ steps 0 "p" "11111", s.call.Blind :=
    List.forall_mem_cons.2 ⟨trivial, List.forall_mem_cons.2 ⟨trivial,
      List.forall_mem_singleton.2 trivial⟩⟩
  have h : a.Alongside (w "x") (w "y") (steps 0 "p" "11111") (steps 1 "q" "22222") := by
    refine .cons ⟨rfl, rfl, .operation (.same _ rfl)⟩ rfl ?_
    refine .cons ⟨rfl, rfl, .operation (.signInWithPassword _ _ _ _)⟩ (by decide +kernel) ?_
    exact .cons ⟨rfl, rfl, .operation (.signInWithCode _ _ _)⟩ (by decide +kernel) (.nil _ _)
  exact ⟨hw, hb, h, a.log_blind_to_secrets hw hb h⟩

end Accounts

end AuthCore
