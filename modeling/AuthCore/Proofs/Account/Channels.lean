import AuthCore.Proofs.Account.Writes

/-!
# Proofs of channels

An address or a phone number becomes a proved one only in a step that shows that it belongs to the
user (`Operation.Vouches`): somebody brings the one-time code of just this address or number, or a
service that has checked the address tells it in a profile. This holds of the user who is updated as
well as of one who is registered, because the user is looked up by the same username that the code
or the profile is about.
-/

namespace AuthCore

/-- An operation gets a profile whose e-mail address the other service has checked. -/
def Operation.Brings (m : Moment) (w : World) (op : Operation) (email : String) : Prop :=
  ∃ p, op.profile? m w = some p ∧ p.emailVerified = true ∧
    SocialProfile.normalEmail p.email = some email

namespace Operation

variable {a : Accounts} {m : Moment} {w : World} {op : Operation} {id : Int} {u : User}
  {n : NewUser} {extra : UserChanges} {s : Store} {r r₀ : UserRow} {name : Username}

/-! ### Who is found -/

theorem Finds.phone (h : op.Finds a m w u extra) (hs : w.store.Sound)
    (hp : extra.phoneVerified = some true) (hr : w.store.row? u.id = some r) :
    ∃ p, r.mobileNumber = some p ∧ op.Proves a m w (.phone p) := by
  have hnumber {p : String} (hfound : w.store.findByUsername (.phone p) none = .ok (some u)) :
      r.mobileNumber = some p := beq_iff_eq.1 (hs.of_findByUsername hfound hr).2
  cases h with
  | password => cases hp
  | @code name code _ hpasses hfound =>
    cases name with
    | email e => cases hp
    | phone p => exact ⟨p, hnumber hfound, code, .inl rfl, hpasses⟩
  | @known name code _ hpasses hfound =>
    cases name with
    | email e => cases hp
    | phone p => exact ⟨p, hnumber hfound, code, .inr rfl, hpasses⟩
  | profile => cases hp
  | reset => cases hp

theorem Finds.email (h : op.Finds a m w u extra) (hs : w.store.Sound)
    (he : extra.emailVerified = some true) (hr : w.store.row? u.id = some r) :
    ∃ e, r.email = some e ∧ (op.Proves a m w (.email e) ∨ op.Brings m w e) := by
  have haddress {e : String} (hfound : w.store.findByUsername (.email e) none = .ok (some u)) :
      r.email = some e := beq_iff_eq.1 (hs.of_findByUsername hfound hr).2
  cases h with
  | password => cases he
  | @code name code _ hpasses hfound =>
    cases name with
    | email e => exact ⟨e, haddress hfound, .inl ⟨code, .inl rfl, hpasses⟩⟩
    | phone p => cases he
  | @known name code _ hpasses hfound =>
    cases name with
    | email e => exact ⟨e, haddress hfound, .inl ⟨code, .inr rfl, hpasses⟩⟩
    | phone p => cases he
  | @profile _ p e _ hbrings hnormal hfound =>
    refine ⟨e, haddress hfound, .inr ⟨p, hbrings, ?_, hnormal⟩⟩
    cases hv : p.emailVerified with
    | true => rfl
    | false => simp [SocialProfile.changes, hv] at he
  | reset => cases he

/-! ### Who is registered -/

theorem Registers.phone (h : op.Registers a m w n extra)
    (hp : extra.phoneVerified.getD n.phoneVerified = true) :
    ∃ p, n.mobileNumber = some p ∧ op.Proves a m w (.phone p) := by
  cases h with
  | @code name code hpasses =>
    cases name with
    | email e => cases hp
    | phone p => exact ⟨p, rfl, code, .inl rfl, hpasses⟩
  | profile => cases hp

theorem Registers.email (h : op.Registers a m w n extra)
    (he : extra.emailVerified.getD n.emailVerified = true) :
    ∃ e, n.email = some e ∧ (op.Proves a m w (.email e) ∨ op.Brings m w e) := by
  cases h with
  | @code name code hpasses =>
    cases name with
    | email e => exact ⟨e, rfl, .inl ⟨code, .inl rfl, hpasses⟩⟩
    | phone p => cases he
  | @profile _ p e _ hbrings hnormal =>
    refine ⟨e, rfl, .inr ⟨p, hbrings, ?_, hnormal⟩⟩
    cases hv : p.emailVerified with
    | true => rfl
    | false => simp [SocialProfile.changes, Accounts.socialCustomer, hv] at he

/-! ### Steps -/

/-- A phone number that is proved after an operation was proved before, or the operation proves
it. -/
theorem Touches.phone (h : op.Touches a m w id s) (hs : w.store.Sound) (hr : s.row? id = some r)
    (hp : r.phoneVerified = true) :
    (∃ r₀, w.store.row? id = some r₀ ∧ r₀.phoneVerified = true) ∨
      ∃ p, r.mobileNumber = some p ∧ op.Proves a m w (.phone p) := by
  cases h with
  | leaves hrow => exact .inl ⟨r, hrow.symm.trans hr, hp⟩
  | @updates c r₀ hwhy hfound hrow =>
    obtain rfl := Option.some.inj (hrow.symm.trans hr)
    cases hwhy with
    | @signIn _ u extra hfinds =>
      have hp' : extra.phoneVerified.getD r₀.phoneVerified = true := hp
      cases hx : extra.phoneVerified with
      | none => exact .inl ⟨r₀, hfound, by simpa [hx] using hp'⟩
      | some b =>
        obtain rfl : b = true := by simpa [hx] using hp'
        exact .inr (hfinds.phone (r := r₀) hs hx hfound)
    | signOut => exact .inl ⟨r₀, hfound, hp⟩
    | changePassword => exact .inl ⟨r₀, hfound, hp⟩
  | @registers n extra _ hwhy hadds hnumber hrow =>
    obtain rfl := Option.some.inj (hrow.symm.trans hr)
    exact .inr (hwhy.phone hp)

/-- An e-mail address that is proved after an operation was proved before, or the operation proves
it, or brings the word of another service. -/
theorem Touches.email (h : op.Touches a m w id s) (hs : w.store.Sound) (hr : s.row? id = some r)
    (he : r.emailVerified = true) :
    (∃ r₀, w.store.row? id = some r₀ ∧ r₀.emailVerified = true) ∨
      ∃ e, r.email = some e ∧ (op.Proves a m w (.email e) ∨ op.Brings m w e) := by
  cases h with
  | leaves hrow => exact .inl ⟨r, hrow.symm.trans hr, he⟩
  | @updates c r₀ hwhy hfound hrow =>
    obtain rfl := Option.some.inj (hrow.symm.trans hr)
    cases hwhy with
    | @signIn _ u extra hfinds =>
      have he' : extra.emailVerified.getD r₀.emailVerified = true := he
      cases hx : extra.emailVerified with
      | none => exact .inl ⟨r₀, hfound, by simpa [hx] using he'⟩
      | some b =>
        obtain rfl : b = true := by simpa [hx] using he'
        exact .inr (hfinds.email (r := r₀) hs hx hfound)
    | signOut => exact .inl ⟨r₀, hfound, he⟩
    | changePassword => exact .inl ⟨r₀, hfound, he⟩
  | @registers n extra _ hwhy hadds hnumber hrow =>
    obtain rfl := Option.some.inj (hrow.symm.trans hr)
    exact .inr (hwhy.email he)

end Operation

namespace Accounts

variable {a : Accounts} {w : World} {id : Int} {r : UserRow}

theorem step_proves_phone (a : Accounts) (s : Step) (hs : w.store.Sound)
    (hr : (a.step s w).2.store.row? id = some r) (hp : r.phoneVerified = true)
    (hbefore : ∀ r₀, w.store.row? id = some r₀ → r₀.phoneVerified = false) :
    ∃ p, r.mobileNumber = some p ∧ s.operation.Proves a s.moment w (.phone p) := by
  obtain ⟨k, hothers, htouches⟩ := s.operation.touches a s.moment hs
  by_cases hk : id = k
  · subst hk
    rcases htouches.phone hs hr hp with ⟨r₀, hr₀, hp₀⟩ | hproves
    · cases hp₀.symm.trans (hbefore r₀ hr₀)
    · exact hproves
  · cases hp.symm.trans (hbefore r ((hothers id hk).symm.trans hr))

theorem step_proves_email (a : Accounts) (s : Step) (hs : w.store.Sound)
    (hr : (a.step s w).2.store.row? id = some r) (he : r.emailVerified = true)
    (hbefore : ∀ r₀, w.store.row? id = some r₀ → r₀.emailVerified = false) :
    ∃ e, r.email = some e ∧
      (s.operation.Proves a s.moment w (.email e) ∨ s.operation.Brings s.moment w e) := by
  obtain ⟨k, hothers, htouches⟩ := s.operation.touches a s.moment hs
  by_cases hk : id = k
  · subst hk
    rcases htouches.email hs hr he with ⟨r₀, hr₀, he₀⟩ | hproves
    · cases he₀.symm.trans (hbefore r₀ hr₀)
    · exact hproves
  · cases he.symm.trans (hbefore r ((hothers id hk).symm.trans hr))

/-- Wherever a run has led that began with a sound store: a step after which the phone number of a
user is proved, and was not before it, had a one-time code accepted for just the number in the row
of that user; a step after which the e-mail address is proved, and was not before it, had a one-time
code accepted for just the address in the row, or got it in a profile as one that the other service
has checked. -/
theorem channel_proved (a : Accounts) (hs : w.store.Sound) (steps : List Step) (s : Step)
    (hr : (a.step s (a.after w steps)).2.store.row? id = some r) :
    (r.phoneVerified = true →
      (∀ r₀, (a.after w steps).store.row? id = some r₀ → r₀.phoneVerified = false) →
      ∃ p, r.mobileNumber = some p ∧
        s.operation.Proves a s.moment (a.after w steps) (.phone p)) ∧
    (r.emailVerified = true →
      (∀ r₀, (a.after w steps).store.row? id = some r₀ → r₀.emailVerified = false) →
      ∃ e, r.email = some e ∧
        (s.operation.Proves a s.moment (a.after w steps) (.email e) ∨
          s.operation.Brings s.moment (a.after w steps) e)) := by
  have hsound := sound_after (a := a) hs steps
  exact ⟨a.step_proves_phone s hsound hr, a.step_proves_email s hsound hr⟩

/-- A known user comes with a profile whose address is spelled in another way. -/
theorem channel_proved_profile :
    let a : Accounts := ⟨⟨⟨"secret", .hs256⟩, 60, 120⟩, {}, 4, 16⟩
    let u : User := (NewUser.customer (.email "a@b")).toUser 1
    let w := Action.worldOf (.memory (.new 1)) (.memory (MemoryStore.empty.insertUser u)) .log
    let p : SocialProfile := ⟨some " A@b", none, none, none, true⟩
    let s : Step := ⟨0, .ofSeed 0, .signInWithProfile p⟩
    ∃ r, (a.step s (a.after w [])).2.store.row? 1 = some r ∧ r.emailVerified = true ∧
      ∃ e, r.email = some e ∧ (s.operation.Proves a s.moment (a.after w []) (.email e) ∨
        s.operation.Brings s.moment (a.after w []) e) := by
  intro a u w p s
  have hsound : w.store.Sound := Store.Sound.empty.insertUser u
  have hentrant : (a.profileEntrant p).perform s.moment w =
      (.ok (u, { emailVerified := some true }), w) := rfl
  have hstore : (a.step s (a.after w [])).2.store = .memory (MemoryStore.empty.insertUser
      ((signInChanges u { emailVerified := some true } s.moment).apply u)) :=
    Operation.store_of_entrant (x := a.profileEntrant p) rfl hentrant rfl
  have hr : (a.step s (a.after w [])).2.store.row? 1 = some (.ofUser
      ((signInChanges u { emailVerified := some true } s.moment).apply u)) := by
    rw [hstore]
    rfl
  refine ⟨_, hr, rfl, (a.channel_proved hsound [] s hr).2 rfl fun r₀ hr₀ => ?_⟩
  obtain rfl : UserRow.ofUser u = r₀ := Option.some.inj hr₀
  rfl

end Accounts

end AuthCore
