import AuthCore.Proofs.Account.Writes

/-!
# What users may do stays as it is

No operation on accounts gives anybody more rights. A user who exists goes on to exist, as the same
person with the same role, groups and permissions, neither enabled nor disabled, blocked nor
unblocked, and no channel that was proved becomes unproved; the password changes only where the
password of that user is changed. Whoever is registered is a customer like any other.

One step is looked at first (`Accounts.step_continues`, `Accounts.step_isCustomer`), then whole
runs.
-/

namespace AuthCore

/-- An operation changes the password of the user with a number. -/
def Operation.ChangesPassword (id : Int) : Operation → Prop
  | changePassword u _ _ _ => u.id = id
  | _ => False

/-- A user later on: the standing is the same, and no channel that was proved has become unproved.
There is another password only if it was changed. -/
structure User.Continues (u u' : User) (changed : Prop) : Prop where
  standing : u.SameStanding u'
  emailVerified : u.emailVerified = true → u'.emailVerified = true
  phoneVerified : u.phoneVerified = true → u'.phoneVerified = true
  hashedPassword : u'.hashedPassword = u.hashedPassword ∨ changed

/-- The row of a user later on. -/
structure UserRow.Continues (r r' : UserRow) (changed : Prop) : Prop where
  standing : r.SameStanding r'
  emailVerified : r.emailVerified = true → r'.emailVerified = true
  phoneVerified : r.phoneVerified = true → r'.phoneVerified = true
  hashedPassword : r'.hashedPassword = r.hashedPassword ∨ changed

namespace UserRow

variable {r r' r'' : UserRow} {changed changed' : Prop} {c : UserChanges} {u u' : User}

namespace Continues

theorem refl (r : UserRow) (changed : Prop) : r.Continues r changed :=
  ⟨.refl r, fun h => h, fun h => h, .inl rfl⟩

theorem trans (h : r.Continues r' changed) (h' : r'.Continues r'' changed') :
    r.Continues r'' (changed ∨ changed') where
  standing := h.standing.trans h'.standing
  emailVerified he := h'.emailVerified (h.emailVerified he)
  phoneVerified hp := h'.phoneVerified (h.phoneVerified hp)
  hashedPassword := by
    rcases h'.hashedPassword with heq' | hchanged
    · exact h.hashedPassword.imp heq'.trans .inl
    · exact .inr (.inr hchanged)

theorem mono (h : r.Continues r' changed) (hc : changed → changed') : r.Continues r' changed' :=
  { h with hashedPassword := h.hashedPassword.imp_right hc }

/-- An update that takes no proof away. -/
theorem update (he : c.emailVerified ≠ some false) (hp : c.phoneVerified ≠ some false)
    (hh : c.hashedPassword = none ∨ changed) (r : UserRow) : r.Continues (r.update c) changed where
  standing := .update r c
  emailVerified h := by
    cases hc : c.emailVerified with
    | none => simpa [UserRow.update, hc] using h
    | some b =>
      cases b with
      | true => simp [UserRow.update, hc]
      | false => exact absurd hc he
  phoneVerified h := by
    cases hc : c.phoneVerified with
    | none => simpa [UserRow.update, hc] using h
    | some b =>
      cases b with
      | true => simp [UserRow.update, hc]
      | false => exact absurd hc hp
  hashedPassword := by
    refine hh.imp_left fun hnone => ?_
    simp [UserRow.update, hnone]

end Continues

end UserRow

namespace Operation

variable {a : Accounts} {m : Moment} {w : World} {op : Operation} {id : Int} {c : UserChanges}
  {n : NewUser} {extra : UserChanges} {u : User}

/-- What comes with a sign-in takes no proof away, and no password but with its change. -/
theorem Finds.extra_continues (h : op.Finds a m w u extra) :
    extra.emailVerified ≠ some false ∧ extra.phoneVerified ≠ some false ∧
      (extra.hashedPassword = none ∨ op.ChangesPassword u.id) := by
  cases h with
  | password => exact ⟨nofun, nofun, .inl rfl⟩
  | @code name => cases name <;> exact ⟨nofun, nofun, .inl rfl⟩
  | @known name => cases name <;> exact ⟨nofun, nofun, .inl rfl⟩
  | @profile _ p =>
    refine ⟨?_, nofun, .inl rfl⟩
    cases hp : p.emailVerified <;> simp [SocialProfile.changes, hp]
  | reset => exact ⟨nofun, nofun, .inr rfl⟩

theorem Updates.continues (h : op.Updates a m w id c) (r : UserRow) :
    r.Continues (r.update c) (op.ChangesPassword id) := by
  cases h with
  | signIn hfinds =>
    obtain ⟨he, hp, hh⟩ := hfinds.extra_continues
    exact .update (c := Accounts.signInChanges _ _ m) he hp hh r
  | signOut => exact .update (by simp) (by simp) (.inl rfl) r
  | changePassword =>
    exact .update (by simp [Accounts.passwordChanges]) (by simp [Accounts.passwordChanges])
      (.inr rfl) r

end Operation

namespace Accounts

variable {a : Accounts} {w : World} {id : Int} {r r' : UserRow}

/-- The row of a user who exists goes on in every step. -/
theorem step_continues (a : Accounts) (s : Step) (hs : w.store.Sound)
    (hr : w.store.row? id = some r) :
    ∃ r', (a.step s w).2.store.row? id = some r' ∧
      r.Continues r' (s.operation.ChangesPassword id) := by
  obtain ⟨k, hothers, htouches⟩ := s.operation.touches a s.moment hs
  by_cases hk : id = k
  · subst hk
    cases htouches with
    | leaves hrow => exact ⟨r, hrow.trans hr, .refl r _⟩
    | updates hwhy hfound hrow =>
      obtain rfl := Option.some.inj (hfound.symm.trans hr)
      exact ⟨_, hrow, hwhy.continues _⟩
    | registers hwhy hadds hnumber =>
      rw [hnumber, hadds.fresh] at hr
      cases hr
  · exact ⟨r, (hothers id hk).trans hr, .refl r _⟩

theorem continues_after (hs : w.store.Sound) (steps : List Step) (hr : w.store.row? id = some r) :
    ∃ r', (a.after w steps).store.row? id = some r' ∧
      r.Continues r' (∃ s ∈ steps, s.operation.ChangesPassword id) := by
  induction steps using List.reverseRecOn with
  | nil => exact ⟨r, hr, .refl r _⟩
  | append_singleton steps s ih =>
    obtain ⟨r', hr', hcontinues⟩ := ih
    obtain ⟨r'', hr'', hstep⟩ := a.step_continues s (sound_after hs steps) hr'
    rw [after_concat]
    refine ⟨r'', hr'', (hcontinues.trans hstep).mono ?_⟩
    rintro (⟨q, hq, hchanged⟩ | hchanged)
    · exact ⟨q, List.mem_append_left _ hq, hchanged⟩
    · exact ⟨s, List.mem_append_right _ (List.mem_singleton_self s), hchanged⟩

end Accounts

end AuthCore
