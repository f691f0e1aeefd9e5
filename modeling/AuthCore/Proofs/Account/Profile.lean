import AuthCore.Proofs.Account.Access
import AuthCore.Proofs.Text.Trim
import AuthCore.Proofs.Username

/-!
# The account of a profile

An e-mail address is brought to one form in three places: where a username is read, where a provider
makes a profile of what it was told, and where somebody signs in with a profile. The forms agree
(`SocialProfile.normalEmail_normalEmail`, `SocialProfile.Provided.profileEmail_eq`), so an address
belongs to the same account whichever way somebody comes: a sign-in with a profile is for the user
who is found by the address as a username, or for one who is created and found by it from then on
(`Accounts.Enters`). A profile without an address is turned away before anybody is looked for.
-/

namespace AuthCore

open AuthCore.Frame

/-! ### One form of an address -/

namespace SocialProfile

/-- An address in its one form stays as it is. -/
@[simp] theorem normalEmail_normalEmail (email : Option String) :
    normalEmail (normalEmail email) = normalEmail email := by
  cases email with
  | none => rfl
  | some e =>
    by_cases hempty : Text.lower (Text.trim e) = ""
    · have hnone : normalEmail (some e) = none := by
        rw [normalEmail, Option.map_some, Option.filter_some, hempty]
        rfl
      rw [hnone]
      rfl
    · have hsome : normalEmail (some e) = some (Text.lower (Text.trim e)) := by
        rw [normalEmail, Option.map_some, Option.filter_some, if_pos (bne_iff_ne.2 hempty)]
      rw [hsome, normalEmail, Option.map_some, Text.trim_lower_trim, Text.lower_lower,
        Option.filter_some, if_pos (bne_iff_ne.2 hempty)]

/-- The profiles that a provider makes of an address as it was told. -/
inductive Provided (raw : Option String) : SocialProfile → Prop
  | google (p : Google.Profile) (told : p.email = raw) : Provided raw p.toSocial
  | facebook (p : Facebook.Profile) (told : p.email = raw) : Provided raw p.toSocial

namespace Provided

variable {raw : Option String} {p : SocialProfile}

/-- A provider brings an address to its one form. -/
theorem email_eq (h : Provided raw p) : p.email = normalEmail raw := by
  cases h with
  | google p told => exact congrArg normalEmail told
  | facebook p told => exact congrArg normalEmail told

/-- The sign-in takes the address as the provider has left it. -/
theorem profileEmail_eq (h : Provided raw p) : Accounts.profileEmail p = normalEmail raw := by
  rw [Accounts.profileEmail_eq, h.email_eq, normalEmail_normalEmail]

end Provided

end SocialProfile

/-! ### Users found by a username -/

namespace Store

variable {s s' : Store} {n : NewUser} {name : Username} {u u' : User} {c : UserChanges}
  {roles : Option (List Role)}

/-- Whoever is found by a username is found by it after an update, too. -/
theorem Sound.findByUsername_of_updateUser (hs : s.Sound)
    (hf : s.findByUsername name roles = .ok (some u)) (h : s.updateUser u.id c = (.ok u', s')) :
    s'.findByUsername name roles = .ok (some u') := by
  cases s with
  | memory m =>
    have hfound := Except.ok.inj hf
    have hget : m.users.get? u.id = some u := Except.ok.inj (hs.findById_of_findByUsername hf)
    simp only [Store.updateUser, ofMemory, MemoryStore.updateUser, hget] at h
    cases h
    -- users stand under their numbers, so the entry that is put is the one that was replaced
    have hput : m.users.insert u.id (c.apply u) =
        m.users.mapValues fun _ v => if v.id == (c.apply u).id then c.apply u else v := by
      refine OrderedMap.ext_get? fun k => ?_
      rw [OrderedMap.get?_insert, OrderedMap.get?_mapValues]
      split
      next hk =>
        rw [hk, hget, Option.map_some]
        exact congrArg some (if_pos (beq_self_eq_true u.id)).symm
      next hk =>
        cases hv : m.users.get? k with
        | none => rfl
        | some v =>
          have hne : ¬(v.id == (c.apply u).id) = true := fun he =>
            hk ((hs k v hv).1.symm.trans (beq_iff_eq.1 he))
          rw [Option.map_some, if_neg hne]
    refine congrArg Except.ok ?_
    rw [MemoryStore.findByUsername, hput, OrderedMap.values_mapValues]
    refine Rows.find?_replaced_of_test hfound rfl (fun v hv hid => ?_) ?_
    · obtain ⟨k, hk⟩ := OrderedMap.mem_values_iff.1 hv
      rw [← (hs k v hk).1, hid] at hk
      exact Option.some.inj (hk.symm.trans hget)
    · have htest := List.find?_some hfound
      cases name <;> exact htest
  | database db =>
    obtain ⟨t, r, ht, hr, hu⟩ := Database.findUser_eq_ok_some.1 hf
    have hmem := List.mem_of_find?_eq_some hr
    rcases db.updateUser_cases u.id c with ⟨e, hx, -⟩ | ⟨t', r', ht', hr', hx⟩
    · rw [Store.updateUser, hx] at h
      cases h
    · obtain rfl := Option.some.inj (ht.symm.trans ht')
      have hone {q : UserRow} (hq : q ∈ t.rows) (hid : q.id = r.id) : q = r :=
        List.inj_on_of_nodup_map (hs t ht).1 hq hmem hid
      obtain rfl := hone (List.mem_of_find?_eq_some hr')
        ((UserTable.id_of_find? hr').trans hu.id_eq)
      rw [Store.updateUser, hx] at h
      obtain ⟨hu', rfl⟩ := Prod.mk.inj h
      refine Database.findUser_eq_ok_some.2 ⟨_, r'.update c, rfl, ?_,
        UserRow.holds_of_toUser hu'⟩
      refine Rows.find?_replaced_of_test hr rfl (fun q hq hid => hone hq hid) ?_
      have htest := List.find?_some hr
      cases name <;> exact htest

end Store

/-! ### Signing in with a profile -/

namespace Accounts

variable {a : Accounts} {m : Moment} {w v : World} {p : SocialProfile} {email : String} {u : User}
  {r : Answer TokenPair × World} {q : TokenPair}

/-- The rest of a sign-in with a profile, once it is known who comes. -/
def enter (a : Accounts) (p : SocialProfile) (u : User) : Action TokenPair := do
  let e ← profileUser p u
  a.complete e.1 e.2

/-- What a sign-in with a profile comes to, by whether its address belongs to somebody. If nobody
has it, a user is created who has it. Whoever has it is admitted. -/
inductive Enters (a : Accounts) (m : Moment) (w : World) (p : SocialProfile) (email : String) :
    Answer TokenPair × World → Prop
  /-- Nobody can be looked up. -/
  | fault {e : Error} (fails : w.store.findByUsername (.email email) none = .error e) :
      Enters a m w p email (.error e, w)
  /-- Somebody has the address. -/
  | found {u : User} (finds : w.store.findByUsername (.email email) none = .ok (some u)) :
      Enters a m w p email ((a.enter p u).perform m w)
  /-- Nobody has the address, and no password can be made up. -/
  | unhashed {e : Error} (absent : w.store.findByUsername (.email email) none = .ok none)
      (cost : Password.costAllowed a.hashCost = false) : Enters a m w p email (.error e, w)
  /-- Nobody has the address, and the store takes no new user. -/
  | refused {hash : String} {e : Error}
      (absent : w.store.findByUsername (.email email) none = .ok none)
      (refuses : w.store.createUser (socialCustomer p email hash) = (.error e, w.store)) :
      Enters a m w p email (.error e, w)
  /-- Nobody had the address, and the new user has it. -/
  | created {hash : String} {u : User} {s : Store}
      (absent : w.store.findByUsername (.email email) none = .ok none)
      (creates : w.store.createUser (socialCustomer p email hash) = (.ok u, s))
      (finds : s.findByUsername (.email email) none = .ok (some u)) :
      Enters a m w p email ((a.enter p u).perform m { w with store := s })

/-- Whoever is admitted by an address has it afterwards, and the tokens are for just this user. -/
theorem pair_of_enter (hs : w.store.Sound)
    (hf : w.store.findByUsername (.email email) none = .ok (some u))
    (h : (a.enter p u).perform m w = (.ok q, v)) :
    ∃ u', v.store.findByUsername (.email email) none = .ok (some u') ∧
      q = a.tokens.pair u'.id u'.role false m := by
  obtain ⟨⟨u₀, extra⟩, v₀, hu, h₁⟩ := Action.perform_bind_eq_ok.1 h
  obtain ⟨rfl, -, rfl, -⟩ := profileUser_inversion hu
  cases hx : v₀.store.updateUser u.id (signInChanges u extra m) with
  | mk r s =>
    cases r with
    | error e =>
      rw [perform_complete_of_error hx] at h₁
      cases h₁
    | ok u' =>
      rw [perform_complete_of_ok hx] at h₁
      have hstore : v.store = s := by
        have hkeep := keeps_welcome (a := a) allowsTokens_store u' m { v₀ with store := s }
        rw [h₁] at hkeep
        exact hkeep
      refine ⟨u', ?_, eq_pair_of_welcome h₁⟩
      rw [hstore]
      exact hs.findByUsername_of_updateUser hf hx

theorem Enters.pair (h : a.Enters m w p email r) (hs : w.store.Sound) (hp : r.1 = .ok q) :
    ∃ u, r.2.store.findByUsername (.email email) none = .ok (some u) ∧
      q = a.tokens.pair u.id u.role false m := by
  cases h with
  | fault => cases hp
  | found finds => exact pair_of_enter hs finds (Prod.ext hp rfl)
  | unhashed => cases hp
  | refused => cases hp
  | @created hash u s _ creates finds =>
    have hsound : s.Sound := by
      have hkeep := hs.createUser (socialCustomer p email hash)
      rwa [creates] at hkeep
    exact pair_of_enter (w := { w with store := s }) hsound finds (Prod.ext hp rfl)

end Accounts

end AuthCore
