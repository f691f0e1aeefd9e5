import AuthCore.Files.Tree
import AuthCore.Proofs.OrderedMap

/-!
# Trees that grow

Directories and files are made at places where nothing is. A tree has grown from another one
(`FileTree.Grown`) if everything in that one is still where it was; a path that led to something
leads there still. A path that leads to a free place leads to whatever is put there.
-/

namespace AuthCore.FileTree

variable {New : Place → FileNode → Prop} {t u v : FileTree} {place p : Place} {n : FileNode}
  {names : List String} {path : String}

theorem node?_put (hp : p ≠ []) (q : Place) :
    (t.put p n).node? q = if q = p then some n else t.node? q := by
  by_cases hq : q = []
  · have hne : q ≠ p := fun he => hp (he ▸ hq)
    simp [hq, node?, hp.symm]
  · simp [node?, put, hq, OrderedMap.get?_insert]

theorem ne_nil_of_free (h : t.node? p = none) : p ≠ [] := by
  rintro rfl
  simp [node?] at h

/-! ### Growing -/

/-- The second tree is the first one with something new, of the kind that is told, at places where
nothing was. -/
structure Grown (New : Place → FileNode → Prop) (t u : FileTree) : Prop where
  home : u.home = t.home
  node? : ∀ q, u.node? q = t.node? q ∨ t.node? q = none ∧ ∃ n, u.node? q = some n ∧ New q n

namespace Grown

theorem refl (t : FileTree) : Grown New t t := ⟨rfl, fun _ => .inl rfl⟩

theorem keeps (h : Grown New t u) (hq : t.node? p = some n) : u.node? p = some n := by
  rcases h.node? p with he | ⟨hnone, -⟩
  · rw [he, hq]
  · rw [hnone] at hq
    cases hq

theorem trans (h₁ : Grown New t u) (h₂ : Grown New u v) : Grown New t v where
  home := h₂.home.trans h₁.home
  node? q := by
    rcases h₁.node? q with he | ⟨hnone, n, hn, hnew⟩
    · rw [← he]
      exact h₂.node? q
    · exact .inr ⟨hnone, n, h₂.keeps hn, hnew⟩

theorem mono {New' : Place → FileNode → Prop} (h : Grown New t u)
    (hnew : ∀ q n, New q n → New' q n) : Grown New' t u where
  home := h.home
  node? q := (h.node? q).imp_right fun ⟨hnone, n, hn, hq⟩ => ⟨hnone, n, hn, hnew q n hq⟩

theorem put (hp : t.node? p = none) (hnew : New p n) : Grown New t (t.put p n) where
  home := rfl
  node? q := by
    rw [node?_put (ne_nil_of_free hp)]
    by_cases hq : q = p
    · rw [if_pos hq, hq]
      exact .inr ⟨hp, n, rfl, hnew⟩
    · rw [if_neg hq]
      exact .inl rfl

end Grown

/-! ### Following a path -/

/-- Where a name leads from a directory, if something is there. -/
def onward? (t : FileTree) (place : Place) (name : String) : Option Place :=
  if name = "" ∨ name = "." then some place
  else if name = ".." then some place.dropLast
  else if (t.node? (place ++ [name])).isSome then some (place ++ [name])
  else none

theorem follow_onward {name : String} {q : Place} (hplace : t.node? place = some .directory)
    (honward : t.onward? place name = some q) :
    t.follow place (name :: names) = t.follow q names := by
  rw [onward?] at honward
  rw [follow]
  simp only [hplace, Option.map_some, FileNode.isDirectory, Option.getD_some, if_true,
    Bool.or_eq_true, decide_eq_true_eq]
  by_cases hskip : name = "" ∨ name = "."
  · rw [if_pos hskip] at honward ⊢
    rw [← Option.some.inj honward]
  by_cases hup : name = ".."
  · rw [if_neg hskip, if_pos hup] at honward ⊢
    rw [← Option.some.inj honward]
  rw [if_neg hskip, if_neg hup] at honward ⊢
  rcases hnext : t.node? (place ++ [name]) with _ | m <;> rw [hnext] at honward
  · cases honward
  · rw [← Option.some.inj honward]

theorem onward?_eq_none_iff {name : String} :
    t.onward? place name = none ↔
      ¬ (name = "" ∨ name = ".") ∧ name ≠ ".." ∧ t.node? (place ++ [name]) = none := by
  rw [onward?]
  by_cases hskip : name = "" ∨ name = "." <;> by_cases hup : name = ".." <;> simp [hskip, hup]

/-- A name that leads to nothing leads to a free place if it is the last one. -/
theorem follow_last {name : String} (hplace : t.node? place = some .directory)
    (honward : t.onward? place name = none) :
    t.follow place (name :: names) =
      if isName name && names.all (· = "") then .free (place ++ [name]) (!names.isEmpty)
      else .nowhere := by
  obtain ⟨hskip, hup, hnext⟩ := onward?_eq_none_iff.1 honward
  rw [follow]
  simp only [hplace, Option.map_some, FileNode.isDirectory, Option.getD_some, if_true,
    Bool.or_eq_true, decide_eq_true_eq]
  rw [if_neg hskip, if_neg hup, hnext]

theorem follow_of_ne (name : String) (hplace : t.node? place ≠ some .directory) :
    t.follow place (name :: names) = .nowhere := by
  rw [follow, if_neg]
  rcases h : t.node? place with _ | _ | _ | _
  · simp
  · exact absurd h hplace
  · simp [FileNode.isDirectory]
  · simp [FileNode.isDirectory]

theorem Grown.onward? {name : String} {q : Place} (h : Grown New t u)
    (honward : t.onward? place name = some q) : u.onward? place name = some q := by
  unfold FileTree.onward? at honward ⊢
  by_cases hskip : name = "" ∨ name = "."
  · rwa [if_pos hskip] at honward ⊢
  by_cases hup : name = ".."
  · rwa [if_neg hskip, if_pos hup] at honward ⊢
  rw [if_neg hskip, if_neg hup] at honward ⊢
  rcases hnext : t.node? (place ++ [name]) with _ | m <;> rw [hnext] at honward
  · cases honward
  · rwa [h.keeps hnext]

/-- What a path leads to is found again in a tree that has grown. -/
theorem Grown.follow (h : Grown New t u) (hfollow : t.follow place names = .taken p n) :
    u.follow place names = .taken p n := by
  induction names generalizing place with
  | nil =>
    rw [FileTree.follow] at hfollow ⊢
    rcases hnode : t.node? place with _ | m <;> rw [hnode] at hfollow
    · cases hfollow
    · rw [h.keeps hnode]
      exact hfollow
  | cons name names ih =>
    by_cases hplace : t.node? place = some .directory
    · rcases honward : t.onward? place name with _ | q
      · rw [follow_last hplace honward] at hfollow
        split at hfollow <;> cases hfollow
      · rw [follow_onward hplace honward] at hfollow
        rw [follow_onward (h.keeps hplace) (h.onward? honward)]
        exact ih hfollow
    · rw [follow_of_ne name hplace] at hfollow
      cases hfollow

theorem Grown.find (h : Grown New t u) (hfind : t.find path = .taken p n) :
    u.find path = .taken p n := by
  by_cases hempty : path = ""
  · rw [FileTree.find, if_pos hempty] at hfind
    cases hfind
  · rw [FileTree.find, if_neg hempty] at hfind ⊢
    rw [h.home]
    exact h.follow hfind

theorem node?_of_follow_free {b : Bool} (hfollow : t.follow place names = .free p b) :
    t.node? p = none := by
  induction names generalizing place with
  | nil =>
    rw [follow] at hfollow
    split at hfollow <;> cases hfollow
  | cons name names ih =>
    by_cases hplace : t.node? place = some .directory
    · rcases honward : t.onward? place name with _ | q
      · rw [follow_last hplace honward] at hfollow
        split at hfollow
        · rw [← (Spot.free.inj hfollow).1]
          exact (onward?_eq_none_iff.1 honward).2.2
        · cases hfollow
      · rw [follow_onward hplace honward] at hfollow
        exact ih hfollow
    · rw [follow_of_ne name hplace] at hfollow
      cases hfollow

/-- A path that leads to a free place leads to what is put there. -/
theorem follow_put (hfollow : t.follow place names = .free p false) :
    (t.put p n).follow place names = .taken p n := by
  have hp := node?_of_follow_free hfollow
  have hput : (t.put p n).node? p = some n := by rw [node?_put (ne_nil_of_free hp), if_pos rfl]
  have hgrown : Grown (fun _ _ => True) t (t.put p n) := .put hp trivial
  induction names generalizing place with
  | nil =>
    rw [follow] at hfollow
    split at hfollow <;> cases hfollow
  | cons name names ih =>
    by_cases hplace : t.node? place = some .directory
    · rcases honward : t.onward? place name with _ | q
      · rw [follow_last hplace honward] at hfollow
        split at hfollow
        next =>
          obtain ⟨rfl, hend⟩ := Spot.free.inj hfollow
          obtain rfl : names = [] := by simpa using hend
          obtain ⟨hskip, hup, -⟩ := onward?_eq_none_iff.1 honward
          have hthere : (t.put (place ++ [name]) n).onward? place name =
              some (place ++ [name]) := by
            rw [onward?, if_neg hskip, if_neg hup, hput]
            rfl
          rw [follow_onward (hgrown.keeps hplace) hthere, follow, hput]
        next => cases hfollow
      · rw [follow_onward hplace honward] at hfollow
        rw [follow_onward (hgrown.keeps hplace) (hgrown.onward? honward)]
        exact ih hfollow
    · rw [follow_of_ne name hplace] at hfollow
      cases hfollow

theorem node?_of_find_free {b : Bool} (h : t.find path = .free p b) : t.node? p = none := by
  rw [find] at h
  split at h
  · cases h
  · exact node?_of_follow_free h

theorem find_put (h : t.find path = .free p false) : (t.put p n).find path = .taken p n := by
  rw [find] at h ⊢
  split
  next hempty =>
    rw [if_pos hempty] at h
    cases h
  next hempty =>
    rw [if_neg hempty] at h
    exact follow_put h

theorem contains_iff : t.contains path = true ↔ ∃ p n, t.find path = .taken p n := by
  unfold contains
  rcases t.find path with ⟨p, n⟩ | _ | _ <;> simp

/-! ### Directories on the way -/

/-- What is made on the way to a file is directories. -/
def IsDirectory (_ : Place) (n : FileNode) : Prop := n = .directory

theorem grown_makeDirectory (path : String) (t : FileTree) :
    Grown IsDirectory t (t.makeDirectory path).2 := by
  rw [makeDirectory]
  rcases h : t.find path with ⟨p, n⟩ | ⟨p, b⟩ | _
  · exact .refl t
  · exact .put (node?_of_find_free h) rfl
  · exact .refl t

theorem grown_makeEach (paths : List String) (t : FileTree) :
    Grown IsDirectory t (makeEach paths t).2 := by
  induction paths generalizing t with
  | nil => exact .refl t
  | cons path paths ih =>
    have hfirst := grown_makeDirectory path t
    rw [makeEach]
    rcases h : t.makeDirectory path with ⟨_ | _, u⟩ <;> rw [h] at hfirst
    · exact hfirst
    · exact hfirst.trans (ih u)

theorem grown_makeDirectories (path : String) (t : FileTree) :
    Grown IsDirectory t (t.makeDirectories path).2 :=
  grown_makeEach _ t

/-- A file is created at a free place that the path leads to. -/
theorem createFile_eq_true (h : t.createFile path = (true, u)) :
    ∃ p, t.find path = .free p false ∧ u = t.put p (.text "") := by
  rw [createFile] at h
  split at h
  next p hp =>
    obtain ⟨-, rfl⟩ := Prod.mk.inj h
    exact ⟨p, hp, rfl⟩
  next => cases h

end AuthCore.FileTree
