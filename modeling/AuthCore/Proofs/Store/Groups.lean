import AuthCore.Proofs.Store.Faults
import AuthCore.Proofs.Store.Mirror
import AuthCore.Proofs.Store.Row
import AuthCore.Store.Basic

/-!
# The groups and the rule catalog of a store

What a store keeps under a name is a group: an entry in memory, a row that reads as the group in a
database (`Store.KeepsGroup`). Looking groups up finds what is kept. Creating adds the group and
nothing else, updating brings in no permissions but those of the update, deleting only takes away,
and the catalog changes by `upsertEntity` alone, at the one entity.

A row that somebody else wrote may not read as a group. An update can then fail after it has written
to the row; no group that can be read is changed by that (`Store.keepsGroup_of_updateGroup_error`).
-/

namespace AuthCore

/-! ### Reading rows one after the other -/

section Reading

variable {α β : Type}

/-- All rows are read, or the first that cannot be read is what is wrong. -/
theorem Answer.mapM_cases (f : α → Answer β) (as : List α) :
    (∃ bs, as.mapM f = .ok bs ∧ (∀ a ∈ as, ∃ b, f a = .ok b) ∧
      ∀ b, b ∈ bs ↔ ∃ a ∈ as, f a = .ok b) ∨
    ∃ e, as.mapM f = .error e ∧ ∃ a ∈ as, f a = .error e := by
  induction as with
  | nil => exact .inl ⟨[], rfl, nofun, fun b => iff_of_false nofun fun ⟨_, h, _⟩ => nomatch h⟩
  | cons a as ih =>
    rw [List.mapM_cons]
    cases ha : f a with
    | error e => exact .inr ⟨e, rfl, a, List.mem_cons_self, ha⟩
    | ok b =>
      rcases ih with ⟨bs, hbs, hall, hmem⟩ | ⟨e, he, a', ha', hf⟩
      · refine .inl ⟨b :: bs, by rw [hbs]; rfl, ?_, fun c => ?_⟩
        · exact List.forall_mem_cons.2 ⟨⟨b, ha⟩, hall⟩
        · simp only [List.mem_cons, hmem, exists_eq_or_imp, ha, Except.ok.injEq, eq_comm (a := c)]
      · exact .inr ⟨e, by rw [he]; rfl, a', List.mem_cons_of_mem a ha', hf⟩

end Reading

/-! ### Groups of a store -/

theorem GroupRow.toGroup_eq_error {r : GroupRow} {e : Error} (h : r.toGroup = .error e) :
    e = .serialization (.readColumn "groups.permissions") := by
  unfold toGroup readColumn at h
  split at h
  · cases h
  · exact (Except.error.inj h).symm

namespace Store

variable {s s' : Store} {names names' : List String} {gs : List Group} {g : Group} {e : Error}

/-- A store keeps a group under a name. -/
def KeepsGroup (name : String) (g : Group) : Store → Prop
  | memory m => m.groups.get? name = some g
  | database db => ∃ rows, db.groups = some rows ∧ ∃ r ∈ rows, r.name = name ∧ r.Holds g

/-- The groups with some names can be read; a database that is asked for none is not asked. -/
def ReadsGroups (names : List String) : Store → Prop
  | memory _ => True
  | database db => names = [] ∨
    ∃ rows, db.groups = some rows ∧ ∀ r ∈ rows, r.name ∈ names → ∃ g, r.Holds g

/-- Two stores keep groups alike: in memory the same ones, in a database the same rows, in any order
and any number of times. -/
def SameGroups : Store → Store → Prop
  | memory m, memory m' => m.groups = m'.groups
  | database db, database db' =>
    Option.Rel (fun rows rows' => ∀ r, r ∈ rows ↔ r ∈ rows') db.groups db'.groups
  | _, _ => False

/-- What is answered about groups: those that are kept under the names, or one of two faults. -/
theorem findGroups_cases (s : Store) (names : List String) :
    (∃ gs, s.findGroups names = .ok gs ∧ s.ReadsGroups names ∧
      ∀ g, g ∈ gs ↔ ∃ name ∈ names, s.KeepsGroup name g) ∨
    ∃ e, s.findGroups names = .error e ∧ ¬ s.ReadsGroups names ∧ names ≠ [] ∧
      ∃ db, s = database db ∧ (db.groups = none ∧ e = .database .findGroups ∨
        db.groups ≠ none ∧ e = .serialization (.readColumn "groups.permissions")) := by
  cases s with
  | memory m => exact .inl ⟨m.findGroups names, rfl, trivial, fun g => List.mem_filterMap⟩
  | database db =>
    by_cases hn : names = []
    · subst hn
      exact .inl ⟨[], rfl, .inl rfl, fun g => iff_of_false nofun fun ⟨_, h, _⟩ => nomatch h⟩
    have hempty : names.isEmpty = false := List.isEmpty_eq_false_iff.2 hn
    cases hg : db.groups with
    | none =>
      refine .inr ⟨.database .findGroups, ?_, ?_, hn, db, rfl, .inl ⟨hg, rfl⟩⟩
      · simp [findGroups, Database.findGroups, hempty, hg, Database.need, orFault, bind,
          Except.bind]
      · rintro (h | ⟨rows, h, -⟩)
        · exact hn h
        · rw [hg] at h
          cases h
    | some rows =>
      have hread : (database db).findGroups names =
          (rows.filter fun r => names.contains r.name).mapM GroupRow.toGroup := by
        simp [findGroups, Database.findGroups, hempty, hg, Database.need, orFault, bind,
          Except.bind]
      have hmem (r : GroupRow) : r ∈ rows.filter (fun r => names.contains r.name) ↔
          r ∈ rows ∧ r.name ∈ names := by
        rw [List.mem_filter, List.contains_iff_mem]
      rcases Answer.mapM_cases GroupRow.toGroup (rows.filter fun r => names.contains r.name) with
        ⟨gs, hgs, hall, hiff⟩ | ⟨e, he, r, hr, hre⟩
      · refine .inl ⟨gs, hread.trans hgs, .inr ⟨rows, hg, ?_⟩, fun g => ?_⟩
        · exact fun r hr hname => hall r ((hmem r).2 ⟨hr, hname⟩)
        · rw [hiff]
          constructor
          · rintro ⟨r, hr, hrg⟩
            exact ⟨r.name, ((hmem r).1 hr).2, rows, hg, r, ((hmem r).1 hr).1, rfl, hrg⟩
          · rintro ⟨_, hname, rows', hg', r, hr, rfl, hrg⟩
            obtain rfl := Option.some.inj (hg.symm.trans hg')
            exact ⟨r, (hmem r).2 ⟨hr, hname⟩, hrg⟩
      · refine .inr ⟨e, hread.trans he, ?_, hn, db, rfl, .inr ⟨by simp [hg],
          GroupRow.toGroup_eq_error hre⟩⟩
        rintro (h | ⟨rows', hg', hall⟩)
        · exact hn h
        · obtain rfl := Option.some.inj (hg.symm.trans hg')
          obtain ⟨g, hh⟩ := hall r ((hmem r).1 hr).1 ((hmem r).1 hr).2
          cases hre.symm.trans hh

theorem mem_of_findGroups (h : s.findGroups names = .ok gs) :
    g ∈ gs ↔ ∃ name ∈ names, s.KeepsGroup name g := by
  rcases s.findGroups_cases names with ⟨gs', hgs, -, hmem⟩ | ⟨e, he, -⟩
  · obtain rfl := Except.ok.inj (hgs.symm.trans h)
    exact hmem g
  · cases he.symm.trans h

theorem exists_findGroups_iff :
    (∃ gs, s.findGroups names = .ok gs) ↔ s.ReadsGroups names := by
  rcases s.findGroups_cases names with ⟨gs, hgs, hreads, -⟩ | ⟨e, he, hreads, -⟩
  · exact iff_of_true ⟨gs, hgs⟩ hreads
  · exact iff_of_false (fun ⟨gs, hgs⟩ => nomatch he.symm.trans hgs) hreads

namespace SameGroups

theorem groups_cases {db db' : Database} (h : (database db).SameGroups (database db')) :
    db.groups = none ∧ db'.groups = none ∨
    ∃ rows rows', db.groups = some rows ∧ db'.groups = some rows' ∧
      ∀ r, r ∈ rows ↔ r ∈ rows' := by
  have hrel : Option.Rel (fun rows rows' => ∀ r, r ∈ rows ↔ r ∈ rows') db.groups db'.groups := h
  cases hg : db.groups <;> cases hg' : db'.groups <;> rw [hg, hg'] at hrel <;> cases hrel
  case none.none.none => exact .inl ⟨rfl, rfl⟩
  case some.some.some hrows => exact .inr ⟨_, _, rfl, rfl, hrows⟩

theorem keepsGroup_iff (h : s.SameGroups s') {name : String} :
    s'.KeepsGroup name g ↔ s.KeepsGroup name g := by
  cases s <;> cases s'
  case memory.memory m m' =>
    have hm : m.groups = m'.groups := h
    show m'.groups.get? name = some g ↔ m.groups.get? name = some g
    rw [hm]
  case database.database db db' =>
    rcases groups_cases h with ⟨hg, hg'⟩ | ⟨rows, rows', hg, hg', hrows⟩
    · simp [KeepsGroup, hg, hg']
    · simp [KeepsGroup, hg, hg', hrows]
  all_goals exact h.elim

theorem readsGroups_iff (h : s.SameGroups s') (hnames : ∀ name, name ∈ names' ↔ name ∈ names) :
    s'.ReadsGroups names' ↔ s.ReadsGroups names := by
  have hnil : names' = [] ↔ names = [] := by
    simp only [List.eq_nil_iff_forall_not_mem, hnames]
  cases s <;> cases s'
  case memory.memory => exact Iff.rfl
  case database.database db db' =>
    rcases groups_cases h with ⟨hg, hg'⟩ | ⟨rows, rows', hg, hg', hrows⟩
    · simp [ReadsGroups, hg, hg', hnil]
    · simp [ReadsGroups, hg, hg', hnil, hnames, hrows]
  all_goals exact h.elim

/-- Stores that keep groups alike answer alike: the same groups, or the same fault. -/
theorem findGroups_cases (h : s.SameGroups s') (hnames : ∀ name, name ∈ names' ↔ name ∈ names) :
    (∃ gs gs', s.findGroups names = .ok gs ∧ s'.findGroups names' = .ok gs' ∧
      ∀ g, g ∈ gs' ↔ g ∈ gs) ∨
    ∃ e, s.findGroups names = .error e ∧ s'.findGroups names' = .error e := by
  have hreads := h.readsGroups_iff hnames
  rcases s.findGroups_cases names with ⟨gs, hgs, hr, hmem⟩ | ⟨e, he, hr, hn, hwhy⟩ <;>
    rcases s'.findGroups_cases names' with ⟨gs', hgs', hr', hmem'⟩ | ⟨e', he', hr', hn', hwhy'⟩
  · refine .inl ⟨gs, gs', hgs, hgs', fun g => ?_⟩
    simp only [hmem, hmem', hnames, h.keepsGroup_iff]
  · exact absurd (hreads.2 hr) hr'
  · exact absurd (hreads.1 hr') hr
  · refine .inr ⟨e, he, ?_⟩
    obtain ⟨db, rfl, hwhy⟩ := hwhy
    obtain ⟨db', rfl, hwhy'⟩ := hwhy'
    rcases groups_cases h with ⟨hg, hg'⟩ | ⟨rows, rows', hg, hg', -⟩
    · simp only [hg, ne_eq, not_true_eq_false, false_and, or_false, true_and] at hwhy
      simp only [hg', ne_eq, not_true_eq_false, false_and, or_false, true_and] at hwhy'
      rw [he', hwhy, hwhy']
    · simp only [hg, reduceCtorEq, ne_eq, not_false_eq_true, false_and, false_or, true_and] at hwhy
      simp only [hg', reduceCtorEq, ne_eq, not_false_eq_true, false_and, false_or, true_and]
        at hwhy'
      rw [he', hwhy, hwhy']

end SameGroups

/-! ### Writing groups -/

/-- The names of groups are not used twice; in memory they cannot be. -/
def DistinctGroups : Store → Prop
  | memory _ => True
  | database db => ∀ rows, db.groups = some rows → (rows.map GroupRow.name).Nodup

/-- Every row in the table of groups reads as a group; in memory there are groups only. -/
def LegibleGroups : Store → Prop
  | memory _ => True
  | database db => ∀ rows, db.groups = some rows → ∀ r ∈ rows, ∃ g, r.Holds g

end Store

/-- A row has the permissions of the update, or those it had. -/
theorem GroupRow.permissions_update {r : GroupRow} {u : GroupUpdate} {h : Group}
    (hh : (r.update u).Holds h) : u.permissions = some h.permissions ∨
      u.permissions = none ∧ ∃ g, r.Holds g ∧ g.permissions = h.permissions := by
  have hread := (toGroup_eq_ok.1 hh).1
  cases hu : u.permissions with
  | some ps =>
    simp only [update, hu, Permission.list?_listJson] at hread
    exact .inl hread
  | none =>
    simp only [update, hu] at hread
    exact .inr ⟨rfl, ⟨r.name, r.description, h.permissions, r.isEnable⟩,
      toGroup_eq_ok.2 ⟨hread, rfl⟩, rfl⟩

namespace Database

variable {db : Database} {name : String} {e : Error}

theorem findGroup_eq_none (h : db.findGroup name = .ok none) :
    ∃ rows, db.groups = some rows ∧ rows.find? (fun r => r.name == name) = none := by
  rw [findGroup] at h
  cases hg : db.groups with
  | none =>
    rw [hg] at h
    cases h
  | some rows =>
    simp only [hg, need, orFault, bind, Except.bind] at h
    cases hf : rows.find? fun r => r.name == name with
    | none => exact ⟨rows, rfl, hf⟩
    | some r =>
      simp only [hf] at h
      cases hr : r.toGroup <;> rw [hr] at h <;> cases h

/-- The row of a new group is put behind the others, or nothing is changed. -/
theorem createGroup_cases (db : Database) (g : Group) :
    (∃ e, db.createGroup g = (.error e, db) ∧
      (e.auth? = none ∨ e = .auth (.groupExists g.name))) ∨
    ∃ rows, db.groups = some rows ∧ rows.find? (fun r => r.name == g.name) = none ∧
      db.createGroup g = (.ok g, { db with groups := some (rows ++ [.ofGroup g]) }) := by
  cases hf : db.findGroup g.name with
  | error e =>
    refine .inl ⟨e, ?_, .inl (Error.auth?_of_isStore (db.fails_findGroup _ e hf))⟩
    rw [createGroup, hf]
  | ok found =>
    cases found with
    | some h =>
      refine .inl ⟨_, ?_, .inr rfl⟩
      rw [createGroup, hf]
    | none =>
      obtain ⟨rows, hg, hnone⟩ := findGroup_eq_none hf
      have hfree : rows.any (fun s => s.name == (GroupRow.ofGroup g).name) = false := by
        rw [List.any_eq_false]
        exact List.find?_eq_none.1 hnone
      have hread : (GroupRow.ofGroup g).toGroup = .ok g := GroupRow.holds_ofGroup g
      cases hro : db.readOnly with
      | true =>
        refine .inl ⟨.database .createGroup, ?_, .inl rfl⟩
        simp [createGroup, hf, insertGroupRow, hg, hro]
      | false =>
        refine .inr ⟨rows, hg, hnone, ?_⟩
        simp only [createGroup, hf, insertGroupRow, hg, hro, hfree, hread, Bool.or_self,
          Bool.false_eq_true, if_false, if_true]

/-- The rows of a group are replaced by the updated one, or nothing is changed. -/
theorem updateGroup_cases (db : Database) (name : String) (u : GroupUpdate) :
    (∃ e, db.updateGroup name u = (.error e, db) ∧
      (e.auth? = none ∨ e = .auth (.groupNotFound name))) ∨
    ∃ rows r, db.groups = some rows ∧ rows.find? (fun r => r.name == name) = some r ∧
      db.updateGroup name u = ((r.update u).toGroup, { db with
        groups := some (rows.map fun s => if s.name == name then r.update u else s) }) := by
  unfold updateGroup
  cases hg : db.groups with
  | none => exact .inl ⟨_, rfl, .inl rfl⟩
  | some rows =>
    dsimp only
    cases hf : rows.find? fun r => r.name == name with
    | none => exact .inl ⟨_, rfl, .inr rfl⟩
    | some r =>
      cases hro : db.readOnly with
      | true => exact .inl ⟨_, rfl, .inl rfl⟩
      | false => exact .inr ⟨rows, r, rfl, hf, rfl⟩

end Database

namespace Store

variable {s s' : Store} {g h : Group} {name k : String} {u : GroupUpdate} {e : Error}

theorem createGroup_of_error (hc : (s.createGroup g).1 = .error e) :
    (s.createGroup g).2 = s ∧ (e.auth? = none ∨ e = .auth (.groupExists g.name)) := by
  cases s with
  | memory m =>
    by_cases hm : m.groups.contains g.name = true
    · simp only [createGroup, ofMemory, MemoryStore.createGroup, hm, if_true] at hc ⊢
      cases hc
      exact ⟨trivial, .inr rfl⟩
    · simp [createGroup, ofMemory, MemoryStore.createGroup, hm] at hc
  | database db =>
    rcases db.createGroup_cases g with ⟨e', hx, hwhy⟩ | ⟨rows, -, -, hx⟩
    · simp only [createGroup, ofDatabase, hx] at hc ⊢
      cases hc
      exact ⟨trivial, hwhy⟩
    · simp only [createGroup, ofDatabase, hx] at hc
      cases hc

/-- What is kept after a group was created was kept before, or is the group. -/
theorem keepsGroup_createGroup (hk : (s.createGroup g).2.KeepsGroup k h) :
    s.KeepsGroup k h ∨ h = g := by
  cases s with
  | memory m =>
    simp only [createGroup, ofMemory, MemoryStore.createGroup] at hk
    split at hk
    · exact .inl hk
    · have hget : (m.groups.insert g.name g).get? k = some h := hk
      rw [OrderedMap.get?_insert] at hget
      split at hget
      · exact .inr (Option.some.inj hget).symm
      · exact .inl hget
  | database db =>
    rcases db.createGroup_cases g with ⟨e', hx, -⟩ | ⟨rows, hg, -, hx⟩
    · simp only [createGroup, ofDatabase, hx] at hk
      exact .inl hk
    · simp only [createGroup, ofDatabase, hx] at hk
      obtain ⟨_, ⟨⟩, r, hr, rfl, hh⟩ := hk
      rcases List.mem_append.1 hr with hr | hr
      · exact .inl ⟨rows, hg, r, hr, rfl, hh⟩
      · obtain rfl := List.mem_singleton.1 hr
        exact .inr (Except.ok.inj (hh.symm.trans (GroupRow.holds_ofGroup g)))

theorem DistinctGroups.createGroup (hs : s.DistinctGroups) (g : Group) :
    (s.createGroup g).2.DistinctGroups := by
  cases s with
  | memory m => trivial
  | database db =>
    rcases db.createGroup_cases g with ⟨e', hx, -⟩ | ⟨rows, hg, hfree, hx⟩
    · simpa only [Store.createGroup, ofDatabase, hx] using hs
    · simp only [Store.createGroup, ofDatabase, hx]
      rintro _ ⟨⟩
      rw [List.map_append, List.nodup_append]
      refine ⟨hs rows hg, List.nodup_singleton _, fun a ha b hb hab => ?_⟩
      obtain ⟨r, hr, rfl⟩ := List.mem_map.1 ha
      obtain rfl := List.mem_singleton.1 hb
      exact List.find?_eq_none.1 hfree r hr (beq_iff_eq.2 hab)

theorem LegibleGroups.createGroup (hs : s.LegibleGroups) (g : Group) :
    (s.createGroup g).2.LegibleGroups := by
  cases s with
  | memory m => trivial
  | database db =>
    rcases db.createGroup_cases g with ⟨e', hx, -⟩ | ⟨rows, hg, -, hx⟩
    · simpa only [Store.createGroup, ofDatabase, hx] using hs
    · simp only [Store.createGroup, ofDatabase, hx]
      rintro _ ⟨⟩ r hr
      rcases List.mem_append.1 hr with hr | hr
      · exact hs rows hg r hr
      · obtain rfl := List.mem_singleton.1 hr
        exact ⟨g, GroupRow.holds_ofGroup g⟩

theorem findEntity_createGroup (s : Store) (g : Group) (k : String) :
    (s.createGroup g).2.findEntity k = s.findEntity k := by
  cases s with
  | memory m =>
    simp only [createGroup, ofMemory, MemoryStore.createGroup]
    split <;> rfl
  | database db =>
    rcases db.createGroup_cases g with ⟨e', hx, -⟩ | ⟨rows, -, -, hx⟩
    · rw [createGroup, hx]
      rfl
    · rw [createGroup, hx]
      rfl

/-- What is kept after an update has the permissions of the update, or those of a group that was
kept before. -/
theorem keepsGroup_updateGroup (hk : (s.updateGroup name u).2.KeepsGroup k h) :
    u.permissions = some h.permissions ∨
      ∃ k g, s.KeepsGroup k g ∧ g.permissions = h.permissions := by
  cases s with
  | memory m =>
    cases hg : m.groups.get? name with
    | none =>
      simp only [updateGroup, ofMemory, MemoryStore.updateGroup, hg] at hk
      exact .inr ⟨k, h, hk, rfl⟩
    | some g =>
      simp only [updateGroup, ofMemory, MemoryStore.updateGroup, hg] at hk
      have hget : (m.groups.insert name (g.update u)).get? k = some h := hk
      rw [OrderedMap.get?_insert] at hget
      split at hget
      · obtain rfl := Option.some.inj hget
        cases hu : u.permissions with
        | some ps => exact .inl (by rw [Group.update, hu, Option.getD_some])
        | none => exact .inr ⟨name, g, hg, by rw [Group.update, hu, Option.getD_none]⟩
      · exact .inr ⟨k, h, hget, rfl⟩
  | database db =>
    rcases db.updateGroup_cases name u with ⟨e, hx, -⟩ | ⟨rows, r, hg, hf, hx⟩
    · simp only [updateGroup, ofDatabase, hx] at hk
      exact .inr ⟨k, h, hk, rfl⟩
    · simp only [updateGroup, ofDatabase, hx] at hk
      obtain ⟨_, ⟨⟩, r', hr', rfl, hh⟩ := hk
      obtain ⟨q, hq, rfl⟩ := List.mem_map.1 hr'
      by_cases hname : (q.name == name) = true
      · rw [if_pos hname] at hh
        rcases GroupRow.permissions_update hh with hu | ⟨-, g, hrg, hps⟩
        · exact .inl hu
        · exact .inr ⟨r.name, g, ⟨rows, hg, r, List.mem_of_find?_eq_some hf, rfl, hrg⟩, hps⟩
      · rw [if_neg hname] at hh
        exact .inr ⟨q.name, h, ⟨rows, hg, q, hq, rfl, hh⟩, rfl⟩

theorem DistinctGroups.updateGroup (hs : s.DistinctGroups) (name : String) (u : GroupUpdate) :
    (s.updateGroup name u).2.DistinctGroups := by
  cases s with
  | memory m => trivial
  | database db =>
    rcases db.updateGroup_cases name u with ⟨e, hx, -⟩ | ⟨rows, r, hg, hf, hx⟩
    · simpa only [Store.updateGroup, ofDatabase, hx] using hs
    · simp only [Store.updateGroup, ofDatabase, hx]
      rintro _ ⟨⟩
      obtain rfl : r.name = name := Rows.key_of_find? hf
      -- an update does not touch the name
      have hnames : (rows.map fun q => if q.name == r.name then r.update u else q).map
          GroupRow.name = rows.map GroupRow.name := by
        rw [List.map_map]
        exact List.map_congr_left fun q _ => Rows.key_replaced GroupRow.name (r.update u) q
      rw [hnames]
      exact hs rows hg

theorem LegibleGroups.updateGroup (hs : s.LegibleGroups) (name : String) (u : GroupUpdate) :
    (s.updateGroup name u).2.LegibleGroups := by
  cases s with
  | memory m => trivial
  | database db =>
    rcases db.updateGroup_cases name u with ⟨e, hx, -⟩ | ⟨rows, r, hg, hf, hx⟩
    · simpa only [Store.updateGroup, ofDatabase, hx] using hs
    · simp only [Store.updateGroup, ofDatabase, hx]
      rintro _ ⟨⟩ q' hq'
      obtain ⟨q, hq, rfl⟩ := List.mem_map.1 hq'
      by_cases hname : (q.name == name) = true
      · obtain ⟨g, hh⟩ := hs rows hg r (List.mem_of_find?_eq_some hf)
        rw [if_pos hname]
        exact ⟨g.update u, hh.update u⟩
      · rw [if_neg hname]
        exact hs rows hg q hq

theorem findEntity_updateGroup (s : Store) (name : String) (u : GroupUpdate) (k : String) :
    (s.updateGroup name u).2.findEntity k = s.findEntity k := by
  cases s with
  | memory m =>
    simp only [updateGroup, ofMemory, MemoryStore.updateGroup]
    split <;> rfl
  | database db =>
    rcases db.updateGroup_cases name u with ⟨e, hx, -⟩ | ⟨rows, r, -, -, hx⟩
    · rw [updateGroup, hx]
      rfl
    · rw [updateGroup, hx]
      rfl

/-- A failed update has changed nothing, or written to a row that cannot be read. -/
theorem updateGroup_of_error (hc : (s.updateGroup name u).1 = .error e) :
    ((s.updateGroup name u).2 = s ∧ (e.auth? = none ∨ e = .auth (.groupNotFound name))) ∨
    e.auth? = none ∧ ∃ db rows r, s = database db ∧ db.groups = some rows ∧
      rows.find? (fun r => r.name == name) = some r ∧ (∀ g, ¬ r.Holds g) ∧
      (∀ g, ¬ (r.update u).Holds g) ∧
      (s.updateGroup name u).2 = database { db with
        groups := some (rows.map fun s => if s.name == name then r.update u else s) } := by
  cases s with
  | memory m =>
    cases hg : m.groups.get? name with
    | none =>
      simp only [updateGroup, ofMemory, MemoryStore.updateGroup, hg] at hc ⊢
      cases hc
      exact .inl ⟨trivial, .inr rfl⟩
    | some g =>
      simp only [updateGroup, ofMemory, MemoryStore.updateGroup, hg] at hc
      cases hc
  | database db =>
    rcases db.updateGroup_cases name u with ⟨e', hx, hwhy⟩ | ⟨rows, r, hg, hf, hx⟩
    · simp only [updateGroup, ofDatabase, hx] at hc ⊢
      cases hc
      exact .inl ⟨trivial, hwhy⟩
    · simp only [updateGroup, ofDatabase, hx] at hc ⊢
      refine .inr ⟨?_, db, rows, r, rfl, hg, hf, fun g hh => ?_, fun g hh => ?_, rfl⟩
      · rw [GroupRow.toGroup_eq_error hc]
        rfl
      · cases hc.symm.trans (hh.update u)
      · cases hc.symm.trans hh

/-- No group that can be read is changed by an update that fails. -/
theorem keepsGroup_of_updateGroup_error (hs : s.DistinctGroups)
    (hc : (s.updateGroup name u).1 = .error e) :
    (s.updateGroup name u).2.KeepsGroup k h ↔ s.KeepsGroup k h := by
  rcases updateGroup_of_error hc with ⟨hsame, -⟩ | ⟨-, db, rows, r, rfl, hg, hf, hr, hr', hx⟩
  · rw [hsame]
  · rw [hx]
    have hmem := List.mem_of_find?_eq_some hf
    have hname : r.name = name := Rows.key_of_find? hf
    constructor
    · rintro ⟨_, ⟨⟩, q', hq', rfl, hh⟩
      obtain ⟨q, hq, rfl⟩ := List.mem_map.1 hq'
      by_cases hn : (q.name == name) = true
      · rw [if_pos hn] at hh
        exact absurd hh (hr' h)
      · rw [if_neg hn] at hh ⊢
        exact ⟨rows, hg, q, hq, rfl, hh⟩
    · rintro ⟨rows', hg', q, hq, rfl, hh⟩
      obtain rfl := Option.some.inj (hg.symm.trans hg')
      have hn : ¬ (q.name == name) = true := by
        intro hn
        have hqr : q = r :=
          List.inj_on_of_nodup_map (hs rows hg) hq hmem ((beq_iff_eq.1 hn).trans hname.symm)
        exact hr h (hqr ▸ hh)
      exact ⟨_, rfl, q, List.mem_map.2 ⟨q, hq, if_neg hn⟩, rfl, hh⟩

/-- An update that fails changes nothing at all if every group can be read. -/
theorem LegibleGroups.updateGroup_error (hs : s.LegibleGroups)
    (hc : (s.updateGroup name u).1 = .error e) : (s.updateGroup name u).2 = s := by
  rcases updateGroup_of_error hc with ⟨hsame, -⟩ | ⟨-, db, rows, r, rfl, hg, hf, hr, -, -⟩
  · exact hsame
  · obtain ⟨g, hh⟩ := hs rows hg r (List.mem_of_find?_eq_some hf)
    exact absurd hh (hr g)

/-- Deleting only takes away. -/
theorem keepsGroup_deleteGroups {names : List String}
    (hk : (s.deleteGroups names).2.KeepsGroup k h) : s.KeepsGroup k h := by
  cases s with
  | memory m =>
    have hget : (m.groups.filter fun name _ => !names.contains name).get? k = some h := hk
    rw [OrderedMap.get?_filter, Option.filter_eq_some_iff] at hget
    exact hget.1
  | database db =>
    simp only [deleteGroups, ofDatabase, Database.deleteGroups] at hk
    split at hk
    · exact hk
    · split at hk
      · exact hk
      next rows hg =>
        split at hk
        · exact hk
        · obtain ⟨_, ⟨⟩, r, hr, hname, hh⟩ := hk
          exact ⟨rows, hg, r, (List.mem_filter.1 hr).1, hname, hh⟩

theorem DistinctGroups.deleteGroups (hs : s.DistinctGroups) (names : List String) :
    (s.deleteGroups names).2.DistinctGroups := by
  cases s with
  | memory m => trivial
  | database db =>
    simp only [Store.deleteGroups, ofDatabase, Database.deleteGroups]
    split
    · exact hs
    · split
      · exact hs
      next rows hg =>
        split
        · exact hs
        · rintro _ ⟨⟩
          exact (hs rows hg).sublist (List.filter_sublist.map _)

theorem LegibleGroups.deleteGroups (hs : s.LegibleGroups) (names : List String) :
    (s.deleteGroups names).2.LegibleGroups := by
  cases s with
  | memory m => trivial
  | database db =>
    simp only [Store.deleteGroups, ofDatabase, Database.deleteGroups]
    split
    · exact hs
    · split
      · exact hs
      next rows hg =>
        split
        · exact hs
        · rintro _ ⟨⟩ r hr
          exact hs rows hg r (List.mem_filter.1 hr).1

theorem findEntity_deleteGroups (s : Store) (names : List String) (k : String) :
    (s.deleteGroups names).2.findEntity k = s.findEntity k := by
  cases s with
  | memory m => rfl
  | database db =>
    simp only [deleteGroups, ofDatabase, Database.deleteGroups]
    repeat' split
    all_goals rfl

end Store

/-! ### Writing the catalog -/

namespace Database

variable {db db' : Database} {rows rows' : List EntityRow} {entity : EntityRules} {k : String}

theorem findEntity_congr (h : db.entities = some rows) (h' : db'.entities = some rows')
    (hf : rows'.find? (fun r => r.codeName == k) = rows.find? fun r => r.codeName == k) :
    db'.findEntity k = db.findEntity k := by
  simp only [findEntity, h, h', need, orFault, bind, Except.bind, hf]

theorem findEntity_of_find? (h : db.entities = some rows)
    (hf : rows.find? (fun r => r.codeName == k) = some (.ofRules entity)) :
    db.findEntity k = .ok (some entity) := by
  have hread : (EntityRow.ofRules entity).toRules = .ok entity := EntityRow.holds_ofRules entity
  simp only [findEntity, h, need, orFault, bind, Except.bind, hf, hread]
  rfl

/-- The row of an entity is found at its name after it was put in, and no other row is lost. -/
theorem upsertEntity_cases (db : Database) (entity : EntityRules) :
    (∃ e, db.upsertEntity entity = (.error e, db)) ∨
    ∃ rows rows', db.entities = some rows ∧
      db.upsertEntity entity = (.ok (), { db with entities := some rows' }) ∧
      ∀ k, rows'.find? (fun r => r.codeName == k) =
        if k = entity.codeName then some (.ofRules entity)
        else rows.find? fun r => r.codeName == k := by
  cases hr : db.entities with
  | none =>
    refine .inl ⟨.database (.findEntity entity.codeName), ?_⟩
    rw [upsertEntity, hr]
  | some rows =>
    cases hro : db.readOnly with
    | true =>
      by_cases hany : (rows.any fun r => r.codeName == entity.codeName) = true
      · refine .inl ⟨.database .updateEntity, ?_⟩
        simp only [upsertEntity, hr, hany, hro, if_true]
      · refine .inl ⟨.database .createEntity, ?_⟩
        simp [upsertEntity, hr, hany, insertEntityRow, hro]
    | false =>
      cases hfound : rows.find? fun r => r.codeName == entity.codeName with
      | some old =>
        have hname : old.codeName = entity.codeName := Rows.key_of_find? hfound
        have hany : (rows.any fun r => r.codeName == entity.codeName) = true :=
          List.any_eq_true.2 ⟨old, List.mem_of_find?_eq_some hfound, beq_iff_eq.2 hname⟩
        refine .inr ⟨rows, _, rfl, ?_, Rows.find?_replaced (r := EntityRow.ofRules entity) hfound⟩
        simp only [upsertEntity, hr, hany, hro, if_true, Bool.false_eq_true, if_false]
        rfl
      | none =>
        have hfree : ¬ (rows.any fun r => r.codeName == entity.codeName) = true := by
          rw [List.any_eq_true]
          exact fun ⟨r, hmem, he⟩ => List.find?_eq_none.1 hfound r hmem he
        have hfree' : ¬ (rows.any fun r => r.codeName == (EntityRow.ofRules entity).codeName)
          = true := hfree
        refine .inr ⟨rows, _, rfl, ?_, Rows.find?_added (r := EntityRow.ofRules entity) hfound⟩
        simp [upsertEntity, hr, hfree, insertEntityRow, hro, hfree']

end Database

namespace Store

variable {s : Store} {entity : EntityRules} {g : Group} {k : String}

/-- The rules of an entity are put in as they are, and those of no other entity change; or nothing
changes. -/
theorem findEntity_upsertEntity (s : Store) (entity : EntityRules) :
    (s.upsertEntity entity).2 = s ∨ ∀ k, (s.upsertEntity entity).2.findEntity k =
      if k = entity.codeName then .ok (some entity) else s.findEntity k := by
  cases s with
  | memory m =>
    refine .inr fun k => ?_
    show Except.ok ((m.entities.insert entity.codeName entity).get? k) = _
    rw [OrderedMap.get?_insert]
    split <;> rfl
  | database db =>
    rcases db.upsertEntity_cases entity with ⟨e, hx⟩ | ⟨rows, rows', hr, hx, hfind⟩
    · exact .inl (by rw [upsertEntity, hx]; rfl)
    · refine .inr fun k => ?_
      rw [upsertEntity, hx]
      by_cases hk : k = entity.codeName
      · rw [if_pos hk]
        exact Database.findEntity_of_find? rfl ((hfind k).trans (if_pos hk))
      · rw [if_neg hk]
        exact Database.findEntity_congr hr rfl ((hfind k).trans (if_neg hk))

theorem groups_upsertEntity (db : Database) (entity : EntityRules) :
    (db.upsertEntity entity).2.groups = db.groups := by
  rcases db.upsertEntity_cases entity with ⟨e, hx⟩ | ⟨rows, rows', -, hx, -⟩
  · rw [hx]
  · rw [hx]

theorem keepsGroup_upsertEntity :
    (s.upsertEntity entity).2.KeepsGroup k g ↔ s.KeepsGroup k g := by
  cases s with
  | memory m => exact Iff.rfl
  | database db =>
    show (∃ rows, (db.upsertEntity entity).2.groups = some rows ∧ _) ↔ _
    rw [groups_upsertEntity]
    rfl

theorem DistinctGroups.upsertEntity (hs : s.DistinctGroups) (entity : EntityRules) :
    (s.upsertEntity entity).2.DistinctGroups := by
  cases s with
  | memory m => trivial
  | database db => exact fun rows hr => hs rows ((groups_upsertEntity db entity).symm.trans hr)

theorem LegibleGroups.upsertEntity (hs : s.LegibleGroups) (entity : EntityRules) :
    (s.upsertEntity entity).2.LegibleGroups := by
  cases s with
  | memory m => trivial
  | database db => exact fun rows hr => hs rows ((groups_upsertEntity db entity).symm.trans hr)

end Store

end AuthCore
