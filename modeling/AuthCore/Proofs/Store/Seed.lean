import AuthCore.Store.Migration
import Mathlib.Data.List.Nodup

/-!
# Default contents among other rows

The default contents are the only rows that a migration writes. They are found by their names when
the migration is taken back: whatever stands under these names goes, and every other row stays
(`Migration.down_defaultContents`). Behind rows with other names they can always be put in
(`Migration.up_defaultContents`).
-/

namespace AuthCore

/-! ### Names -/

namespace Seed

/-- The groups whose names are not those of default groups. -/
def otherGroups (rows : List GroupRow) : List GroupRow :=
  rows.filter fun r => !groupNames.contains r.name

/-- The entities whose names are not those of the default catalog. -/
def otherEntities (rows : List EntityRow) : List EntityRow :=
  rows.filter fun r => !entityNames.contains r.codeName

/-- The groups are found again by the names that they are put in with. -/
theorem map_name_groupRows : groupRows.map (·.name) = groupNames := by decide

/-- The entities are found again by the names that they are put in with. -/
theorem map_codeName_entityRows : entityRows.map (·.codeName) = entityNames := by
  simp [entityRows, entityNames]

theorem nodup_groupNames : groupNames.Nodup := by decide

theorem nodup_entityNames : entityNames.Nodup := by decide

theorem otherGroups_groupRows : otherGroups groupRows = [] := by
  refine List.filter_eq_nil_iff.2 fun r hr => ?_
  have hname : r.name ∈ groupNames := map_name_groupRows ▸ List.mem_map_of_mem hr
  simp [hname]

theorem otherEntities_entityRows : otherEntities entityRows = [] := by
  refine List.filter_eq_nil_iff.2 fun r hr => ?_
  have hname : r.codeName ∈ entityNames := map_codeName_entityRows ▸ List.mem_map_of_mem hr
  simp [hname]

theorem ne_of_mem_otherGroups {rows : List GroupRow} :
    ∀ r ∈ groupRows, ∀ s ∈ otherGroups rows, s.name ≠ r.name := by
  intro r hr s hs he
  have hother := (List.mem_filter.1 hs).2
  have hname : r.name ∈ groupNames := map_name_groupRows ▸ List.mem_map_of_mem hr
  simp [he, hname] at hother

theorem ne_of_mem_otherEntities {rows : List EntityRow} :
    ∀ r ∈ entityRows, ∀ s ∈ otherEntities rows, s.codeName ≠ r.codeName := by
  intro r hr s hs he
  have hother := (List.mem_filter.1 hs).2
  have hname : r.codeName ∈ entityNames := map_codeName_entityRows ▸ List.mem_map_of_mem hr
  simp [he, hname] at hother

end Seed

namespace Database

/-- The database with some groups and entities in its tables. -/
def holding (db : Database) (groups : List GroupRow) (entities : List EntityRow) : Database :=
  { db with groups := some groups, entities := some entities }

theorem holding_of_eq {db : Database} {groups : List GroupRow} {entities : List EntityRow}
    (hgroups : db.groups = some groups) (hentities : db.entities = some entities) :
    db.holding groups entities = db := by
  rw [holding, ← hgroups, ← hentities]

end Database

namespace Migration

variable (db : Database) (groups : List GroupRow) (entities : List EntityRow)

/-! ### Putting rows in -/

/-- Rows whose names differ from each other and from those in the table are all put behind it. -/
theorem insertAll_of_new {ρ : Type} {insert : ρ → Database → Bool × Database} {column : String}
    {key : ρ → String} (table : List ρ → Database)
    (hinsert : ∀ rows r, (∀ s ∈ rows, key s ≠ key r) →
      insert r (table rows) = (true, table (rows ++ [r])))
    {rows new : List ρ} (hnew : ∀ r ∈ new, ∀ s ∈ rows, key s ≠ key r)
    (hdistinct : (new.map key).Nodup) :
    insertAll insert column new (table rows) = (.ok (), table (rows ++ new)) := by
  induction new generalizing rows with
  | nil => simp [insertAll]
  | cons r new ih =>
    obtain ⟨hr, hdistinct⟩ := List.nodup_cons.1 hdistinct
    have hrest : ∀ q ∈ new, ∀ s ∈ rows ++ [r], key s ≠ key q := by
      intro q hq s hs
      rcases List.mem_append.1 hs with hs | hs
      · exact hnew q (List.mem_cons_of_mem r hq) s hs
      · rw [List.mem_singleton.1 hs]
        intro he
        exact hr (List.mem_map.2 ⟨q, hq, he.symm⟩)
    rw [insertAll, hinsert rows r (hnew r List.mem_cons_self)]
    simp only
    rw [ih hrest hdistinct, List.append_assoc, List.singleton_append]

theorem insertEntityRow_of_new (hwrites : db.readOnly = false) (r : EntityRow)
    (h : ∀ s ∈ entities, s.codeName ≠ r.codeName) :
    Database.insertEntityRow r (db.holding groups entities) =
      (true, db.holding groups (entities ++ [r])) := by
  have hfree : entities.any (fun s => s.codeName == r.codeName) = false := by simpa using h
  simp [Database.insertEntityRow, Database.holding, hwrites, hfree]

theorem insertGroupRow_of_new (hwrites : db.readOnly = false) (r : GroupRow)
    (h : ∀ s ∈ groups, s.name ≠ r.name) :
    Database.insertGroupRow r (db.holding groups entities) =
      (true, db.holding (groups ++ [r]) entities) := by
  have hfree : groups.any (fun s => s.name == r.name) = false := by simpa using h
  simp [Database.insertGroupRow, Database.holding, hwrites, hfree]

/-! ### The default contents -/

/-- The default contents are put behind rows that have other names. -/
theorem up_defaultContents (hwrites : db.readOnly = false)
    (hgroups : ∀ r ∈ Seed.groupRows, ∀ s ∈ groups, s.name ≠ r.name)
    (hentities : ∀ r ∈ Seed.entityRows, ∀ s ∈ entities, s.codeName ≠ r.codeName) :
    defaultContents.up (db.holding groups entities) =
      (.ok (), db.holding (groups ++ Seed.groupRows) (entities ++ Seed.entityRows)) := by
  have hreadOnly : ¬ (db.holding groups entities).readOnly = true := by
    simp [Database.holding, hwrites]
  have hfirst : insertAll Database.insertEntityRow "entities.code_name" Seed.entityRows
      (db.holding groups entities) =
        (.ok (), db.holding groups (entities ++ Seed.entityRows)) :=
    insertAll_of_new (db.holding groups)
      (fun rows r => insertEntityRow_of_new db groups rows hwrites r) hentities
      (Seed.map_codeName_entityRows ▸ Seed.nodup_entityNames)
  have hsecond : insertAll Database.insertGroupRow "groups.name" Seed.groupRows
      (db.holding groups (entities ++ Seed.entityRows)) =
        (.ok (), db.holding (groups ++ Seed.groupRows) (entities ++ Seed.entityRows)) :=
    insertAll_of_new (fun rows => db.holding rows (entities ++ Seed.entityRows))
      (fun rows r => insertGroupRow_of_new db rows _ hwrites r) hgroups
      (Seed.map_name_groupRows ▸ Seed.nodup_groupNames)
  rw [up, if_neg hreadOnly]
  simp only [hfirst, hsecond]

/-- Only the rows with other names stay when the default contents are taken back. -/
theorem down_defaultContents (hwrites : db.readOnly = false) :
    defaultContents.down (db.holding groups entities) =
      (.ok (), db.holding (Seed.otherGroups groups) (Seed.otherEntities entities)) := by
  simp [down, Database.holding, hwrites, Seed.otherGroups, Seed.otherEntities]

end Migration

end AuthCore
