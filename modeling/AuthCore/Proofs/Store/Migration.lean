import AuthCore.Command.Migrations
import AuthCore.Proofs.Store.Seed
import Mathlib.Data.List.Induction
import Mathlib.Tactic.IntervalCases

/-!
# What migrations leave behind

The migrations that a database records are always a prefix of the list of all of them: commands
move the end of that prefix forwards and backwards (`MigrationCommand.level`), and the database is
the one that the prefix makes out of an empty one (`Database.upTo`).

Taking the default contents back and putting them in again replaces whatever stands under their
names and leaves every other row alone.
-/

namespace AuthCore

/-! ### One migration after the other -/

theorem Migration.nodup_all : Migration.all.Nodup := by decide

namespace Database

open AuthCore.Migration (all)

/-- What the first `k` migrations make out of an empty database. -/
def upTo (k : Nat) : Database where
  hasRecord := true
  applied := all.take k
  users := if 1 ≤ k then some .empty else none
  groups := if 4 ≤ k then some Seed.groupRows else if 2 ≤ k then some [] else none
  entities := if 4 ≤ k then some Seed.entityRows else if 3 ≤ k then some [] else none
  readOnly := false

variable {k : Nat} {m : Migration}

theorem upTo_of_le (h : 4 ≤ k) : upTo k = upTo 4 := by
  have hall : all.take k = all.take 4 := List.take_of_length_le h
  have h₁ : 1 ≤ k := by omega
  simp [upTo, hall, h, h₁]

theorem upTo_min : upTo (min 4 k) = upTo k := by
  by_cases h : 4 ≤ k
  · rw [min_eq_left h, upTo_of_le h]
  · rw [min_eq_right (by omega)]

/-- The next migration makes the next database; it is then recorded. -/
theorem up_upTo (h : all[k]? = some m) :
    m.up (upTo k) = (.ok (), { upTo (k + 1) with applied := all.take k }) := by
  match k, h with
  | 0, rfl | 1, rfl | 2, rfl => rfl
  | 3, rfl =>
    exact Migration.up_defaultContents (upTo 3) [] [] rfl (by simp) (by simp)

/-- The last migration that was applied is taken back; it is then struck out. -/
theorem down_upTo (h : all[k]? = some m) :
    m.down (upTo (k + 1)) = (.ok (), { upTo k with applied := all.take (k + 1) }) := by
  match k, h with
  | 0, rfl | 1, rfl | 2, rfl => rfl
  | 3, rfl =>
    have hdown := Migration.down_defaultContents (upTo 4) Seed.groupRows Seed.entityRows rfl
    rw [Seed.otherGroups_groupRows, Seed.otherEntities_entityRows] at hdown
    exact hdown

theorem applyAll_upTo (n k : Nat) :
    applyAll ((all.drop k).take n) (upTo k) = (.ok (), upTo (k + n)) := by
  induction n generalizing k with
  | zero => simp [applyAll]
  | succ n ih =>
    by_cases hk : k < all.length
    · have hm : all[k]? = some all[k] := List.getElem?_eq_getElem hk
      have hrecord : all.take k ++ [all[k]] = all.take (k + 1) := List.take_append_getElem hk
      rw [List.drop_eq_getElem_cons hk, List.take_succ_cons, applyAll, up_upTo hm]
      simp only [hrecord]
      rw [show k + (n + 1) = k + 1 + n by omega]
      exact ih (k + 1)
    · have hle : 4 ≤ k := not_lt.1 hk
      have hnone : all.drop k = [] := List.drop_eq_nil_of_le hle
      have hfurther : 4 ≤ k + (n + 1) := by omega
      rw [hnone, List.take_nil, applyAll, upTo_of_le hle, upTo_of_le hfurther]

theorem revertAll_upTo (n : Nat) (hk : k ≤ 4) :
    revertAll ((all.take k).reverse.take n) (upTo k) = (.ok (), upTo (k - n)) := by
  induction n generalizing k with
  | zero => simp [revertAll]
  | succ n ih =>
    cases k with
    | zero => simp [revertAll]
    | succ k =>
      have hlt : k < all.length := hk
      have hm : all[k]? = some all[k] := List.getElem?_eq_getElem hlt
      have hlast : all.take (k + 1) = all.take k ++ [all[k]] := (List.take_append_getElem hlt).symm
      have hfresh : all[k] ∉ all.take k := by
        have hnodup := Migration.nodup_all.sublist (List.take_sublist (k + 1) all)
        rw [hlast] at hnodup
        intro hmem
        exact (List.nodup_append.1 hnodup).2.2 _ hmem _ List.mem_cons_self rfl
      have hstruck : (all.take (k + 1)).filter (· ≠ all[k]) = all.take k := by
        rw [hlast, List.filter_append, List.filter_eq_self.2]
        · simp
        · intro q hq
          simpa using fun he : q = all[k] => hfresh (he ▸ hq)
      rw [hlast, List.reverse_append, List.reverse_singleton, List.singleton_append,
        List.take_succ_cons, revertAll, down_upTo hm]
      simp only [hstruck]
      rw [show k + 1 - (n + 1) = k - n by omega]
      exact ih (by omega)

theorem pending_upTo (hk : k ≤ 4) : (upTo k).pending = all.drop k := by
  interval_cases k <;> rfl

theorem recorded_upTo (hk : k ≤ 4) : (upTo k).recorded = all.take k := by
  interval_cases k <;> rfl

theorem migrateUp_upTo (steps : Option Nat) (hk : k ≤ 4) :
    (upTo k).migrateUp steps = (.ok (), upTo (k + steps.getD 4)) := by
  have hstart : (upTo k).startRecord = (.ok (), upTo k) := rfl
  have hfirst : firstOf steps (all.drop k) = (all.drop k).take (steps.getD 4) := by
    cases steps with
    | some n => rfl
    | none =>
      have hlength : (all.drop k).length ≤ 4 := by simp [all]
      exact (List.take_of_length_le hlength).symm
  rw [migrateUp, hstart]
  simp only [pending_upTo hk, hfirst]
  exact applyAll_upTo _ k

theorem migrateDown_upTo (steps : Option Nat) (hk : k ≤ 4) :
    (upTo k).migrateDown steps = (.ok (), upTo (k - steps.getD 4)) := by
  have hstart : (upTo k).startRecord = (.ok (), upTo k) := rfl
  have hfirst : firstOf steps (all.take k).reverse = (all.take k).reverse.take (steps.getD 4) := by
    cases steps with
    | some n => rfl
    | none =>
      have hlength : (all.take k).reverse.length ≤ 4 := by simp [all]
      exact (List.take_of_length_le hlength).symm
  rw [migrateDown, hstart]
  simp only [recorded_upTo hk, hfirst]
  exact revertAll_upTo _ hk

/-- The database after some commands. -/
def after (db : Database) (cs : List MigrationCommand) : Database :=
  cs.foldl (fun db c => (c.apply db).2) db

@[simp] theorem after_concat (db : Database) (cs : List MigrationCommand) (c : MigrationCommand) :
    db.after (cs ++ [c]) = (c.apply (db.after cs)).2 := by
  simp [after]

end Database

/-! ### Commands -/

namespace MigrationCommand

open AuthCore.Database (upTo)

variable {k : Nat}

/-- How many migrations are applied after a command, if `k` were applied before. -/
def level (k : Nat) : MigrationCommand → Nat
  | up none => 4
  | up (some n) => min 4 (k + n)
  | down n => k - n
  | status => k
  | refresh => 4
  | reset => 0

theorem level_le (hk : k ≤ 4) (c : MigrationCommand) : c.level k ≤ 4 := by
  cases c with
  | up steps =>
    cases steps with
    | none => exact le_rfl
    | some n => exact min_le_left 4 (k + n)
  | down n => exact (Nat.sub_le k n).trans hk
  | status => exact hk
  | refresh => exact le_rfl
  | reset => exact Nat.zero_le 4

/-- A command moves the end of the prefix. -/
theorem apply_upTo (hk : k ≤ 4) (c : MigrationCommand) :
    c.apply (upTo k) = (.ok (), upTo (c.level k)) := by
  cases c with
  | up steps =>
    rw [apply, Database.migrateUp_upTo steps hk]
    cases steps with
    | none => rw [level, Option.getD_none, Database.upTo_of_le (Nat.le_add_left 4 k)]
    | some n => rw [level, Option.getD_some, Database.upTo_min]
  | down n => exact Database.migrateDown_upTo (some n) hk
  | status => rfl
  | refresh =>
    have hdown : (upTo k).migrateDown none = (.ok (), upTo 0) := by
      rw [Database.migrateDown_upTo none hk, Option.getD_none, Nat.sub_eq_zero_of_le hk]
    rw [apply, Database.migrateAfresh, hdown]
    exact Database.migrateUp_upTo none (Nat.zero_le 4)
  | reset =>
    rw [apply, Database.migrateDown_upTo none hk, Option.getD_none, Nat.sub_eq_zero_of_le hk]
    rfl

/-- The first command starts the record. -/
theorem apply_empty (c : MigrationCommand) : c.apply .empty = c.apply (upTo 0) := by
  cases c <;> rfl

/-- Whatever commands came before, the next one succeeds and leaves what a prefix makes. -/
theorem apply_after (cs : List MigrationCommand) (c : MigrationCommand) :
    (Database.empty.after cs).applied.length ≤ 4 ∧
      (Database.empty.after cs).applied <+: Migration.all ∧
      c.apply (Database.empty.after cs) =
        (.ok (), upTo (c.level (Database.empty.after cs).applied.length)) := by
  induction cs using List.reverseRecOn generalizing c with
  | nil =>
    refine ⟨Nat.zero_le 4, List.nil_prefix, ?_⟩
    exact (apply_empty c).trans (apply_upTo (Nat.zero_le 4) c)
  | append_singleton cs d ih =>
    obtain ⟨hle, -, hd⟩ := ih d
    have hlevel := d.level_le hle
    have hlength : (upTo (d.level (Database.empty.after cs).applied.length)).applied.length =
        d.level (Database.empty.after cs).applied.length :=
      List.length_take_of_le hlevel
    rw [Database.after_concat, hd]
    dsimp only
    rw [hlength]
    exact ⟨hlevel, List.take_prefix _ _, apply_upTo hlevel c⟩

/-! ### Taking the default contents back and putting them in again -/

section Reseed

open AuthCore.Migration (defaultContents)

variable {db : Database} {groups : List GroupRow} {entities : List EntityRow}

/-- The database with the default contents struck out of its record. -/
def struck (db : Database) : Database :=
  { db with hasRecord := true, applied := db.applied.filter (· ≠ defaultContents) }

theorem startRecord_of_writes (hdamaged : db.damaged = false) (hwrites : db.readOnly = false) :
    db.startRecord = (.ok (), { db with hasRecord := true }) := by
  rcases db with ⟨_ | _, _, _, _, _, _, _⟩ <;> simp_all [Database.startRecord]

/-- Where nothing is pending, everything is recorded. -/
theorem recorded_of_pending (h : db.pending = []) : db.recorded = Migration.all := by
  refine List.filter_eq_self.2 fun m hm => ?_
  simpa using List.filter_eq_nil_iff.1 h m hm

/-- Nothing but the default contents is pending when they are struck out. -/
theorem pending_struck (h : db.pending = []) : (struck db).pending = [defaultContents] := by
  have hall : ∀ m ∈ Migration.all, m ∈ db.applied := by
    intro m hm
    simpa using List.filter_eq_nil_iff.1 h m hm
  have husers := hall .usersTable (by decide)
  have hgroups := hall .groupsTable (by decide)
  have hentities := hall .entitiesTable (by decide)
  simp [Database.pending, struck, Migration.all, husers, hgroups, hentities]

theorem pending_restored (h : db.pending = []) {d : Database}
    (hd : d.applied = (struck db).applied ++ [defaultContents]) : d.pending = [] := by
  refine List.filter_eq_nil_iff.2 fun m hm => ?_
  have hm : m ∈ db.applied := by simpa using List.filter_eq_nil_iff.1 h m hm
  by_cases he : m = defaultContents <;> simp [hd, struck, hm, he]

/-- The last migration of a database that has them all takes the default contents away. -/
theorem apply_down_one (hdamaged : db.damaged = false) (hwrites : db.readOnly = false)
    (hpending : db.pending = []) (hgroups : db.groups = some groups)
    (hentities : db.entities = some entities) :
    (down 1).apply db =
      (.ok (), (struck db).holding (Seed.otherGroups groups) (Seed.otherEntities entities)) := by
  have hrecorded : ({ db with hasRecord := true } : Database).recorded = Migration.all :=
    recorded_of_pending hpending
  have hlast : Database.firstOf (some 1) Migration.all.reverse = [defaultContents] := rfl
  have hsame : ({ db with hasRecord := true } : Database).holding groups entities =
      { db with hasRecord := true } := Database.holding_of_eq hgroups hentities
  have hdown := Migration.down_defaultContents { db with hasRecord := true } groups entities hwrites
  rw [hsame] at hdown
  rw [apply, Database.migrateDown, startRecord_of_writes hdamaged hwrites]
  simp only [hrecorded, hlast, Database.revertAll, hdown]
  rfl

/-- The default contents are put behind the rows that were left. -/
theorem apply_up_struck (hdamaged : db.damaged = false) (hwrites : db.readOnly = false)
    (hpending : db.pending = []) :
    (up none).apply
        ((struck db).holding (Seed.otherGroups groups) (Seed.otherEntities entities)) =
      (.ok (), { (struck db).holding (Seed.otherGroups groups ++ Seed.groupRows)
          (Seed.otherEntities entities ++ Seed.entityRows) with
        applied := (struck db).applied ++ [defaultContents] }) := by
  generalize hleft : (struck db).holding (Seed.otherGroups groups) (Seed.otherEntities entities) =
    left
  have hstart : left.startRecord = (.ok (), left) := by
    subst hleft
    exact startRecord_of_writes hdamaged hwrites
  have hnext : left.pending = [defaultContents] := by
    subst hleft
    exact pending_struck hpending
  have hup := Migration.up_defaultContents (struck db) (Seed.otherGroups groups)
    (Seed.otherEntities entities) hwrites Seed.ne_of_mem_otherGroups Seed.ne_of_mem_otherEntities
  rw [hleft] at hup
  rw [apply, Database.migrateUp, hstart]
  simp only [hnext, Database.firstOf, Database.applyAll, hup]
  rfl

end Reseed

/-! ### The theorem -/

/-- Commands given one after the other on an empty database succeed, and the migrations that are
recorded after each of them are a prefix of the list, as long as `level` says; the database is what
this prefix makes. If all migrations of a database are applied, then taking back the last one and
applying it again leaves all users alone, and all groups and entities with other names than the
default ones; what stands under these names is what a new database holds. -/
theorem prefix_and_contents :
    (∀ (cs : List MigrationCommand) (c : MigrationCommand),
      let db := Database.empty.after cs
      (c.apply db).1 = .ok () ∧
      (c.apply db).2.applied <+: Migration.all ∧
      (c.apply db).2.applied.length = c.level db.applied.length ∧
      (c.apply db).2 = upTo (c.level db.applied.length)) ∧
    ∀ (db : Database) (groups : List GroupRow) (entities : List EntityRow),
      db.damaged = false → db.readOnly = false → db.pending = [] →
      db.groups = some groups → db.entities = some entities →
      let taken := (down 1).apply db
      let again := (up none).apply taken.2
      let new := ((up none).apply .empty).2
      taken.1 = .ok () ∧ again.1 = .ok () ∧ again.2.pending = [] ∧ again.2.users = db.users ∧
      (again.2.groups = some (Seed.otherGroups groups ++ Seed.groupRows) ∧
        new.groups = some Seed.groupRows) ∧
      (again.2.entities = some (Seed.otherEntities entities ++ Seed.entityRows) ∧
        new.entities = some Seed.entityRows) := by
  refine ⟨?_, ?_⟩
  · intro cs c db
    obtain ⟨hle, -, happly⟩ := apply_after cs c
    have hlevel := c.level_le hle
    rw [happly]
    exact ⟨rfl, List.take_prefix _ _, List.length_take_of_le hlevel, rfl⟩
  · intro db groups entities hdamaged hwrites hpending hgroups hentities taken again new
    have htaken := apply_down_one hdamaged hwrites hpending hgroups hentities
    have hagain : again = _ := (congrArg (fun r => (up none).apply r.2) htaken).trans
      (apply_up_struck hdamaged hwrites hpending)
    have hnew : new = upTo 4 :=
      congrArg Prod.snd ((apply_empty _).trans (apply_upTo (Nat.zero_le 4) (up none)))
    rw [hagain, hnew]
    exact ⟨congrArg Prod.fst htaken, rfl, pending_restored hpending rfl, rfl, ⟨rfl, rfl⟩, rfl, rfl⟩

/-- A database with a user, in which one default group and one default entity were changed, the
others were deleted, and others were added. -/
theorem prefix_and_contents_edited :
    let staff : GroupRow := ⟨"staff", none, .array [], true⟩
    let docs : EntityRow := ⟨"docs", .strings ["read"]⟩
    let db : Database := { upTo 4 with
      users := some ⟨[.ofNew (.customer (.email "a@b.c")) 7], 9⟩
      groups := some [staff, ⟨"customer", some "nobody", .array [], false⟩]
      entities := some [⟨"files", .strings []⟩, docs] }
    (db.damaged = false ∧ db.readOnly = false ∧ db.pending = []) ∧
      let again := (up none).apply ((down 1).apply db).2
      again.1 = .ok () ∧ again.2.users = db.users ∧
        again.2.groups = some (staff :: Seed.groupRows) ∧
        again.2.entities = some (docs :: Seed.entityRows) := by
  intro staff docs db
  have hpending : db.pending = [] := rfl
  obtain ⟨-, hdone, -, husers, ⟨hgroups, -⟩, hentities, -⟩ :=
    prefix_and_contents.2 db _ _ rfl rfl hpending rfl rfl
  have hstaff : Seed.otherGroups [staff, ⟨"customer", some "nobody", .array [], false⟩] = [staff] :=
    rfl
  have hdocs : Seed.otherEntities [⟨"files", .strings []⟩, docs] = [docs] := rfl
  rw [hstaff] at hgroups
  rw [hdocs] at hentities
  exact ⟨⟨rfl, rfl, hpending⟩, hdone, husers, hgroups, hentities⟩

end MigrationCommand

end AuthCore
