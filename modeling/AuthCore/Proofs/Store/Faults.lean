import AuthCore.Proofs.Store.Row
import AuthCore.Store.Basic

/-!
# What is wrong when a store fails

A store that is only asked something fails with an error of its own: a fault of the database, or a
column that cannot be read (`Error.isStore`). A write may also fail with a domain error, such as a
name that is taken. That is the same for both kinds of stores; in memory no question fails at all.

Which errors an answer may be is told by a predicate (`Answer.Fails`) that passes through the steps
of reading a row, so each look-up is a chain of its steps.
-/

namespace AuthCore

variable {α β : Type} {E E' : Error → Prop}

/-- An error of the store itself. -/
def Error.isStore : Error → Bool
  | database _ | serialization _ => true
  | _ => false

theorem Error.auth?_of_isStore {e : Error} (h : e.isStore = true) : e.auth? = none := by
  cases e <;> first | rfl | cases h

/-- An error of the store itself, or a domain error. -/
def Error.IsRefusal (e : Error) : Prop := e.isStore = true ∨ ∃ r, e = .auth r

namespace Answer

/-- If an answer is an error, then one of a class. -/
def Fails (E : Error → Prop) (r : Answer α) : Prop := ∀ e, r = .error e → E e

theorem Fails.mono {r : Answer α} (h : r.Fails E) (hE : ∀ e, E e → E' e) : r.Fails E' :=
  fun e he => hE e (h e he)

theorem fails_ok (a : α) : Fails E (.ok a : Answer α) := nofun

theorem fails_error {e : Error} (h : E e) : Fails E (.error e : Answer α) := by
  rintro _ ⟨⟩
  exact h

theorem Fails.bind {x : Answer α} {f : α → Answer β} (hx : Fails E x) (hf : ∀ a, Fails E (f a)) :
    Fails E (x >>= f) := by
  intro e he
  cases h : x with
  | error e' =>
    rw [h] at he
    cases he
    exact hx e h
  | ok a =>
    rw [h] at he
    exact hf a e he

theorem Fails.map {x : Answer α} (hx : Fails E x) (f : α → β) : Fails E (x.map f) := by
  intro e he
  cases h : x with
  | error e' =>
    rw [h] at he
    cases he
    exact hx e h
  | ok a =>
    rw [h] at he
    cases he

theorem Fails.mapM {f : α → Answer β} (hf : ∀ a, Fails E (f a)) (as : List α) :
    Fails E (as.mapM f) := by
  induction as with
  | nil => exact fails_ok []
  | cons a as ih =>
    rw [List.mapM_cons]
    exact (hf a).bind fun b => ih.bind fun bs => fails_ok (b :: bs)

end Answer

open AuthCore.Answer

/-! ### Reading rows -/

section Reading

theorem fails_orFault (f : DatabaseFault) (o : Option α) :
    Fails (·.isStore = true) (orFault f o) := by
  cases o with
  | none => exact fails_error rfl
  | some a => exact fails_ok a

theorem fails_readColumn (f : Json → Option α) (column : String) (j : Json) :
    Fails (·.isStore = true) (readColumn f column j) := by
  unfold readColumn
  cases f j with
  | none => exact fails_error rfl
  | some a => exact fails_ok a

theorem fails_readTime (fault : DatabaseFault) (text : Option String) :
    Fails (·.isStore = true) (readTime fault text) := by
  cases text with
  | none => exact fails_ok none
  | some s => exact (fails_orFault fault _).map some

theorem UserRow.fails_times (fault : DatabaseFault) (r : UserRow) :
    Fails (·.isStore = true) (r.times fault) :=
  (fails_readTime _ _).bind fun _ => (fails_readTime _ _).bind fun _ => fails_ok _

theorem UserRow.fails_toUser (fault : DatabaseFault) (r : UserRow) :
    Fails (·.isStore = true) (r.toUser fault) :=
  (r.fails_times _).bind fun _ => (fails_orFault _ _).bind fun _ =>
    (fails_orFault _ _).bind fun _ => (fails_orFault _ _).bind fun _ =>
    (fails_readColumn _ _ _).bind fun _ => (fails_readColumn _ _ _).bind fun _ => fails_ok _

theorem GroupRow.fails_toGroup (r : GroupRow) : Fails (·.isStore = true) r.toGroup :=
  (fails_readColumn _ _ _).map _

theorem EntityRow.fails_toRules (r : EntityRow) : Fails (·.isStore = true) r.toRules :=
  (fails_readColumn _ _ _).map _

end Reading

/-! ### Looking something up -/

namespace Database

variable (db : Database)

theorem fails_findUser (sought : String) (test : UserRow → Bool) :
    Fails (·.isStore = true) (db.findUser sought test) := by
  refine (fails_orFault _ _).bind fun t => ?_
  cases t.rows.find? test with
  | none => exact fails_ok none
  | some r => exact (r.fails_toUser _).bind fun u => fails_ok (some u)

theorem fails_findGroup (name : String) : Fails (·.isStore = true) (db.findGroup name) := by
  refine (fails_orFault _ _).bind fun rows => ?_
  cases rows.find? fun r => r.name == name with
  | none => exact fails_ok none
  | some r => exact r.fails_toGroup.bind fun g => fails_ok (some g)

theorem fails_findGroups (names : List String) :
    Fails (·.isStore = true) (db.findGroups names) := by
  unfold findGroups
  split
  · exact fails_ok []
  · exact (fails_orFault _ _).bind fun rows => Fails.mapM GroupRow.fails_toGroup _

theorem fails_findEntity (name : String) : Fails (·.isStore = true) (db.findEntity name) := by
  refine (fails_orFault _ _).bind fun rows => ?_
  cases rows.find? fun r => r.codeName == name with
  | none => exact fails_ok none
  | some r => exact r.fails_toRules.bind fun e => fails_ok (some e)

theorem fails_countUsers (names : List String) :
    Fails (·.isStore = true) (db.countUsers names) :=
  (fails_orFault _ _).bind fun _ => (Fails.mapM (UserRow.fails_times _) _).bind fun _ =>
    (Fails.mapM (fun _ => fails_readColumn _ _ _) _).bind fun _ => fails_ok _

end Database

namespace Store

variable (s : Store)

theorem fails_findById (id : Int) : Fails (·.isStore = true) (s.findById id) := by
  cases s with
  | memory m => exact fails_ok _
  | database db => exact db.fails_findUser _ _

theorem fails_findByUsername (name : Username) (roles : Option (List Role)) :
    Fails (·.isStore = true) (s.findByUsername name roles) := by
  cases s with
  | memory m => exact fails_ok _
  | database db => exact db.fails_findUser _ _

theorem fails_findByEmail (email : String) : Fails (·.isStore = true) (s.findByEmail email) := by
  cases s with
  | memory m => exact fails_ok _
  | database db => exact db.fails_findUser _ _

theorem fails_countUsers (names : List String) :
    Fails (·.isStore = true) (s.countUsers names) := by
  cases s with
  | memory m => exact fails_ok _
  | database db => exact db.fails_countUsers names

theorem fails_findGroups (names : List String) :
    Fails (·.isStore = true) (s.findGroups names) := by
  cases s with
  | memory m => exact fails_ok _
  | database db => exact db.fails_findGroups names

theorem fails_findEntity (name : String) : Fails (·.isStore = true) (s.findEntity name) := by
  cases s with
  | memory m => exact fails_ok _
  | database db => exact db.fails_findEntity name

/-! ### Writing -/

theorem fails_createUser (n : NewUser) : Fails Error.IsRefusal (s.createUser n).1 := by
  cases s with
  | memory m =>
    simp only [createUser, ofMemory, MemoryStore.createUser]
    split
    · exact fails_error (.inl rfl)
    · exact fails_ok _
  | database db =>
    simp only [createUser, ofDatabase, Database.createUser]
    split
    · exact fails_error (.inl rfl)
    · split
      · exact (UserRow.fails_toUser _ _).mono fun _ => .inl
      · exact fails_error (.inl rfl)

theorem fails_updateUser (id : Int) (c : UserChanges) :
    Fails Error.IsRefusal (s.updateUser id c).1 := by
  cases s with
  | memory m =>
    simp only [updateUser, ofMemory, MemoryStore.updateUser]
    split
    · exact fails_error (.inr ⟨_, rfl⟩)
    · exact fails_ok _
  | database db =>
    simp only [updateUser, ofDatabase, Database.updateUser]
    split
    · exact fails_error (.inl rfl)
    · split
      · exact fails_error (.inr ⟨_, rfl⟩)
      · split
        next e he => exact fails_error (.inl (UserRow.fails_times _ _ e he))
        next =>
          split
          · exact fails_error (.inl rfl)
          · exact (UserRow.fails_toUser _ _).mono fun _ => .inl

theorem fails_createGroup (g : Group) : Fails Error.IsRefusal (s.createGroup g).1 := by
  cases s with
  | memory m =>
    simp only [createGroup, ofMemory, MemoryStore.createGroup]
    split
    · exact fails_error (.inr ⟨_, rfl⟩)
    · exact fails_ok _
  | database db =>
    simp only [createGroup, ofDatabase, Database.createGroup]
    split
    next e he => exact fails_error (.inl (db.fails_findGroup _ e he))
    next => exact fails_error (.inr ⟨_, rfl⟩)
    next =>
      split
      · exact (GroupRow.fails_toGroup _).mono fun _ => .inl
      · exact fails_error (.inl rfl)

theorem fails_updateGroup (name : String) (u : GroupUpdate) :
    Fails Error.IsRefusal (s.updateGroup name u).1 := by
  cases s with
  | memory m =>
    simp only [updateGroup, ofMemory, MemoryStore.updateGroup]
    split
    · exact fails_error (.inr ⟨_, rfl⟩)
    · exact fails_ok _
  | database db =>
    simp only [updateGroup, ofDatabase, Database.updateGroup]
    split
    · exact fails_error (.inl rfl)
    · split
      · exact fails_error (.inr ⟨_, rfl⟩)
      · split
        · exact fails_error (.inl rfl)
        · exact (GroupRow.fails_toGroup _).mono fun _ => .inl

theorem fails_deleteGroups (names : List String) :
    Fails Error.IsRefusal (s.deleteGroups names).1 := by
  cases s with
  | memory m => exact fails_ok _
  | database db =>
    simp only [deleteGroups, ofDatabase, Database.deleteGroups]
    split
    · exact fails_ok _
    · split
      · exact fails_error (.inl rfl)
      · split
        · exact fails_error (.inl rfl)
        · exact fails_ok _

end Store

end AuthCore
