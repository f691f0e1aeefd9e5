import AuthCore.Proofs.OrderedMap
import AuthCore.Proofs.Session

/-!
# Stores without password hashes

A store carries the hashes of passwords along and never looks at them. So it does not matter whether
they are taken out before a call or after it (`StoreCall.perform_veil`), and the same holds when
contents are put into the store past its operations and when a database is brought up to date.
-/

namespace AuthCore

variable {α β : Type}

/-! ### Taking hashes out -/

/-- A user without the hash of the password. -/
def User.veil (u : User) : User := { u with hashedPassword := none }

/-- A new user without the hash of the password. -/
def NewUser.veil (n : NewUser) : NewUser := { n with hashedPassword := none }

/-- Changes of a user without the hash of the password. -/
def UserChanges.veil (c : UserChanges) : UserChanges := { c with hashedPassword := none }

/-- A row without the hash of the password. -/
def UserRow.veil (r : UserRow) : UserRow := { r with hashedPassword := none }

/-- A table without password hashes. -/
def UserTable.veil (t : UserTable) : UserTable := { t with rows := t.rows.map UserRow.veil }

/-- A store in memory without password hashes. -/
def MemoryStore.veil (m : MemoryStore) : MemoryStore :=
  { m with users := m.users.mapValues fun _ => User.veil }

/-- A database without password hashes. -/
def Database.veil (db : Database) : Database := { db with users := db.users.map UserTable.veil }

/-- A store without password hashes. -/
def Store.veil : Store → Store
  | memory m => .memory m.veil
  | database db => .database db.veil

/-- A call of a store without password hashes. -/
def StoreCall.veil : StoreCall → StoreCall
  | createUser n => createUser n.veil
  | updateUser id c => updateUser id c.veil
  | c => c

/-- What a store answers, without password hashes. -/
def StoreAnswer.veil : StoreAnswer → StoreAnswer
  | found u => found (u.map User.veil)
  | user u => user u.veil
  | a => a

/-- Contents put into a store, without password hashes. -/
def StoreEdit.veil : StoreEdit → StoreEdit
  | user u => user u.veil
  | userRow r => userRow r.veil
  | e => e

theorem UserChanges.apply_veil (c : UserChanges) (u : User) :
    c.veil.apply u.veil = (c.apply u).veil := rfl

/-! ### Stores in memory -/

namespace MemoryStore

variable (m : MemoryStore)

theorem find?_values_veil {test : User → Bool} (h : ∀ u, test u.veil = test u) :
    m.veil.users.values.find? test = (m.users.values.find? test).map User.veil := by
  rw [veil, OrderedMap.values_mapValues, List.find?_map]
  exact congrArg (fun test => (m.users.values.find? test).map User.veil) (funext h)

theorem createUser_veil (n : NewUser) :
    m.veil.createUser n.veil = ((m.createUser n).1.map User.veil, (m.createUser n).2.veil) := by
  have hclash : m.veil.users.values.any (clashes n.veil) = m.users.values.any (clashes n) := by
    rw [veil, OrderedMap.values_mapValues, List.any_map]
    rfl
  simp only [createUser, hclash]
  split
  · rfl
  · refine congrArg (Prod.mk _) ?_
    simp only [veil, OrderedMap.mapValues_insert]
    rfl

theorem updateUser_veil (id : Int) (c : UserChanges) :
    m.veil.updateUser id c.veil =
      ((m.updateUser id c).1.map User.veil, (m.updateUser id c).2.veil) := by
  simp only [updateUser, veil, OrderedMap.get?_mapValues]
  cases m.users.get? id with
  | none => rfl
  | some u =>
    simp only [Option.map_some, OrderedMap.mapValues_insert, UserChanges.apply_veil]
    rfl

theorem countUsers_veil (names : List String) : m.veil.countUsers names = m.countUsers names := by
  rw [countUsers, veil, OrderedMap.values_mapValues, List.map_map]
  rfl

theorem groups_veil : m.veil.groups = m.groups := by cases m; rfl

theorem createGroup_veil (g : Group) :
    m.veil.createGroup g = ((m.createGroup g).1, (m.createGroup g).2.veil) := by
  simp only [createGroup, groups_veil]
  cases m.groups.contains g.name <;> rfl

theorem updateGroup_veil (name : String) (u : GroupUpdate) :
    m.veil.updateGroup name u = ((m.updateGroup name u).1, (m.updateGroup name u).2.veil) := by
  simp only [updateGroup, groups_veil]
  cases m.groups.get? name <;> rfl

theorem insertUser_veil (u : User) : m.veil.insertUser u.veil = (m.insertUser u).veil := by
  simp only [insertUser, veil, OrderedMap.mapValues_insert]
  rfl

end MemoryStore

/-! ### Databases -/

theorem UserRow.times_veil (fault : DatabaseFault) (r : UserRow) :
    r.veil.times fault = r.times fault := rfl

theorem UserRow.toUser_veil (fault : DatabaseFault) (r : UserRow) :
    r.veil.toUser fault = (r.toUser fault).map User.veil := by
  have hmap (x : Answer User) : x.map User.veil = User.veil <$> x := rfl
  rw [hmap]
  simp only [toUser, map_bind, map_pure]
  rfl

namespace Database

variable (db : Database)

-- no definitional equations, so that a rewritten condition is also decided by what it became
theorem users_veil : db.veil.users = db.users.map UserTable.veil := by cases db; rfl

theorem groups_veil : db.veil.groups = db.groups := by cases db; rfl

theorem entities_veil : db.veil.entities = db.entities := by cases db; rfl

theorem readOnly_veil : db.veil.readOnly = db.readOnly := by cases db; rfl

theorem findUser_veil (sought : String) {test : UserRow → Bool} (h : ∀ r, test r.veil = test r) :
    db.veil.findUser sought test = (db.findUser sought test).map (Option.map User.veil) := by
  cases hu : db.users with
  | none => simp only [findUser, users_veil, hu]; rfl
  | some t =>
    have hfind : t.veil.rows.find? test = (t.rows.find? test).map UserRow.veil := by
      rw [UserTable.veil, List.find?_map]
      exact congrArg (fun test => (t.rows.find? test).map UserRow.veil) (funext h)
    simp only [findUser, users_veil, hu, Option.map_some, need, orFault, bind, Except.bind, hfind]
    cases t.rows.find? test with
    | none => rfl
    | some r =>
      simp only [Option.map_some, UserRow.toUser_veil]
      cases r.toUser (.findUser sought) <;> rfl

theorem insertUserRow_veil (r : UserRow) :
    db.veil.insertUserRow r.veil = ((db.insertUserRow r).1, (db.insertUserRow r).2.veil) := by
  cases hu : db.users with
  | none => simp only [insertUserRow, veil, hu]; rfl
  | some t =>
    have hclash : t.veil.rows.any r.veil.clashes = t.rows.any r.clashes := by
      rw [UserTable.veil, List.any_map]
      rfl
    have hinsert : t.veil.insert r.veil = (t.insert r).veil := by
      simp only [UserTable.insert, UserTable.veil, List.map_append]
      rfl
    simp only [insertUserRow, veil, hu, Option.map_some, hclash]
    split
    · exact congrArg (Prod.mk _) (by rw [hu]; rfl)
    · rw [hinsert]
      rfl

theorem createUser_veil (n : NewUser) :
    db.veil.createUser n.veil =
      ((db.createUser n).1.map User.veil, (db.createUser n).2.veil) := by
  cases hu : db.users with
  | none => simp only [createUser, users_veil, hu]; rfl
  | some t =>
    have hrow : UserRow.ofNew n.veil (t.veil.lastId + 1) =
        (UserRow.ofNew n (t.lastId + 1)).veil := rfl
    simp only [createUser, users_veil, hu, Option.map_some, hrow, insertUserRow_veil,
      UserRow.toUser_veil]
    split <;> rfl

theorem updateUser_veil (id : Int) (c : UserChanges) :
    db.veil.updateUser id c.veil =
      ((db.updateUser id c).1.map User.veil, (db.updateUser id c).2.veil) := by
  cases hu : db.users with
  | none => simp only [updateUser, users_veil, hu]; rfl
  | some t =>
    have hfind : t.veil.rows.find? (fun r => r.id == id) =
        (t.rows.find? fun r => r.id == id).map UserRow.veil := by
      rw [UserTable.veil, List.find?_map]
      rfl
    simp only [updateUser, users_veil, hu, Option.map_some, hfind]
    cases t.rows.find? fun r => r.id == id with
    | none => rfl
    | some r =>
      have hrow : r.veil.update c.veil = (r.update c).veil := rfl
      have hreplace (s : UserRow) : t.veil.replace s.veil = (t.replace s).veil := by
        simp only [UserTable.replace, UserTable.veil, List.map_map]
        refine congrArg (UserTable.mk · t.lastId) (List.map_congr_left fun q _ => ?_)
        simp only [Function.comp]
        split <;> split <;> first | rfl | contradiction
      simp only [Option.map_some, UserRow.times_veil, readOnly_veil, hrow, UserRow.toUser_veil,
        hreplace]
      cases r.times (.findUser (Text.showInt id)) with
      | error e => rfl
      | ok ts => dsimp only; split <;> rfl

theorem countUsers_veil (names : List String) : db.veil.countUsers names = db.countUsers names := by
  cases hu : db.users with
  | none => simp only [countUsers, users_veil, hu]; rfl
  | some t =>
    have hrows {β : Type} {f : UserRow → Answer β} (h : ∀ r, f r.veil = f r) :
        t.veil.rows.mapM f = t.rows.mapM f := by
      rw [UserTable.veil]
      induction t.rows with
      | nil => rfl
      | cons r rows ih => rw [List.map_cons, List.mapM_cons, List.mapM_cons, h, ih]
    have htimes := hrows (UserRow.times_veil .countGroups)
    have hlists := hrows (f := fun r =>
      readColumn (Json.list? Json.string?) "users.groups" r.groups) fun _ => rfl
    simp only [countUsers, users_veil, hu, Option.map_some, need, orFault, bind,
      Except.bind] at htimes hlists ⊢
    rw [htimes, hlists]

/-! Groups and the rule catalog are in tables of their own. -/

theorem insertGroupRow_veil (r : GroupRow) :
    db.veil.insertGroupRow r = ((db.insertGroupRow r).1, (db.insertGroupRow r).2.veil) := by
  simp only [insertGroupRow, groups_veil, readOnly_veil]
  cases db.groups with
  | none => rfl
  | some rows => dsimp only; split <;> rfl

theorem createGroup_veil (g : Group) :
    db.veil.createGroup g = ((db.createGroup g).1, (db.createGroup g).2.veil) := by
  have hfind : db.veil.findGroup g.name = db.findGroup g.name := rfl
  simp only [createGroup, hfind, insertGroupRow_veil]
  cases db.findGroup g.name with
  | error e => rfl
  | ok found =>
    cases found with
    | some _ => rfl
    | none => dsimp only; split <;> rfl

theorem updateGroup_veil (name : String) (u : GroupUpdate) :
    db.veil.updateGroup name u = ((db.updateGroup name u).1, (db.updateGroup name u).2.veil) := by
  simp only [updateGroup, groups_veil, readOnly_veil]
  cases db.groups with
  | none => rfl
  | some rows =>
    dsimp only
    cases rows.find? fun r => r.name == name with
    | none => rfl
    | some r => dsimp only; split <;> rfl

theorem deleteGroups_veil (names : List String) :
    db.veil.deleteGroups names = ((db.deleteGroups names).1, (db.deleteGroups names).2.veil) := by
  simp only [deleteGroups, groups_veil, readOnly_veil]
  split
  · rfl
  · cases db.groups with
    | none => rfl
    | some rows => dsimp only; split <;> rfl

theorem insertEntityRow_veil (r : EntityRow) :
    db.veil.insertEntityRow r = ((db.insertEntityRow r).1, (db.insertEntityRow r).2.veil) := by
  simp only [insertEntityRow, entities_veil, readOnly_veil]
  cases db.entities with
  | none => rfl
  | some rows => dsimp only; split <;> rfl

theorem upsertEntity_veil (e : EntityRules) :
    db.veil.upsertEntity e = ((db.upsertEntity e).1, (db.upsertEntity e).2.veil) := by
  simp only [upsertEntity, entities_veil, readOnly_veil, insertEntityRow_veil]
  cases db.entities with
  | none => rfl
  | some rows =>
    dsimp only
    split
    · split <;> rfl
    · split <;> rfl

end Database

/-! ### Any store -/

namespace Store

variable (s : Store)

theorem findById_veil (id : Int) :
    s.veil.findById id = (s.findById id).map (Option.map User.veil) := by
  cases s with
  | memory m => exact congrArg Except.ok (m.users.get?_mapValues id)
  | database db => exact db.findUser_veil _ fun _ => rfl

theorem findByUsername_veil (name : Username) (roles : Option (List Role)) :
    s.veil.findByUsername name roles =
      (s.findByUsername name roles).map (Option.map User.veil) := by
  cases s with
  | memory m =>
    refine congrArg Except.ok (m.find?_values_veil fun u => ?_)
    cases name <;> rfl
  | database db =>
    refine db.findUser_veil _ fun r => ?_
    cases name <;> rfl

theorem findByEmail_veil (email : String) :
    s.veil.findByEmail email = (s.findByEmail email).map (Option.map User.veil) := by
  cases s with
  | memory m => exact congrArg Except.ok (m.find?_values_veil fun _ => rfl)
  | database db => exact db.findUser_veil _ fun _ => rfl

theorem createUser_veil (n : NewUser) :
    s.veil.createUser n.veil = ((s.createUser n).1.map User.veil, (s.createUser n).2.veil) := by
  cases s with
  | memory m => exact congrArg ofMemory (m.createUser_veil n)
  | database db => exact congrArg ofDatabase (db.createUser_veil n)

theorem updateUser_veil (id : Int) (c : UserChanges) :
    s.veil.updateUser id c.veil =
      ((s.updateUser id c).1.map User.veil, (s.updateUser id c).2.veil) := by
  cases s with
  | memory m => exact congrArg ofMemory (m.updateUser_veil id c)
  | database db => exact congrArg ofDatabase (db.updateUser_veil id c)

theorem countUsers_veil (names : List String) : s.veil.countUsers names = s.countUsers names := by
  cases s with
  | memory m => exact congrArg Except.ok (m.countUsers_veil names)
  | database db => exact db.countUsers_veil names

theorem findGroups_veil (names : List String) : s.veil.findGroups names = s.findGroups names := by
  cases s <;> rfl

theorem findEntity_veil (name : String) : s.veil.findEntity name = s.findEntity name := by
  cases s <;> rfl

theorem createGroup_veil (g : Group) :
    s.veil.createGroup g = ((s.createGroup g).1, (s.createGroup g).2.veil) := by
  cases s with
  | memory m => exact congrArg ofMemory (m.createGroup_veil g)
  | database db => exact congrArg ofDatabase (db.createGroup_veil g)

theorem updateGroup_veil (name : String) (u : GroupUpdate) :
    s.veil.updateGroup name u = ((s.updateGroup name u).1, (s.updateGroup name u).2.veil) := by
  cases s with
  | memory m => exact congrArg ofMemory (m.updateGroup_veil name u)
  | database db => exact congrArg ofDatabase (db.updateGroup_veil name u)

theorem deleteGroups_veil (names : List String) :
    s.veil.deleteGroups names = ((s.deleteGroups names).1, (s.deleteGroups names).2.veil) := by
  cases s with
  | memory m => rfl
  | database db => exact congrArg ofDatabase (db.deleteGroups_veil names)

theorem upsertEntity_veil (e : EntityRules) :
    s.veil.upsertEntity e = ((s.upsertEntity e).1, (s.upsertEntity e).2.veil) := by
  cases s with
  | memory m => rfl
  | database db => exact congrArg ofDatabase (db.upsertEntity_veil e)

end Store

namespace StoreCall

variable (s : Store)

/-- A question whose answer is veiled with the store. -/
theorem asked_veil {f : α → StoreAnswer} {g : β → StoreAnswer} {h : α → β} {r : Answer α}
    {r' : Answer β} (hr : r' = r.map h) (hf : ∀ a, g (h a) = (f a).veil) :
    asked g r' s.veil = ((asked f r s).1.map StoreAnswer.veil, (asked f r s).2.veil) := by
  subst hr
  cases r with
  | error e => rfl
  | ok a => exact congrArg (fun x => (Except.ok x, s.veil)) (hf a)

/-- A change that answers without hashes if there are none in the store. -/
theorem changed_veil {f : α → StoreAnswer} {g : β → StoreAnswer} {h : α → β} {r : Answer α × Store}
    {r' : Answer β × Store} (hr : r' = (r.1.map h, r.2.veil)) (hf : ∀ a, g (h a) = (f a).veil) :
    changed g r' = ((changed f r).1.map StoreAnswer.veil, (changed f r).2.veil) := by
  subst hr
  rcases r with ⟨e | a, s'⟩
  · rfl
  · exact congrArg (fun x => (Except.ok x, s'.veil)) (hf a)

/-- Hashes may be taken out before a call or after it. -/
theorem perform_veil (c : StoreCall) :
    c.veil.perform s.veil = ((c.perform s).1.map StoreAnswer.veil, (c.perform s).2.veil) := by
  have hid {α : Type} (r : Answer α) : r = r.map id := by cases r <;> rfl
  have hsame {α : Type} {r : Answer α × Store} {r' : Answer α × Store} (h : r' = (r.1, r.2.veil)) :
      r' = (r.1.map id, r.2.veil) := h.trans (congrArg (·, r.2.veil) (hid r.1))
  cases c with
  | findById id => exact asked_veil s (s.findById_veil id) fun _ => rfl
  | findByUsername name roles => exact asked_veil s (s.findByUsername_veil name roles) fun _ => rfl
  | findByEmail email => exact asked_veil s (s.findByEmail_veil email) fun _ => rfl
  | createUser n => exact changed_veil (s.createUser_veil n) fun _ => rfl
  | updateUser id c => exact changed_veil (s.updateUser_veil id c) fun _ => rfl
  | countUsers names =>
    exact asked_veil s ((s.countUsers_veil names).trans (hid _)) fun _ => rfl
  | findGroups names => exact asked_veil s ((s.findGroups_veil names).trans (hid _)) fun _ => rfl
  | findGroup name =>
    have hfind : s.veil.findGroup name = s.findGroup name := by cases s <;> rfl
    exact asked_veil s (hfind.trans (hid _)) fun _ => rfl
  | createGroup g => exact changed_veil (hsame (s.createGroup_veil g)) fun _ => rfl
  | updateGroup name u => exact changed_veil (hsame (s.updateGroup_veil name u)) fun _ => rfl
  | deleteGroups names => exact changed_veil (hsame (s.deleteGroups_veil names)) fun _ => rfl
  | findEntity name => exact asked_veil s ((s.findEntity_veil name).trans (hid _)) fun _ => rfl
  | listEntities =>
    have hlist : s.veil.listEntities = s.listEntities := by cases s <;> rfl
    exact asked_veil s (hlist.trans (hid _)) fun _ => rfl
  | upsertEntity e => exact changed_veil (hsame (s.upsertEntity_veil e)) fun _ => rfl

end StoreCall

/-- Hashes may be taken out before contents are put into a store or after it. -/
theorem StoreEdit.perform_veil (s : Store) (e : StoreEdit) :
    e.veil.perform s.veil = (e.perform s).veil := by
  cases s with
  | memory m =>
    cases e with
    | user u => exact congrArg Store.memory (m.insertUser_veil u)
    | _ => rfl
  | database db =>
    cases e with
    | user u => rfl
    | userRow r => exact congrArg (fun x => Store.database x.2) (db.insertUserRow_veil r)
    | groupRow r => exact congrArg (fun x => Store.database x.2) (db.insertGroupRow_veil r)
    | entityRow r => exact congrArg (fun x => Store.database x.2) (db.insertEntityRow_veil r)
    | readOnly b => rfl

/-! ### Migrations -/

namespace Database

/-- A step of upkeep is blind to password hashes: they may be taken out before it or after it. -/
def Blind (f : Database → Except Refusal α × Database) : Prop :=
  ∀ db : Database, f db.veil = ((f db).1, (f db).2.veil)

theorem blind_insertAll {ρ : Type} {insert : ρ → Database → Bool × Database} {column : String}
    (h : ∀ r (db : Database), insert r db.veil = ((insert r db).1, (insert r db).2.veil))
    (rows : List ρ) : Blind (Migration.insertAll insert column rows) := by
  induction rows with
  | nil => exact fun _ => rfl
  | cons r rows ih =>
    intro db
    rw [Migration.insertAll, Migration.insertAll, h]
    rcases insert r db with ⟨_ | _, db'⟩
    · rfl
    · exact ih db'

/-- Two steps one after the other, the second one only if the first one succeeds. -/
theorem Blind.andThen {f g : Database → Except Refusal Unit × Database} (hf : Blind f)
    (hg : Blind g) : Blind fun db =>
      match f db with
      | (.ok (), db) => g db
      | failed => failed := by
  intro db
  dsimp only
  rw [hf]
  rcases f db with ⟨_ | ⟨⟩, db'⟩
  · rfl
  · exact hg db'

theorem blind_up (step : Migration) : Blind step.up := by
  intro db
  simp only [Migration.up, readOnly_veil]
  split
  · rfl
  · cases step with
    | usersTable =>
      refine congrArg (Prod.mk _) ?_
      cases hu : db.users <;> simp only [veil, hu] <;> rfl
    | groupsTable => rfl
    | entitiesTable => rfl
    | defaultContents =>
      exact (blind_insertAll (fun r db => db.insertEntityRow_veil r) _).andThen
        (blind_insertAll (fun r db => db.insertGroupRow_veil r) _) db

theorem blind_down (step : Migration) : Blind step.down := by
  intro db
  simp only [Migration.down, readOnly_veil]
  split
  · rfl
  · cases step <;> rfl

theorem blind_startRecord : Blind startRecord := by
  intro db
  have hdamaged : db.veil.damaged = db.damaged := rfl
  have hrecord : db.veil.hasRecord = db.hasRecord := rfl
  simp only [startRecord, hdamaged, hrecord, readOnly_veil]
  repeat' split
  all_goals rfl

theorem blind_applyAll (steps : List Migration) : Blind (applyAll steps) := by
  induction steps with
  | nil => exact fun _ => rfl
  | cons step steps ih =>
    have hrest : Blind fun db => applyAll steps { db with applied := db.applied ++ [step] } :=
      fun db => ih { db with applied := db.applied ++ [step] }
    exact (blind_up step).andThen hrest

theorem blind_revertAll (steps : List Migration) : Blind (revertAll steps) := by
  induction steps with
  | nil => exact fun _ => rfl
  | cons step steps ih =>
    have hrest : Blind fun db =>
        revertAll steps { db with applied := db.applied.filter (· ≠ step) } :=
      fun db => ih { db with applied := db.applied.filter (· ≠ step) }
    exact (blind_down step).andThen hrest

theorem blind_migrateUp (steps : Option Nat) : Blind (migrateUp steps) :=
  blind_startRecord.andThen fun db => blind_applyAll (firstOf steps db.pending) db

theorem blind_migrateDown (steps : Option Nat) : Blind (migrateDown steps) :=
  blind_startRecord.andThen fun db => blind_revertAll (firstOf steps db.recorded.reverse) db

theorem blind_pendingCount : Blind pendingCount := by
  intro db
  simp only [pendingCount, blind_startRecord db]
  rcases db.startRecord with ⟨_ | ⟨⟩, db'⟩ <;> rfl

end Database

end AuthCore
