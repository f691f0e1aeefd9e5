import AuthCore.Store.Database

/-!
# Stores

Where users, groups and the rule catalog are kept: in memory or in a database. Every operation
answers with the store as it is afterwards.
-/

namespace AuthCore

/-- A store of users, groups and catalog entries. -/
inductive Store where
  | memory (m : MemoryStore)
  | database (db : Database)

namespace Store

instance : Inhabited Store := ⟨.memory .empty⟩

/-- An answer and the memory store behind it. -/
def ofMemory (r : α × MemoryStore) : α × Store := (r.1, .memory r.2)

/-- An answer and the database behind it. -/
def ofDatabase (r : α × Database) : α × Store := (r.1, .database r.2)

/-- The user with a number. -/
def findById (s : Store) (id : Int) : Answer (Option User) :=
  match s with
  | memory m => .ok (m.findById id)
  | database db => db.findById id

/-- The user with a username whose role a filter lets pass. -/
def findByUsername (s : Store) (name : Username) (roles : Option (List Role)) :
    Answer (Option User) :=
  match s with
  | memory m => .ok (m.findByUsername name roles)
  | database db => db.findByUsername name roles

/-- The user with an e-mail address. -/
def findByEmail (s : Store) (email : String) : Answer (Option User) :=
  match s with
  | memory m => .ok (m.findByEmail email)
  | database db => db.findByEmail email

/-- Creates a user under the next number. -/
def createUser (n : NewUser) : Store → Answer User × Store
  | memory m => ofMemory (m.createUser n)
  | database db => ofDatabase (db.createUser n)

/-- Updates a user. -/
def updateUser (id : Int) (c : UserChanges) : Store → Answer User × Store
  | memory m => ofMemory (m.updateUser id c)
  | database db => ofDatabase (db.updateUser id c)

/-- How many users are in each of some groups. -/
def countUsers (s : Store) (names : List String) : Answer (OrderedMap String Nat) :=
  match s with
  | memory m => .ok (m.countUsers names)
  | database db => db.countUsers names

/-- The groups with some names. -/
def findGroups (s : Store) (names : List String) : Answer (List Group) :=
  match s with
  | memory m => .ok (m.findGroups names)
  | database db => db.findGroups names

/-- The group with a name. -/
def findGroup (s : Store) (name : String) : Answer (Option Group) :=
  match s with
  | memory m => .ok (m.findGroup name)
  | database db => db.findGroup name

/-- Creates a group, unless its name is taken. -/
def createGroup (g : Group) : Store → Answer Group × Store
  | memory m => ofMemory (m.createGroup g)
  | database db => ofDatabase (db.createGroup g)

/-- Updates a group. -/
def updateGroup (name : String) (u : GroupUpdate) : Store → Answer Group × Store
  | memory m => ofMemory (m.updateGroup name u)
  | database db => ofDatabase (db.updateGroup name u)

/-- Deletes the groups with some names; the answer is how many there were. -/
def deleteGroups (names : List String) : Store → Answer Nat × Store
  | memory m => let (n, m) := m.deleteGroups names; (.ok n, .memory m)
  | database db => ofDatabase (db.deleteGroups names)

/-- The rules of an entity. -/
def findEntity (s : Store) (name : String) : Answer (Option EntityRules) :=
  match s with
  | memory m => .ok (m.findEntity name)
  | database db => db.findEntity name

/-- The whole catalog. -/
def listEntities (s : Store) : Answer (List EntityRules) :=
  match s with
  | memory m => .ok m.listEntities
  | database db => db.listEntities

/-- Puts the rules of an entity into the catalog, in the place of old ones. -/
def upsertEntity (e : EntityRules) : Store → Answer Unit × Store
  | memory m => (.ok (), .memory (m.upsertEntity e))
  | database db => ofDatabase (db.upsertEntity e)

end Store

end AuthCore
