import AuthCore.Store.Memory
import AuthCore.Store.Row

/-!
# The database store

Users, groups and the rule catalog as rows of tables. A table may be missing, and the database may
be read-only; an operation that needs a missing table, or a write to a read-only database, is a
fault of that operation and changes nothing. User numbers are never used twice, for as long as they
can be written with 32 bits; addresses, phone numbers, group names and entity names are unique.
-/

namespace AuthCore

/-- The table of users. -/
structure UserTable where
  /-- The rows. -/
  rows : List UserRow
  /-- The greatest number ever used; at least zero. -/
  lastId : Int
  deriving Inhabited

/-- A step of setting up a database. -/
inductive Migration where
  /-- Creates the table of users. -/
  | usersTable
  /-- Creates the table of groups. -/
  | groupsTable
  /-- Creates the table of the rule catalog. -/
  | entitiesTable
  /-- Puts in the default catalog and groups. -/
  | defaultContents
  deriving DecidableEq, Repr

/-- A database. -/
structure Database where
  /-- Whether there is a record of the applied migrations. -/
  hasRecord : Bool
  /-- The migrations that are recorded as applied. -/
  applied : List Migration
  /-- The users, if their table exists. -/
  users : Option UserTable
  /-- The groups, if their table exists. -/
  groups : Option (List GroupRow)
  /-- The rule catalog, if its table exists. -/
  entities : Option (List EntityRow)
  /-- Whether writes are refused. -/
  readOnly : Bool
  /-- Whether the file is no database at all; then there are no tables either. -/
  damaged : Bool := false
  deriving Inhabited

namespace UserTable

/-- The table without rows. -/
def empty : UserTable := ⟨[], 0⟩

/-- The table with a row whose number is set. -/
def insert (r : UserRow) (t : UserTable) : UserTable := ⟨t.rows ++ [r], max t.lastId r.id⟩

/-- The table with every row of a number replaced. -/
def replace (r : UserRow) (t : UserTable) : UserTable :=
  { t with rows := t.rows.map fun s => if s.id == r.id then r else s }

end UserTable

namespace Database

/-- A database that holds nothing. -/
def empty : Database := ⟨false, [], none, none, none, false, false⟩

/-- What is no database. -/
def broken : Database := { empty with damaged := true }

/-- The rows of a table that has to be there. -/
def need (fault : DatabaseFault) (table : Option α) : Answer α := orFault fault table

/-! ### Users -/

/-- Reads the first user row that passes a test. -/
def findUser (sought : String) (test : UserRow → Bool) (db : Database) : Answer (Option User) := do
  let t ← need (.findUser sought) db.users
  match t.rows.find? test with
  | none => return none
  | some r => return some (← r.toUser (.findUser sought))

/-- The user with a number. -/
def findById (db : Database) (id : Int) : Answer (Option User) :=
  db.findUser (Text.showInt id) fun r => r.id == id

/-- The user with a username whose role a filter lets pass. -/
def findByUsername (db : Database) (name : Username) (roles : Option (List Role)) :
    Answer (Option User) :=
  db.findUser name.value fun r => r.hasUsername name && r.hasRole roles

/-- The user with an e-mail address. -/
def findByEmail (db : Database) (email : String) : Answer (Option User) :=
  db.findUser email fun r => r.email == some email

/-- Puts a row as it is, unless the database refuses it; the answer is whether it did not. -/
def insertUserRow (r : UserRow) (db : Database) : Bool × Database :=
  match db.users with
  | none => (false, db)
  | some t =>
    if db.readOnly || t.rows.any r.clashes then (false, db)
    else (true, { db with users := some (t.insert r) })

/-- Creates a user under the next number. -/
def createUser (n : NewUser) (db : Database) : Answer User × Database :=
  match db.users with
  | none => (.error (.database .createUser), db)
  | some t =>
    let r := UserRow.ofNew n (t.lastId + 1)
    let (done, db) := db.insertUserRow r
    if done then (r.toUser .createUser, db) else (.error (.database .createUser), db)

/-- Updates a user whose row can be read. -/
def updateUser (id : Int) (c : UserChanges) (db : Database) : Answer User × Database :=
  match db.users with
  | none => (.error (.database (.findUser (Text.showInt id))), db)
  | some t =>
    match t.rows.find? fun r => r.id == id with
    | none => (.error (.auth .userNotFound), db)
    | some r =>
      match r.times (.findUser (Text.showInt id)) with
      | .error e => (.error e, db)
      | .ok _ =>
        if db.readOnly then (.error (.database (.updateUser id)), db)
        else
          let r := r.update c
          (r.toUser (.updateUser id), { db with users := some (t.replace r) })

/-- How many users are in each of some groups. All rows are read before their groups are. -/
def countUsers (db : Database) (names : List String) : Answer (OrderedMap String Nat) := do
  let t ← need .countGroups db.users
  let _ ← t.rows.mapM (UserRow.times .countGroups)
  let lists ← t.rows.mapM fun r => readColumn (Json.list? Json.string?) "users.groups" r.groups
  return tally names lists

/-! ### Groups -/

/-- The groups with some names. -/
def findGroups (db : Database) (names : List String) : Answer (List Group) := do
  if names.isEmpty then return []
  let rows ← need .findGroups db.groups
  (rows.filter fun r => names.contains r.name).mapM GroupRow.toGroup

/-- The group with a name. -/
def findGroup (db : Database) (name : String) : Answer (Option Group) := do
  let rows ← need (.findGroup name) db.groups
  match rows.find? fun r => r.name == name with
  | none => return none
  | some r => return some (← r.toGroup)

/-- Puts a row as it is, unless the database refuses it; the answer is whether it did not. -/
def insertGroupRow (r : GroupRow) (db : Database) : Bool × Database :=
  match db.groups with
  | none => (false, db)
  | some rows =>
    if db.readOnly || rows.any (fun s => s.name == r.name) then (false, db)
    else (true, { db with groups := some (rows ++ [r]) })

/-- Creates a group, unless its name is taken. -/
def createGroup (g : Group) (db : Database) : Answer Group × Database :=
  match db.findGroup g.name with
  | .error e => (.error e, db)
  | .ok (some _) => (.error (.auth (.groupExists g.name)), db)
  | .ok none =>
    let r := GroupRow.ofGroup g
    let (done, db) := db.insertGroupRow r
    if done then (r.toGroup, db) else (.error (.database .createGroup), db)

/-- Updates a group. -/
def updateGroup (name : String) (u : GroupUpdate) (db : Database) : Answer Group × Database :=
  match db.groups with
  | none => (.error (.database (.findGroup name)), db)
  | some rows =>
    match rows.find? fun r => r.name == name with
    | none => (.error (.auth (.groupNotFound name)), db)
    | some r =>
      if db.readOnly then (.error (.database (.updateGroup name)), db)
      else
        let r := r.update u
        let rows := rows.map fun s => if s.name == name then r else s
        (r.toGroup, { db with groups := some rows })

/-- Deletes the groups with some names; the answer is how many there were. -/
def deleteGroups (names : List String) (db : Database) : Answer Nat × Database :=
  if names.isEmpty then (.ok 0, db)
  else
    match db.groups with
    | none => (.error (.database .deleteGroups), db)
    | some rows =>
      if db.readOnly then (.error (.database .deleteGroups), db)
      else
        let rest := rows.filter fun r => !names.contains r.name
        (.ok (rows.length - rest.length), { db with groups := some rest })

/-! ### The rule catalog -/

/-- The rules of an entity. -/
def findEntity (db : Database) (name : String) : Answer (Option EntityRules) := do
  let rows ← need (.findEntity name) db.entities
  match rows.find? fun r => r.codeName == name with
  | none => return none
  | some r => return some (← r.toRules)

/-- The whole catalog. -/
def listEntities (db : Database) : Answer (List EntityRules) := do
  let rows ← need .listEntities db.entities
  rows.mapM EntityRow.toRules

/-- Puts a row as it is, unless the database refuses it; the answer is whether it did not. -/
def insertEntityRow (r : EntityRow) (db : Database) : Bool × Database :=
  match db.entities with
  | none => (false, db)
  | some rows =>
    if db.readOnly || rows.any (fun s => s.codeName == r.codeName) then (false, db)
    else (true, { db with entities := some (rows ++ [r]) })

/-- Puts the rules of an entity into the catalog, in the place of old ones. -/
def upsertEntity (e : EntityRules) (db : Database) : Answer Unit × Database :=
  let r := EntityRow.ofRules e
  match db.entities with
  | none => (.error (.database (.findEntity e.codeName)), db)
  | some rows =>
    if rows.any fun s => s.codeName == e.codeName then
      if db.readOnly then (.error (.database .updateEntity), db)
      else
        let rows := rows.map fun s => if s.codeName == e.codeName then r else s
        (.ok (), { db with entities := some rows })
    else
      let (done, db) := db.insertEntityRow r
      if done then (.ok (), db) else (.error (.database .createEntity), db)

end Database

end AuthCore
