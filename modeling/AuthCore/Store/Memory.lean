import AuthCore.Error.Basic
import AuthCore.User.Basic

/-!
# The memory store

Users, groups and the rule catalog as maps in memory. Users are looked up in ascending order of
their numbers. A number is an integer here; it is written with 32 bits, and what becomes of a store
that has given the greatest of these is left open.
-/

namespace AuthCore

/-- Users by number, groups by name, and the catalog by entity. -/
structure MemoryStore where
  /-- The users. -/
  users : OrderedMap Int User
  /-- The greatest number that a user ever had; at least zero. -/
  lastUser : Int
  /-- The groups. -/
  groups : OrderedMap String Group
  /-- The rule catalog. -/
  entities : OrderedMap String EntityRules

/-- How often each of some names occurs in lists of names; names that do not occur have no entry. -/
def tally (names : List String) (lists : List (List String)) : OrderedMap String Nat :=
  (lists.flatMap fun l => l.filter names.contains).foldl
    (fun m name => m.insert name ((m.get? name).getD 0 + 1)) .empty

namespace MemoryStore

/-- The store without contents. -/
def empty : MemoryStore := ⟨.empty, 0, .empty, .empty⟩

instance : Inhabited MemoryStore := ⟨empty⟩

/-! ### Users -/

/-- Puts a user under its own number. -/
def insertUser (u : User) (s : MemoryStore) : MemoryStore :=
  { s with users := s.users.insert u.id u, lastUser := max s.lastUser u.id }

/-- The user with a number. -/
def findById (s : MemoryStore) (id : Int) : Option User := s.users.get? id

/-- The first user with a username whose role a filter lets pass. -/
def findByUsername (s : MemoryStore) (name : Username) (roles : Option (List Role)) :
    Option User :=
  s.users.values.find? fun u => u.hasUsername name && Role.allowed roles u.role

/-- The first user with an e-mail address. -/
def findByEmail (s : MemoryStore) (email : String) : Option User :=
  s.users.values.find? fun u => u.email == some email

/-- Whether a user has the address or the number of a new one. -/
def clashes (n : NewUser) (u : User) : Bool :=
  (n.email.isSome && u.email == n.email)
    || (n.mobileNumber.isSome && u.mobileNumber == n.mobileNumber)

/-- Creates a user under the next number, unless address or number are taken. -/
def createUser (n : NewUser) (s : MemoryStore) : Answer User × MemoryStore :=
  if s.users.values.any (clashes n) then (.error (.database .duplicateUser), s)
  else
    let u := n.toUser (s.lastUser + 1)
    (.ok u, { s with users := s.users.insert u.id u, lastUser := s.lastUser + 1 })

/-- Updates a user. -/
def updateUser (id : Int) (c : UserChanges) (s : MemoryStore) : Answer User × MemoryStore :=
  match s.users.get? id with
  | none => (.error (.auth .userNotFound), s)
  | some u =>
    let u := c.apply u
    (.ok u, { s with users := s.users.insert id u })

/-- How many users are in each of some groups. -/
def countUsers (s : MemoryStore) (names : List String) : OrderedMap String Nat :=
  tally names (s.users.values.map (·.groups))

/-! ### Groups -/

/-- The groups with some names, in the order of the names. -/
def findGroups (s : MemoryStore) (names : List String) : List Group :=
  names.filterMap s.groups.get?

/-- The group with a name. -/
def findGroup (s : MemoryStore) (name : String) : Option Group := s.groups.get? name

/-- Creates a group, unless its name is taken. -/
def createGroup (g : Group) (s : MemoryStore) : Answer Group × MemoryStore :=
  if s.groups.contains g.name then (.error (.auth (.groupExists g.name)), s)
  else (.ok g, { s with groups := s.groups.insert g.name g })

/-- Updates a group. -/
def updateGroup (name : String) (u : GroupUpdate) (s : MemoryStore) : Answer Group × MemoryStore :=
  match s.groups.get? name with
  | none => (.error (.auth (.groupNotFound name)), s)
  | some g =>
    let g := g.update u
    (.ok g, { s with groups := s.groups.insert name g })

/-- Deletes the groups with some names; the answer is how many there were. -/
def deleteGroups (names : List String) (s : MemoryStore) : Nat × MemoryStore :=
  let rest := s.groups.filter fun name _ => !names.contains name
  (s.groups.size - rest.size, { s with groups := rest })

/-! ### The rule catalog -/

/-- The rules of an entity. -/
def findEntity (s : MemoryStore) (name : String) : Option EntityRules := s.entities.get? name

/-- The whole catalog, in the order of the names. -/
def listEntities (s : MemoryStore) : List EntityRules := s.entities.values

/-- Puts the rules of an entity into the catalog, in the place of old ones. -/
def upsertEntity (e : EntityRules) (s : MemoryStore) : MemoryStore :=
  { s with entities := s.entities.insert e.codeName e }

end MemoryStore

end AuthCore
