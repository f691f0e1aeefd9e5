import AuthCore.Http.Address
import AuthCore.Text.Integer
import AuthCore.Text.Percent

/-!
# Addresses of Redis servers

Which addresses name a server. `redis` and `valkey` name a host, and perhaps a user, a port and the
number of a database; `unix`, `redis+unix` and `valkey+unix` name a socket by its path. Encrypted
connections are not provided for, so the schemes for them are refused.
-/

namespace AuthCore.RedisAddress

open Address (splitScheme? significant isAuthority splitUser splitPort)

/-- A part of an address that is followed by a query or a fragment. -/
def beforeQuery (cs : List Char) : List Char := cs.takeWhile fun c => c != '?' && c != '#'

/-- The names and values of the query of an address. -/
def query (cs : List Char) : List (String × String) :=
  let cs := cs.takeWhile (· != '#')
  Text.queryPairs (String.ofList ((cs.dropWhile (· != '?')).drop 1))

/-- The last value of a name in a query. -/
def last? (name : String) (pairs : List (String × String)) : Option String :=
  pairs.reverse.lookup name

/-- Whether the version of the protocol is known, if one is asked for. -/
def hasProtocol (pairs : List (String × String)) : Bool :=
  (last? "protocol" pairs).all fun v => ["2", "resp2", "3", "resp3"].contains v

/-- Whether a text is the number of a database. -/
def isDatabase (s : String) : Bool := (Text.signed? 64 s).isSome

/-- The names of a path after the steps to the same and to the upper directory are taken. -/
def normalNames (names : List (List Char)) : List (List Char) :=
  (names.foldl (fun (done : List (List Char)) name =>
    if name == ['.'] then done
    else if name == ['.', '.'] then done.drop 1
    else name :: done) []).reverse

/-- The path without the slashes around it. -/
def innerPath (path : List Char) : String :=
  let path := ['/'].intercalate (normalNames (path.splitOn '/'))
  String.ofList ((path.dropWhile (· == '/')).reverse.dropWhile (· == '/')).reverse

/-- Whether a part of the authority stands for a text. -/
def isText (cs : List Char) : Bool := (Text.percentDecode? (String.ofList cs)).isSome

/-- Whether what is behind the scheme names a host. -/
def isHost (rest : List Char) : Bool :=
  match rest with
  | '/' :: '/' :: rest =>
    let authority := (beforeQuery rest).takeWhile (· != '/')
    let (user, place) := splitUser authority
    let path := innerPath ((beforeQuery rest).dropWhile (· != '/'))
    isAuthority false authority && !(splitPort false place).1.isEmpty && user.all isText
      && (path = "" || isDatabase path) && hasProtocol (query rest)
  | _ => false

/-- Whether what is behind the scheme names a socket. -/
def isSocket (rest : List Char) : Bool :=
  let pairs := query rest
  let named := match rest with
    | '/' :: '/' :: rest =>
      let authority := (beforeQuery rest).takeWhile (· != '/')
      let host := (splitPort false (splitUser authority).2).1
      isAuthority false authority && (host.isEmpty || host == "localhost".toList)
        && ((beforeQuery rest).dropWhile (· != '/')).head? == some '/'
    | '/' :: _ => true
    | _ => false
  named && (last? "db" pairs).all isDatabase && hasProtocol pairs

/-- Whether an address names a server. -/
def isServer (url : String) : Bool :=
  match splitScheme? (significant url) with
  | some (scheme, rest) =>
    if ["redis", "valkey"].contains scheme then isHost rest
    else ["unix", "redis+unix", "valkey+unix"].contains scheme && isSocket rest
  | none => false

end AuthCore.RedisAddress
