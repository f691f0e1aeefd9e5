import AuthCore.Text.Hex
import AuthCore.Text.Integer

/-!
# Web addresses

Which texts are absolute addresses. Blanks and control characters around an address are passed over,
as are tabs and line ends inside; a scheme has to be there; what follows depends on it. The common
schemes of the web need a host, which is a name, four numbers, or eight groups between brackets;
letters beyond ASCII in a name are always accepted.
-/

namespace AuthCore.Address

/-- The schemes that need a host. -/
def hostSchemes : List String := ["http", "https", "ws", "wss", "ftp"]

/-- The characters of an address that count. -/
def significant (s : String) : List Char :=
  let inner := (s.toList.dropWhile (·.toNat ≤ 0x20)).reverse.dropWhile (·.toNat ≤ 0x20)
  inner.reverse.filter fun c => c != '\t' && c != '\n' && c != '\r'

/-- A character of a scheme behind the first. -/
def isSchemeChar (c : Char) : Bool := c.isAlphanum || c = '+' || c = '-' || c = '.'

/-- The scheme in lower case and what is behind its colon. -/
def splitScheme? (cs : List Char) : Option (String × List Char) :=
  match cs with
  | [] => none
  | c :: _ =>
    if c.isAlpha then
      match cs.dropWhile isSchemeChar with
      | ':' :: rest => some (String.ofList ((cs.takeWhile isSchemeChar).map Char.toLower), rest)
      | _ => none
    else none

/-! ### Hosts -/

/-- A character that no host may hold. -/
def isForbidden (c : Char) : Bool :=
  c.toNat = 0 || "\t\n\r #/:<>?@[\\]^|".toList.contains c

/-- A character that no name of a host may hold. -/
def isForbiddenInName (c : Char) : Bool :=
  isForbidden c || c.toNat < 0x20 || c = '%' || c.toNat = 0x7F

/-- A text with its percent escapes replaced by their bytes; bytes beyond ASCII become some letter
beyond ASCII. -/
def unescape : List Char → List Char
  | '%' :: a :: b :: cs =>
    match Text.hexValue? a, Text.hexValue? b with
    | some x, some y =>
      (if x * 16 + y < 0x80 then Char.ofNat (x * 16 + y) else '\uFFFD') :: unescape cs
    | _, _ => '%' :: unescape (a :: b :: cs)
  | c :: cs => c :: unescape cs
  | [] => []

/-- The value of digits of a base. -/
def digitsValue? (base : Nat) (cs : List Char) : Option Nat :=
  cs.foldlM (fun n c => ((Text.hexValue? c).filter (· < base)).map fun d => n * base + d) 0

/-- A number as it may stand in an address of four numbers: decimal, octal or hexadecimal. -/
def number? : List Char → Option Nat
  | [] => none
  | '0' :: 'x' :: cs => digitsValue? 16 cs
  | '0' :: 'X' :: cs => digitsValue? 16 cs
  | '0' :: c :: cs => digitsValue? 8 (c :: cs)
  | cs => digitsValue? 10 cs

/-- The parts between points, without an empty last one. -/
def labels (cs : List Char) : List (List Char) :=
  let parts := cs.splitOn '.'
  if 1 < parts.length && (parts.getLast?.map (·.isEmpty)).getD false then parts.dropLast else parts

/-- Whether the last part of a host is a number. -/
def endsInNumber (cs : List Char) : Bool :=
  match (labels cs).getLast? with
  | some l => (!l.isEmpty && l.all Char.isDigit) || (number? l).isSome
  | none => false

/-- Up to four numbers with points between them; the last one fills what the others leave. -/
def isFourNumbers (cs : List Char) : Bool :=
  let parts := labels cs
  match parts.mapM number? with
  | some ns =>
    ns.length ≤ 4 && ns.dropLast.all (· < 256)
      && (ns.getLast?.map fun n => decide (n < 256 ^ (5 - ns.length))).getD false
  | none => false

/-- The number of groups in a part of an address of eight groups; four decimal numbers at the end
count as two. -/
def groupCount? (last : Bool) (cs : List Char) : Option Nat :=
  if cs.isEmpty then some 0
  else
    let parts := cs.splitOn ':'
    let isGroup := fun g : List Char =>
      !g.isEmpty && g.length ≤ 4 && g.all fun c => (Text.hexValue? c).isSome
    let isByte := fun g : List Char =>
      !g.isEmpty && g.length ≤ 3 && (g.length = 1 || g.head? != some '0')
        && ((digitsValue? 10 g).map fun n => decide (n < 256)).getD false
    if parts.all isGroup then some parts.length
    else
      match parts.getLast? with
      | some tail =>
        let bytes := tail.splitOn '.'
        if last && parts.dropLast.all isGroup && bytes.length = 4 && bytes.all isByte then
          some (parts.length + 1)
        else none
      | none => none

/-- The two sides of the first double colon. -/
def splitDouble? : List Char → Option (List Char × List Char)
  | ':' :: ':' :: cs => some ([], cs)
  | c :: cs => (splitDouble? cs).map fun (a, b) => (c :: a, b)
  | [] => none

/-- Eight groups of hexadecimal digits, a double colon standing for one or more zero groups. -/
def isEightGroups (cs : List Char) : Bool :=
  match splitDouble? cs with
  | some (a, b) =>
    match groupCount? false a, groupCount? true b with
    | some m, some n => m + n < 8
    | _, _ => false
  | none => groupCount? true cs == some 8

/-- A host between brackets. -/
def isBracketed (cs : List Char) : Bool :=
  cs.getLast? == some ']' && isEightGroups (cs.drop 1).dropLast

/-- A host of the common schemes. -/
def isHost (cs : List Char) : Bool :=
  if cs.head? == some '[' then isBracketed cs
  else
    let name := unescape cs
    !name.isEmpty && !name.any isForbiddenInName && (!endsInNumber name || isFourNumbers name)

/-- A host of any other scheme. -/
def isOpaqueHost (cs : List Char) : Bool :=
  if cs.head? == some '[' then isBracketed cs else !cs.any isForbidden

/-! ### Authorities -/

/-- Where the host ends: at a colon outside brackets. -/
def splitPort (inBrackets : Bool) : List Char → List Char × List Char
  | [] => ([], [])
  | c :: cs =>
    if c = ':' && !inBrackets then ([], c :: cs)
    else
      let inBrackets := if c = '[' then true else if c = ']' then false else inBrackets
      let (host, rest) := splitPort inBrackets cs
      (c :: host, rest)

/-- Nothing, or a colon and a port. -/
def isPort : List Char → Bool
  | [] => true
  | _ :: ds => ds.all Char.isDigit && (digitsValue? 10 ds).all (· < 65536)

/-- What stands in front of the last `@`, if there is one, and what is behind it. -/
def splitUser (cs : List Char) : Option (List Char) × List Char :=
  if cs.contains '@' then
    let host := (cs.reverse.takeWhile (· != '@')).reverse
    (some (cs.take (cs.length - host.length - 1)), host)
  else (none, cs)

/-- Whether an authority is right: user, host and port. -/
def isAuthority (special : Bool) (cs : List Char) : Bool :=
  let (user, rest) := splitUser cs
  let (host, port) := splitPort false rest
  if special then isHost host && isPort port
  else if host.isEmpty then port.isEmpty && user.all (·.isEmpty)
  else isOpaqueHost host && isPort port

/-- The scheme of an absolute address. -/
def scheme? (s : String) : Option String := do
  let (scheme, rest) ← splitScheme? (significant s)
  let special := hostSchemes.contains scheme
  let isEnd := fun c : Char => c = '/' || c = '?' || c = '#' || (special && c = '\\')
  let authority := fun cs : List Char => cs.takeWhile fun c => !isEnd c
  if special then
    let rest := rest.dropWhile fun c => c = '/' || c = '\\'
    if isAuthority true (authority rest) then some scheme else none
  else if scheme = "file" then some scheme
  else
    match rest with
    | '/' :: '/' :: rest => if isAuthority false (authority rest) then some scheme else none
    | _ => some scheme

/-- Whether a text is an absolute address. -/
def isAbsolute (s : String) : Bool := (scheme? s).isSome

/-- Whether requests can be sent to an address. -/
def isWeb (s : String) : Bool := (scheme? s).any fun scheme => scheme = "http" || scheme = "https"

end AuthCore.Address
