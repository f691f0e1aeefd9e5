/-!
# Command lines

The words of a command line are options and other words. An option has a long name behind two
dashes, and perhaps a short one of a single letter behind one. Its value, if it takes one, is behind
an equals sign or is the next word, which then does not start with a dash; behind a short name it
may also follow directly. No option is given twice. After a word of two dashes nothing is an option.
-/

namespace AuthCore

/-- An option that a command knows. -/
structure OptionRule where
  /-- The long name. -/
  name : String
  /-- The short name. -/
  short : Option Char
  /-- Which values it takes, if it takes one. -/
  accepts : Option (String → Bool)

/-- Why a command line is not carried out. -/
inductive Refused where
  /-- It is wrong. -/
  | misuse
  /-- It asks for help. -/
  | help
  /-- It asks for the version. -/
  | version
  deriving DecidableEq, Repr

/-- The words of a command line that were read so far. -/
structure Arguments where
  /-- The options with their values; those without a value have an empty one. -/
  options : List (String × String)
  /-- The other words. -/
  words : List String
  /-- The words behind a word of two dashes. -/
  escaped : List String

namespace Arguments

/-- No words. -/
def empty : Arguments := ⟨[], [], []⟩

/-- The value of an option. -/
def value? (a : Arguments) (name : String) : Option String := a.options.lookup name

/-- Whether an option is given. -/
def has (a : Arguments) (name : String) : Bool := (a.value? name).isSome

/-- Takes an option. -/
def take (r : OptionRule) (value : String) (a : Arguments) : Except Refused Arguments :=
  if a.has r.name || (r.accepts.map fun f => !f value).getD false then .error .misuse
  else .ok { a with options := a.options ++ [(r.name, value)] }

/-- Whether a word may be the value of an option in front of it. -/
def isValue (word : String) : Bool := word = "-" || word.toList.head? != some '-'

/-- What an option takes from the words behind it. -/
def valueAhead (rest : List String) : Except Refused (String × List String) :=
  match rest with
  | word :: rest => if isValue word then .ok (word, rest) else .error .misuse
  | [] => .error .misuse

/-- Reads a long option. -/
def long (rules : List OptionRule) (body : List Char) (rest : List String) (a : Arguments) :
    Except Refused (Arguments × List String) := do
  let name := String.ofList (body.takeWhile (· != '='))
  let attached := match body.dropWhile (· != '=') with
    | [] => none
    | _ :: value => some (String.ofList value)
  match rules.find? fun r => r.name == name with
  | none => throw .misuse
  | some r =>
    match r.accepts, attached with
    | none, some _ => throw .misuse
    | none, none => return (← a.take r "", rest)
    | some _, some value => return (← a.take r value, rest)
    | some _, none =>
      let (value, rest) ← valueAhead rest
      return (← a.take r value, rest)

/-- What a request for help or for the version asks for. -/
def asks? (hasVersion : Bool) (word : String) : Option Refused :=
  if word = "--help" || word = "-h" then some .help
  else if hasVersion && (word = "--version" || word = "-V") then some .version
  else none

/-- Reads short options; one that takes a value takes all that follows it in the word. -/
def short (rules : List OptionRule) (hasVersion : Bool) (rest : List String) :
    List Char → Arguments → Except Refused (Arguments × List String)
  | [], a => .ok (a, rest)
  | c :: cs, a =>
    match asks? hasVersion (String.ofList ['-', c]), rules.find? fun r => r.short == some c with
    | some r, _ => .error r
    | none, none => .error .misuse
    | none, some r =>
      match r.accepts, cs with
      | none, cs => do short rules hasVersion rest cs (← a.take r "")
      | some _, [] => do
        let (value, rest) ← valueAhead rest
        return (← a.take r value, rest)
      | some _, '=' :: value => do return (← a.take r (String.ofList value), rest)
      | some _, value => do return (← a.take r (String.ofList value), rest)

/-- Reads words one after the other, up to a given number of words that are no options; the answer
is what was read and the words that were not looked at. -/
def read (rules : List OptionRule) (hasVersion : Bool) (limit : Nat) :
    Nat → List String → Arguments → Except Refused (Arguments × List String)
  | 0, rest, a => .ok (a, rest)
  | _ + 1, [], a => .ok (a, [])
  | fuel + 1, word :: rest, a =>
    if a.words.length = limit then .ok (a, word :: rest)
    else
      match asks? hasVersion word with
      | some r => .error r
      | none =>
        match word.toList with
        | ['-', '-'] => .ok ({ a with escaped := rest }, [])
        | '-' :: '-' :: body => do
          let (a, rest) ← long rules body rest a
          read rules hasVersion limit fuel rest a
        | '-' :: c :: body => do
          let (a, rest) ← short rules hasVersion rest (c :: body) a
          read rules hasVersion limit fuel rest a
        | _ => read rules hasVersion limit fuel rest { a with words := a.words ++ [word] }

/-- Reads the options in front of the name of a command, the name, and the rest. -/
def splitCommand (rules : List OptionRule) (line : List String) :
    Except Refused (Arguments × Option String × List String) := do
  let (a, rest) ← read rules true 1 (line.length + 1) line .empty
  if a.escaped.isEmpty then return (a, a.words.head?, rest) else throw .misuse

/-- Reads all words behind the name of a command, which takes a given number of words that are no
options. -/
def readAll (rules : List OptionRule) (words : Nat) (rest : List String) :
    Except Refused Arguments := do
  let (a, _) ← read rules false (rest.length + 1) (rest.length + 1) rest .empty
  if a.words.length + a.escaped.length = words then
    return { a with words := a.words ++ a.escaped }
  else throw .misuse

end Arguments

end AuthCore
