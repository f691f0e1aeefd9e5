import AuthCore.Text.Blank
import AuthCore.Text.Integer

/-!
# Points in time

A point in time counts seconds since 1970 in UTC and nanoseconds within the second. It is written as
RFC 3339 asks, in UTC, with no more digits of the fraction than needed in steps of three; reading
also takes blanks between the parts and any offset.
-/

namespace AuthCore

/-- A point in time. A leap second has nanoseconds of 1 000 000 000 and more. -/
structure Timestamp where
  /-- Seconds since the start of 1970. -/
  seconds : Int
  /-- Nanoseconds within the second. -/
  nanos : Nat
  deriving DecidableEq, Repr, Inhabited

/-- A day of the Gregorian calendar. -/
structure Day where
  /-- The year; the year before 1 is 0. -/
  year : Int
  /-- The month, from 1. -/
  month : Nat
  /-- The day of the month, from 1. -/
  day : Nat
  deriving DecidableEq, Repr

namespace Day

/-- Days from 1970-01-01, in eras of 400 years that start in March. -/
def number (d : Day) : Int :=
  let y : Int := if d.month ≤ 2 then d.year - 1 else d.year
  let era := y.fdiv 400
  let yoe := (y - era * 400).toNat
  let doy := (153 * ((d.month + 9) % 12) + 2) / 5 + d.day - 1
  let doe := yoe * 365 + yoe / 4 - yoe / 100 + doy
  era * 146097 + doe - 719468

/-- The day with a number. -/
def ofNumber (n : Int) : Day :=
  let z := n + 719468
  let era := z.fdiv 146097
  let doe := (z - era * 146097).toNat
  let yoe := (doe - doe / 1460 + doe / 36524 - doe / 146096) / 365
  let doy := doe - (365 * yoe + yoe / 4 - yoe / 100)
  let mp := (5 * doy + 2) / 153
  let month := if mp < 10 then mp + 3 else mp - 9
  let year : Int := yoe + era * 400
  ⟨if month ≤ 2 then year + 1 else year, month, doy - (153 * mp + 2) / 5 + 1⟩

/-- A year that has a 29 February. -/
def isLeap (year : Int) : Bool := year % 4 = 0 && (year % 100 ≠ 0 || year % 400 = 0)

/-- The number of days of a month. -/
def monthLength (year : Int) (month : Nat) : Nat :=
  if month = 2 then (if isLeap year then 29 else 28)
  else if month = 4 || month = 6 || month = 9 || month = 11 then 30
  else 31

/-- A day that the calendar has, in the years that a point in time covers. -/
def isValid (d : Day) : Bool :=
  -262143 ≤ d.year && d.year ≤ 262142 && 1 ≤ d.month && d.month ≤ 12
    && 1 ≤ d.day && d.day ≤ monthLength d.year d.month

/-- Four digits, or a sign and more when the year is not in 0 to 9999. -/
def yearDigits (year : Int) : List Char :=
  if 0 ≤ year ∧ year ≤ 9999 then Text.paddedDigits 4 year.toNat
  else (if year < 0 then '-' else '+') :: Text.paddedDigits 4 year.natAbs

/-- Year, month and day with dashes between them. -/
def chars (d : Day) : List Char :=
  yearDigits d.year ++ '-' :: Text.paddedDigits 2 d.month ++ '-' :: Text.paddedDigits 2 d.day

end Day

namespace Timestamp

/-- Nanoseconds in a second. -/
def second : Nat := 1000000000

/-- A count of nanoseconds since the start of 1970 as a point in time. -/
def ofNanos (n : Nat) : Timestamp := ⟨(n / second : Nat), n % second⟩

/-- The day, in UTC. -/
def day (t : Timestamp) : Day := .ofNumber (t.seconds.fdiv 86400)

/-- Seconds since midnight, in UTC. -/
def secondOfDay (t : Timestamp) : Nat := (t.seconds.fmod 86400).toNat

/-- The fraction of a second: nothing, or three, six or nine digits. -/
def fractionChars (n : Nat) : List Char :=
  if n = 0 then []
  else if n % 1000000 = 0 then '.' :: Text.paddedDigits 3 (n / 1000000)
  else if n % 1000 = 0 then '.' :: Text.paddedDigits 6 (n / 1000)
  else '.' :: Text.paddedDigits 9 n

/-- Hours, minutes and seconds with a fraction; a leap second is second 60. -/
def clockChars (t : Timestamp) : List Char :=
  let s := t.secondOfDay
  Text.paddedDigits 2 (s / 3600) ++ ':' :: Text.paddedDigits 2 (s / 60 % 60)
    ++ ':' :: Text.paddedDigits 2 (s % 60 + t.nanos / second)
    ++ fractionChars (t.nanos % second)

/-- The RFC 3339 text in UTC. -/
def text (t : Timestamp) : String :=
  String.ofList (t.day.chars ++ 'T' :: t.clockChars ++ ['Z'])

/-- The text of a column without a zone. -/
def columnText (t : Timestamp) : String :=
  String.ofList (t.day.chars ++ ' ' :: t.clockChars)

/-! ### Reading -/

/-- Skips blanks. -/
def skipBlanks (cs : List Char) : List Char := cs.dropWhile Text.isBlank

/-- Up to `width` digits, at least one. -/
def digits? (width : Nat) (cs : List Char) : Option (Nat × List Char) :=
  let ds := (cs.take width).takeWhile fun c => (Text.digit? c).isSome
  (Text.natural? ds).map fun n => (n, cs.drop ds.length)

/-- A number of at most two digits after blanks. -/
def part? (cs : List Char) : Option (Nat × List Char) := digits? 2 (skipBlanks cs)

/-- A year after blanks: four digits at most, or a sign and any number of digits. -/
def year? (cs : List Char) : Option (Int × List Char) :=
  match skipBlanks cs with
  | '-' :: cs => (digits? cs.length cs).map fun (n, cs) => (-(n : Int), cs)
  | '+' :: cs => (digits? cs.length cs).map fun (n, cs) => ((n : Int), cs)
  | cs => (digits? 4 cs).map fun (n, cs) => ((n : Int), cs)

/-- One character, after blanks. -/
def mark? (c : Char) (cs : List Char) : Option (List Char) :=
  match skipBlanks cs with
  | d :: cs => if d = c then some cs else none
  | [] => none

/-- A day. -/
def day? (cs : List Char) : Option (Day × List Char) := do
  let (year, cs) ← year? cs
  let cs ← mark? '-' cs
  let (month, cs) ← part? cs
  let cs ← mark? '-' cs
  let (day, cs) ← part? cs
  let d : Day := ⟨year, month, day⟩
  if d.isValid then some (d, cs) else none

/-- The nanoseconds of a fraction; digits after the ninth are dropped. -/
def fraction? : List Char → Option (Nat × List Char)
  | '.' :: cs =>
    let ds := cs.takeWhile fun c => (Text.digit? c).isSome
    (Text.natural? (ds.take 9)).map fun n => (n * 10 ^ (9 - min 9 ds.length), cs.drop ds.length)
  | cs => some (0, cs)

/-- Seconds since midnight and nanoseconds; second 60 is a leap second. -/
def clock? (cs : List Char) : Option (Nat × Nat × List Char) := do
  let (hour, cs) ← part? cs
  let cs ← mark? ':' cs
  let (minute, cs) ← part? cs
  let cs ← mark? ':' cs
  let (sec, cs) ← part? cs
  let (nanos, cs) ← fraction? cs
  if hour < 24 && minute < 60 && sec ≤ 60 then
    let leap := sec = 60
    some (hour * 3600 + minute * 60 + (if leap then 59 else sec),
      (if leap then second else 0) + nanos, cs)
  else none

/-- The offset from UTC in seconds: `Z`, `UTC`, or a sign, two digits and two digits, with colons
or blanks between them. -/
def offset? (cs : List Char) : Option (Int × List Char) :=
  match cs with
  | 'Z' :: cs => some (0, cs)
  | 'z' :: cs => some (0, cs)
  | sign :: h1 :: h2 :: cs => do
    if [sign, h1, h2].map Char.toLower = ['u', 't', 'c'] then return (0, cs)
    let negative ← if sign = '+' then some false
      else if sign = '-' || sign = '\u2212' then some true else none
    let hours ← Text.natural? [h1, h2]
    let cs := cs.dropWhile fun c => c = ':' || Text.isBlank c
    match cs with
    | m1 :: m2 :: cs =>
      let minutes ← Text.natural? [m1, m2]
      if minutes < 60 && hours < 24 then
        let n : Int := hours * 3600 + minutes * 60
        return (if negative then -n else n, cs)
      else none
    | _ => none
  | _ => none

/-- Reads a point in time in the RFC 3339 form, with blanks allowed between the parts. -/
def ofText? (s : String) : Option Timestamp := do
  let (d, cs) ← day? s.toList
  let cs ← match cs with
    | c :: cs => if c = 'T' || c = 't' || c = ' ' then some cs else none
    | [] => none
  let (sec, nanos, cs) ← clock? cs
  let (offset, cs) ← offset? (skipBlanks cs)
  if cs.isEmpty then some ⟨d.number * 86400 + sec - offset, nanos⟩ else none

/-- Reads the text of a column without a zone. -/
def ofColumnText? (s : String) : Option Timestamp := do
  let (d, cs) ← day? s.toList
  let cs ← match cs with
    | ' ' :: cs => some cs
    | _ => none
  let (sec, nanos, cs) ← clock? cs
  if cs.isEmpty then some ⟨d.number * 86400 + sec, nanos⟩ else none

end Timestamp

end AuthCore
