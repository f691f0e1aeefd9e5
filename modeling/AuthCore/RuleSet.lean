import AuthCore.OrderedMap
import AuthCore.Json.Decode

/-!
# Sets of rules

A rule is the name of something that can be done to an entity. A set of rules lists them without
repetition in ascending order, so it has one written form.
-/

namespace AuthCore

/-- A set of rule names. -/
structure RuleSet where
  /-- The names as the keys of an ordered map. -/
  names : OrderedMap String Unit
  deriving DecidableEq, Inhabited

namespace RuleSet

/-- The set without rules. -/
def empty : RuleSet := ⟨.empty⟩

/-- The rules in ascending order. -/
def toList (s : RuleSet) : List String := s.names.keys

/-- Whether a rule is in the set. -/
def contains (s : RuleSet) (rule : String) : Bool := s.names.contains rule

/-- The set with one more rule. -/
def insert (s : RuleSet) (rule : String) : RuleSet := ⟨s.names.insert rule ()⟩

/-- The set with all rules of a list put in. -/
def insertAll (s : RuleSet) (rules : List String) : RuleSet := rules.foldl insert s

/-- The set of a list of rules, in any order and with repetitions. -/
def ofList (rules : List String) : RuleSet := empty.insertAll rules

/-- The rules of either set. -/
def union (s t : RuleSet) : RuleSet := s.insertAll t.toList

/-- The written form: an array in ascending order. -/
def toJson (s : RuleSet) : Json := .strings s.toList

/-- Reads an array of rules, in any order and with repetitions. -/
def ofJson? (j : Json) : Option RuleSet := (j.list? Json.string?).map ofList

end RuleSet

end AuthCore
