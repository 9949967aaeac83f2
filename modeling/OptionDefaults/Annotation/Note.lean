import OptionDefaults.Resolution.Pass

/-!
# Notes on filled options

A note explains in words why an option has its default. Each reason but a missing value has a
sentence, and a note strings the sentences of an option together. Notes are found again by the
text with which the line of a member starts: the key in quotes and a colon.
-/

namespace OptionDefaults

/-- The reason as a sentence; a rule without a value has nothing to explain. -/
def Reason.sentence? : Reason → Option String
  | .literal => some "Default value."
  | .defined option => some s!"Default because `{option}` is defined."
  | .notDefined option => some s!"Default because `{option}` is not defined."
  | .matched option value => some s!"Default because `{option}` is {value.compact}."
  | .otherwise option tried =>
    let shown := String.intercalate ", " (tried.map fun pair => pair.1.compact)
    some s!"Default because `{option}` is none of {shown}."
  | .noValue _ => none

/-- A comment for the member of a region that starts with `start`. -/
structure Note where
  region : Region
  start : List Char
  text : String
deriving DecidableEq, Repr

namespace Note

/-- How the line of a member with the key starts. -/
def memberStart (key : String) : List Char := Json.writeString key ++ [':']

/-- The note for an option with these reasons, unless none of them has a sentence. -/
def ofReasons? (region : Region) (name : String) (reasons : List Reason) : Option Note :=
  match reasons.filterMap Reason.sentence? with
  | [] => none
  | sentences => some ⟨region, memberStart name, String.intercalate " " sentences⟩

def ofApplied? (applied : Applied) : Option Note :=
  ofReasons? applied.descriptor.region applied.descriptor.name applied.reasons

end Note

end OptionDefaults
