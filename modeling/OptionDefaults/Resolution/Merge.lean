import OptionDefaults.Json.Printer

/-!
# Merging candidates

A single candidate is the default as it stands. Several candidates have to be arrays, or absent,
and are strung together; they give nothing only when all of them are absent, so an empty array is
a value.
-/

namespace OptionDefaults

inductive Merged where
  | value (value : Json)
  | nothing
  /-- One of several candidates is not an array. -/
  | clash
deriving DecidableEq, Repr

def Json.items : Json → List Json
  | .array items => items
  | _ => []

def merge : List (Option Json) → Merged
  | [some v] => .value v
  | [none] => .nothing
  | candidates =>
    let pieces := candidates.filterMap id
    if pieces.any fun piece => !piece.isArray then .clash
    else if pieces.isEmpty then .nothing
    else .value (.array (pieces.flatMap Json.items))

structure MergeError where
  option : String
  candidates : List (Option Json)
deriving DecidableEq, Repr

def MergeError.message (e : MergeError) : String :=
  let shown := String.intercalate ", " (e.candidates.map fun
    | some v => v.compact
    | none => "<no value>")
  s!"Value merging is available only for arrays: `{e.option}` got {shown}"

end OptionDefaults
