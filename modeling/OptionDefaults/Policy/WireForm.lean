import OptionDefaults.Policy.Basic

/-!
# Policies as JSON values

In a table a policy is a value of loose shape. An object with exactly the members `option`, a
string, and `conditions`, an object, is a conditional rule; an array is a list of rules; anything
else is a literal. `Policy.ofJson?` reads that form and `Policy.toJson` writes it.

A conditional rule with the condition `defined` asks for presence and does not look at `values`.
-/

namespace OptionDefaults

inductive PolicyFault where
  | noRules
  /-- An object that is no condition was read as one. -/
  | notConditional
  | noBranch (option : String)
  | pairsNotAnArray (option : String) (found : Json)
  | pairNotAnArray (option : String) (found : Json)
  | pairLength (option : String) (count : Nat)
deriving DecidableEq, Repr

def PolicyFault.message : PolicyFault → String
  | .noRules => "default rule list must not be empty"
  | .notConditional => "condition needs a string `option` and a `conditions` object"
  | .noBranch option => s!"conditions on `{option}` need `defined` or `values`"
  | .pairsNotAnArray option found =>
    s!"`values` for `{option}` must be an array, found {found.compact}"
  | .pairNotAnArray option found =>
    s!"value pair for `{option}` must be an array, found {found.compact}"
  | .pairLength option count =>
    s!"value pair for `{option}` must have 2 entries, found {count}"

namespace Rule

/-- Whether there are exactly the members `option`, a string, and `conditions`, an object. -/
def isConditional (members : List (String × Json)) : Bool :=
  members.length == 2 && (Json.member? "option" members).any Json.isString &&
    (Json.member? "conditions" members).any Json.isObject

/-- A value to compare with and the value that follows from it. -/
def pairOfJson? (option : String) : Json → Except PolicyFault (Json × Json)
  | .array [compared, result] => .ok (compared, result)
  | .array items => .error (.pairLength option items.length)
  | found => .error (.pairNotAnArray option found)

/-- The rule with these conditions on an option. -/
def ofConditions? (option : String) (conditions : List (String × Json)) : Except PolicyFault Rule :=
  match Json.member? "defined" conditions with
  | some defined => .ok (.presence option defined (Json.member? "notDefined" conditions))
  | none =>
    match Json.member? "values" conditions with
    | some (.array items) =>
      (items.mapM (pairOfJson? option)).map fun pairs =>
        .multiValue option pairs (Json.member? "otherwise" conditions)
    | some found => .error (.pairsNotAnArray option found)
    | none => .error (.noBranch option)

def ofConditional? (members : List (String × Json)) : Except PolicyFault Rule :=
  match Json.member? "option" members, Json.member? "conditions" members with
  | some (.string option), some (.object conditions) => ofConditions? option conditions
  | _, _ => .error .notConditional

def ofJson? : Json → Except PolicyFault Rule
  | .object members =>
    if isConditional members then ofConditional? members else .ok (.literal (.object members))
  | v => .ok (.literal v)

def conditionalJson (option : String) (conditions : List (String × Json)) : Json :=
  .object [("option", .string option), ("conditions", .object conditions)]

/-- The rule as a value. A branch that is left out is not written. -/
def toJson : Rule → Json
  | .literal v => v
  | .presence option defined notDefined =>
    conditionalJson option (("defined", defined) :: (notDefined.map ("notDefined", ·)).toList)
  | .multiValue option pairs otherwise =>
    conditionalJson option
      (("values", .array (pairs.map fun (compared, result) => .array [compared, result])) ::
        (otherwise.map ("otherwise", ·)).toList)

end Rule

namespace Policy

/-- The policy that a value describes; of a list the first bad rule is reported. -/
def ofJson? : Json → Except PolicyFault Policy
  | .array [] => .error .noRules
  | .array items => (items.mapM Rule.ofJson?).map .merged
  | v => (Rule.ofJson? v).map .single

def toJson : Policy → Json
  | .single rule => rule.toJson
  | .merged rules => .array (rules.map Rule.toJson)

end Policy

end OptionDefaults
