import OptionDefaults.Document.Basic

/-!
# Default rules and policies

A rule says where the default of an option comes from: a value of its own, whether another option
is present in the root region, or the value of another option in the region of the owner. A policy
is one rule, or a list of rules whose values are merged. A branch that a rule leaves out gives no
value, which is not the value `null`.
-/

namespace OptionDefaults

inductive Rule where
  /-- Always this value. -/
  | literal (value : Json)
  /-- One value when the root option is present, another one when it is not. -/
  | presence (option : String) (defined : Json) (notDefined : Option Json)
  /-- The second value of the first pair whose first value is the one that the option has. -/
  | multiValue (option : String) (pairs : List (Json × Json)) (otherwise : Option Json)
deriving DecidableEq, Repr

namespace Rule

/-- The option that the rule looks at, and the region where: presence is a matter of the root
region, values are compared in the region of the owner. -/
def reads (owner : Region) : Rule → Option (String × Region)
  | .literal _ => none
  | .presence option _ _ => some (option, .root)
  | .multiValue option _ _ => some (option, owner)

end Rule

/-- A single rule, or rules whose values are merged in their order. -/
inductive Policy where
  | single (rule : Rule)
  | merged (rules : List Rule)
deriving DecidableEq, Repr

def Policy.rules : Policy → List Rule
  | .single rule => [rule]
  | .merged rules => rules

end OptionDefaults
