import OptionDefaults.Json.Fault
import OptionDefaults.Policy.WireForm

/-!
# Descriptors of options

A descriptor names an option, its region, and the policy of its default if it has one. As a value
it is an object with the members `name`, `inRoot` and `default`, or an array of the same three in
this order; only the name is required, and a default of `null` is no policy. Members are checked
in the order in which the value has them, and other members are not looked at.
-/

namespace OptionDefaults

structure Descriptor where
  name : String
  region : Region
  policy : Option Policy
deriving DecidableEq, Repr

namespace Descriptor

/-- The rules of the policy, and none without a policy. -/
def rules (d : Descriptor) : List Rule :=
  match d.policy with
  | some policy => policy.rules
  | none => []

inductive Fault where
  | mismatch (value : Json.Mismatch)
  | policy (fault : PolicyFault)
  | noName
  | noItems
  | tooManyItems (count : Nat)
deriving DecidableEq, Repr

/-- What messages call a descriptor. -/
def kind : String := "struct OptionDescriptor"

def Fault.message : Fault → String
  | .mismatch m => m.message
  | .policy fault => fault.message
  | .noName => "missing field `name`"
  | .noItems => s!"invalid length 0, expected {kind} with 3 elements"
  | .tooManyItems count => s!"invalid length {count}, expected fewer elements in array"

def nameOfJson? : Json → Except Fault String
  | .string s => .ok s
  | v => .error (.mismatch ⟨v.outline, "a string"⟩)

def regionOfJson? : Json → Except Fault Region
  | .bool true => .ok .root
  | .bool false => .ok .nested
  | v => .error (.mismatch ⟨v.outline, "a boolean"⟩)

def policyOfJson? : Json → Except Fault (Option Policy)
  | .null => .ok none
  | v => ((Policy.ofJson? v).map some).mapError .policy

structure Draft where
  name : Option String := none
  region : Region := .nested
  policy : Option Policy := none
deriving DecidableEq, Repr

def Draft.read (draft : Draft) (member : String × Json) : Except Fault Draft :=
  match member with
  | ("name", v) => (nameOfJson? v).map fun name => { draft with name := some name }
  | ("inRoot", v) => (regionOfJson? v).map fun region => { draft with region }
  | ("default", v) => (policyOfJson? v).map fun policy => { draft with policy }
  | _ => .ok draft

def Draft.finish (draft : Draft) : Except Fault Descriptor :=
  match draft.name with
  | some name => .ok ⟨name, draft.region, draft.policy⟩
  | none => .error .noName

def ofMembers? (members : List (String × Json)) : Except Fault Descriptor :=
  (members.foldlM Draft.read {}).bind Draft.finish

/-- The members that the items of an array stand for. -/
def itemNames : List String := ["name", "inRoot", "default"]

def ofItems? (items : List Json) : Except Fault Descriptor :=
  if items.isEmpty then .error .noItems else
    (ofMembers? (itemNames.zip items)).bind fun d =>
      if items.length ≤ itemNames.length then .ok d else .error (.tooManyItems items.length)

def ofJson? : Json → Except Fault Descriptor
  | .object members => ofMembers? members
  | .array items => ofItems? items
  | v => .error (.mismatch ⟨v.outline, kind⟩)

end Descriptor

end OptionDefaults
