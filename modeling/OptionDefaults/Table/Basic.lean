import OptionDefaults.Table.Descriptor

/-!
# Tables of descriptors

A table maps keys to descriptors and is worked through in the order of its keys. Nothing ties a
key to the name of its descriptor, and a table made by hand may describe one option twice.

A rule that looks at an option which a later entry fills is a forward reference: in one pass it
never sees that default.
-/

namespace OptionDefaults

abbrev Table := OrderedMap Descriptor

/-- Whether resolving the descriptor can fill the option `name` of `region`. -/
def Descriptor.fills (d : Descriptor) (name : String) (region : Region) : Bool :=
  d.policy.isSome && d.name == name && d.region == region

/-- The option of a descriptor, and the option filled later that one of its rules looks at. -/
structure ForwardReference where
  option : String
  dependsOn : String
deriving DecidableEq, Repr

namespace Table

/-- The place of the last entry that fills the option. -/
def lastFiller (descriptors : List Descriptor) (name : String) (region : Region) : Option Nat :=
  (descriptors.zipIdx.reverse.find? fun (d, _) => d.fills name region).map Prod.snd

def forwardReference? (descriptors : List Descriptor) (owner : Descriptor) (place : Nat)
    (rule : Rule) : Option ForwardReference := do
  let (option, region) ← rule.reads owner.region
  let filled ← lastFiller descriptors option region
  if place < filled then some ⟨owner.name, option⟩ else none

/-- The forward references of a table, by entry and then by rule. -/
def forwardReferences (table : Table) : List ForwardReference :=
  table.values.zipIdx.flatMap fun (owner, place) =>
    owner.rules.filterMap (forwardReference? table.values owner place)

end Table

end OptionDefaults
