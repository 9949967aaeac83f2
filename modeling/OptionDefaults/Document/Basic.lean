import OptionDefaults.Json.Alike
import OptionDefaults.Json.Printer
import OptionDefaults.OrderedMap

/-!
# Configuration documents

A document is an object with one distinguished member, the nested options object under the key
`compilerOptions`. It is kept as two regions of options and the place of the nested object among the
members: its members are the root options, with the nested object put back before the root option
that stood after it. Reading the members and writing them is the identity, except that a document
without the nested object gets an empty one at the front.
-/

namespace OptionDefaults

inductive Region where
  | root
  | nested
deriving DecidableEq, Repr

namespace Region

def name : Region → String
  | .root => "Root"
  | .nested => "Nested"

end Region

/-- Options of both regions. `nestedAt` root options stand before the nested object. -/
structure Document where
  root : OrderedMap Json
  nested : OrderedMap Json
  nestedAt : Nat
deriving DecidableEq, Repr

namespace Document

/-- The key of the nested options object. -/
def nestedKey : String := "compilerOptions"

def empty : Document := ⟨∅, ∅, 0⟩

instance : Inhabited Document := ⟨empty⟩

def options (d : Document) : Region → OrderedMap Json
  | .root => d.root
  | .nested => d.nested

def get? (d : Document) (region : Region) (name : String) : Option Json :=
  (d.options region).get? name

/-- Whether the option is present, whatever its value. -/
def isDefined (d : Document) (region : Region) (name : String) : Bool :=
  (d.get? region name).isSome

/-- The document with another set of options in a region. The place of the nested object stays. -/
def replaceRegion (d : Document) (options : OrderedMap Json) : Region → Document
  | .root => { d with root := options }
  | .nested => { d with nested := options }

/-- Writes an option, in place if it is there and else after the others of its region. -/
def set (d : Document) (region : Region) (name : String) (value : Json) : Document :=
  d.replaceRegion ((d.options region).insert name value) region

inductive Fault where
  | nestedNotAnObject (found : Json)
deriving DecidableEq, Repr

def ofMembers? (members : OrderedMap Json) : Except Fault Document :=
  match members.get? nestedKey with
  | none => .ok ⟨members, ∅, 0⟩
  | some (.object options) =>
    .ok ⟨members.erase nestedKey, .ofList options, members.indexOf nestedKey⟩
  | some found => .error (.nestedNotAnObject found)

/-- The members of a document: the nested object stands behind `nestedAt` root options, or behind
all of them if there are fewer. -/
def members (d : Document) : List (String × Json) :=
  d.root.entries.take d.nestedAt ++
    (nestedKey, .object d.nested.entries) :: d.root.entries.drop d.nestedAt

def toJson (d : Document) : Json := .object d.members

def compact (d : Document) : String := d.toJson.compact

def pretty (d : Document) : String := d.toJson.pretty

/-- Documents are alike when both regions are, whatever the order of their options, and the nested
object stands at the same place. -/
def alike (d e : Document) : Bool :=
  Json.alikeMembers d.root.entries e.root.entries &&
    Json.alikeMembers d.nested.entries e.nested.entries && d.nestedAt == e.nestedAt

@[simp] theorem options_replaceRegion (d : Document) (options : OrderedMap Json) (region : Region) :
    (d.replaceRegion options region).options region = options := by
  cases region <;> rfl

@[simp] theorem options_replaceRegion_of_ne (d : Document) (options : OrderedMap Json)
    {region other : Region} (h : other ≠ region) :
    (d.replaceRegion options region).options other = d.options other := by
  cases region <;> cases other
  · exact absurd rfl h
  · rfl
  · rfl
  · exact absurd rfl h

/-- The written option has the written value, and every other option of either region what it had.
-/
theorem get?_set (d : Document) (region other : Region) (name n : String) (value : Json) :
    (d.set region name value).get? other n =
      if other = region ∧ n = name then some value else d.get? other n := by
  by_cases h : other = region
  · subst h
    simp [get?, set, OrderedMap.get?_insert]
  · simp [get?, set, options_replaceRegion_of_ne d _ h, h]

@[simp] theorem nestedAt_set (d : Document) (region : Region) (name : String) (value : Json) :
    (d.set region name value).nestedAt = d.nestedAt := by
  cases region <;> rfl

/-- Without a root option under the key of the nested object all members have keys of their own. -/
theorem nodup_map_fst_members {d : Document} (h : nestedKey ∉ d.root.keys) :
    (d.members.map Prod.fst).Nodup := by
  have hroot := d.root.distinct
  rw [OrderedMap.keys] at h
  rw [← List.take_append_drop d.nestedAt d.root.entries, List.map_append] at h hroot
  rw [List.mem_append, not_or] at h
  rw [members, List.map_append, List.map_cons]
  rw [List.nodup_append] at hroot ⊢
  obtain ⟨htake, hdrop, hdisjoint⟩ := hroot
  refine ⟨htake, List.nodup_cons.mpr ⟨h.2, hdrop⟩, ?_⟩
  intro k hk l hl
  rcases List.mem_cons.mp hl with rfl | hl
  · rintro rfl
    exact h.1 hk
  · exact hdisjoint k hk l hl

end Document

end OptionDefaults
