import OptionDefaults.Json.Basic

/-!
# Equality of JSON values

Two values are alike when they say the same: arrays element by element, objects whatever the order
of their members, doubles as numbers. An integer is never alike a double. Objects are compared by
pairing off members: every member of the first takes the member of the second with its key away,
and nothing may be left over.
-/

namespace OptionDefaults

/-- Equality of numbers, without regard to the sign of a double zero. -/
def JsonNumber.alike : JsonNumber → JsonNumber → Bool
  | .integer a, .integer b => a == b
  | .double a, .double b => a.SameValue b
  | _, _ => false

namespace Json

/-- The members without the first one that has the key. -/
def without (key : String) (members : List (String × Json)) : List (String × Json) :=
  members.eraseP (·.1 == key)

mutual

/-- Equality of values without regard to the order of members. -/
def alike : Json → Json → Bool
  | .null, .null => true
  | .bool a, .bool b => a == b
  | .number a, .number b => a.alike b
  | .string a, .string b => a == b
  | .array xs, .array ys => alikeItems xs ys
  | .object ms, .object ns => alikeMembers ms ns
  | _, _ => false

def alikeItems : List Json → List Json → Bool
  | [], [] => true
  | x :: xs, y :: ys => alike x y && alikeItems xs ys
  | _, _ => false

def alikeMembers : List (String × Json) → List (String × Json) → Bool
  | [], ns => ns.isEmpty
  | (k, v) :: ms, ns =>
    match member? k ns with
    | some w => alike v w && alikeMembers ms (without k ns)
    | none => false

end

theorem number_alike_refl : ∀ n : JsonNumber, n.alike n = true
  | .integer _ => by simp [JsonNumber.alike]
  | .double x => by simp [JsonNumber.alike, Binary64.SameValue.refl x]

mutual

theorem alike_refl : ∀ v : Json, alike v v = true
  | .null => rfl
  | .bool _ => by simp [alike]
  | .number n => by simp [alike, number_alike_refl n]
  | .string _ => by simp [alike]
  | .array xs => by rw [alike]; exact alikeItems_refl xs
  | .object ms => by rw [alike]; exact alikeMembers_refl ms

theorem alikeItems_refl : ∀ xs : List Json, alikeItems xs xs = true
  | [] => rfl
  | x :: xs => by rw [alikeItems, alike_refl x, alikeItems_refl xs]; rfl

theorem alikeMembers_refl : ∀ ms : List (String × Json), alikeMembers ms ms = true
  | [] => rfl
  | (k, v) :: ms => by
    simp [alikeMembers, member?, without, alike_refl v, alikeMembers_refl ms]

end

end Json

end OptionDefaults
