import OptionDefaults.Numeric.Binary64

/-!
# JSON values

A number is an integer of the 64-bit range, signed or unsigned, or a finite double; the two are
never equal. An object is a list of members in the order in which they are written. Values that
come from a text have distinct keys in every object (`Json.DistinctKeys`); the type itself does
not ask for it.
-/

namespace OptionDefaults

/-- The least integer of a signed, and the first one beyond an unsigned 64-bit word. -/
def ExactInteger.least : Int := -9223372036854775808

def ExactInteger.bound : Int := 18446744073709551616

/-- An integer that fits a signed or an unsigned 64-bit word. -/
structure ExactInteger where
  val : Int
  inRange : ExactInteger.least ≤ val ∧ val < ExactInteger.bound
deriving DecidableEq, Repr

namespace ExactInteger

def ofInt? (n : Int) : Option ExactInteger :=
  if h : least ≤ n ∧ n < bound then some ⟨n, h⟩ else none

theorem ofInt?_val (n : ExactInteger) : ofInt? n.val = some n :=
  dif_pos n.inRange

/-- The decimal digits, after a minus sign for a negative integer. -/
def write (n : ExactInteger) : List Char :=
  if n.val < 0 then '-' :: Nat.toDigits 10 n.val.natAbs else Nat.toDigits 10 n.val.natAbs

end ExactInteger

inductive JsonNumber where
  | integer (value : ExactInteger)
  | double (value : Binary64)
deriving DecidableEq, Repr

inductive Json where
  | null
  | bool (value : Bool)
  | number (value : JsonNumber)
  | string (value : String)
  | array (items : List Json)
  | object (members : List (String × Json))
deriving Inhabited, Repr

namespace Json

/-- A count as a value. One beyond the 64-bit range is given as its digits. -/
def ofNat (n : Nat) : Json :=
  match ExactInteger.ofInt? n with
  | some i => .number (.integer i)
  | none => .string (toString n)

def isArray : Json → Bool
  | .array _ => true
  | _ => false

def isString : Json → Bool
  | .string _ => true
  | _ => false

def isObject : Json → Bool
  | .object _ => true
  | _ => false

/-- The value of the first member with the key. -/
def member? (key : String) (members : List (String × Json)) : Option Json := members.lookup key

theorem mem_of_member? {key : String} {v : Json} {members : List (String × Json)}
    (h : member? key members = some v) : (key, v) ∈ members := by
  obtain ⟨before, after, rfl, -⟩ := List.lookup_eq_some_iff.mp h
  simp

mutual

/-- No object in the value has two members with one key. -/
def DistinctKeys : Json → Prop
  | .array items => DistinctKeysIn items
  | .object members => (members.map Prod.fst).Nodup ∧ DistinctKeysAmong members
  | _ => True

def DistinctKeysIn : List Json → Prop
  | [] => True
  | v :: vs => DistinctKeys v ∧ DistinctKeysIn vs

def DistinctKeysAmong : List (String × Json) → Prop
  | [] => True
  | (_, v) :: ms => DistinctKeys v ∧ DistinctKeysAmong ms

end

mutual

private def same : Json → Json → Bool
  | .null, .null => true
  | .bool a, .bool b => a == b
  | .number a, .number b => a == b
  | .string a, .string b => a == b
  | .array xs, .array ys => sameItems xs ys
  | .object ms, .object ns => sameMembers ms ns
  | _, _ => false

private def sameItems : List Json → List Json → Bool
  | [], [] => true
  | x :: xs, y :: ys => same x y && sameItems xs ys
  | _, _ => false

private def sameMembers : List (String × Json) → List (String × Json) → Bool
  | [], [] => true
  | (k, v) :: ms, (l, w) :: ns => k == l && same v w && sameMembers ms ns
  | _, _ => false

end

mutual

private theorem same_iff : ∀ a b : Json, same a b = true ↔ a = b
  | .array xs, b => by cases b <;> simp [same, sameItems_iff xs]
  | .object ms, b => by cases b <;> simp [same, sameMembers_iff ms]
  | .null, b => by cases b <;> simp [same]
  | .bool _, b => by cases b <;> simp [same]
  | .number _, b => by cases b <;> simp [same]
  | .string _, b => by cases b <;> simp [same]

private theorem sameItems_iff : ∀ xs ys : List Json, sameItems xs ys = true ↔ xs = ys
  | [], ys => by cases ys <;> simp [sameItems]
  | x :: xs, ys => by cases ys <;> simp [sameItems, same_iff x, sameItems_iff xs]

private theorem sameMembers_iff :
    ∀ ms ns : List (String × Json), sameMembers ms ns = true ↔ ms = ns
  | [], ns => by cases ns <;> simp [sameMembers]
  | (k, v) :: ms, ns => by
    cases ns <;> simp [sameMembers, same_iff v, sameMembers_iff ms, Prod.ext_iff]

end

instance : DecidableEq Json := fun a b => decidable_of_iff _ (same_iff a b)

end Json
end OptionDefaults
