import OptionDefaults.Proofs.Alike

/-!
# Alike values cannot be told apart

Being alike is an equivalence of values, for every nesting and also where an object repeats a key.
So a value that is compared with one of two alike values gives the same answer with the other.
-/

namespace OptionDefaults

namespace JsonNumber

theorem alike_symm {m n : JsonNumber} (h : m.alike n = true) : n.alike m = true := by
  cases m <;> cases n <;> simp only [alike, beq_iff_eq, decide_eq_true_eq] at h ⊢
  case integer.integer a b => exact h.symm
  case double.double x y => exact h.symm
  all_goals cases h

theorem alike_trans {l m n : JsonNumber} (h : l.alike m = true) (h' : m.alike n = true) :
    l.alike n = true := by
  cases l <;> cases m <;> cases n <;> simp only [alike, beq_iff_eq, decide_eq_true_eq] at h h' ⊢
  case integer.integer.integer a b c => exact h.trans h'
  case double.double.double x y z => exact h.trans h'
  all_goals contradiction

end JsonNumber

namespace Json

variable {key k : String} {v w : Json} {ms ns os : List (String × Json)}

theorem alikeMembers_cons_iff :
    alikeMembers ((k, v) :: ms) ns = true ↔
      ∃ w, member? k ns = some w ∧ alike v w = true ∧ alikeMembers ms (without k ns) = true := by
  rw [alikeMembers]
  cases member? k ns <;> simp

theorem member?_cons_self (k : String) (v : Json) (ms : List (String × Json)) :
    member? k ((k, v) :: ms) = some v := by
  simp [member?]

theorem member?_cons_of_ne (h : k ≠ key) : member? k ((key, v) :: ms) = member? k ms := by
  rw [member?, OrderedMap.lookup_cons_ite, if_neg h, member?]

theorem without_cons_self (k : String) (v : Json) (ms : List (String × Json)) :
    without k ((k, v) :: ms) = ms := by
  simp [without]

theorem without_cons_of_ne (h : k ≠ key) :
    without k ((key, v) :: ms) = (key, v) :: without k ms := by
  rw [without, List.eraseP_cons_of_neg (by simpa using h.symm), without]

theorem without_comm (h : k ≠ key) (ms : List (String × Json)) :
    without k (without key ms) = without key (without k ms) := by
  apply List.eraseP_comm
  intro m _
  by_cases hk : m.1 = key
  · right
    simpa [hk] using h.symm
  · left
    simpa using hk

/-- A member may be put in front of the second object instead of being paired off there. -/
theorem alikeMembers_cons_right (hw : member? k ns = some w) (h : alike w v = true)
    (hrest : alikeMembers (without k ns) ms = true) : alikeMembers ns ((k, v) :: ms) = true := by
  induction ns generalizing ms with
  | nil => cases hw
  | cons n ns ih =>
    obtain ⟨l, x⟩ := n
    by_cases hl : k = l
    · subst hl
      rw [member?_cons_self] at hw
      obtain rfl := Option.some.inj hw
      rw [without_cons_self] at hrest
      exact alikeMembers_cons_iff.mpr
        ⟨v, member?_cons_self k v ms, h, by rwa [without_cons_self]⟩
    · -- The member in front of `ns` is paired off with one of `ms`, and the rest is shorter.
      rw [member?_cons_of_ne hl] at hw
      rw [without_cons_of_ne hl] at hrest
      obtain ⟨y, hy, hxy, htail⟩ := alikeMembers_cons_iff.mp hrest
      refine alikeMembers_cons_iff.mpr ⟨y, ?_, hxy, ?_⟩
      · rwa [member?_cons_of_ne (Ne.symm hl)]
      · rw [without_cons_of_ne (Ne.symm hl)]
        exact ih hw htail

/-- What one object has under a key is alike what the other has, and so is what is left over. -/
theorem exists_member_of_alikeMembers (h : alikeMembers ns os = true)
    (hv : member? k ns = some v) :
    ∃ w, member? k os = some w ∧ alike v w = true ∧
      alikeMembers (without k ns) (without k os) = true := by
  induction ns generalizing os with
  | nil => cases hv
  | cons n ns ih =>
    obtain ⟨l, x⟩ := n
    obtain ⟨y, hy, hxy, htail⟩ := alikeMembers_cons_iff.mp h
    by_cases hl : k = l
    · subst hl
      rw [member?_cons_self] at hv
      obtain rfl := Option.some.inj hv
      exact ⟨y, hy, hxy, by rwa [without_cons_self]⟩
    · rw [member?_cons_of_ne hl] at hv
      obtain ⟨w, hw, hvw, hrest⟩ := ih htail hv
      rw [member?, lookup_without_of_ne hl] at hw
      refine ⟨w, hw, hvw, ?_⟩
      rw [without_cons_of_ne hl]
      refine alikeMembers_cons_iff.mpr ⟨y, ?_, hxy, ?_⟩
      · rw [member?, lookup_without_of_ne (Ne.symm hl)]
        exact hy
      · rw [without_comm (Ne.symm hl)]
        exact hrest

mutual

theorem alike_symm : ∀ v w : Json, alike v w = true → alike w v = true
  | .array xs, w, h => by
    cases w <;> simp only [alike] at h ⊢
    case array ys => exact alikeItems_symm xs ys h
    all_goals cases h
  | .object ms, w, h => by
    cases w <;> simp only [alike] at h ⊢
    case object ns => exact alikeMembers_symm ms ns h
    all_goals cases h
  | .number m, w, h => by
    cases w <;> simp only [alike] at h ⊢
    case number n => exact JsonNumber.alike_symm h
    all_goals cases h
  | .null, w, h => by cases w <;> simp_all [alike]
  | .bool _, w, h => by cases w <;> simp_all [alike]
  | .string _, w, h => by cases w <;> simp_all [alike]

theorem alikeItems_symm : ∀ xs ys : List Json, alikeItems xs ys = true → alikeItems ys xs = true
  | [], ys, h => by cases ys <;> simp_all [alikeItems]
  | x :: xs, [], h => by cases h
  | x :: xs, y :: ys, h => by
    rw [alikeItems, Bool.and_eq_true] at h ⊢
    exact ⟨alike_symm x y h.1, alikeItems_symm xs ys h.2⟩

theorem alikeMembers_symm :
    ∀ ms ns : List (String × Json), alikeMembers ms ns = true → alikeMembers ns ms = true
  | [], ns, h => by cases ns <;> simp_all [alikeMembers]
  | (k, v) :: ms, ns, h => by
    obtain ⟨w, hw, hvw, hrest⟩ := alikeMembers_cons_iff.mp h
    exact alikeMembers_cons_right hw (alike_symm v w hvw)
      (alikeMembers_symm ms (without k ns) hrest)

end

mutual

theorem alike_trans :
    ∀ u v w : Json, alike u v = true → alike v w = true → alike u w = true
  | .array xs, v, w, h, h' => by
    cases v <;> simp only [alike] at h
    case array ys =>
      cases w <;> simp only [alike] at h' ⊢
      case array zs => exact alikeItems_trans xs ys zs h h'
      all_goals cases h'
    all_goals cases h
  | .object ms, v, w, h, h' => by
    cases v <;> simp only [alike] at h
    case object ns =>
      cases w <;> simp only [alike] at h' ⊢
      case object os => exact alikeMembers_trans ms ns os h h'
      all_goals cases h'
    all_goals cases h
  | .number l, v, w, h, h' => by
    cases v <;> simp only [alike] at h
    case number m =>
      cases w <;> simp only [alike] at h' ⊢
      case number n => exact JsonNumber.alike_trans h h'
      all_goals cases h'
    all_goals cases h
  | .null, v, w, h, h' => by
    cases v <;> simp only [alike] at h
    case null => exact h'
    all_goals cases h
  | .bool a, v, w, h, h' => by
    cases v <;> simp only [alike, beq_iff_eq] at h
    case bool b => exact h ▸ h'
    all_goals cases h
  | .string a, v, w, h, h' => by
    cases v <;> simp only [alike, beq_iff_eq] at h
    case string b => exact h ▸ h'
    all_goals cases h

theorem alikeItems_trans :
    ∀ xs ys zs : List Json, alikeItems xs ys = true → alikeItems ys zs = true →
      alikeItems xs zs = true
  | [], ys, zs, h, h' => by cases ys <;> simp_all [alikeItems]
  | x :: xs, [], zs, h, h' => by cases h
  | x :: xs, y :: ys, [], h, h' => by cases h'
  | x :: xs, y :: ys, z :: zs, h, h' => by
    rw [alikeItems, Bool.and_eq_true] at h h' ⊢
    exact ⟨alike_trans x y z h.1 h'.1, alikeItems_trans xs ys zs h.2 h'.2⟩

theorem alikeMembers_trans :
    ∀ ms ns os : List (String × Json), alikeMembers ms ns = true → alikeMembers ns os = true →
      alikeMembers ms os = true
  | [], ns, os, h, h' => by cases ns <;> simp_all [alikeMembers]
  | (k, u) :: ms, ns, os, h, h' => by
    obtain ⟨v, hv, huv, hrest⟩ := alikeMembers_cons_iff.mp h
    obtain ⟨w, hw, hvw, hrest'⟩ := exists_member_of_alikeMembers h' hv
    exact alikeMembers_cons_iff.mpr ⟨w, hw, alike_trans u v w huv hvw,
      alikeMembers_trans ms (without k ns) (without k os) hrest hrest'⟩

end

def IsAlike (v w : Json) : Prop := alike v w = true

instance (v w : Json) : Decidable (IsAlike v w) := inferInstanceAs (Decidable (alike v w = true))

theorem alike_congr_right (u : Json) (h : v.IsAlike w) : alike u v = alike u w :=
  Bool.eq_iff_iff.mpr
    ⟨fun hu => alike_trans u v w hu h, fun hu => alike_trans u w v hu (alike_symm v w h)⟩

end Json

end OptionDefaults
