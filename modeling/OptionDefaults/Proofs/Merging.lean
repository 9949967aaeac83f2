import Mathlib.Data.List.ReduceOption
import OptionDefaults.Resolution.Merge

/-!
# What candidates come to

A single candidate is taken as it stands, so it never clashes. Several candidates clash exactly when
one of them is there and is not an array. Whatever their number, candidates come to nothing exactly
when none of them is there: an empty array is a value, and so is `null`. A default made of several
candidates is an array of items of theirs.

Two lists of several candidates can be merged apart and the outcomes strung together, and absent
candidates are not noticed among several. Neither is true of a candidate that stands alone.
-/

namespace OptionDefaults

variable {candidates : List (Option Json)}

theorem merge_of_length_ne_one (h : candidates.length ≠ 1) :
    merge candidates =
      if candidates.reduceOption.any (fun piece => !piece.isArray) then .clash
      else if candidates.reduceOption.isEmpty then .nothing
      else .value (.array (candidates.reduceOption.flatMap Json.items)) := by
  unfold merge
  split
  · exact absurd rfl h
  · exact absurd rfl h
  · rfl

/-- Only several candidates clash, and only over one that is not an array. -/
theorem merge_eq_clash_iff :
    merge candidates = .clash ↔
      2 ≤ candidates.length ∧ ∃ v, some v ∈ candidates ∧ v.isArray = false := by
  by_cases hone : candidates.length = 1
  · obtain ⟨c, rfl⟩ := List.length_eq_one_iff.mp hone
    cases c <;> simp [merge]
  · have hany : candidates.reduceOption.any (fun piece => !piece.isArray) = true ↔
        ∃ v, some v ∈ candidates ∧ v.isArray = false := by
      simp only [List.any_eq_true, List.reduceOption_mem_iff, Bool.not_eq_true']
    rw [merge_of_length_ne_one hone, ← hany]
    split
    next hclash =>
      obtain ⟨v, hv, -⟩ := hany.mp hclash
      have hpos := List.length_pos_of_mem hv
      simp only [hclash, true_iff, and_true]
      omega
    next hclash =>
      refine iff_of_false ?_ fun h => hclash h.2
      split <;> exact Merged.noConfusion

theorem merge_eq_nothing_iff : merge candidates = .nothing ↔ ∀ c ∈ candidates, c = none := by
  by_cases hone : candidates.length = 1
  · obtain ⟨c, rfl⟩ := List.length_eq_one_iff.mp hone
    cases c <;> simp [merge]
  · have hnil : candidates.reduceOption = [] ↔ ∀ c ∈ candidates, c = none :=
      List.filterMap_eq_nil_iff
    rw [merge_of_length_ne_one hone, ← hnil]
    cases candidates.reduceOption with
    | nil => simp
    | cons piece pieces => split <;> simp

/-- A default is a single candidate, or made of the items of array candidates. -/
theorem merge_eq_value {v : Json} (h : merge candidates = .value v) :
    candidates = [some v] ∨
      ∃ items, v = .array items ∧
        ∀ w ∈ items, ∃ piece, some piece ∈ candidates ∧ w ∈ piece.items := by
  by_cases hone : candidates.length = 1
  · obtain ⟨c, rfl⟩ := List.length_eq_one_iff.mp hone
    cases c with
    | none => cases h
    | some w =>
      cases h
      exact .inl rfl
  · rw [merge_of_length_ne_one hone] at h
    split at h
    · cases h
    · split at h
      · cases h
      · cases h
        refine .inr ⟨_, rfl, fun w hw => ?_⟩
        obtain ⟨piece, hpiece, hitem⟩ := List.mem_flatMap.mp hw
        exact ⟨piece, List.reduceOption_mem_iff.mp hpiece, hitem⟩

theorem exists_mem_of_merge_eq_value {v : Json} (h : merge candidates = .value v) :
    ∃ w, some w ∈ candidates := by
  have hsome : ¬∀ c ∈ candidates, c = none := by
    rw [← merge_eq_nothing_iff, h]
    exact Merged.noConfusion
  obtain ⟨c, hc⟩ := Classical.not_forall.mp hsome
  obtain ⟨hmem, hne⟩ := Classical.not_imp.mp hc
  obtain ⟨w, rfl⟩ := Option.ne_none_iff_exists'.mp hne
  exact ⟨w, hmem⟩

/-! ## Merging in parts -/

/-- The items that an outcome holds: those of an array, and none if there is no value. -/
inductive Merged.Holds : Merged → List Json → Prop
  | nothing : Holds .nothing []
  | array (items : List Json) : Holds (.value (.array items)) items

theorem Merged.Holds.eq_array {merged : Merged} {items : List Json} (h : merged.Holds items)
    (hne : merged ≠ .nothing) : merged = .value (.array items) := by
  cases h with
  | nothing => exact absurd rfl hne
  | array items => rfl

/-- Several candidates that do not clash hold the items of all that are there, in order. -/
theorem holds_merge (h : candidates.length ≠ 1) (hclash : merge candidates ≠ .clash) :
    (merge candidates).Holds (candidates.reduceOption.flatMap Json.items) := by
  rw [merge_of_length_ne_one h] at hclash ⊢
  split
  next hany => exact absurd (if_pos hany) hclash
  next =>
    cases candidates.reduceOption with
    | nil => exact .nothing
    | cons piece pieces => exact .array _

section Parts

variable {xs ys : List (Option Json)}

theorem merge_append_eq_clash_iff (hx : 2 ≤ xs.length) (hy : 2 ≤ ys.length) :
    merge (xs ++ ys) = .clash ↔ merge xs = .clash ∨ merge ys = .clash := by
  have hboth : 2 ≤ (xs ++ ys).length := by
    rw [List.length_append]
    omega
  simp only [merge_eq_clash_iff, hx, hy, hboth, true_and, List.mem_append, or_and_right, exists_or]

theorem merge_append_eq_nothing_iff :
    merge (xs ++ ys) = .nothing ↔ merge xs = .nothing ∧ merge ys = .nothing := by
  simp only [merge_eq_nothing_iff, List.forall_mem_append]

/-- Without a clash, the parts hold what the whole does, one after the other. -/
theorem exists_holds_merge_append (hx : 2 ≤ xs.length) (hy : 2 ≤ ys.length)
    (hclash : merge (xs ++ ys) ≠ .clash) :
    ∃ before after, (merge xs).Holds before ∧ (merge ys).Holds after ∧
      (merge (xs ++ ys)).Holds (before ++ after) := by
  have hparts : merge xs ≠ .clash ∧ merge ys ≠ .clash := by
    rwa [ne_eq, merge_append_eq_clash_iff hx hy, not_or] at hclash
  have hlength : (xs ++ ys).length ≠ 1 := by
    rw [List.length_append]
    omega
  have hwhole := holds_merge hlength hclash
  rw [List.reduceOption_append, List.flatMap_append] at hwhole
  exact ⟨_, _, holds_merge (by omega) hparts.1, holds_merge (by omega) hparts.2, hwhole⟩

end Parts

/-- The second list has absent candidates put in and taken out anywhere in the first. -/
inductive Respaced : List (Option Json) → List (Option Json) → Prop
  | nil : Respaced [] []
  | keep (c : Option Json) {cs ds : List (Option Json)} : Respaced cs ds →
      Respaced (c :: cs) (c :: ds)
  | putIn {cs ds : List (Option Json)} : Respaced cs ds → Respaced cs (none :: ds)
  | takeOut {cs ds : List (Option Json)} : Respaced cs ds → Respaced (none :: cs) ds

theorem Respaced.reduceOption_eq {cs ds : List (Option Json)} (h : Respaced cs ds) :
    cs.reduceOption = ds.reduceOption := by
  induction h with
  | nil => rfl
  | keep c _ ih => cases c <;> simp [ih]
  | putIn _ ih => rw [List.reduceOption_cons_of_none, ih]
  | takeOut _ ih => rw [List.reduceOption_cons_of_none, ih]

theorem merge_eq_of_respaced {cs ds : List (Option Json)} (h : Respaced cs ds)
    (hc : 2 ≤ cs.length) (hd : 2 ≤ ds.length) : merge cs = merge ds := by
  have hpieces := h.reduceOption_eq
  rw [merge_of_length_ne_one (by omega), merge_of_length_ne_one (by omega), hpieces]

/-- Several candidates merge as their parts do: a clash in one part is a clash of the whole, the
whole comes to nothing when both parts do, and otherwise it is the array of what the parts hold.
Among several candidates absent ones can be put in and taken out anywhere. -/
theorem merge_in_parts :
    (∀ xs ys : List (Option Json), 2 ≤ xs.length → 2 ≤ ys.length →
      (merge (xs ++ ys) = .clash ↔ merge xs = .clash ∨ merge ys = .clash) ∧
      (merge (xs ++ ys) ≠ .clash →
        (merge (xs ++ ys) = .nothing ↔ merge xs = .nothing ∧ merge ys = .nothing) ∧
        (merge (xs ++ ys) ≠ .nothing → ∃ before after, (merge xs).Holds before ∧
          (merge ys).Holds after ∧ merge (xs ++ ys) = .value (.array (before ++ after))))) ∧
    (∀ cs ds : List (Option Json), Respaced cs ds → 2 ≤ cs.length → 2 ≤ ds.length →
      merge cs = merge ds) := by
  constructor
  · intro xs ys hx hy
    refine ⟨merge_append_eq_clash_iff hx hy, ?_⟩
    intro hclash
    refine ⟨merge_append_eq_nothing_iff, ?_⟩
    intro hnothing
    obtain ⟨before, after, hbefore, hafter, hwhole⟩ := exists_holds_merge_append hx hy hclash
    exact ⟨before, after, hbefore, hafter, hwhole.eq_array hnothing⟩
  · intro cs ds h hc hd
    exact merge_eq_of_respaced h hc hd

/-- An empty array beside an absent candidate, and two absent ones: the first part has a value and
the second has none. -/
theorem merge_parts_of_emptyBesideAbsent :
    2 ≤ [some (Json.array []), none].length ∧
    merge [some (.array []), none] = .value (.array []) ∧ merge [none, none] = .nothing ∧
    (∃ before after, (merge [some (.array []), none]).Holds before ∧
      (merge [none, none]).Holds after ∧
      merge ([some (.array []), none] ++ [none, none]) = .value (.array (before ++ after))) ∧
    merge [none, some (.array []), none, some (.array [.null])] =
      merge [some (.array []), some (.array [.null]), none] := by
  obtain ⟨happend, hrespaced⟩ := merge_in_parts
  obtain ⟨-, hvalue⟩ := happend [some (.array []), none] [none, none] (by decide) (by decide)
  have hwhole : merge ([some (.array []), none] ++ [none, none]) = .value (.array []) := rfl
  rw [hwhole] at hvalue
  refine ⟨by decide, rfl, rfl, ?_, ?_⟩
  · exact hwhole ▸ (hvalue Merged.noConfusion).2 Merged.noConfusion
  · exact hrespaced _ _ (.takeOut (.keep _ (.takeOut (.keep _ (.putIn .nil))))) (by decide) (by decide)

/-- Absent candidates put beside one that stood alone are noticed exactly when it is not an array. -/
theorem merge_eq_alone_iff {c : Option Json} {ds : List (Option Json)} (h : Respaced [c] ds)
    (hd : 2 ≤ ds.length) : merge ds = merge [c] ↔ ∀ v ∈ c, v.isArray = true := by
  have hpieces := h.reduceOption_eq
  rw [merge_of_length_ne_one (by omega), ← hpieces]
  cases c with
  | none => simp [merge]
  | some v => cases v <;> simp [merge, Json.isArray, Json.items]

end OptionDefaults
