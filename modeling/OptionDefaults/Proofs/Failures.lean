import OptionDefaults.Proofs.FilledValues
import OptionDefaults.Proofs.Merging
import OptionDefaults.Proofs.Reordering

/-!
# When a pass fails

A visit fails when its option is still to be filled and one of several candidates is not an array.
A pass fails at the first such visit and at nothing else. It leaves what the entries before that one
leave on their own, and it reports what they report. So a table whose lists of rules can give
nothing but arrays resolves every document.
-/

namespace OptionDefaults

namespace Descriptor

variable {d : Descriptor} {D : Document}

/-- The option is to be filled by several rules, and one of them gives a value that is no array. -/
structure ClashesOn (d : Descriptor) (D : Document) : Prop where
  undefined : D.isDefined d.region d.name = false
  several : 2 ≤ d.rules.length
  notAnArray : ∃ rule ∈ d.rules, ∃ v,
    (rule.evaluate D d.region).candidate = some v ∧ v.isArray = false

theorem isSome_policy_of_rules_ne_nil (h : d.rules ≠ []) : d.policy.isSome = true := by
  unfold rules at h
  cases hp : d.policy with
  | some policy => rfl
  | none => simp [hp] at h

theorem candidates_eq (d : Descriptor) (D : Document) :
    (d.evaluate D).map Evaluation.candidate =
      d.rules.map fun rule => (rule.evaluate D d.region).candidate := by
  simp [evaluate]

theorem merged_eq_clash_iff :
    d.merged D = .clash ↔ 2 ≤ d.rules.length ∧ ∃ rule ∈ d.rules, ∃ v,
      (rule.evaluate D d.region).candidate = some v ∧ v.isArray = false := by
  rw [merged, candidates_eq, merge_eq_clash_iff, List.length_map]
  simp only [List.mem_map]
  grind

theorem visit_eq_clash_iff {evaluations : List Evaluation} :
    d.visit D = .clash evaluations ↔
      d.policy.isSome = true ∧ D.isDefined d.region d.name = false ∧
        d.merged D = .clash ∧ evaluations = d.evaluate D := by
  rw [visit_eq]
  cases d.policy <;> cases D.isDefined d.region d.name <;> cases d.merged D <;>
    simp [Visit.ofMerged, eq_comm]

theorem visit_of_clashesOn (h : d.ClashesOn D) : d.visit D = .clash (d.evaluate D) := by
  have hrules : d.rules ≠ [] := by
    have hseveral := h.several
    exact List.ne_nil_of_length_pos (by omega)
  have hmerged := merged_eq_clash_iff.mpr ⟨h.several, h.notAnArray⟩
  exact visit_eq_clash_iff.mpr ⟨isSome_policy_of_rules_ne_nil hrules, h.undefined, hmerged, rfl⟩

theorem isClash_visit_iff : (d.visit D).isClash = true ↔ d.ClashesOn D := by
  constructor
  · intro h
    obtain ⟨evaluations, hv⟩ := Visit.isClash_iff.mp h
    obtain ⟨-, hundefined, hmerged, -⟩ := visit_eq_clash_iff.mp hv
    obtain ⟨hseveral, hnot⟩ := merged_eq_clash_iff.mp hmerged
    exact ⟨hundefined, hseveral, hnot⟩
  · intro h
    exact Visit.isClash_iff.mpr ⟨_, visit_of_clashesOn h⟩

theorem not_clashesOn_of_results (h : 2 ≤ d.rules.length → ∀ rule ∈ d.rules, ∀ v ∈ rule.results,
    v.isArray = true) : ¬d.ClashesOn D := by
  rintro ⟨-, hseveral, rule, hr, v, hv, hnot⟩
  rw [h hseveral rule hr v (Rule.mem_results_of_evaluate hv)] at hnot
  cases hnot

end Descriptor

namespace Pass

variable {D : Document} {key : String} {d : Descriptor} {pre es : List (String × Descriptor)}

/-- A pass that comes to an entry on which it fails stops there: it has the steps before it, that
one, and the document as it was. -/
theorem run_of_clash (h : (run D pre).error? = none) (hd : d.ClashesOn (run D pre).document)
    (post : List (String × Descriptor)) :
    run D (pre ++ (key, d) :: post) =
      ⟨(run D pre).steps ++ [⟨key, d, .clash (d.evaluate (run D pre).document)⟩],
        (run D pre).document⟩ := by
  rw [run_append h, run_cons_of_clash (Descriptor.isClash_visit_iff.mpr hd),
    Descriptor.visit_of_clashesOn hd]

theorem error?_run_of_clash (h : (run D pre).error? = none)
    (hd : d.ClashesOn (run D pre).document) (post : List (String × Descriptor)) :
    (run D (pre ++ (key, d) :: post)).error? = some ⟨d.name,
      d.rules.map fun rule => (rule.evaluate (run D pre).document d.region).candidate⟩ := by
  rw [error?] at h
  rw [run_of_clash h hd, error?, List.findSome?_append, h, ← d.candidates_eq]
  rfl

theorem applied_run_of_clash_after (h : (run D pre).error? = none)
    (hd : d.ClashesOn (run D pre).document) (post : List (String × Descriptor)) :
    (run D (pre ++ (key, d) :: post)).applied = (run D pre).applied := by
  rw [run_of_clash h hd, applied, List.filterMap_append]
  exact List.append_nil _

/-- A pass fails only at an entry that it comes to and that clashes there. -/
theorem exists_clash_of_error? (h : (run D es).error? ≠ none) :
    ∃ pre key d post, es = pre ++ (key, d) :: post ∧ (run D pre).error? = none ∧
      d.ClashesOn (run D pre).document := by
  obtain ⟨e, he⟩ := Option.ne_none_iff_exists'.mp h
  obtain ⟨step, hs, hstep⟩ := List.exists_of_findSome?_eq_some he
  obtain ⟨pre, post, rfl, hpre, hv⟩ := exists_split_of_mem_steps hs
  have hclash : step.visit.isClash = true := by
    rw [← Bool.not_eq_false, ← Step.error?_eq_none_iff, hstep]
    exact Option.some_ne_none e
  rw [hv, Descriptor.isClash_visit_iff] at hclash
  exact ⟨pre, step.key, step.descriptor, post, rfl, hpre, hclash⟩

end Pass

namespace Table

variable {T : Table} {D P : Document} {i : Nat} {d : Descriptor}

def take (T : Table) (i : Nat) : Table :=
  ⟨T.entries.take i, T.distinct.sublist ((List.take_sublist i _).map _)⟩

theorem entries_take (T : Table) (i : Nat) : (T.take i).entries = T.entries.take i := rfl

theorem entries_eq_of_getElem? (h : T.values[i]? = some d) :
    ∃ key, T.entries = (T.take i).entries ++ (key, d) :: T.entries.drop (i + 1) := by
  rw [OrderedMap.values, List.getElem?_map, Option.map_eq_some_iff] at h
  obtain ⟨⟨key, d⟩, he, rfl⟩ := h
  obtain ⟨hi, he⟩ := List.getElem?_eq_some_iff.mp he
  refine ⟨key, ?_⟩
  rw [entries_take, ← he, ← List.drop_eq_getElem_cons hi, List.take_append_drop]

theorem getElem?_values_of_entries_eq {pre post : List (String × Descriptor)} {key : String}
    (h : T.entries = pre ++ (key, d) :: post) :
    T.values[pre.length]? = some d ∧ (T.take pre.length).entries = pre := by
  constructor
  · simp [OrderedMap.values, h]
  · simp [entries_take, h]

theorem resolve_of_results (h : ∀ d ∈ T.values, 2 ≤ d.rules.length → ∀ rule ∈ d.rules,
    ∀ v ∈ rule.results, v.isArray = true) (D : Document) :
    T.resolve D = .ok (T.pass D).document := by
  refine resolve_eq_ok_iff.mpr ⟨Decidable.byContradiction fun hfails => ?_, rfl⟩
  obtain ⟨pre, key, d, post, hT, -, hclash⟩ := Pass.exists_clash_of_error? hfails
  have hd : d ∈ T.values := List.mem_of_getElem? (getElem?_values_of_entries_eq hT).1
  exact Descriptor.not_clashesOn_of_results (h d hd) hclash

/-- Resolving the entries before place `i` succeeds with `P`, and the entry at `i` clashes there. -/
structure FailsAt (T : Table) (D P : Document) (i : Nat) (d : Descriptor) : Prop where
  entry : T.values[i]? = some d
  before : (T.take i).resolve D = .ok P
  clash : d.ClashesOn P

/-- A pass fails exactly where the entries before some place succeed and the one at that place
clashes on what they leave. The error names the option of that entry with what its rules give there,
and the document and the reports are those of the entries before it. So where all results of lists
of several rules are arrays, no pass fails. -/
theorem pass_fails_exactly_at_clashes (T : Table) (D : Document) :
    ((∃ e, (T.pass D).error? = some e) ↔ ∃ i d P, T.FailsAt D P i d) ∧
      (∀ i d P, T.FailsAt D P i d →
        (T.pass D).error? = some ⟨d.name,
          d.rules.map fun rule => (rule.evaluate P d.region).candidate⟩ ∧
        (T.pass D).document = P ∧ (T.pass D).applied = ((T.take i).pass D).applied) ∧
      ((∀ d ∈ T.values, 2 ≤ d.rules.length → ∀ rule ∈ d.rules, ∀ v ∈ rule.results,
          v.isArray = true) →
        ∃ R, T.resolve D = .ok R) := by
  have hexists : ∀ e, (T.pass D).error? = some e → ∃ i d P, T.FailsAt D P i d := by
    intro e he
    obtain ⟨pre, key, d, post, hT, hok, hclash⟩ :=
      Pass.exists_clash_of_error? (he ▸ Option.some_ne_none e)
    obtain ⟨hentry, hpre⟩ := getElem?_values_of_entries_eq hT
    have hbefore : (T.take pre.length).resolve D = .ok (Pass.run D pre).document := by
      rw [resolve_eq_ok_iff, pass, hpre]
      exact ⟨hok, rfl⟩
    exact ⟨_, d, _, hentry, hbefore, hclash⟩
  have hfails : ∀ i d P, T.FailsAt D P i d →
      (T.pass D).error? = some ⟨d.name,
        d.rules.map fun rule => (rule.evaluate P d.region).candidate⟩ ∧
      (T.pass D).document = P ∧ (T.pass D).applied = ((T.take i).pass D).applied := by
    rintro i d P ⟨hentry, hbefore, hclash⟩
    obtain ⟨key, hT⟩ := entries_eq_of_getElem? hentry
    obtain ⟨hok, rfl⟩ := resolve_eq_ok_iff.mp hbefore
    rw [pass, hT]
    refine ⟨Pass.error?_run_of_clash hok hclash _, ?_, Pass.applied_run_of_clash_after hok hclash _⟩
    rw [Pass.run_of_clash hok hclash]
    rfl
  refine ⟨⟨fun ⟨e, he⟩ => hexists e he, fun ⟨i, d, P, h⟩ => ⟨_, (hfails i d P h).1⟩⟩, hfails, ?_⟩
  exact fun harrays => ⟨_, resolve_of_results harrays D⟩

/-- The candidates for `lib` are an array, a string that follows from the default of `target`, and
nothing; `late` would clash as well. -/
def libClash : Table :=
  ⟨[("target", ⟨"target", .nested, some (.single (.literal (.string "es5")))⟩),
    ("lib", ⟨"lib", .nested, some (.merged [.literal (.array [.string "dom"]),
      .multiValue "target" [(.string "es5", .string "es5")] (some (.array [])),
      .presence "files" (.array []) none])⟩),
    ("late", ⟨"late", .nested, some (.merged [.literal .null, .literal (.array [])])⟩)], by decide⟩

/-- Here whatever a rule for `lib` gives is an array. -/
def libArrays : Table :=
  ⟨[("target", ⟨"target", .nested, some (.single (.literal (.string "es5")))⟩),
    ("lib", ⟨"lib", .nested, some (.merged [.literal (.array [.string "dom"]),
      .multiValue "target" [(.string "es5", .array [.string "es5"])] (some (.array [])),
      .presence "files" (.array []) none])⟩)], by decide⟩

theorem libClash_fails :
    let P := Document.empty.set .nested "target" (.string "es5")
    let e : MergeError := ⟨"lib", [some (.array [.string "dom"]), some (.string "es5"), none]⟩
    libClash.FailsAt .empty P 1 libClash.values[1] ∧ libClash.resolve .empty = .error e ∧
      (libClash.pass .empty).error? = some e ∧ (libClash.pass .empty).document = P ∧
      (libClash.pass .empty).applied = ((libClash.take 1).pass .empty).applied ∧
      (∀ d ∈ libArrays.values, 2 ≤ d.rules.length → ∀ rule ∈ d.rules, ∀ v ∈ rule.results,
        v.isArray = true) ∧
      ∃ R, libArrays.resolve .empty = .ok R := by
  intro P e
  have hfails : libClash.FailsAt .empty P 1 libClash.values[1] :=
    ⟨by decide, resolve_eq_ok_iff.mpr ⟨by decide, rfl⟩, ⟨by decide, by decide, by decide⟩⟩
  have harrays : ∀ d ∈ libArrays.values, 2 ≤ d.rules.length → ∀ rule ∈ d.rules, ∀ v ∈ rule.results,
      v.isArray = true := by decide
  obtain ⟨-, hexact, -⟩ := pass_fails_exactly_at_clashes libClash .empty
  obtain ⟨herror, hdocument, happlied⟩ := hexact 1 _ P hfails
  obtain ⟨-, -, hsucceeds⟩ := pass_fails_exactly_at_clashes libArrays .empty
  exact ⟨hfails, rfl, herror, hdocument, happlied, harrays, hsucceeds harrays⟩

end Table

end OptionDefaults
