import OptionDefaults.Proofs.Failures
import OptionDefaults.Table.Builtin

/-!
# Which options are there after a pass

A visit that does not fail leaves its option undefined only when none of its rules gives a value: an
empty array counts as one, and so does `null`. Entries are visited up to the end of a pass that
succeeds, and options stay defined. So after it an option with a policy is missing only where its
rules gave nothing, and a rule that gives a value in every case leaves no option out.
-/

namespace OptionDefaults

namespace Rule

/-- The rule gives a value on every document. -/
def alwaysGives : Rule → Bool
  | .literal _ => true
  | .presence _ _ notDefined => notDefined.isSome
  | .multiValue _ _ otherwise => otherwise.isSome

theorem candidate_ne_none_of_alwaysGives {rule : Rule} (h : rule.alwaysGives = true) (D : Document)
    (owner : Region) : (rule.evaluate D owner).candidate ≠ none := by
  cases rule with
  | literal v => exact Option.some_ne_none v
  | presence option v notDefined =>
    obtain ⟨w, rfl⟩ := Option.isSome_iff_exists.mp h
    rw [evaluate_presence]
    split <;> exact Option.some_ne_none _
  | multiValue option pairs otherwise =>
    obtain ⟨w, rfl⟩ := Option.isSome_iff_exists.mp h
    cases hm : (D.get? owner option).bind (matchingPair pairs) with
    | some pair =>
      rw [evaluate_of_match hm]
      exact Option.some_ne_none pair.2
    | none =>
      rw [evaluate_of_no_match hm]
      exact Option.some_ne_none w

end Rule

namespace Descriptor

variable {d : Descriptor} {D : Document}

theorem merged_eq_nothing_iff :
    d.merged D = .nothing ↔ ∀ rule ∈ d.rules, (rule.evaluate D d.region).candidate = none := by
  rw [merged, candidates_eq, merge_eq_nothing_iff]
  simp only [List.mem_map, forall_exists_index, and_imp, forall_apply_eq_imp_iff₂]

/-- A visit that does not fail leaves its option undefined only when no rule gives a value. -/
theorem isDefined_leaves_eq_false_iff (hpolicy : d.policy.isSome = true)
    (hclash : (d.visit D).isClash = false) :
    (d.leaves D).isDefined d.region d.name = false ↔
      D.isDefined d.region d.name = false ∧
        ∀ rule ∈ d.rules, (rule.evaluate D d.region).candidate = none := by
  rw [← merged_eq_nothing_iff]
  cases hfilled : (d.visit D).isFilled with
  | true =>
    obtain ⟨value, evaluations, hv⟩ := Visit.isFilled_iff.mp hfilled
    obtain ⟨-, -, hmerged, -⟩ := visit_eq_filled_iff.mp hv
    simp [isDefined_leaves hfilled, hmerged]
  | false =>
    have hquiet := isQuiet_visit_iff.mp (Visit.isQuiet_iff.mpr ⟨hfilled, hclash⟩)
    rw [leaves_of_not_filled hfilled]
    constructor
    · intro hundefined
      rcases hquiet with hnone | hdefined | hnothing
      · simp [hnone] at hpolicy
      · rw [hdefined] at hundefined
        cases hundefined
      · exact ⟨hundefined, hnothing⟩
    · exact fun h => h.1

end Descriptor

namespace Pass

variable {D : Document} {key : String} {d : Descriptor} {pre post : List (String × Descriptor)}

theorem visited_of_error?_eq_none (h : (run D (pre ++ (key, d) :: post)).error? = none) :
    (run D pre).error? = none ∧ (d.visit (run D pre).document).isClash = false := by
  obtain ⟨hpre, hrest⟩ := (error?_run_append D pre ((key, d) :: post)).mp h
  refine ⟨hpre, ?_⟩
  rw [Bool.eq_false_iff]
  exact fun hclash => error?_run_cons_of_clash hclash hrest

/-- An entry one of whose rules always gives a value leaves its option defined. -/
theorem isDefined_run_of_alwaysGives (h : (run D (pre ++ (key, d) :: post)).error? = none)
    (hpolicy : d.policy.isSome = true) (hgives : ∃ rule ∈ d.rules, rule.alwaysGives = true) :
    (run D (pre ++ (key, d) :: post)).document.isDefined d.region d.name = true := by
  obtain ⟨hpre, hclash⟩ := visited_of_error?_eq_none h
  obtain ⟨-, hext, -⟩ := run_split hpre key d post
  apply hext.isDefined
  rw [← Bool.not_eq_false, Descriptor.isDefined_leaves_eq_false_iff hpolicy hclash]
  rintro ⟨-, hnone⟩
  obtain ⟨rule, hr, hrule⟩ := hgives
  exact Rule.candidate_ne_none_of_alwaysGives hrule _ _ (hnone rule hr)

/-- Among distinct places the option of an entry is missing at the end only when it was missing
before and no rule of the entry gave a value. -/
theorem isDefined_run_eq_false_iff (h : (run D (pre ++ (key, d) :: post)).error? = none)
    (hdistinct : DistinctPlaces (pre ++ (key, d) :: post)) (hpolicy : d.policy.isSome = true) :
    (run D (pre ++ (key, d) :: post)).document.isDefined d.region d.name = false ↔
      D.isDefined d.region d.name = false ∧
        ∀ rule ∈ d.rules, (rule.evaluate (run D pre).document d.region).candidate = none := by
  obtain ⟨hpre, hclash⟩ := visited_of_error?_eq_none h
  obtain ⟨hbefore, hafter⟩ := hdistinct.not_anyFills
  obtain ⟨-, -, hlast⟩ := run_split hpre key d post
  have hstart : (run D pre).document.isDefined d.region d.name = D.isDefined d.region d.name :=
    congrArg Option.isSome (get?_run_of_not_anyFills hbefore)
  have hend : (run D (pre ++ (key, d) :: post)).document.isDefined d.region d.name =
      (d.leaves (run D pre).document).isDefined d.region d.name :=
    congrArg Option.isSome (hlast d.region d.name hafter)
  rw [hend, ← hstart, Descriptor.isDefined_leaves_eq_false_iff hpolicy hclash]

end Pass

namespace Table

theorem builtin_results : ∀ d ∈ builtin.values, 2 ≤ d.rules.length → ∀ rule ∈ d.rules,
    ∀ v ∈ rule.results, v.isArray = true := by
  decide

theorem builtin_alwaysGives : ∀ d ∈ builtin.values, d.policy.isSome = true →
    ∃ rule ∈ d.rules, rule.alwaysGives = true := by
  decide

theorem isDefined_of_alwaysGives {T : Table} {D R : Document} (hR : T.resolve D = .ok R)
    (hgives : ∀ d ∈ T.values, d.policy.isSome = true → ∃ rule ∈ d.rules, rule.alwaysGives = true) :
    ∀ d ∈ T.values, d.policy.isSome = true → R.isDefined d.region d.name = true := by
  intro d hd hpolicy
  obtain ⟨hok, rfl⟩ := resolve_eq_ok_iff.mp hR
  obtain ⟨i, hi⟩ := List.getElem?_of_mem hd
  obtain ⟨key, hT⟩ := entries_eq_of_getElem? hi
  rw [pass, hT] at hok ⊢
  exact Pass.isDefined_run_of_alwaysGives hok hpolicy (hgives d hd hpolicy)

/-- What a resolved document promises. In a table over distinct options the option of an entry with
a policy is missing from the outcome exactly when it was missing from the start and none of the
entry's rules gave a value when it was visited, on the document that the entries before it leave.
Where every policy has a rule that always gives a value, no option with a policy is missing. The
built-in table is such a table, and it resolves every document. -/
theorem resolved_options_are_defined :
    (∀ (T : Table) (D R : Document), DistinctPlaces T.entries → T.resolve D = .ok R →
      ∀ i d, T.values[i]? = some d → d.policy.isSome = true →
        let S := ((T.take i).pass D).document
        (∃ key, ⟨key, d, d.visit S⟩ ∈ (T.pass D).steps) ∧
          (D.isDefined d.region d.name = false →
            (d.visit S).evaluations? = some (d.rules.map fun rule => rule.evaluate S d.region)) ∧
          (R.isDefined d.region d.name = false ↔ D.isDefined d.region d.name = false ∧
            ∀ rule ∈ d.rules, (rule.evaluate S d.region).candidate = none)) ∧
      (∀ (T : Table) (D R : Document), T.resolve D = .ok R →
        (∀ d ∈ T.values, d.policy.isSome = true → ∃ rule ∈ d.rules, rule.alwaysGives = true) →
          ∀ d ∈ T.values, d.policy.isSome = true → R.isDefined d.region d.name = true) ∧
      ∀ D : Document, ∃ R, builtin.resolve D = .ok R ∧
        ∀ d ∈ builtin.values, d.policy.isSome = true → R.isDefined d.region d.name = true := by
  refine ⟨?_, fun T D R hR hgives => isDefined_of_alwaysGives hR hgives, ?_⟩
  · intro T D R hdistinct hR i d hi hpolicy S
    obtain ⟨hok, rfl⟩ := resolve_eq_ok_iff.mp hR
    obtain ⟨key, hT⟩ := entries_eq_of_getElem? hi
    rw [pass, hT] at hok ⊢
    rw [hT] at hdistinct
    obtain ⟨hpre, -⟩ := Pass.visited_of_error?_eq_none hok
    obtain ⟨hstep, -, -⟩ := Pass.run_split hpre key d (T.entries.drop (i + 1))
    obtain ⟨hbefore, -⟩ := hdistinct.not_anyFills
    refine ⟨⟨key, hstep⟩, ?_, Pass.isDefined_run_eq_false_iff hok hdistinct hpolicy⟩
    intro hundefined
    have hstart : S.isDefined d.region d.name = D.isDefined d.region d.name :=
      congrArg Option.isSome (Pass.get?_run_of_not_anyFills hbefore)
    exact Descriptor.evaluations?_visit.mpr ⟨hpolicy, hstart.trans hundefined, rfl⟩
  · intro D
    have hR := resolve_of_results builtin_results D
    exact ⟨_, hR, isDefined_of_alwaysGives hR builtin_alwaysGives⟩

/-- The rules for `lib` and `mode` always give a value, if only an empty array and `null`; the one
for `note` waits for `files`. -/
def noteOnFiles : Table :=
  ⟨[("lib", ⟨"lib", .nested, some (.merged [.literal (.array []),
      .presence "files" (.array [.string "dom"]) none])⟩),
    ("mode", ⟨"mode", .nested,
      some (.single (.multiValue "lib" [(.null, .bool true)] (some .null)))⟩),
    ("note", ⟨"note", .root, some (.single (.presence "files" .null none))⟩)], by decide⟩

theorem noteOnFiles_defined :
    let R := (noteOnFiles.pass .empty).document
    let R' := ((noteOnFiles.take 2).pass .empty).document
    let note : Descriptor := ⟨"note", .root, some (.single (.presence "files" .null none))⟩
    let S := ((noteOnFiles.take 2).pass .empty).document
    DistinctPlaces noteOnFiles.entries ∧ noteOnFiles.resolve .empty = .ok R ∧
      noteOnFiles.values[2]? = some note ∧ note.policy.isSome = true ∧
      R.get? .nested "lib" = some (.array []) ∧ R.get? .nested "mode" = some .null ∧
      (∃ key, ⟨key, note, note.visit S⟩ ∈ (noteOnFiles.pass .empty).steps) ∧
      (note.visit S).evaluations? = some (note.rules.map fun rule => rule.evaluate S note.region) ∧
      (R.isDefined .root "note" = false ↔ Document.empty.isDefined .root "note" = false ∧
        ∀ rule ∈ note.rules, (rule.evaluate S note.region).candidate = none) ∧
      (noteOnFiles.take 2).resolve .empty = .ok R' ∧
      (∀ d ∈ (noteOnFiles.take 2).values, d.policy.isSome = true →
        ∃ rule ∈ d.rules, rule.alwaysGives = true) ∧
      ∀ d ∈ (noteOnFiles.take 2).values, d.policy.isSome = true →
        R'.isDefined d.region d.name = true := by
  intro R R' note S
  have hdistinct : DistinctPlaces noteOnFiles.entries := by decide
  have hR : noteOnFiles.resolve .empty = .ok R := resolve_eq_ok_iff.mpr ⟨by decide, rfl⟩
  have hR' : (noteOnFiles.take 2).resolve .empty = .ok R' := resolve_eq_ok_iff.mpr ⟨by decide, rfl⟩
  have hgives : ∀ d ∈ (noteOnFiles.take 2).values, d.policy.isSome = true →
      ∃ rule ∈ d.rules, rule.alwaysGives = true := by decide
  obtain ⟨hmissing, hdefined, -⟩ := resolved_options_are_defined
  obtain ⟨hvisited, hevaluated, hiff⟩ := hmissing _ _ R hdistinct hR 2 note rfl rfl
  exact ⟨hdistinct, hR, rfl, rfl, by decide, by decide, hvisited, hevaluated (by decide), hiff, hR',
    hgives, hdefined _ _ R' hR' hgives⟩

end Table

end OptionDefaults
