import OptionDefaults.Proofs.Passes

/-!
# What a pass adds

A visit either leaves the document as it is or puts one entry behind those of a region, and then it
is reported. So the entries that a pass leaves are those before it and then, region by region, what
it reported, in the order of the reports. This does not depend on how the pass ends.
-/

namespace OptionDefaults

namespace Applied

def entry (a : Applied) : String × Json := (a.descriptor.name, a.value)

def place (a : Applied) : Region × String := (a.descriptor.region, a.descriptor.name)

end Applied

/-- The entries that reports put into a region. -/
def additions (region : Region) (reports : List Applied) : List (String × Json) :=
  (reports.filter fun a => a.descriptor.region = region).map Applied.entry

theorem additions_append (region : Region) (before after : List Applied) :
    additions region (before ++ after) = additions region before ++ additions region after := by
  simp [additions]

theorem Document.not_mem_keys_of_isDefined {D : Document} {region : Region} {name : String}
    (h : D.isDefined region name = false) : name ∉ (D.options region).keys := by
  intro hmem
  obtain ⟨e, he, rfl⟩ := List.mem_map.mp hmem
  have hnone : (D.options region).entries.lookup e.1 = none := isDefined_eq_false_iff.mp h
  have hne := List.lookup_eq_none_iff.mp hnone e he
  simp at hne

theorem Document.entries_set {D : Document} {region : Region} {name : String}
    (h : D.isDefined region name = false) (value : Json) (other : Region) :
    ((D.set region name value).options other).entries =
      (D.options other).entries ++ if region = other then [(name, value)] else [] := by
  by_cases ho : region = other
  · subst ho
    rw [if_pos rfl, set, options_replaceRegion]
    exact OrderedMap.entries_insert_of_not_mem (not_mem_keys_of_isDefined h)
  · rw [if_neg ho, List.append_nil, set, options_replaceRegion_of_ne _ _ (Ne.symm ho)]

theorem Descriptor.entries_leaves (key : String) (d : Descriptor) (D : Document)
    (region : Region) :
    ((d.leaves D).options region).entries =
      (D.options region).entries ++
        additions region (Step.applied? ⟨key, d, d.visit D⟩).toList := by
  cases hf : (d.visit D).isFilled with
  | false =>
    have hnone : Step.applied? ⟨key, d, d.visit D⟩ = none := Step.applied?_eq_none_iff.mpr hf
    rw [leaves_of_not_filled hf, hnone]
    exact (List.append_nil _).symm
  | true =>
    obtain ⟨value, evaluations, hv⟩ := Visit.isFilled_iff.mp hf
    have hundefined := (visit_eq_filled_iff.mp hv).2.1
    rw [leaves_of_filled hv, Document.entries_set hundefined]
    by_cases hr : d.region = region <;> simp [Step.applied?, hv, additions, Applied.entry, hr]

namespace Pass

variable {D : Document} {es : List (String × Descriptor)}

theorem applied_prepend (step : Step) (pass : Pass) :
    (pass.prepend step).applied = step.applied?.toList ++ pass.applied := by
  simp only [applied, steps_prepend]
  cases h : step.applied? <;> simp [h]

theorem applied_run_of_clash {key : String} {d : Descriptor} (h : (d.visit D).isClash = true) :
    (run D ((key, d) :: es)).applied = [] := by
  obtain ⟨evaluations, hv⟩ := Visit.isClash_iff.mp h
  simp [applied, run_cons_of_clash h, Step.applied?, hv]

theorem entries_run (D : Document) (es : List (String × Descriptor)) (region : Region) :
    ((run D es).document.options region).entries =
      (D.options region).entries ++ additions region (run D es).applied := by
  induction D, es using run_induct with
  | nil D => exact (List.append_nil _).symm
  | stop D key d es h =>
    rw [applied_run_of_clash h, run_cons_of_clash h]
    exact (List.append_nil _).symm
  | go D key d es h ih =>
    rw [run_cons h, document_prepend, ih, applied_prepend, additions_append,
      d.entries_leaves key D region, List.append_assoc]

theorem mem_keys_run {region : Region} {name : String} :
    name ∈ ((run D es).document.options region).keys ↔
      name ∈ (D.options region).keys ∨ (region, name) ∈ (run D es).applied.map Applied.place := by
  simp only [OrderedMap.keys, entries_run, additions, List.map_append, List.mem_append,
    List.mem_map, List.mem_filter]
  refine or_congr_right ⟨?_, ?_⟩
  · rintro ⟨e, ⟨a, ⟨ha, hregion⟩, rfl⟩, rfl⟩
    exact ⟨a, ha, Prod.ext (of_decide_eq_true hregion) rfl⟩
  · rintro ⟨a, ha, hplace⟩
    obtain ⟨hregion, hname⟩ := Prod.mk.inj hplace
    exact ⟨a.entry, ⟨a, ⟨ha, decide_eq_true hregion⟩, rfl⟩, hname⟩

/-- Reports come from entries of the table, in their order. -/
theorem applied_sublist (D : Document) (es : List (String × Descriptor)) :
    ((run D es).applied.map Applied.descriptor).Sublist (es.map Prod.snd) := by
  induction D, es using run_induct with
  | nil D => exact .slnil
  | stop D key d es h =>
    rw [applied_run_of_clash h]
    exact List.nil_sublist _
  | go D key d es h ih =>
    rw [run_cons h, applied_prepend, List.map_cons, List.map_append]
    cases hv : d.visit D with
    | filled value evaluations => exact ih.cons_cons d
    | _ => exact ih.cons d

theorem isDefined_of_mem_applied {a : Applied} (h : a ∈ (run D es).applied) :
    D.isDefined a.descriptor.region a.descriptor.name = false ∧
      (run D es).document.isDefined a.descriptor.region a.descriptor.name = true := by
  obtain ⟨step, hs, value, evaluations, hv, rfl⟩ := exists_step_of_mem_applied h
  have hf : step.visit.isFilled = true := Visit.isFilled_iff.mpr ⟨value, evaluations, hv⟩
  exact isDefined_of_mem_steps hs ⟨hf, rfl, rfl⟩

/-- No option is reported twice: once filled it is there for every later entry. -/
theorem nodup_place_applied (D : Document) (es : List (String × Descriptor)) :
    ((run D es).applied.map Applied.place).Nodup := by
  induction D, es using run_induct with
  | nil D => exact .nil
  | stop D key d es h =>
    rw [applied_run_of_clash h]
    exact .nil
  | go D key d es h ih =>
    rw [run_cons h, applied_prepend, List.map_append]
    cases hv : d.visit D with
    | filled value evaluations =>
      have hdefined : (d.leaves D).isDefined d.region d.name = true :=
        Descriptor.isDefined_leaves (Visit.isFilled_iff.mpr ⟨value, evaluations, hv⟩)
      refine List.nodup_cons.mpr ⟨?_, ih⟩
      intro hmem
      obtain ⟨a, ha, hplace⟩ := List.mem_map.mp hmem
      obtain ⟨hregion, hname⟩ := Prod.mk.inj hplace
      have hundefined := (isDefined_of_mem_applied ha).1
      rw [hregion, hname, hdefined] at hundefined
      cases hundefined
    | _ => exact ih

end Pass

namespace Table

/-- A pass only appends, and it reports exactly what it appends: options that were not there, each
once and in the order of the table. -/
theorem pass_appends_what_it_reports (T : Table) (D : Document) :
    let pass := T.pass D
    (∀ region, (pass.document.options region).entries =
        (D.options region).entries ++ additions region pass.applied) ∧
      (pass.applied.map Applied.place).Nodup ∧
      (∀ a ∈ pass.applied, D.isDefined a.descriptor.region a.descriptor.name = false) ∧
      (pass.applied.map Applied.descriptor).Sublist T.values ∧
      pass.document.nestedAt = D.nestedAt := by
  refine ⟨Pass.entries_run D T.entries, Pass.nodup_place_applied D T.entries, ?_,
    Pass.applied_sublist D T.entries, Pass.nestedAt_run D T.entries⟩
  intro a ha
  exact (Pass.isDefined_of_mem_applied ha).1

end Table

end OptionDefaults
