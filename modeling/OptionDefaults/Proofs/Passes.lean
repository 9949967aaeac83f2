import OptionDefaults.Proofs.Visits

/-!
# What a pass does to the document

A pass stops at the first clash and else goes on with the document that the visit leaves. So every
step of a pass is the visit of an entry on the document that the entries before it left, documents
only grow, and a place that no step fills keeps its value.
-/

namespace OptionDefaults

namespace Step

/-- Whether the step filled the option `name` of `region`. -/
def Fills (step : Step) (name : String) (region : Region) : Prop :=
  step.visit.isFilled = true ∧ step.descriptor.name = name ∧ step.descriptor.region = region

theorem applied?_eq_none_iff {step : Step} :
    step.applied? = none ↔ step.visit.isFilled = false := by
  obtain ⟨key, d, visit⟩ := step
  cases visit <;> simp [applied?, Visit.isFilled]

theorem error?_eq_none_iff {step : Step} :
    step.error? = none ↔ step.visit.isClash = false := by
  obtain ⟨key, d, visit⟩ := step
  cases visit <;> simp [error?, Visit.isClash]

end Step

namespace Pass

def prepend (step : Step) (pass : Pass) : Pass := ⟨step :: pass.steps, pass.document⟩

@[simp] theorem steps_prepend (step : Step) (pass : Pass) :
    (pass.prepend step).steps = step :: pass.steps := rfl

@[simp] theorem document_prepend (step : Step) (pass : Pass) :
    (pass.prepend step).document = pass.document := rfl

theorem error?_prepend {step : Step} (pass : Pass) (h : step.visit.isClash = false) :
    (pass.prepend step).error? = pass.error? := by
  simp [error?, Step.error?_eq_none_iff.mpr h]

theorem applied_eq_nil_iff {pass : Pass} :
    pass.applied = [] ↔ ∀ step ∈ pass.steps, step.visit.isFilled = false := by
  simp only [applied, List.filterMap_eq_nil_iff, Step.applied?_eq_none_iff]

variable {D : Document} {key : String} {d : Descriptor} {es : List (String × Descriptor)}

theorem run_cons_of_clash (h : (d.visit D).isClash = true) :
    run D ((key, d) :: es) = ⟨[⟨key, d, d.visit D⟩], D⟩ := by
  obtain ⟨evaluations, hv⟩ := Visit.isClash_iff.mp h
  simp [run, Step.error?, hv]

theorem run_cons (h : (d.visit D).isClash = false) :
    run D ((key, d) :: es) = (run (d.leaves D) es).prepend ⟨key, d, d.visit D⟩ := by
  have he : Step.error? ⟨key, d, d.visit D⟩ = none := Step.error?_eq_none_iff.mpr h
  simp only [run, he]
  rfl

theorem error?_run_cons (h : (d.visit D).isClash = false) :
    (run D ((key, d) :: es)).error? = (run (d.leaves D) es).error? := by
  rw [run_cons h, error?_prepend]
  exact h

theorem error?_run_cons_of_clash (h : (d.visit D).isClash = true) :
    (run D ((key, d) :: es)).error? ≠ none := by
  obtain ⟨evaluations, hv⟩ := Visit.isClash_iff.mp h
  simp [run_cons_of_clash h, error?, Step.error?, hv]

/-- Induction along a pass: it stops at an entry, or goes on with what the entry leaves. -/
@[elab_as_elim]
theorem run_induct {motive : Document → List (String × Descriptor) → Prop}
    (nil : ∀ D, motive D [])
    (stop : ∀ D key d es, (d.visit D).isClash = true → motive D ((key, d) :: es))
    (go : ∀ D key d es, (d.visit D).isClash = false → motive (d.leaves D) es →
      motive D ((key, d) :: es)) (D : Document) (es : List (String × Descriptor)) :
    motive D es := by
  induction es generalizing D with
  | nil => exact nil D
  | cons e es ih =>
    obtain ⟨key, d⟩ := e
    cases h : (d.visit D).isClash with
    | false => exact go D key d es h (ih _)
    | true => exact stop D key d es h

/-- Documents only grow: a pass overwrites nothing and removes nothing. -/
theorem extends_run (D : Document) (es : List (String × Descriptor)) :
    (run D es).document.Extends D := by
  induction D, es using run_induct with
  | nil D => exact .refl D
  | stop D key d es h =>
    rw [run_cons_of_clash h]
    exact .refl D
  | go D key d es h ih =>
    rw [run_cons h]
    exact ih.trans (d.extends_leaves D)

theorem get?_run {name : String} {region : Region}
    (h : ∀ step ∈ (run D es).steps, ¬step.Fills name region) :
    (run D es).document.get? region name = D.get? region name := by
  induction D, es using run_induct with
  | nil D => rfl
  | stop D key d es hc => rw [run_cons_of_clash hc]
  | go D key d es hc ih =>
    rw [run_cons hc] at h ⊢
    have hd := h ⟨key, d, d.visit D⟩ (.head _)
    rw [document_prepend, ih fun step hs => h step (.tail _ hs)]
    exact Descriptor.get?_leaves hd

@[simp] theorem nestedAt_run (D : Document) (es : List (String × Descriptor)) :
    (run D es).document.nestedAt = D.nestedAt := by
  induction D, es using run_induct with
  | nil D => rfl
  | stop D key d es h => rw [run_cons_of_clash h]
  | go D key d es h ih => rw [run_cons h, document_prepend, ih, Descriptor.nestedAt_leaves]

/-- A pass that fills nothing leaves the document as it is, with its order of keys. -/
theorem document_run_of_applied_eq_nil (h : (run D es).applied = []) :
    (run D es).document = D := by
  rw [applied_eq_nil_iff] at h
  induction D, es using run_induct with
  | nil D => rfl
  | stop D key d es hc => rw [run_cons_of_clash hc]
  | go D key d es hc ih =>
    rw [run_cons hc] at h ⊢
    have hd := h ⟨key, d, d.visit D⟩ (.head _)
    rw [document_prepend, ih fun step hs => h step (.tail _ hs)]
    exact Descriptor.leaves_of_not_filled hd

/-- A pass that comes to the end of the first entries goes on with the others from there. -/
theorem run_append {pre : List (String × Descriptor)} (h : (run D pre).error? = none)
    (post : List (String × Descriptor)) :
    run D (pre ++ post) =
      ⟨(run D pre).steps ++ (run (run D pre).document post).steps,
        (run (run D pre).document post).document⟩ := by
  induction D, pre using run_induct with
  | nil D => rfl
  | stop D key d pre hc => exact absurd h (error?_run_cons_of_clash hc)
  | go D key d pre hc ih =>
    rw [error?_run_cons hc] at h
    rw [List.cons_append, run_cons hc, run_cons hc, ih h]
    rfl

theorem error?_run_append (D : Document) (pre post : List (String × Descriptor)) :
    (run D (pre ++ post)).error? = none ↔
      (run D pre).error? = none ∧ (run (run D pre).document post).error? = none := by
  induction D, pre using run_induct with
  | nil D => exact ⟨fun h => ⟨rfl, h⟩, fun h => h.2⟩
  | stop D key d pre hc =>
    exact ⟨fun h => absurd h (error?_run_cons_of_clash hc),
      fun h => absurd h.1 (error?_run_cons_of_clash hc)⟩
  | go D key d pre hc ih =>
    rw [List.cons_append, error?_run_cons hc, error?_run_cons hc, run_cons hc, document_prepend]
    exact ih

/-- The steps of a pass are visits of entries, each on the document that a pass over the entries
before it leaves without a clash. -/
theorem exists_split_of_mem_steps {step : Step} (h : step ∈ (run D es).steps) :
    ∃ pre post, es = pre ++ (step.key, step.descriptor) :: post ∧ (run D pre).error? = none ∧
      step.visit = step.descriptor.visit (run D pre).document := by
  induction D, es using run_induct with
  | nil D => cases h
  | stop D key d es hc =>
    rw [run_cons_of_clash hc, List.mem_singleton] at h
    subst h
    exact ⟨[], es, rfl, rfl, rfl⟩
  | go D key d es hc ih =>
    rw [run_cons hc, steps_prepend, List.mem_cons] at h
    rcases h with rfl | h
    · exact ⟨[], es, rfl, rfl, rfl⟩
    · obtain ⟨pre, post, rfl, he, hs⟩ := ih h
      refine ⟨(key, d) :: pre, post, rfl, ?_, ?_⟩
      · rw [error?_run_cons hc, he]
      · rw [run_cons hc]
        exact hs

theorem fills_of_mem_steps {step : Step} (h : step ∈ (run D es).steps) {name : String}
    {region : Region} (hf : step.Fills name region) :
    (step.key, step.descriptor) ∈ es ∧ step.descriptor.fills name region = true := by
  obtain ⟨pre, post, rfl, -, hv⟩ := exists_split_of_mem_steps h
  obtain ⟨hfilled, rfl, rfl⟩ := hf
  rw [hv] at hfilled
  obtain ⟨value, evaluations, hv⟩ := Visit.isFilled_iff.mp hfilled
  have hp := (Descriptor.visit_eq_filled_iff.mp hv).1
  exact ⟨by simp, Descriptor.fills_iff.mpr ⟨hp, rfl, rfl⟩⟩

theorem get?_run_of_not_anyFills {name : String} {region : Region}
    (h : anyFills es name region = false) :
    (run D es).document.get? region name = D.get? region name := by
  apply get?_run
  intro step hs hf
  obtain ⟨hmem, hfills⟩ := fills_of_mem_steps hs hf
  rw [anyFills_eq_false_iff.mp h _ hmem] at hfills
  cases hfills

/-- An entry that a pass comes to is visited on what the entries before it left. The outcome of the
pass has everything that the visit left, and differs from it only where a later entry fills. -/
theorem run_split {pre : List (String × Descriptor)} (h : (run D pre).error? = none) (key : String)
    (d : Descriptor) (post : List (String × Descriptor)) :
    let S := (run D pre).document
    let pass := run D (pre ++ (key, d) :: post)
    ⟨key, d, d.visit S⟩ ∈ pass.steps ∧ pass.document.Extends (d.leaves S) ∧
      ∀ region name, anyFills post name region = false →
        pass.document.get? region name = (d.leaves S).get? region name := by
  intro S pass
  have hpass : pass = _ := run_append h ((key, d) :: post)
  rw [hpass]
  cases hc : (d.visit S).isClash with
  | true =>
    rw [run_cons_of_clash hc, Descriptor.leaves_of_not_filled (Visit.isFilled_of_isClash hc)]
    exact ⟨by simp, .refl _, fun _ _ _ => rfl⟩
  | false =>
    rw [run_cons hc]
    exact ⟨by simp, extends_run _ post, fun _ _ => get?_run_of_not_anyFills⟩

theorem exists_step_of_mem_applied {applied : Applied} (h : applied ∈ (run D es).applied) :
    ∃ step ∈ (run D es).steps, ∃ value evaluations, step.visit = .filled value evaluations ∧
      applied = ⟨step.descriptor, value, evaluations.map Evaluation.reason⟩ := by
  obtain ⟨step, hs, ha⟩ := List.mem_filterMap.mp h
  unfold Step.applied? at ha
  split at ha
  next value evaluations hv => exact ⟨step, hs, value, evaluations, hv, (Option.some.inj ha).symm⟩
  next => cases ha

theorem exists_evaluate_of_mem_applied {a : Applied} (h : a ∈ (run D es).applied) :
    a.descriptor ∈ es.map Prod.snd ∧ ∃ S, a.descriptor.merged S = .value a.value ∧
      a.reasons = (a.descriptor.evaluate S).map Evaluation.reason := by
  obtain ⟨step, hs, value, evaluations, hv, rfl⟩ := exists_step_of_mem_applied h
  obtain ⟨pre, post, rfl, -, hvisit⟩ := exists_split_of_mem_steps hs
  rw [hvisit] at hv
  obtain ⟨-, -, hmerged, rfl⟩ := Descriptor.visit_eq_filled_iff.mp hv
  exact ⟨by simp, _, hmerged, rfl⟩

theorem isDefined_of_mem_steps {step : Step} (h : step ∈ (run D es).steps) {name : String}
    {region : Region} (hf : step.Fills name region) :
    D.isDefined region name = false ∧ (run D es).document.isDefined region name = true := by
  obtain ⟨pre, post, rfl, he, hv⟩ := exists_split_of_mem_steps h
  obtain ⟨-, hext, -⟩ := run_split he step.key step.descriptor post
  obtain ⟨hfilled, rfl, rfl⟩ := hf
  rw [hv] at hfilled
  constructor
  · obtain ⟨value, evaluations, hv⟩ := Visit.isFilled_iff.mp hfilled
    have hu := (Descriptor.visit_eq_filled_iff.mp hv).2.1
    cases hd : D.isDefined step.descriptor.region step.descriptor.name with
    | false => rfl
    | true =>
      rw [(extends_run D pre).isDefined hd] at hu
      cases hu
  · exact hext.isDefined (Descriptor.isDefined_leaves hfilled)

end Pass

end OptionDefaults
