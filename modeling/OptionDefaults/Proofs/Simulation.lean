import OptionDefaults.Proofs.Passes

/-!
# Passes side by side

Two passes are compared by a relation between the documents that they are at. The first one may have
entries of its own: visiting one of them keeps the relation. A shared entry is visited alike on
related documents and leaves related ones behind. Then the second pass takes the steps of the first
one at the shared entries, up to where the first one stops if it stops at an entry of its own.
-/

namespace OptionDefaults

/-- A visit that is the same on two documents gives an option one value in both, or leaves it as it
was in both. -/
theorem Descriptor.get?_leaves_of_visit_eq {d : Descriptor} {D E : Document}
    (h : d.visit E = d.visit D) (region : Region) (name : String) :
    (∃ value, (d.leaves D).get? region name = some value ∧
        (d.leaves E).get? region name = some value) ∨
      (d.leaves D).get? region name = D.get? region name ∧
        (d.leaves E).get? region name = E.get? region name := by
  cases hf : (d.visit D).isFilled with
  | false =>
    rw [leaves_of_not_filled hf, leaves_of_not_filled (h ▸ hf)]
    exact .inr ⟨rfl, rfl⟩
  | true =>
    obtain ⟨value, evaluations, hv⟩ := Visit.isFilled_iff.mp hf
    rw [leaves_of_filled hv, leaves_of_filled (h.trans hv), Document.get?_set, Document.get?_set]
    by_cases hplace : region = d.region ∧ name = d.name
    · rw [if_pos hplace, if_pos hplace]
      exact .inl ⟨value, rfl, rfl⟩
    · rw [if_neg hplace, if_neg hplace]
      exact .inr ⟨rfl, rfl⟩

def Step.entry (step : Step) : String × Descriptor := (step.key, step.descriptor)

namespace Pass

/-- The relation holds along two passes over the entries, of which the second one visits only those
that are shared. -/
structure Simulation (shared : String × Descriptor → Bool)
    (Related : Document → Document → Prop) (es : List (String × Descriptor)) : Prop where
  visit : ∀ e ∈ es, shared e = true → ∀ D E, Related D E → e.2.visit E = e.2.visit D
  together : ∀ e ∈ es, shared e = true → ∀ D E, Related D E → Related (e.2.leaves D) (e.2.leaves E)
  alone : ∀ e ∈ es, shared e = false → ∀ D E, Related D E → Related (e.2.leaves D) E

variable {shared : String × Descriptor → Bool} {Related : Document → Document → Prop}
variable {D E : Document} {es : List (String × Descriptor)}

theorem Simulation.tail {e : String × Descriptor} (h : Simulation shared Related (e :: es)) :
    Simulation shared Related es where
  visit f hf := h.visit f (.tail e hf)
  together f hf := h.together f (.tail e hf)
  alone f hf := h.alone f (.tail e hf)

def sharedSteps (shared : String × Descriptor → Bool) (pass : Pass) : List Step :=
  pass.steps.filter fun step => shared step.entry

/-- Whether the pass stops, if it stops at all, at a shared entry. -/
def StopsShared (shared : String × Descriptor → Bool) (pass : Pass) : Prop :=
  ∀ step ∈ pass.steps, step.visit.isClash = true → shared step.entry = true

/-- The second pass begins with the shared steps of the first one, and has no others unless the
first one stopped at an entry of its own. -/
structure Follows (shared : String × Descriptor → Bool) (Related : Document → Document → Prop)
    (first second : Pass) : Prop where
  isPrefix : first.sharedSteps shared <+: second.steps
  complete : first.StopsShared shared →
    second.steps = first.sharedSteps shared ∧ Related first.document second.document

namespace Follows

variable {first second : Pass} {step : Step}

theorem nil (hDE : Related D E) : Follows shared Related ⟨[], D⟩ ⟨[], E⟩ where
  isPrefix := List.nil_prefix
  complete _ := ⟨rfl, hDE⟩

theorem together (h : Follows shared Related first second) (hs : shared step.entry = true) :
    Follows shared Related (first.prepend step) (second.prepend step) := by
  have hsteps : (first.prepend step).sharedSteps shared = step :: first.sharedSteps shared := by
    simp [sharedSteps, hs]
  constructor
  · rw [hsteps, steps_prepend, List.prefix_cons_inj]
    exact h.isPrefix
  · intro hstop
    obtain ⟨heq, hrelated⟩ := h.complete fun s hmem => hstop s (.tail step hmem)
    rw [hsteps, steps_prepend, heq]
    exact ⟨rfl, hrelated⟩

theorem alone (h : Follows shared Related first second) (hs : shared step.entry = false) :
    Follows shared Related (first.prepend step) second := by
  have hsteps : (first.prepend step).sharedSteps shared = first.sharedSteps shared := by
    simp [sharedSteps, hs]
  constructor
  · rw [hsteps]
    exact h.isPrefix
  · intro hstop
    rw [hsteps]
    exact h.complete fun s hmem => hstop s (.tail step hmem)

/-- Nothing is said of the second pass where the first one stops at an entry of its own. -/
theorem stopped (hc : step.visit.isClash = true) (hs : shared step.entry = false) :
    Follows shared Related ⟨[step], D⟩ second := by
  constructor
  · have hnone : (⟨[step], D⟩ : Pass).sharedSteps shared = [] := by simp [sharedSteps, hs]
    rw [hnone]
    exact List.nil_prefix
  · intro hstop
    have hshared := hstop step (.head []) hc
    rw [hs] at hshared
    cases hshared

end Follows

/-- A pass over the shared entries follows the pass over all of them. -/
theorem Simulation.follows (h : Simulation shared Related es) (hDE : Related D E) :
    Follows shared Related (run D es) (run E (es.filter shared)) := by
  induction D, es using run_induct generalizing E with
  | nil D => exact .nil hDE
  | stop D key d es hc =>
    rw [run_cons_of_clash hc]
    cases hs : shared (key, d) with
    | false => exact .stopped hc hs
    | true =>
      -- The second pass stops at the same entry, and both leave the documents they came with.
      have hv : d.visit E = d.visit D := h.visit (key, d) (.head es) hs D E hDE
      rw [List.filter_cons_of_pos hs, run_cons_of_clash (hv ▸ hc), hv]
      exact (Follows.nil hDE).together hs
  | go D key d es hc ih =>
    rw [run_cons hc]
    cases hs : shared (key, d) with
    | false =>
      rw [List.filter_cons_of_neg (by simp [hs])]
      exact (ih h.tail (h.alone (key, d) (.head es) hs D E hDE)).alone hs
    | true =>
      have hv : d.visit E = d.visit D := h.visit (key, d) (.head es) hs D E hDE
      rw [List.filter_cons_of_pos hs, run_cons (hv ▸ hc), hv]
      exact (ih h.tail (h.together (key, d) (.head es) hs D E hDE)).together hs

theorem stopsShared_of_error?_eq_none {pass : Pass} (h : pass.error? = none) :
    pass.StopsShared shared := by
  intro step hmem hc
  have hstep := List.findSome?_eq_none_iff.mp h step hmem
  rw [Step.error?_eq_none_iff.mp hstep] at hc
  cases hc

theorem Simulation.steps_eq (h : Simulation (fun _ => true) Related es) (hDE : Related D E) :
    (run E es).steps = (run D es).steps := by
  obtain ⟨hsteps, -⟩ := (h.follows hDE).complete fun _ _ _ => rfl
  rwa [sharedSteps, List.filter_eq_self.mpr fun _ _ => rfl,
    List.filter_eq_self.mpr fun _ _ => rfl] at hsteps

/-! ## Documents that agree at some places -/

/-- The documents have the same value, or none, at every visible place. -/
def AgreeOn (visible : Region → String → Prop) (D E : Document) : Prop :=
  ∀ region name, visible region name → E.get? region name = D.get? region name

/-- Shared entries that look at and fill visible places only see nothing of entries that fill hidden
ones. -/
theorem simulation_of_visible {visible : Region → String → Prop}
    (hown : ∀ e ∈ es, shared e = true → visible e.2.region e.2.name)
    (hreads : ∀ e ∈ es, shared e = true → ∀ rule ∈ e.2.rules, ∀ option region,
      rule.reads e.2.region = some (option, region) → visible region option)
    (hhidden : ∀ e ∈ es, shared e = false → ∀ region name, visible region name →
      e.2.fills name region = false) :
    Simulation shared (AgreeOn visible) es := by
  have hvisit : ∀ e ∈ es, shared e = true → ∀ D E, AgreeOn visible D E →
      e.2.visit E = e.2.visit D := by
    intro e he hs D E hDE
    apply Descriptor.visit_congr (congrArg Option.isSome (hDE _ _ (hown e he hs)))
    apply Descriptor.evaluate_congr
    intro rule hr option region hread
    exact hDE region option (hreads e he hs rule hr option region hread)
  constructor
  case visit => exact hvisit
  case together =>
    intro e he hs D E hDE region name hplace
    rcases Descriptor.get?_leaves_of_visit_eq (hvisit e he hs D E hDE) region name with
      ⟨value, hD, hE⟩ | ⟨hD, hE⟩
    · rw [hD, hE]
    · rw [hD, hE]
      exact hDE region name hplace
  case alone =>
    intro e he hs D E hDE region name hplace
    rw [Descriptor.get?_leaves_of_not_fills (hhidden e he hs region name hplace)]
    exact hDE region name hplace

end Pass

theorem Step.descriptor_of_applied? {step : Step} {a : Applied} (h : step.applied? = some a) :
    a.descriptor = step.descriptor := by
  unfold applied? at h
  split at h
  next => exact (Option.some.inj h) ▸ rfl
  next => cases h

theorem Step.filterMap_applied?_filter {steps : List Step} {p : Step → Bool} {q : Applied → Bool}
    (h : ∀ step ∈ steps, ∀ a, step.applied? = some a → q a = p step) :
    (steps.filter p).filterMap Step.applied? = (steps.filterMap Step.applied?).filter q := by
  induction steps with
  | nil => rfl
  | cons step steps ih =>
    have ih := ih fun s hs => h s (.tail step hs)
    cases ha : step.applied? with
    | none => by_cases hp : p step <;> simp [hp, ha, ih]
    | some a =>
      have hq := h step (.head steps) a ha
      by_cases hp : p step <;> simp [hp, hq, ha, ih]

end OptionDefaults
