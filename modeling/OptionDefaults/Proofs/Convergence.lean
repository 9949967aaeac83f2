import OptionDefaults.Proofs.Idempotence

/-!
# Passes one after the other

When passes of one table follow each other, what a later pass fills first was held back by a forward
reference: the pass before filled, behind the entry, an option that one of its rules looks at. Once
filled that option stays defined, so every such pass uses up one entry with a forward reference, and
all but the first pass together change the document at most once for each of them.
-/

namespace OptionDefaults

/-- Counts a descriptor with a forward reference whose option is not defined. -/
def Descriptor.pending (d : Descriptor) (D : Document) (later : List (String × Descriptor)) : Nat :=
  if d.hazards later ≠ [] ∧ D.isDefined d.region d.name = false then 1 else 0

/-- The number of entries with a forward reference whose option is not defined. -/
def pending (D : Document) : List (String × Descriptor) → Nat
  | [] => 0
  | (_, d) :: later => d.pending D later + pending D later

variable {D E : Document} {key : String} {d : Descriptor}

theorem Descriptor.pending_le_length_hazards (d : Descriptor) (D : Document)
    (later : List (String × Descriptor)) : d.pending D later ≤ (d.hazards later).length := by
  unfold pending
  split
  next h => exact List.length_pos_iff.mpr h.1
  next => exact Nat.zero_le _

theorem pending_le_length_hazards (D : Document) (es : List (String × Descriptor)) :
    pending D es ≤ (hazards es).length := by
  induction es with
  | nil => exact Nat.le_refl 0
  | cons e later ih =>
    have hd := e.2.pending_le_length_hazards D later
    rw [pending, hazards, List.length_append]
    omega

theorem Descriptor.pending_le_of_extends (hE : E.Extends D) (d : Descriptor)
    (later : List (String × Descriptor)) : d.pending E later ≤ d.pending D later := by
  unfold pending
  cases hD : D.isDefined d.region d.name with
  | true => simp [hE.isDefined hD]
  | false => split <;> simp_all

theorem pending_le_of_extends (hE : E.Extends D) (es : List (String × Descriptor)) :
    pending E es ≤ pending D es := by
  induction es with
  | nil => exact Nat.le_refl 0
  | cons e later ih =>
    have hd := e.2.pending_le_of_extends hE later
    rw [pending, pending]
    omega

/-- Defining the option of an entry with a forward reference leaves fewer entries pending. -/
theorem pending_lt_of_isDefined (hE : E.Extends D) {post : List (String × Descriptor)}
    (h : d.hazards post ≠ []) (hD : D.isDefined d.region d.name = false)
    (hd : E.isDefined d.region d.name = true) (pre : List (String × Descriptor)) :
    pending E (pre ++ (key, d) :: post) < pending D (pre ++ (key, d) :: post) := by
  induction pre with
  | nil =>
    have hpost := pending_le_of_extends hE post
    have hold : d.pending D post = 1 := by simp [Descriptor.pending, h, hD]
    have hnew : d.pending E post = 0 := by simp [Descriptor.pending, hd]
    simp only [List.nil_append, pending]
    omega
  | cons e pre ih =>
    have he := e.2.pending_le_of_extends hE (pre ++ (key, d) :: post)
    simp only [List.cons_append, pending]
    omega

namespace Pass

def firstFilled? (pass : Pass) : Option Step := pass.steps.find? fun step => step.visit.isFilled

theorem firstFilled?_prepend_of_filled {step : Step} (pass : Pass)
    (h : step.visit.isFilled = true) : (pass.prepend step).firstFilled? = some step := by
  simp [firstFilled?, h]

theorem firstFilled?_prepend_of_not_filled {step : Step} (pass : Pass)
    (h : step.visit.isFilled = false) : (pass.prepend step).firstFilled? = pass.firstFilled? := by
  simp [firstFilled?, h]

variable {es : List (String × Descriptor)}

theorem exists_firstFilled (h : (run D es).document ≠ D) :
    ∃ step, (run D es).firstFilled? = some step := by
  cases hf : (run D es).firstFilled? with
  | some step => exact ⟨step, rfl⟩
  | none =>
    refine absurd (document_run_of_applied_eq_nil (applied_eq_nil_iff.mpr ?_)) h
    intro step hs
    simpa using List.find?_eq_none.mp hf step hs

/-- What a pass over the outcome of a pass fills first is an entry with a forward reference, to an
option that the pass before filled behind it. -/
theorem firstFilled?_again {first : Step}
    (h : (run (run D es).document es).firstFilled? = some first) :
    ∃ pre post, es = pre ++ (first.key, first.descriptor) :: post ∧
      ∃ rule ∈ first.descriptor.rules, ∃ option region,
        rule.reads first.descriptor.region = some (option, region) ∧
          ⟨first.descriptor.name, option⟩ ∈ first.descriptor.hazards post ∧
            ∃ earlier ∈ (run D es).steps, earlier.Fills option region ∧
              (earlier.key, earlier.descriptor) ∈ post := by
  induction D, es using run_induct with
  | nil D => cases h
  | stop D key d es hc =>
    -- Both passes stop at this entry, and neither fills anything.
    have hrun : (run D ((key, d) :: es)).document = D := by rw [run_cons_of_clash hc]
    obtain ⟨evaluations, hv⟩ := Visit.isClash_iff.mp hc
    rw [hrun, run_cons_of_clash hc, firstFilled?, hv] at h
    cases h
  | go D key d es hc ih =>
    have hagain := isQuiet_visit_again hc es
    rw [run_cons hc, document_prepend] at h
    rw [run_cons hc, steps_prepend]
    cases hf : (d.visit (run (d.leaves D) es).document).isFilled with
    | true =>
      rw [run_cons (Visit.isClash_of_isFilled hf), firstFilled?_prepend_of_filled _ hf] at h
      obtain rfl := Option.some.inj h
      rcases hagain with hq | ⟨rule, hr, option, region, hreads, step, hs, hfills⟩
      · rw [(Visit.isQuiet_iff.mp hq).1] at hf
        cases hf
      · obtain ⟨hmem, hlater⟩ := fills_of_mem_steps hs hfills
        have hhazard := Descriptor.mem_hazards hr hreads (anyFills_eq_true_iff.mpr ⟨_, hmem, hlater⟩)
        exact ⟨[], es, rfl, rule, hr, option, region, hreads, hhazard, step, .tail _ hs, hfills,
          hmem⟩
    | false =>
      cases hclash : (d.visit (run (d.leaves D) es).document).isClash with
      | true =>
        rw [run_cons_of_clash hclash, firstFilled?, List.find?_cons_of_neg (by simp [hf])] at h
        cases h
      | false =>
        -- The entry leaves the outcome as it is, and the rest is a pass over its own outcome again.
        rw [run_cons hclash, firstFilled?_prepend_of_not_filled _ hf,
          Descriptor.leaves_of_not_filled hf] at h
        obtain ⟨pre, post, hes, rule, hr, option, region, hreads, hhazard, earlier, hs, hfills,
          hmem⟩ := ih h
        exact ⟨(key, d) :: pre, post, by rw [hes]; rfl, rule, hr, option, region, hreads, hhazard,
          earlier, .tail _ hs, hfills, hmem⟩

/-- A pass over the outcome of a pass that changes the document leaves fewer entries pending. -/
theorem pending_lt_again (h : (run (run D es).document es).document ≠ (run D es).document) :
    pending (run (run D es).document es).document es < pending (run D es).document es := by
  obtain ⟨first, hfirst⟩ := exists_firstFilled h
  obtain ⟨pre, post, hes, rule, -, option, region, -, hhazard, -⟩ := firstFilled?_again hfirst
  have hstep := List.mem_of_find?_eq_some hfirst
  have hfilled := List.find?_some hfirst
  obtain ⟨hbefore, hafter⟩ := isDefined_of_mem_steps hstep ⟨hfilled, rfl, rfl⟩
  have hext := extends_run (run D es).document es
  generalize (run (run D es).document es).document = E at hafter hext ⊢
  generalize (run D es).document = R at hbefore hext ⊢
  rw [hes]
  exact pending_lt_of_isDefined hext (List.ne_nil_of_mem hhazard) hbefore hafter pre

end Pass

namespace Table

/-- The document after so many passes, each over what the one before left, failed or not. -/
def afterPasses (T : Table) (D : Document) : Nat → Document
  | 0 => D
  | n + 1 => (T.pass (T.afterPasses D n)).document

/-- How many of the first `n` passes change the document. -/
def changes (T : Table) (D : Document) (n : Nat) : Nat :=
  (List.range n).countP fun k => T.afterPasses D (k + 1) ≠ T.afterPasses D k

theorem changes_succ (T : Table) (D : Document) (n : Nat) :
    T.changes D (n + 1) =
      T.changes D n + if T.afterPasses D (n + 1) ≠ T.afterPasses D n then 1 else 0 := by
  rw [changes, List.range_succ, List.countP_append, List.countP_singleton, ← changes]
  simp

/-- Changes and pending entries together stay within one more than the forward references. -/
theorem changes_add_pending_le (T : Table) (D : Document) (n : Nat) :
    T.changes D (n + 1) + pending (T.afterPasses D (n + 1)) T.entries ≤
      1 + T.forwardReferences.length := by
  induction n with
  | zero =>
    have hp := pending_le_length_hazards (T.afterPasses D (0 + 1)) T.entries
    rw [← forwardReferences_eq] at hp
    rw [changes_succ, changes, List.range_zero, List.countP_nil]
    split <;> omega
  | succ n ih =>
    rw [changes_succ]
    split
    next h =>
      have hp : pending (T.afterPasses D (n + 1 + 1)) T.entries <
          pending (T.afterPasses D (n + 1)) T.entries := Pass.pending_lt_again h
      omega
    next h =>
      rw [Decidable.not_not.mp h]
      omega

/-- Whether one entry stands before another. -/
def StandsBefore (T : Table) (e f : String × Descriptor) : Prop := [e, f].Sublist T.entries

/-- Passes one after the other change the document at most once more than there are forward
references, and every change but that of the first pass starts at a forward reference to an option
that the pass before filled further on. -/
theorem passes_converge (T : Table) (D : Document) :
    (∀ n, T.changes D n ≤ 1 + T.forwardReferences.length) ∧
      ∀ k, T.afterPasses D (k + 2) ≠ T.afterPasses D (k + 1) →
        ∃ first, (T.pass (T.afterPasses D (k + 1))).firstFilled? = some first ∧
          ∃ earlier ∈ (T.pass (T.afterPasses D k)).steps,
            ∃ rule ∈ first.descriptor.rules, ∃ option region,
              rule.reads first.descriptor.region = some (option, region) ∧
                earlier.Fills option region ∧
                ⟨first.descriptor.name, option⟩ ∈ T.forwardReferences ∧
                T.StandsBefore (first.key, first.descriptor) (earlier.key, earlier.descriptor) := by
  constructor
  · intro n
    cases n with
    | zero => exact Nat.zero_le _
    | succ n =>
      have h := T.changes_add_pending_le D n
      omega
  · intro k h
    obtain ⟨first, hfirst⟩ := Pass.exists_firstFilled h
    refine ⟨first, hfirst, ?_⟩
    obtain ⟨pre, post, hes, rule, hr, option, region, hreads, hhazard, earlier, hs, hfills, hmem⟩ :=
      Pass.firstFilled?_again hfirst
    refine ⟨earlier, hs, rule, hr, option, region, hreads, hfills, ?_, ?_⟩
    · rw [forwardReferences_eq, hes]
      exact descriptor_hazards_subset pre _ _ post hhazard
    · rw [StandsBefore, hes]
      exact .trans (.cons_cons _ (List.singleton_sublist.mpr hmem)) (List.sublist_append_right _ _)

/-- Every option of this table but the last one waits for the option described after it. -/
def waiting : Table :=
  ⟨[("outer", ⟨"outer", .root, some (.single (.presence "middle" (.bool true) none))⟩),
    ("middle", ⟨"middle", .root, some (.single (.presence "inner" (.bool true) none))⟩),
    ("inner", ⟨"inner", .root, some (.single (.literal (.bool true)))⟩)], by decide⟩

/-- The bound is met: all of the first three passes change the document. -/
theorem waiting_changes :
    waiting.changes .empty 3 = 1 + waiting.forwardReferences.length ∧
      (∀ n, waiting.changes .empty n ≤ 1 + waiting.forwardReferences.length) ∧
      ∃ first, (waiting.pass (waiting.afterPasses .empty 2)).firstFilled? = some first ∧
        ∃ earlier ∈ (waiting.pass (waiting.afterPasses .empty 1)).steps,
          ∃ rule ∈ first.descriptor.rules, ∃ option region,
            rule.reads first.descriptor.region = some (option, region) ∧
              earlier.Fills option region ∧
              ⟨first.descriptor.name, option⟩ ∈ waiting.forwardReferences ∧
              waiting.StandsBefore (first.key, first.descriptor)
                (earlier.key, earlier.descriptor) := by
  obtain ⟨hbound, hstart⟩ := passes_converge waiting .empty
  exact ⟨by decide, hbound, hstart 1 (by decide)⟩

end Table

end OptionDefaults
