import OptionDefaults.Proofs.Passes

/-!
# A second pass

Visiting an entry again, on the document that its pass left, fills nothing and does not fail unless
one of its rules looks at an option that was filled after the first visit. An entry that the pass
stopped at is visited twice on the same document. So a table without forward references does all
its work in one pass: the second one fills nothing and stops where the first one stopped.
-/

namespace OptionDefaults

namespace Pass

variable {D : Document} {d : Descriptor}

/-- An entry that was passed over once is passed over again in silence, unless an option that one of
its rules looks at was filled in between. -/
theorem isQuiet_visit_again (hc : (d.visit D).isClash = false)
    (es : List (String × Descriptor)) :
    (d.visit (run (d.leaves D) es).document).isQuiet = true ∨
      ∃ rule ∈ d.rules, ∃ option region, rule.reads d.region = some (option, region) ∧
        ∃ step ∈ (run (d.leaves D) es).steps, step.Fills option region := by
  have hext := extends_run (d.leaves D) es
  cases hf : (d.visit D).isFilled with
  | true =>
    have hdef := hext.isDefined (Descriptor.isDefined_leaves hf)
    exact .inl (Descriptor.isQuiet_visit_iff.mpr (.inr (.inl hdef)))
  | false =>
    have hq := Descriptor.isQuiet_visit_iff.mp (Visit.isQuiet_iff.mpr ⟨hf, hc⟩)
    rw [Descriptor.leaves_of_not_filled hf] at hext ⊢
    by_cases hread : ∃ rule ∈ d.rules, ∃ option region,
        rule.reads d.region = some (option, region) ∧
          ∃ step ∈ (run D es).steps, step.Fills option region
    · exact .inr hread
    · have hsame : d.evaluate (run D es).document = d.evaluate D := by
        apply Descriptor.evaluate_congr
        intro rule hr option region hreads
        apply get?_run
        intro step hs hfills
        exact hread ⟨rule, hr, option, region, hreads, step, hs, hfills⟩
      refine .inl (Descriptor.isQuiet_visit_iff.mpr ?_)
      rcases hq with hp | hd | hn
      · exact .inl hp
      · exact .inr (.inl (hext.isDefined hd))
      · unfold Descriptor.merged at hn ⊢
        rw [hsame]
        exact .inr (.inr hn)

/-- Without forward references a pass over its own outcome fills nothing and ends as before. -/
theorem run_again {es : List (String × Descriptor)} (h : hazards es = []) :
    (run (run D es).document es).applied = [] ∧
      (run (run D es).document es).error? = (run D es).error? := by
  induction D, es using run_induct with
  | nil D => exact ⟨rfl, rfl⟩
  | stop D key d es hc =>
    -- Nothing was filled at the clash, so the second pass visits the entry on the same document.
    have hrun : (run D ((key, d) :: es)).document = D := by rw [run_cons_of_clash hc]
    rw [hrun]
    refine ⟨?_, rfl⟩
    obtain ⟨evaluations, hv⟩ := Visit.isClash_iff.mp hc
    rw [applied_eq_nil_iff, run_cons_of_clash hc]
    simp [hv, Visit.isFilled]
  | go D key d es hc ih =>
    obtain ⟨hd, hes⟩ := hazards_cons_eq_nil_iff.mp h
    have hquiet : (d.visit (run (d.leaves D) es).document).isQuiet = true := by
      rcases isQuiet_visit_again hc es with hq | ⟨rule, hr, option, region, hreads, step, hs, hf⟩
      · exact hq
      · have hlater := anyFills_eq_true_iff.mpr ⟨_, fills_of_mem_steps hs hf⟩
        rw [Descriptor.anyFills_eq_false_of_hazards_eq_nil hd hr hreads] at hlater
        cases hlater
    obtain ⟨hfilled, hclash⟩ := Visit.isQuiet_iff.mp hquiet
    obtain ⟨ihApplied, ihError⟩ := ih hes
    have hdoc : (run D ((key, d) :: es)).document = (run (d.leaves D) es).document := by
      rw [run_cons hc, document_prepend]
    rw [hdoc, error?_run_cons hclash, error?_run_cons hc, Descriptor.leaves_of_not_filled hfilled]
    refine ⟨?_, ihError⟩
    rw [applied_eq_nil_iff] at ihApplied ⊢
    rw [run_cons hclash, Descriptor.leaves_of_not_filled hfilled]
    intro step hs
    rcases List.mem_cons.mp hs with rfl | hs
    · exact hfilled
    · exact ihApplied step hs

end Pass

namespace Table

/-- A table without forward references is done after one pass, also after one that failed: the
second pass has the same outcome, leaves the document as it is and reports nothing. -/
theorem second_pass_changes_nothing (T : Table) (D : Document) (h : T.forwardReferences = []) :
    let first := T.pass D
    let second := T.pass first.document
    second.error? = first.error? ∧ second.document = first.document ∧ second.applied = [] := by
  rw [forwardReferences_eq] at h
  obtain ⟨happlied, herror⟩ := Pass.run_again (D := D) h
  exact ⟨herror, Pass.document_run_of_applied_eq_nil happlied, happlied⟩

/-- Here `mode` looks at itself, `lib` is described twice, and the candidates for `paths` clash. -/
def clashing : Table :=
  ⟨[("mode", ⟨"mode", .nested, some (.single (.multiValue "mode" [] (some (.string "auto"))))⟩),
    ("lib", ⟨"lib", .root, some (.single (.literal (.array [])))⟩),
    ("libs", ⟨"lib", .root, some (.single (.presence "lib" (.bool true) none))⟩),
    ("paths", ⟨"paths", .nested,
      some (.merged [.literal (.array []), .presence "lib" (.bool true) none])⟩),
    ("late", ⟨"late", .root, some (.single (.literal .null))⟩)], by decide⟩

theorem second_pass_after_clash :
    let first := clashing.pass .empty
    let second := clashing.pass first.document
    clashing.forwardReferences = [] ∧ first.applied.length = 2 ∧
      first.error? = some ⟨"paths", [some (.array []), some (.bool true)]⟩ ∧
      second.error? = first.error? ∧ second.document = first.document ∧ second.applied = [] := by
  have h : clashing.forwardReferences = [] := by decide
  exact ⟨h, by decide, by decide, second_pass_changes_nothing clashing .empty h⟩

end Table

end OptionDefaults
