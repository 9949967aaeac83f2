import OptionDefaults.Proofs.Passes

/-!
# Explanations after the pass

A rule is evaluated on the document as it is when its entry is visited, and its reason is shown with
the final document. What it looked at and found is still there at the end. What it missed may have
come since, but then either the entry itself filled it, or a later entry did and the rule is a
forward reference. So in a table with neither kind of rule every reason holds of the final document.
-/

namespace OptionDefaults

namespace Reason

/-- Whether the reason is that the option is there. -/
def isAffirmative : Reason → Bool
  | .defined _ => true
  | .matched _ _ => true
  | _ => false

/-- What the reason says of the document; a literal and a missing value say nothing. -/
def HoldsOf (D : Document) (owner : Region) : Reason → Prop
  | .literal => True
  | .defined option => D.isDefined .root option = true
  | .notDefined option => D.isDefined .root option = false
  | .matched option value => ∃ current, D.get? owner option = some current ∧ value.alike current
  | .otherwise option tried =>
    ∀ current, D.get? owner option = some current → ∀ pair ∈ tried, pair.1.alike current = false
  | .noValue _ => True

end Reason

namespace Rule

variable {D E : Document} {owner : Region} {rule : Rule}

/-- A rule gives its reason only where it holds. -/
theorem holdsOf_evaluate (rule : Rule) (D : Document) (owner : Region) :
    (rule.evaluate D owner).reason.HoldsOf D owner := by
  cases rule with
  | literal v => trivial
  | presence option v notDefined =>
    rw [evaluate_presence]
    cases hd : D.isDefined .root option with
    | true => exact hd
    | false => cases notDefined <;> simp [Reason.HoldsOf, hd]
  | multiValue option pairs otherwise =>
    cases hm : (D.get? owner option).bind (matchingPair pairs) with
    | some pair =>
      obtain ⟨current, hcurrent, hpair⟩ := Option.bind_eq_some_iff.mp hm
      have halike := List.find?_some hpair
      rw [evaluate_of_match hm]
      exact ⟨current, hcurrent, halike⟩
    | none =>
      rw [evaluate_of_no_match hm]
      cases otherwise with
      | none => trivial
      | some v =>
        intro current hcurrent pair hpair
        rw [hcurrent, Option.bind_some] at hm
        exact Bool.eq_false_iff.mpr (List.find?_eq_none.mp hm pair hpair)

theorem isDefined_of_isAffirmative (h : (rule.evaluate D owner).reason.isAffirmative = true)
    {option : String} {region : Region} (hreads : rule.reads owner = some (option, region)) :
    D.isDefined region option = true := by
  cases rule with
  | literal v => cases hreads
  | presence o v notDefined =>
    cases hreads
    rw [evaluate_presence] at h
    cases hd : D.isDefined .root option with
    | true => rfl
    | false => cases notDefined <;> simp [hd, Reason.isAffirmative] at h
  | multiValue o pairs otherwise =>
    cases hreads
    cases hm : (D.get? owner option).bind (matchingPair pairs) with
    | some pair =>
      obtain ⟨current, hcurrent, -⟩ := Option.bind_eq_some_iff.mp hm
      exact Document.isDefined_iff.mpr ⟨current, hcurrent⟩
    | none =>
      rw [evaluate_of_no_match hm] at h
      cases otherwise <;> cases h

/-- What was found stays, so a rule that found its option is evaluated as before. -/
theorem evaluate_of_extends (hE : E.Extends D)
    (h : (rule.evaluate D owner).reason.isAffirmative = true) :
    rule.evaluate E owner = rule.evaluate D owner :=
  evaluate_congr fun _ _ hreads => hE.get?_eq (isDefined_of_isAffirmative h hreads)

end Rule

/-- Whether a rule looks at the option that its own descriptor describes. -/
def Descriptor.ReadsItself (d : Descriptor) : Prop :=
  ∃ rule ∈ d.rules, rule.reads d.region = some (d.name, d.region)

instance (d : Descriptor) : Decidable d.ReadsItself :=
  inferInstanceAs (Decidable (∃ rule ∈ d.rules, rule.reads d.region = some (d.name, d.region)))

/-- The filled option has its value on the document, its policy comes to that value there, for the
reasons that were given, and each of these holds. -/
structure Applied.HoldsOf (applied : Applied) (R : Document) : Prop where
  value : R.get? applied.descriptor.region applied.descriptor.name = some applied.value
  merged : applied.descriptor.merged R = .value applied.value
  reasons : (applied.descriptor.evaluate R).map Evaluation.reason = applied.reasons
  hold : ∀ reason ∈ applied.reasons, reason.HoldsOf R applied.descriptor.region

namespace Pass

variable {D : Document} {key : String} {d : Descriptor} {rule : Rule}
variable {pre post es : List (String × Descriptor)}

/-- A rule of an entry that the pass came to, evaluated again on the final document: it is as it was
unless the entry filled what the rule looks at, or the rule is a forward reference. -/
theorem evaluate_again (h : (run D pre).error? = none) (hr : rule ∈ d.rules) :
    let S := (run D pre).document
    rule.evaluate (run D (pre ++ (key, d) :: post)).document d.region = rule.evaluate S d.region ∨
      ∃ option region, rule.reads d.region = some (option, region) ∧
        (option = d.name ∧ region = d.region ∧ (d.visit S).isFilled = true ∨
          ⟨d.name, option⟩ ∈ d.hazards post) := by
  intro S
  obtain ⟨-, -, hlast⟩ := run_split h key d post
  cases hreads : rule.reads d.region with
  | none =>
    apply Or.inl
    apply Rule.evaluate_congr
    intro option region h
    rw [hreads] at h
    cases h
  | some place =>
    obtain ⟨option, region⟩ := place
    cases hlater : anyFills post option region with
    | true => exact .inr ⟨option, region, rfl, .inr (Descriptor.mem_hazards hr hreads hlater)⟩
    | false =>
      by_cases hself : option = d.name ∧ region = d.region ∧ (d.visit S).isFilled = true
      · exact .inr ⟨option, region, rfl, .inl hself⟩
      · apply Or.inl
        apply Rule.evaluate_congr
        intro o r h
        rw [hreads] at h
        obtain ⟨rfl, rfl⟩ := Prod.mk.inj (Option.some.inj h)
        rw [hlast region option hlater]
        apply Descriptor.get?_leaves
        rintro ⟨hf, hname, hregion⟩
        exact hself ⟨hname.symm, hregion.symm, hf⟩

/-- A rule that found its option finds it again on the final document. -/
theorem evaluate_again_of_isAffirmative (h : (run D pre).error? = none)
    (ha : (rule.evaluate (run D pre).document d.region).reason.isAffirmative = true) :
    rule.evaluate (run D (pre ++ (key, d) :: post)).document d.region =
      rule.evaluate (run D pre).document d.region := by
  obtain ⟨-, hext, -⟩ := run_split h key d post
  exact Rule.evaluate_of_extends (hext.trans (d.extends_leaves _)) ha

/-- An entry none of whose rules looks at its own option or at a later one's is evaluated on the
final document as it was when it was visited. -/
theorem descriptor_evaluate_again (key : String) (h : (run D pre).error? = none)
    (hhazards : d.hazards post = []) (hself : ¬d.ReadsItself) :
    d.evaluate (run D (pre ++ (key, d) :: post)).document = d.evaluate (run D pre).document := by
  apply List.map_congr_left
  intro rule hr
  rcases evaluate_again h hr with heq | ⟨option, region, hreads, ⟨rfl, rfl, -⟩ | hm⟩
  · exact heq
  · exact absurd ⟨rule, hr, hreads⟩ hself
  · rw [hhazards] at hm
    cases hm

/-- Where no rule looks at its own option or at a later one's, every filled value is what the policy
comes to on the final document, and every reason holds of it. -/
theorem applied_holds (hhazards : hazards es = []) (hself : ∀ e ∈ es, ¬e.2.ReadsItself)
    {applied : Applied} (h : applied ∈ (run D es).applied) :
    applied.HoldsOf (run D es).document := by
  obtain ⟨step, hs, value, evaluations, hv, rfl⟩ := exists_step_of_mem_applied h
  obtain ⟨pre, post, rfl, he, hvisit⟩ := exists_split_of_mem_steps hs
  obtain ⟨-, hext, -⟩ := run_split he step.key step.descriptor post
  have hlater : step.descriptor.hazards post = [] :=
    List.subset_nil.mp (hhazards ▸ descriptor_hazards_subset pre _ _ post)
  have hsame :=
    descriptor_evaluate_again step.key he hlater (hself (step.key, step.descriptor) (by simp))
  have hfilled := hvisit.symm.trans hv
  obtain ⟨-, -, hmerged, rfl⟩ := Descriptor.visit_eq_filled_iff.mp hfilled
  constructor
  case value =>
    apply hext
    rw [Descriptor.leaves_of_filled hfilled, Document.get?_set, if_pos ⟨rfl, rfl⟩]
  case merged =>
    rw [Descriptor.merged, hsame]
    exact hmerged
  case reasons => rw [hsame]
  case hold =>
    rw [← hsame]
    intro reason hreason
    obtain ⟨evaluation, he, rfl⟩ := List.mem_map.mp hreason
    obtain ⟨rule, -, rfl⟩ := List.mem_map.mp he
    exact rule.holdsOf_evaluate _ _

end Pass

namespace Table

/-- Explanations stay true. Every entry that a pass comes to and that has its rules evaluated, on the
document as it is then, has them evaluated alike on the document that the pass leaves, failed or not:
each rule gives the same candidate for the same reason, unless the entry filled its option and the
rule looks at that, or the rule is a forward reference; and there is no exception where the rule
found its option. So with neither kind of rule every filled value is what the policy comes to on the
final document, and every reason that was given holds of it. -/
theorem explanations_stay_true (T : Table) (D : Document) :
    let R := (T.pass D).document
    (∀ pre key d post, T.entries = pre ++ (key, d) :: post →
      let S := (Pass.run D pre).document
      (Pass.run D pre).error? = none → d.policy.isSome = true →
      S.isDefined d.region d.name = false →
        ⟨key, d, d.visit S⟩ ∈ (T.pass D).steps ∧
        (d.visit S).evaluations? = some (d.rules.map fun rule => rule.evaluate S d.region) ∧
        ∀ rule ∈ d.rules,
          (rule.evaluate R d.region = rule.evaluate S d.region ∨
            ∃ option region, rule.reads d.region = some (option, region) ∧
              (option = d.name ∧ region = d.region ∧ (d.visit S).isFilled = true ∨
                ⟨d.name, option⟩ ∈ T.forwardReferences)) ∧
          ((rule.evaluate S d.region).reason.isAffirmative = true →
            rule.evaluate R d.region = rule.evaluate S d.region)) ∧
      (T.forwardReferences = [] → (∀ d ∈ T.values, ¬d.ReadsItself) →
        ∀ applied ∈ (T.pass D).applied, applied.HoldsOf R) := by
  intro R
  have hR : R = (Pass.run D T.entries).document := rfl
  constructor
  · intro pre key d post hes S herror hpolicy hundefined
    have hstep := (Pass.run_split herror key d post).1
    refine ⟨?_, Descriptor.evaluations?_visit.mpr ⟨hpolicy, hundefined, rfl⟩, ?_⟩
    · rw [pass, hes]
      exact hstep
    · intro rule hr
      rw [hR, forwardReferences_eq, hes]
      refine ⟨?_, Pass.evaluate_again_of_isAffirmative herror⟩
      rcases Pass.evaluate_again herror hr with heq | ⟨option, region, hreads, hself | hm⟩
      · exact .inl heq
      · exact .inr ⟨option, region, hreads, .inl hself⟩
      · exact .inr ⟨option, region, hreads, .inr (descriptor_hazards_subset pre key d post hm)⟩
  · intro hhazards hself applied happlied
    rw [forwardReferences_eq] at hhazards
    exact Pass.applied_holds hhazards (fun e he => hself e.2 (List.mem_map_of_mem he)) happlied

/-- Here `module` looks at `target`, which is filled before it. -/
def moduleOfTarget : Table :=
  ⟨[("target", ⟨"target", .nested, some (.single (.literal (.string "es5")))⟩),
    ("module", ⟨"module", .nested, some (.single
      (.multiValue "target" [(.string "es5", .string "commonjs")] (some (.string "es6"))))⟩),
    ("include", ⟨"include", .root, some (.single
      (.presence "files" (.array []) (some (.array [.string "**"]))))⟩)], by decide⟩

def noteBeforeFiles : Descriptor :=
  ⟨"note", .nested, some (.single (.presence "files" (.string "listed") (some (.string "all"))))⟩

def modeOfItself : Descriptor :=
  ⟨"mode", .root, some (.single (.presence "mode" (.bool true) (some (.bool false))))⟩

def libOfMode : Descriptor := ⟨"lib", .nested, some (.single (.presence "mode" (.array []) none))⟩

/-- Here `note` looks at `files`, which is filled behind it, `mode` at itself, and `lib` at `mode`. -/
def goingStale : Table :=
  ⟨[("note", noteBeforeFiles), ("mode", modeOfItself), ("lib", libOfMode),
    ("files", ⟨"files", .root, some (.single (.literal (.array [])))⟩)], by decide⟩

/-- The reasons of `moduleOfTarget` hold at the end. Of those of `goingStale` the first two do not,
one of a forward reference and one of a rule that looks at its own option; the third one does, as
its rule found the option. -/
theorem explanations_held_and_gone_stale :
    (let pass := moduleOfTarget.pass .empty
    moduleOfTarget.forwardReferences = [] ∧ (∀ d ∈ moduleOfTarget.values, ¬d.ReadsItself) ∧
      pass.applied.map Applied.reasons =
        [[.literal], [.matched "target" (.string "es5")], [.notDefined "files"]] ∧
      ∀ applied ∈ pass.applied, applied.HoldsOf pass.document) ∧
    (let R := (goingStale.pass .empty).document
    let S := fun i => (Pass.run .empty (goingStale.entries.take i)).document
    (∀ rule ∈ noteBeforeFiles.rules, (rule.evaluate (S 0) .nested).reason = .notDefined "files" ∧
      (rule.evaluate R .nested).reason = .defined "files" ∧
      ∃ option region, rule.reads .nested = some (option, region) ∧
        ⟨"note", option⟩ ∈ goingStale.forwardReferences) ∧
    (∀ rule ∈ modeOfItself.rules, (rule.evaluate (S 1) .root).reason = .notDefined "mode" ∧
      (rule.evaluate R .root).reason = .defined "mode" ∧
      ∃ option region, rule.reads .root = some (option, region) ∧
        option = "mode" ∧ region = .root ∧ (modeOfItself.visit (S 1)).isFilled = true) ∧
    ∀ rule ∈ libOfMode.rules, (rule.evaluate (S 2) .nested).reason = .defined "mode" ∧
      rule.evaluate R .nested = rule.evaluate (S 2) .nested) := by
  constructor
  · have h : moduleOfTarget.forwardReferences = [] := by decide
    have hself : ∀ d ∈ moduleOfTarget.values, ¬d.ReadsItself := by decide
    exact ⟨h, hself, by decide, (explanations_stay_true moduleOfTarget .empty).2 h hself⟩
  · obtain ⟨hagain, -⟩ := explanations_stay_true goingStale .empty
    intro R S
    have hnote := (hagain [] "note" noteBeforeFiles _ rfl rfl rfl rfl).2.2
    have hmode := (hagain (goingStale.entries.take 1) "mode" modeOfItself _ rfl rfl rfl rfl).2.2
    have hlib := (hagain (goingStale.entries.take 2) "lib" libOfMode _ rfl rfl rfl rfl).2.2
    refine ⟨?_, ?_, ?_⟩
    · intro rule hrule
      have hexception := (hnote rule hrule).1
      obtain rfl := List.mem_singleton.mp hrule
      rcases hexception with hsame | ⟨option, region, hreads, ⟨hself, -⟩ | hreference⟩
      · exact absurd hsame (by decide)
      · cases hreads
        exact absurd hself (by decide)
      · exact ⟨rfl, rfl, option, region, hreads, hreference⟩
    · intro rule hrule
      have hexception := (hmode rule hrule).1
      obtain rfl := List.mem_singleton.mp hrule
      rcases hexception with hsame | ⟨option, region, hreads, hself | hreference⟩
      · exact absurd hsame (by decide)
      · exact ⟨rfl, rfl, option, region, hreads, hself⟩
      · cases hreads
        exact absurd hreference (by decide)
    · intro rule hrule
      have hfound := (hlib rule hrule).2
      obtain rfl := List.mem_singleton.mp hrule
      exact ⟨rfl, hfound rfl⟩

end Table

end OptionDefaults
