import Mathlib.Data.List.Basic
import OptionDefaults.Proofs.CommentPlaces
import OptionDefaults.Proofs.Dependence

/-!
# Values from their reasons

A reason tells which branch of a rule was taken, and for a match only the first value of the pair.
That is enough: the pair was the first one whose first value is alike the current value, alike
values cannot be told apart, and so it is also the first one whose first value is alike its own.
Hence a rule gives its value again for its reason, and the reasons of a filled option lead back to
what was filled in without a look at the document. Missing values alone come to nothing, so a filled
option has something to explain.
-/

namespace OptionDefaults

namespace Rule

/-- The value of the branch that a reason tells. Of pairs the first one is taken whose first value
is alike the one that was matched. A reason that rules of this kind never give leads to no value. -/
def replay : Rule → Reason → Option Json
  | .literal v, .literal => some v
  | .presence _ defined _, .defined _ => some defined
  | .presence _ _ notDefined, .notDefined _ => notDefined
  | .multiValue _ pairs _, .matched _ compared =>
    (pairs.find? fun pair => pair.1.alike compared).map Prod.snd
  | .multiValue _ _ otherwise, .otherwise _ _ => otherwise
  | _, _ => none

@[simp] theorem replay_noValue (rule : Rule) (option : String) :
    rule.replay (.noValue option) = none := by
  cases rule <;> rfl

/-- The first value of the pair that a value matches leads back to this pair. -/
theorem matchingPair_of_matched {pairs : List (Json × Json)} {current : Json} {pair : Json × Json}
    (h : matchingPair pairs current = some pair) : matchingPair pairs pair.1 = some pair := by
  -- The search cannot tell the current value from the one that it is alike.
  have halike := List.find?_some (show pairs.find? (fun p => p.1.alike current) = some pair from h)
  have hrel : Option.Rel Json.IsAlike (some pair.1) (some current) := .some halike
  have hsame := bind_matchingPair_of_rel pairs hrel
  rw [Option.bind_some, Option.bind_some] at hsame
  exact hsame.symm.trans h

/-- A rule gives its value again for its reason. -/
theorem replay_evaluate (rule : Rule) (D : Document) (owner : Region) :
    rule.replay (rule.evaluate D owner).reason = (rule.evaluate D owner).candidate := by
  cases rule with
  | literal v => rfl
  | presence option defined notDefined =>
    rw [evaluate_presence]
    split
    · rfl
    · cases notDefined <;> rfl
  | multiValue option pairs otherwise =>
    cases hm : (D.get? owner option).bind (matchingPair pairs) with
    | some pair =>
      obtain ⟨current, -, hpair⟩ := Option.bind_eq_some_iff.mp hm
      -- The reason has the first value of the pair, which need not be written as the current one.
      have hagain := matchingPair_of_matched hpair
      rw [evaluate_of_match hm]
      exact congrArg (Option.map Prod.snd) hagain
    | none =>
      rw [evaluate_of_no_match hm]
      cases otherwise <;> rfl

end Rule

namespace Descriptor

/-- What the branches come to that the reasons tell, one for each rule in the order of the rules. -/
def replay (d : Descriptor) (reasons : List Reason) : Merged :=
  merge (List.zipWith Rule.replay d.rules reasons)

theorem replay_evaluate (d : Descriptor) (D : Document) :
    d.replay ((d.evaluate D).map Evaluation.reason) = d.merged D := by
  have hcandidates : List.zipWith Rule.replay d.rules ((d.evaluate D).map Evaluation.reason) =
      (d.evaluate D).map Evaluation.candidate := by
    rw [evaluate, List.map_map, List.map_map, List.zipWith_map_right, List.zipWith_self]
    exact List.map_congr_left fun rule _ => rule.replay_evaluate D d.region
  rw [replay, hcandidates, merged]

theorem exists_reason_of_replay {d : Descriptor} {reasons : List Reason} {v : Json}
    (h : d.replay reasons = .value v) : ∃ reason ∈ reasons, ∀ option, reason ≠ .noValue option := by
  obtain ⟨w, hw⟩ := exists_mem_of_merge_eq_value h
  obtain ⟨rule, reason, hmem, hreplay⟩ : ∃ rule reason, (rule, reason) ∈ d.rules.zip reasons ∧
      rule.replay reason = some w := by
    rw [← List.map_uncurry_zip_eq_zipWith] at hw
    obtain ⟨⟨rule, reason⟩, hmem, hreplay⟩ := List.mem_map.mp hw
    exact ⟨rule, reason, hmem, hreplay⟩
  refine ⟨reason, (List.of_mem_zip hmem).2, ?_⟩
  rintro option rfl
  rw [Rule.replay_noValue] at hreplay
  cases hreplay

end Descriptor

namespace Note

/-- The note on a filled option: all there is to say, for the member of its name in its region. -/
def ofFilled (a : Applied) : Note :=
  ⟨a.descriptor.region, memberStart a.descriptor.name,
    String.intercalate " " (a.reasons.filterMap Reason.sentence?)⟩

theorem ofApplied?_eq_ofFilled {D : Document} {es : List (String × Descriptor)} {a : Applied}
    (h : a ∈ (Pass.run D es).applied) : ofApplied? a = some (ofFilled a) := by
  obtain ⟨note, hnote⟩ := exists_ofApplied? h
  rw [hnote]
  unfold ofApplied? ofReasons? at hnote
  split at hnote
  · cases hnote
  · exact hnote.symm

end Note

namespace Table

/-- Reasons determine the value. Every option that a pass fills is reported with one reason for each
rule of its descriptor in their order, which the rule gave on the document that the entries before
left. What the rules give for these reasons comes to the value that was filled in. One reason at
least is not that a value is missing, and an annotator takes exactly one note on every filled
option. -/
theorem reasons_determine_values (T : Table) (D : Document) :
    (∀ a ∈ (T.pass D).applied,
      (∃ pre key post, T.entries = pre ++ (key, a.descriptor) :: post ∧
        a.reasons = a.descriptor.rules.map fun rule =>
          (rule.evaluate (Pass.run D pre).document a.descriptor.region).reason) ∧
      a.reasons.length = a.descriptor.rules.length ∧
      a.descriptor.replay a.reasons = .value a.value ∧
      ∃ reason ∈ a.reasons, ∀ option, reason ≠ .noValue option) ∧
    ∀ notes, (Annotator.commenting notes).recordAll (T.pass D).applied =
      .commenting (notes ++ (T.pass D).applied.map Note.ofFilled) := by
  constructor
  · intro a ha
    obtain ⟨step, hs, value, evaluations, hv, rfl⟩ := Pass.exists_step_of_mem_applied ha
    obtain ⟨pre, post, hes, -, hvisit⟩ := Pass.exists_split_of_mem_steps hs
    have hfilled := hvisit.symm.trans hv
    obtain ⟨-, -, hmerged, rfl⟩ := Descriptor.visit_eq_filled_iff.mp hfilled
    have hreplay := (step.descriptor.replay_evaluate (Pass.run D pre).document).trans hmerged
    refine ⟨⟨pre, step.key, post, hes, ?_⟩, ?_, hreplay, Descriptor.exists_reason_of_replay hreplay⟩
    · exact List.map_map
    · simp [Descriptor.evaluate]
  · intro notes
    have hnotes : (T.pass D).applied.filterMap Note.ofApplied? =
        (T.pass D).applied.map Note.ofFilled :=
      List.filterMap_eq_map_iff_forall_eq_some.mpr fun a ha => Note.ofApplied?_eq_ofFilled ha
    rw [Annotator.recordAll_commenting, hnotes]

/-- The same paths are written in two ways, and the pair for the first one is meant. -/
def profileOfPaths : Descriptor :=
  ⟨"profile", .nested, some (.merged [.multiValue "paths"
      [(.object [("a", .null), ("b", .null)], .array [.string "first"]),
        (.object [("b", .null), ("a", .null)], .array [.string "second"])] none,
    .presence "files" (.array []) none])⟩

theorem profileOfPaths_replayed :
    let T : Table := ⟨[("profile", profileOfPaths)], by decide⟩
    let D : Document :=
      ⟨∅, ⟨[("paths", .object [("b", .null), ("a", .null)])], by decide⟩, 0⟩
    let a : Applied := ⟨profileOfPaths, .array [.string "first"],
      [.matched "paths" (.object [("a", .null), ("b", .null)]), .noValue "files"]⟩
    a ∈ (T.pass D).applied ∧ a.reasons.length = a.descriptor.rules.length ∧
      a.descriptor.replay a.reasons = .value a.value ∧
      (∃ reason ∈ a.reasons, ∀ option, reason ≠ .noValue option) ∧
      (Annotator.commenting []).recordAll (T.pass D).applied =
        .commenting ((T.pass D).applied.map Note.ofFilled) := by
  intro T D a
  have ha : a ∈ (T.pass D).applied := by decide
  obtain ⟨hreasons, hnotes⟩ := reasons_determine_values T D
  obtain ⟨-, hlength, hreplay, hsome⟩ := hreasons a ha
  exact ⟨ha, hlength, hreplay, hsome, hnotes []⟩

end Table

end OptionDefaults
