import OptionDefaults.Proofs.Additions
import OptionDefaults.Proofs.Simulation

/-!
# The root region does not see the nested one

Presence is a matter of the root region, and a root entry compares values in its own region. So root
entries look at root options only, and what nested entries see and fill is hidden from them, but for
one thing: a nested entry can end the pass. So of two passes that start with the same root options,
one fills the root options that the other one fills, and possibly more.
-/

namespace OptionDefaults

def isRootEntry (e : String × Descriptor) : Bool := e.2.region = .root

theorem Rule.region_of_reads_root {rule : Rule} {option : String} {region : Region}
    (h : rule.reads .root = some (option, region)) : region = .root := by
  cases rule <;> cases h <;> rfl

namespace Pass

variable {D E : Document} {es : List (String × Descriptor)}

theorem simulation_root (es : List (String × Descriptor)) :
    Simulation isRootEntry (AgreeOn fun region _ => region = .root) es := by
  apply simulation_of_visible
  · intro e _ hroot
    exact of_decide_eq_true hroot
  · intro e _ hroot rule _ option region hreads
    rw [of_decide_eq_true hroot] at hreads
    exact Rule.region_of_reads_root hreads
  · intro e _ hroot region name hvisible
    rw [Bool.eq_false_iff]
    intro hfills
    obtain ⟨-, -, hregion⟩ := Descriptor.fills_iff.mp hfills
    exact of_decide_eq_false hroot (hregion.trans hvisible)

/-- A pass over the root entries alone, on any document with the root options of this one, follows
the pass over all of them. -/
theorem follows_root (h : E.root = D.root) (es : List (String × Descriptor)) :
    Follows isRootEntry (AgreeOn fun region _ => region = .root) (run E es)
      (run D (es.filter isRootEntry)) := by
  apply (simulation_root es).follows
  rintro region name rfl
  rw [Document.get?, Document.get?, Document.options, Document.options, h]

theorem additions_root (pass : Pass) :
    additions .root pass.applied =
      ((pass.sharedSteps isRootEntry).filterMap Step.applied?).map Applied.entry := by
  rw [additions, applied, sharedSteps]
  refine congrArg (List.map Applied.entry) (Step.filterMap_applied?_filter ?_).symm
  intro step _ a ha
  rw [Step.descriptor_of_applied? ha]
  rfl

theorem additions_root_comparable (h : E.root = D.root) :
    additions .root (run D es).applied <+: additions .root (run E es).applied ∨
      additions .root (run E es).applied <+: additions .root (run D es).applied := by
  rw [additions_root, additions_root]
  have hD := (follows_root (D := D) rfl es).isPrefix
  have hE := (follows_root h es).isPrefix
  rcases List.prefix_or_prefix_of_prefix hD hE with hle | hle
  · exact .inl ((hle.filterMap _).map _)
  · exact .inr ((hle.filterMap _).map _)

theorem additions_root_eq (h : E.root = D.root) (hD : (run D es).error? = none)
    (hE : (run E es).error? = none) :
    additions .root (run E es).applied = additions .root (run D es).applied := by
  have hstepsD := (follows_root (D := D) rfl es).complete (stopsShared_of_error?_eq_none hD)
  have hstepsE := (follows_root h es).complete (stopsShared_of_error?_eq_none hE)
  rw [additions_root, additions_root, ← hstepsD.1, ← hstepsE.1]

end Pass

namespace Table

/-- Information flows from the root region to the nested one and never back: two passes that start
with the same root options, whatever the nested ones are, add comparable lists of root options, and
end with the same root region where both succeed. -/
theorem root_region_ignores_nested {T : Table} {D E : Document} (h : E.root = D.root) :
    ∃ added added', (T.pass D).document.root.entries = D.root.entries ++ added ∧
      (T.pass E).document.root.entries = E.root.entries ++ added' ∧
      (added <+: added' ∨ added' <+: added) ∧
      ((T.pass D).error? = none → (T.pass E).error? = none →
        (T.pass E).document.root = (T.pass D).document.root) := by
  have hD := Pass.entries_run D T.entries .root
  have hE := Pass.entries_run E T.entries .root
  refine ⟨_, _, hD, hE, Pass.additions_root_comparable h, ?_⟩
  intro hokD hokE
  apply OrderedMap.ext
  calc (T.pass E).document.root.entries
      = E.root.entries ++ additions .root (T.pass E).applied := hE
    _ = D.root.entries ++ additions .root (T.pass D).applied := by
      rw [h, pass, pass, Pass.additions_root_eq h hokD hokE]
    _ = (T.pass D).document.root.entries := hD.symm

/-- Here the candidates for the nested option `paths` clash where `kind` is `lib`, between two root
options. -/
def pathsByKind : Table :=
  ⟨[("files", ⟨"files", .root, some (.single (.literal (.array [])))⟩),
    ("paths", ⟨"paths", .nested, some (.merged [.literal (.array []),
      .multiValue "kind" [(.string "lib", .string "src")] none])⟩),
    ("include", ⟨"include", .root, some (.single (.presence "files" .null none))⟩)], by decide⟩

theorem root_region_of_pathsByKind :
    let ofKind (kind : String) : Document :=
      ⟨⟨[("name", .string "app")], by decide⟩, ⟨[("kind", .string kind)], by simp⟩, 0⟩
    let D := ofKind "lib"
    let E := ofKind "app"
    E.root = D.root ∧ (pathsByKind.pass D).error?.isSome = true ∧
      (pathsByKind.pass E).error? = none ∧ (pathsByKind.pass E).applied.length = 3 ∧
      ∃ added added', (pathsByKind.pass D).document.root.entries = D.root.entries ++ added ∧
        (pathsByKind.pass E).document.root.entries = E.root.entries ++ added' ∧
        (added <+: added' ∨ added' <+: added) ∧
        ((pathsByKind.pass D).error? = none → (pathsByKind.pass E).error? = none →
          (pathsByKind.pass E).document.root = (pathsByKind.pass D).document.root) := by
  intro ofKind D E
  exact ⟨rfl, by decide, by decide, by decide, root_region_ignores_nested rfl⟩

end Table

end OptionDefaults
