import OptionDefaults.Proofs.Hazards
import OptionDefaults.Resolution.Pass

/-!
# What a visit depends on

A rule looks at no more than one place of the document, so documents that agree on the places which
the rules of a descriptor look at, and on its own option, give the same visit. What a visit comes to
is settled by three questions: whether there is a policy, whether the option is defined, and what
the candidates merge to.
-/

namespace OptionDefaults

namespace Document

/-- Every option of `D` stands in `E` with the value it has in `D`. -/
def Extends (E D : Document) : Prop :=
  ∀ region name value, D.get? region name = some value → E.get? region name = some value

theorem Extends.refl (D : Document) : D.Extends D := fun _ _ _ h => h

theorem Extends.trans {F E D : Document} (hF : F.Extends E) (hE : E.Extends D) : F.Extends D :=
  fun region name value h => hF region name value (hE region name value h)

theorem Extends.antisymm {E D : Document} (hE : E.Extends D) (hD : D.Extends E) (region : Region)
    (name : String) : E.get? region name = D.get? region name :=
  Option.ext fun value => ⟨hD region name value, hE region name value⟩

theorem isDefined_iff {D : Document} {region : Region} {name : String} :
    D.isDefined region name = true ↔ ∃ value, D.get? region name = some value :=
  Option.isSome_iff_exists

theorem isDefined_eq_false_iff {D : Document} {region : Region} {name : String} :
    D.isDefined region name = false ↔ D.get? region name = none :=
  Option.isSome_eq_false_iff.trans Option.isNone_iff_eq_none

theorem Extends.get?_eq {E D : Document} (hE : E.Extends D) {region : Region} {name : String}
    (h : D.isDefined region name = true) : E.get? region name = D.get? region name := by
  obtain ⟨value, hv⟩ := isDefined_iff.mp h
  rw [hv, hE region name value hv]

theorem Extends.isDefined {E D : Document} (hE : E.Extends D) {region : Region} {name : String}
    (h : D.isDefined region name = true) : E.isDefined region name = true := by
  rw [Document.isDefined, hE.get?_eq h]
  exact h

theorem isDefined_set_self (D : Document) (region : Region) (name : String) (value : Json) :
    (D.set region name value).isDefined region name = true := by
  simp [Document.isDefined, get?_set]

theorem extends_set {D : Document} {region : Region} {name : String} (value : Json)
    (h : D.isDefined region name = false) : (D.set region name value).Extends D := by
  intro other n v hv
  rw [get?_set, if_neg, hv]
  rintro ⟨rfl, rfl⟩
  rw [isDefined_eq_false_iff.mp h] at hv
  cases hv

end Document

namespace Rule

variable {D : Document} {owner : Region}

theorem evaluate_of_match {option : String} {pairs : List (Json × Json)} {otherwise : Option Json}
    {pair : Json × Json} (h : (D.get? owner option).bind (matchingPair pairs) = some pair) :
    (multiValue option pairs otherwise).evaluate D owner =
      ⟨some pair.2, .matched option pair.1⟩ := by
  simp [evaluate, h]

theorem evaluate_of_no_match {option : String} {pairs : List (Json × Json)}
    {otherwise : Option Json} (h : (D.get? owner option).bind (matchingPair pairs) = none) :
    (multiValue option pairs otherwise).evaluate D owner =
      ⟨otherwise, otherwise.elim (.noValue option) fun _ => .otherwise option pairs⟩ := by
  cases otherwise <;> simp [evaluate, h]

theorem evaluate_presence (D : Document) (owner : Region) (option : String) (v : Json)
    (notDefined : Option Json) :
    (presence option v notDefined).evaluate D owner =
      if D.isDefined .root option then ⟨some v, .defined option⟩
      else ⟨notDefined, notDefined.elim (.noValue option) fun _ => .notDefined option⟩ := by
  cases notDefined <;> rfl

/-- A rule's value and reason hang on the place that it looks at alone. -/
theorem evaluate_congr {E : Document} {rule : Rule}
    (h : ∀ option region, rule.reads owner = some (option, region) →
      E.get? region option = D.get? region option) :
    rule.evaluate E owner = rule.evaluate D owner := by
  cases rule with
  | literal v => rfl
  | presence option defined notDefined =>
    have hr : E.isDefined .root option = D.isDefined .root option :=
      congrArg Option.isSome (h option .root rfl)
    simp only [evaluate, hr]
  | multiValue option pairs otherwise =>
    have hr := h option owner rfl
    simp only [evaluate, hr]

end Rule

namespace Visit

def isFilled : Visit → Bool
  | .filled _ _ => true
  | _ => false

def isClash : Visit → Bool
  | .clash _ => true
  | _ => false

/-- Whether the visit neither filled its option nor ends the pass. -/
def isQuiet : Visit → Bool
  | .filled _ _ => false
  | .clash _ => false
  | _ => true

def evaluations? : Visit → Option (List Evaluation)
  | .noDefault evaluations => some evaluations
  | .filled _ evaluations => some evaluations
  | .clash evaluations => some evaluations
  | _ => none

theorem isFilled_iff {visit : Visit} :
    visit.isFilled = true ↔ ∃ value evaluations, visit = .filled value evaluations := by
  cases visit <;> simp [isFilled]

theorem isFilled_of_isClash {visit : Visit} (h : visit.isClash = true) :
    visit.isFilled = false := by
  cases visit <;> simp_all [isFilled, isClash]

theorem isClash_of_isFilled {visit : Visit} (h : visit.isFilled = true) :
    visit.isClash = false := by
  cases visit <;> simp_all [isFilled, isClash]

theorem isClash_iff {visit : Visit} :
    visit.isClash = true ↔ ∃ evaluations, visit = .clash evaluations := by
  cases visit <;> simp [isClash]

theorem isQuiet_iff {visit : Visit} :
    visit.isQuiet = true ↔ visit.isFilled = false ∧ visit.isClash = false := by
  cases visit <;> simp [isQuiet, isFilled, isClash]

/-- The visit of an option that is to be filled, by what the candidates come to. -/
def ofMerged (evaluations : List Evaluation) : Merged → Visit
  | .value v => .filled v evaluations
  | .nothing => .noDefault evaluations
  | .clash => .clash evaluations

end Visit

namespace Descriptor

/-- What the rules' values on a document come to. -/
def merged (d : Descriptor) (D : Document) : Merged :=
  merge ((d.evaluate D).map Evaluation.candidate)

variable {d : Descriptor} {D E : Document}

theorem evaluate_congr
    (h : ∀ rule ∈ d.rules, ∀ option region, rule.reads d.region = some (option, region) →
      E.get? region option = D.get? region option) :
    d.evaluate E = d.evaluate D :=
  List.map_congr_left fun rule hr => Rule.evaluate_congr (h rule hr)

theorem visit_eq (d : Descriptor) (D : Document) :
    d.visit D =
      if d.policy.isNone then .noPolicy
      else if D.isDefined d.region d.name then .alreadyDefined
      else .ofMerged (d.evaluate D) (d.merged D) := rfl

theorem visit_eq_filled_iff {value : Json} {evaluations : List Evaluation} :
    d.visit D = .filled value evaluations ↔
      d.policy.isSome = true ∧ D.isDefined d.region d.name = false ∧
        d.merged D = .value value ∧ evaluations = d.evaluate D := by
  rw [visit_eq]
  cases d.policy <;> cases D.isDefined d.region d.name <;> cases d.merged D <;>
    simp [Visit.ofMerged, eq_comm]

theorem isQuiet_visit_iff :
    (d.visit D).isQuiet = true ↔
      d.policy = none ∨ D.isDefined d.region d.name = true ∨ d.merged D = .nothing := by
  rw [visit_eq]
  cases d.policy <;> cases D.isDefined d.region d.name <;> cases d.merged D <;>
    simp [Visit.ofMerged, Visit.isQuiet]

/-- Rules are evaluated exactly where there is a policy and the option is not defined. -/
theorem evaluations?_visit {evaluations : List Evaluation} :
    (d.visit D).evaluations? = some evaluations ↔
      d.policy.isSome = true ∧ D.isDefined d.region d.name = false ∧
        evaluations = d.evaluate D := by
  rw [visit_eq]
  cases d.policy <;> cases D.isDefined d.region d.name <;> cases d.merged D <;>
    simp [Visit.ofMerged, Visit.evaluations?, eq_comm]

/-- Documents on which the rules look at the same values, and which both define or both lack the
option itself, give the same visit. -/
theorem visit_congr (own : E.isDefined d.region d.name = D.isDefined d.region d.name)
    (h : d.evaluate E = d.evaluate D) : d.visit E = d.visit D := by
  unfold visit
  rw [own, h]

def leaves (d : Descriptor) (D : Document) : Document :=
  match d.visit D with
  | .filled value _ => D.set d.region d.name value
  | _ => D

theorem leaves_of_filled {value : Json} {evaluations : List Evaluation}
    (h : d.visit D = .filled value evaluations) :
    d.leaves D = D.set d.region d.name value := by
  simp [leaves, h]

theorem leaves_of_not_filled (h : (d.visit D).isFilled = false) : d.leaves D = D := by
  unfold leaves
  cases hv : d.visit D <;> simp_all [Visit.isFilled]

theorem extends_leaves (d : Descriptor) (D : Document) : (d.leaves D).Extends D := by
  cases hf : (d.visit D).isFilled with
  | false =>
    rw [leaves_of_not_filled hf]
    exact .refl D
  | true =>
    obtain ⟨value, evaluations, hv⟩ := Visit.isFilled_iff.mp hf
    have hu := (visit_eq_filled_iff.mp hv).2.1
    rw [leaves_of_filled hv]
    exact Document.extends_set value hu

theorem get?_leaves {name : String} {region : Region}
    (h : ¬((d.visit D).isFilled = true ∧ d.name = name ∧ d.region = region)) :
    (d.leaves D).get? region name = D.get? region name := by
  cases hf : (d.visit D).isFilled with
  | false => rw [leaves_of_not_filled hf]
  | true =>
    obtain ⟨value, evaluations, hv⟩ := Visit.isFilled_iff.mp hf
    rw [leaves_of_filled hv, Document.get?_set, if_neg]
    rintro ⟨rfl, rfl⟩
    exact h ⟨hf, rfl, rfl⟩

theorem get?_leaves_of_not_fills {name : String} {region : Region}
    (h : d.fills name region = false) : (d.leaves D).get? region name = D.get? region name := by
  apply get?_leaves
  rintro ⟨hf, hname, hregion⟩
  obtain ⟨value, evaluations, hv⟩ := Visit.isFilled_iff.mp hf
  have hp := (visit_eq_filled_iff.mp hv).1
  rw [fills_iff.mpr ⟨hp, hname, hregion⟩] at h
  cases h

/-- Where visits and the option's own values agree, so do the values they leave the option. -/
theorem get?_leaves_congr (own : E.get? d.region d.name = D.get? d.region d.name)
    (h : d.visit E = d.visit D) :
    (d.leaves E).get? d.region d.name = (d.leaves D).get? d.region d.name := by
  cases hf : (d.visit D).isFilled with
  | false =>
    rw [leaves_of_not_filled hf, leaves_of_not_filled (h ▸ hf)]
    exact own
  | true =>
    obtain ⟨value, evaluations, hv⟩ := Visit.isFilled_iff.mp hf
    rw [leaves_of_filled hv, leaves_of_filled (h.trans hv), Document.get?_set, Document.get?_set,
      own]

@[simp] theorem nestedAt_leaves (d : Descriptor) (D : Document) :
    (d.leaves D).nestedAt = D.nestedAt := by
  unfold leaves
  cases d.visit D <;> simp

theorem isDefined_leaves (h : (d.visit D).isFilled = true) :
    (d.leaves D).isDefined d.region d.name = true := by
  obtain ⟨value, evaluations, hv⟩ := Visit.isFilled_iff.mp h
  rw [leaves_of_filled hv]
  exact Document.isDefined_set_self D d.region d.name value

end Descriptor

end OptionDefaults
