import OptionDefaults.Proofs.AlikeEquivalence
import OptionDefaults.Proofs.Simulation

/-!
# What a pass depends on

A rule sees no more of a document than it declares to look at: whether a root option is there, or
the value of an option up to alikeness. So documents that agree on this for every rule of a table,
and define the same options among those that the table fills, go through a pass alike. Everything
else in them, also the order of keys, makes no difference.
-/

namespace OptionDefaults

/-- Whether the rule compares the value of the option that it looks at. -/
def Rule.comparesValue : Rule → Bool
  | .multiValue _ _ _ => true
  | _ => false

namespace Document

/-- Both documents lack the option, or its values in them are alike. -/
def AlikeAt (D E : Document) (region : Region) (name : String) : Prop :=
  Option.Rel Json.IsAlike (D.get? region name) (E.get? region name)

/-- The documents define the same options among those that the entries fill and the root options
that their rules ask for, and have alike values for the options that their rules compare. -/
structure AgreeFor (es : List (String × Descriptor)) (D E : Document) : Prop where
  filled : ∀ e ∈ es, e.2.policy.isSome = true →
    E.isDefined e.2.region e.2.name = D.isDefined e.2.region e.2.name
  presence : ∀ e ∈ es, ∀ rule ∈ e.2.rules, rule.comparesValue = false → ∀ option,
    rule.reads e.2.region = some (option, .root) → E.isDefined .root option = D.isDefined .root option
  values : ∀ e ∈ es, ∀ rule ∈ e.2.rules, rule.comparesValue = true → ∀ option region,
    rule.reads e.2.region = some (option, region) → D.AlikeAt E region option

theorem AlikeAt.isDefined_eq {D E : Document} {region : Region} {name : String}
    (h : D.AlikeAt E region name) : E.isDefined region name = D.isDefined region name := by
  unfold AlikeAt at h
  rw [isDefined, isDefined]
  generalize D.get? region name = v at h ⊢
  generalize E.get? region name = w at h ⊢
  cases h <;> rfl

end Document

namespace Rule

variable {D E : Document} {owner : Region} {rule : Rule}

theorem bind_matchingPair_of_rel (pairs : List (Json × Json)) {current other : Option Json}
    (h : Option.Rel Json.IsAlike current other) :
    other.bind (matchingPair pairs) = current.bind (matchingPair pairs) := by
  cases h with
  | none => rfl
  | @some v w h =>
    have hsame : ∀ pair : Json × Json, pair.1.alike w = pair.1.alike v := fun pair =>
      (Json.alike_congr_right pair.1 h).symm
    simp only [Option.bind_some, matchingPair, hsame]

/-- A rule's value and reason hang on presence, or on the value up to alikeness, at the place that
it declares to look at. -/
theorem evaluate_of_agree
    (hpresence : rule.comparesValue = false → ∀ option, rule.reads owner = some (option, .root) →
      E.isDefined .root option = D.isDefined .root option)
    (hvalues : rule.comparesValue = true → ∀ option region,
      rule.reads owner = some (option, region) → D.AlikeAt E region option) :
    rule.evaluate E owner = rule.evaluate D owner := by
  cases rule with
  | literal v => rfl
  | presence option defined notDefined =>
    have hr := hpresence rfl option rfl
    rw [evaluate_presence, evaluate_presence, hr]
  | multiValue option pairs otherwise =>
    have hmatch := bind_matchingPair_of_rel pairs (hvalues rfl option owner rfl)
    simp only [evaluate, hmatch]

end Rule

namespace Descriptor

variable {d : Descriptor} {D E : Document}

theorem alikeAt_leaves (hv : d.visit E = d.visit D) {region : Region} {name : String}
    (h : D.AlikeAt E region name) : (d.leaves D).AlikeAt (d.leaves E) region name := by
  unfold Document.AlikeAt at h ⊢
  rcases get?_leaves_of_visit_eq hv region name with ⟨value, hD, hE⟩ | ⟨hD, hE⟩
  · rw [hD, hE]
    exact .some value.alike_refl
  · rw [hD, hE]
    exact h

theorem isDefined_leaves_of_visit_eq (hv : d.visit E = d.visit D) {region : Region} {name : String}
    (h : E.isDefined region name = D.isDefined region name) :
    (d.leaves E).isDefined region name = (d.leaves D).isDefined region name := by
  rw [Document.isDefined, Document.isDefined] at h ⊢
  rcases get?_leaves_of_visit_eq hv region name with ⟨value, hD, hE⟩ | ⟨hD, hE⟩
  · rw [hD, hE]
  · rw [hD, hE]
    exact h

end Descriptor

namespace Document.AgreeFor

variable {es : List (String × Descriptor)} {D E : Document}

theorem visit_eq (h : AgreeFor es D E) {e : String × Descriptor} (he : e ∈ es) :
    e.2.visit E = e.2.visit D := by
  cases hp : e.2.policy.isSome with
  | false =>
    have hnone : e.2.policy.isNone = true := by simpa using hp
    rw [Descriptor.visit_eq, Descriptor.visit_eq, if_pos hnone, if_pos hnone]
  | true =>
    apply Descriptor.visit_congr (h.filled e he hp)
    apply List.map_congr_left
    intro rule hr
    exact Rule.evaluate_of_agree (h.presence e he rule hr) (h.values e he rule hr)

theorem leaves (h : AgreeFor es D E) {d : Descriptor} (hv : d.visit E = d.visit D) :
    AgreeFor es (d.leaves D) (d.leaves E) where
  filled e he hp := Descriptor.isDefined_leaves_of_visit_eq hv (h.filled e he hp)
  presence e he rule hr hrule option hreads :=
    Descriptor.isDefined_leaves_of_visit_eq hv (h.presence e he rule hr hrule option hreads)
  values e he rule hr hrule option region hreads :=
    Descriptor.alikeAt_leaves hv (h.values e he rule hr hrule option region hreads)

end Document.AgreeFor

theorem Pass.simulation_of_agreeFor (es : List (String × Descriptor)) :
    Simulation (fun _ => true) (Document.AgreeFor es) es where
  visit _ he _ _ _ h := h.visit_eq he
  together _ he _ _ _ h := h.leaves (h.visit_eq he)
  alone _ _ hs := by cases hs

namespace Table

/-- A pass depends only on what the rules declare to look at: on documents that agree there it
reports the same options with the same values for the same reasons, and it succeeds on both or fails
on both with the same option and candidates. -/
theorem pass_depends_on_reads {T : Table} {D E : Document} (h : D.AgreeFor T.entries E) :
    (T.pass E).applied = (T.pass D).applied ∧ (T.pass E).error? = (T.pass D).error? := by
  have hsteps : (T.pass E).steps = (T.pass D).steps :=
    (Pass.simulation_of_agreeFor T.entries).steps_eq h
  rw [Pass.applied, Pass.applied, Pass.error?, Pass.error?, hsteps]
  exact ⟨rfl, rfl⟩

/-- Here `lib` compares the value of `target`, `outDir` asks for `files`, and the candidates for
`paths` clash where `outDir` is there. -/
def lookups : Table :=
  ⟨[("lib", ⟨"lib", .nested, some (.single (.multiValue "target"
      [(.object [("year", .string "es6"), ("strict", .bool true)], .string "es6")] none))⟩),
    ("outDir", ⟨"outDir", .root, some (.single (.presence "files" (.string "dist") none))⟩),
    ("paths", ⟨"paths", .nested,
      some (.merged [.literal (.array []), .presence "outDir" (.bool true) none])⟩)], by decide⟩

def lookedAt : Document :=
  ⟨⟨[("files", .array [])], by decide⟩,
    ⟨[("target", .object [("year", .string "es6"), ("strict", .bool true)])], by decide⟩, 0⟩

/-- Another value for `files`, the members of `target` in another order, and more options. -/
def dressedUp : Document :=
  ⟨⟨[("target", .null), ("files", .null)], by decide⟩,
    ⟨[("files", .null),
      ("target", .object [("strict", .bool true), ("year", .string "es6")])], by decide⟩, 2⟩

theorem pass_of_dressedUp :
    lookedAt.AgreeFor lookups.entries dressedUp ∧ (lookups.pass lookedAt).applied.length = 2 ∧
      (lookups.pass lookedAt).error? = some ⟨"paths", [some (.array []), some (.bool true)]⟩ ∧
      (lookups.pass dressedUp).applied = (lookups.pass lookedAt).applied ∧
      (lookups.pass dressedUp).error? = (lookups.pass lookedAt).error? := by
  have h : lookedAt.AgreeFor lookups.entries dressedUp := by
    constructor
    case filled => decide
    case presence =>
      have hall : ∀ e ∈ lookups.entries, ∀ rule ∈ e.2.rules, ∀ place ∈ rule.reads e.2.region,
          dressedUp.isDefined place.2 place.1 = lookedAt.isDefined place.2 place.1 := by decide
      intro e he rule hr _ option hreads
      exact hall e he rule hr (option, .root) hreads
    case values =>
      have hall : ∀ e ∈ lookups.entries, ∀ rule ∈ e.2.rules, rule.comparesValue = true →
          ∀ place ∈ rule.reads e.2.region, place = ("target", .nested) := by decide
      intro e he rule hr hrule option region hreads
      cases hall e he rule hr hrule (option, region) hreads
      exact .some (by decide)
  exact ⟨h, by decide, by decide, pass_depends_on_reads h⟩

end Table

end OptionDefaults
