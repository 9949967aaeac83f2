import OptionDefaults.Proofs.Dependence
import OptionDefaults.Proofs.Reordering

/-!
# Defaults written out

A pass finds defaults of its outcome that stand in the document already and leaves them alone.
Without forward references an entry looks only at options that are final by then, and at its own. So
what it looks at is there or not there in the same way when some defaults are written out before the
pass, and every document between the first one and its outcome has the same outcome.
-/

namespace OptionDefaults

/-- A way of comparing values that no rule can tell apart. -/
structure Indiscernible (same : Json → Json → Prop) : Prop where
  refl : ∀ v, same v v
  symm : ∀ v w, same v w → same w v
  alike : ∀ v w, same v w → v.IsAlike w

theorem indiscernible_eq : Indiscernible (· = ·) where
  refl _ := rfl
  symm _ _ h := h.symm
  alike v _ h := h ▸ v.alike_refl

theorem indiscernible_isAlike : Indiscernible Json.IsAlike where
  refl := Json.alike_refl
  symm := Json.alike_symm
  alike _ _ h := h

namespace Document

/-- Every option of `D` stands in `E` with the same value. -/
def Covers (same : Json → Json → Prop) (E D : Document) : Prop :=
  ∀ region name v, D.get? region name = some v → ∃ w, E.get? region name = some w ∧ same v w

variable {same : Json → Json → Prop} {D E R : Document} {region : Region} {name : String}

theorem covers_eq_iff : E.Covers (· = ·) D ↔ E.Extends D := by
  constructor
  · intro h region name v hv
    obtain ⟨w, hw, rfl⟩ := h region name v hv
    exact hw
  · intro h region name v hv
    exact ⟨v, h region name v hv, rfl⟩

theorem covers_of_entries (h : ∀ region, ∀ e ∈ (D.options region).entries,
    ∃ w ∈ E.get? region e.1, same e.2 w) : E.Covers same D := by
  intro region name v hv
  obtain ⟨before, after, hentries, -⟩ := List.lookup_eq_some_iff.mp hv
  exact h region (name, v) (by simp [hentries])

theorem covers_empty (same : Json → Json → Prop) (E : Document) : E.Covers same .empty := by
  intro region name v hv
  cases region <;> cases hv

theorem Covers.mono {weaker : Json → Json → Prop} (h : E.Covers same D)
    (hweaker : ∀ v w, same v w → weaker v w) : E.Covers weaker D := by
  intro region name v hv
  obtain ⟨w, hw, hvw⟩ := h region name v hv
  exact ⟨w, hw, hweaker v w hvw⟩

theorem Covers.isDefined (h : E.Covers same D) (hD : D.isDefined region name = true) :
    E.isDefined region name = true := by
  obtain ⟨v, hv⟩ := isDefined_iff.mp hD
  obtain ⟨w, hw, -⟩ := h region name v hv
  exact isDefined_iff.mpr ⟨w, hw⟩

/-- The document has every option of `D`, and otherwise only options of `R`. -/
structure Within (same : Json → Json → Prop) (D R E : Document) : Prop where
  start : E.Covers same D
  outcome : R.Covers same E

/-- Where `D` has its final value, a document in between has the same one. -/
theorem Within.rel (h : Within same D R E) (hfinal : R.get? region name = D.get? region name) :
    Option.Rel same (D.get? region name) (E.get? region name) := by
  cases hD : D.get? region name with
  | some v =>
    obtain ⟨w, hw, hvw⟩ := h.start region name v hD
    rw [hw]
    exact .some hvw
  | none =>
    cases hE : E.get? region name with
    | none => exact .none
    | some w =>
      obtain ⟨r, hr, -⟩ := h.outcome region name w hE
      rw [hfinal, hD] at hr
      cases hr

theorem Within.alikeAt (hsame : Indiscernible same) (h : Within same D R E)
    (hfinal : R.get? region name = D.get? region name) : D.AlikeAt E region name := by
  have halike : Within Json.IsAlike D R E :=
    ⟨h.start.mono hsame.alike, h.outcome.mono hsame.alike⟩
  exact halike.rel hfinal

end Document

namespace Pass

open Document (Within)

variable {same : Json → Json → Prop} {D E : Document} {d : Descriptor}
variable {es : List (String × Descriptor)}

/-- On a document in between that does not define its option, an entry is visited as on the first
one: where a rule looks, the value is final, or it is the entry's own option and not there. -/
theorem visit_eq_of_within (hsame : Indiscernible same) (hhazards : d.hazards es = [])
    (h : Within same D (run (d.leaves D) es).document E)
    (hundefined : E.isDefined d.region d.name = false) : d.visit E = d.visit D := by
  have hown : D.isDefined d.region d.name = false := by
    rw [Bool.eq_false_iff]
    intro hD
    rw [h.start.isDefined hD] at hundefined
    cases hundefined
  have hreads : ∀ rule ∈ d.rules, ∀ option region, rule.reads d.region = some (option, region) →
      D.AlikeAt E region option := by
    intro rule hr option region hread
    by_cases hplace : d.name = option ∧ d.region = region
    · obtain ⟨rfl, rfl⟩ := hplace
      rw [Document.AlikeAt, Document.isDefined_eq_false_iff.mp hown,
        Document.isDefined_eq_false_iff.mp hundefined]
      exact .none
    · have hlater := Descriptor.anyFills_eq_false_of_hazards_eq_nil hhazards hr hread
      apply h.alikeAt hsame
      calc (run (d.leaves D) es).document.get? region option
          = (d.leaves D).get? region option := get?_run_of_not_anyFills hlater
        _ = D.get? region option := Descriptor.get?_leaves fun hfills => hplace hfills.2
  apply Descriptor.visit_congr (hundefined.trans hown.symm)
  apply List.map_congr_left
  intro rule hr
  apply Rule.evaluate_of_agree
  · exact fun _ option hread => (hreads rule hr option .root hread).isDefined_eq
  · exact fun _ option region hread => hreads rule hr option region hread

/-- Visiting an entry keeps a document in between: what the entry fills on the first document, it
fills alike on the second one, or it stands there already. -/
theorem within_leaves (hsame : Indiscernible same) (hhazards : d.hazards es = [])
    (hclash : (d.visit D).isClash = false) (h : Within same D (run (d.leaves D) es).document E) :
    (d.visit E).isClash = false ∧
      Within same (d.leaves D) (run (d.leaves D) es).document (d.leaves E) := by
  have hext := extends_run (d.leaves D) es
  cases hdefined : E.isDefined d.region d.name with
  | false =>
    have hv := visit_eq_of_within hsame hhazards h hdefined
    refine ⟨hv ▸ hclash, ?start, ?outcome⟩
    case start =>
      intro region name v hleaves
      rcases Descriptor.get?_leaves_of_visit_eq hv region name with ⟨value, hD, hE⟩ | ⟨hD, hE⟩
      · obtain rfl : value = v := Option.some.inj (hD.symm.trans hleaves)
        exact ⟨value, hE, hsame.refl value⟩
      · rw [hE]
        exact h.start region name v (hD ▸ hleaves)
    case outcome =>
      intro region name v hleaves
      rcases Descriptor.get?_leaves_of_visit_eq hv region name with ⟨value, hD, hE⟩ | ⟨-, hE⟩
      · obtain rfl : value = v := Option.some.inj (hE.symm.trans hleaves)
        exact ⟨value, hext region name value hD, hsame.refl value⟩
      · exact h.outcome region name v (hE ▸ hleaves)
  | true =>
    have hquiet := Descriptor.isQuiet_visit_iff.mpr (.inr (.inl hdefined))
    obtain ⟨hfilled, hclash'⟩ := Visit.isQuiet_iff.mp hquiet
    rw [Descriptor.leaves_of_not_filled hfilled]
    refine ⟨hclash', ?_, h.outcome⟩
    -- The value that stands there is one of the outcome, and so is the one filled in.
    intro region name v hleaves
    by_cases hplace : d.name = name ∧ d.region = region
    · obtain ⟨rfl, rfl⟩ := hplace
      obtain ⟨w, hw⟩ := Document.isDefined_iff.mp hdefined
      obtain ⟨r, hr, hwr⟩ := h.outcome _ _ w hw
      obtain rfl : r = v := Option.some.inj (hr.symm.trans (hext _ _ v hleaves))
      exact ⟨w, hw, hsame.symm w r hwr⟩
    · rw [Descriptor.get?_leaves fun hfills => hplace hfills.2] at hleaves
      exact h.start region name v hleaves

/-- A pass over a document between the first one and its outcome succeeds as well, and has an
outcome between that one and itself. -/
theorem run_within (hsame : Indiscernible same) (hhazards : hazards es = [])
    (hok : (run D es).error? = none) (h : Within same D (run D es).document E) :
    (run E es).error? = none ∧
      Within same (run D es).document (run D es).document (run E es).document := by
  induction D, es using run_induct generalizing E with
  | nil D => exact ⟨rfl, h⟩
  | stop D key d es hc => exact absurd hok (error?_run_cons_of_clash hc)
  | go D key d es hc ih =>
    obtain ⟨hd, hes⟩ := hazards_cons_eq_nil_iff.mp hhazards
    rw [error?_run_cons hc] at hok
    rw [run_cons hc, document_prepend] at h ⊢
    obtain ⟨hclash, hleaves⟩ := within_leaves hsame hd hc h
    rw [error?_run_cons hclash, run_cons hclash, document_prepend]
    exact ih hes hok hleaves

end Pass

namespace Table

theorem resolve_within {same : Json → Json → Prop} {T : Table} {D R E : Document}
    (hsame : Indiscernible same) (h : T.forwardReferences = []) (hR : T.resolve D = .ok R)
    (hE : Document.Within same D R E) :
    ∃ R', T.resolve E = .ok R' ∧ Document.Within same R R R' := by
  obtain ⟨hok, rfl⟩ := resolve_eq_ok_iff.mp hR
  rw [forwardReferences_eq] at h
  obtain ⟨hok', hwithin⟩ := Pass.run_within hsame h hok hE
  exact ⟨_, resolve_eq_ok_iff.mpr ⟨hok', rfl⟩, hwithin⟩

/-- Writing defaults out by hand changes nothing. A table without forward references resolves every
document that has the options of the first one and otherwise only options of its outcome, and comes
to the same options with the same values. This goes for values that are equal, and also for values
that are alike. -/
theorem resolve_written_out {T : Table} {D R : Document} (h : T.forwardReferences = [])
    (hR : T.resolve D = .ok R) (E : Document) :
    (E.Extends D → R.Extends E → ∃ R', T.resolve E = .ok R' ∧
      ∀ region name, R'.get? region name = R.get? region name) ∧
    (E.Covers Json.IsAlike D → R.Covers Json.IsAlike E → ∃ R', T.resolve E = .ok R' ∧
      ∀ region name, R.AlikeAt R' region name) := by
  constructor
  · intro hE hRE
    rw [← Document.covers_eq_iff] at hE hRE
    obtain ⟨R', hR', hstart, houtcome⟩ := resolve_within indiscernible_eq h hR ⟨hE, hRE⟩
    rw [Document.covers_eq_iff] at hstart houtcome
    exact ⟨R', hR', hstart.antisymm houtcome⟩
  · intro hE hRE
    obtain ⟨R', hR', hwithin⟩ := resolve_within indiscernible_isAlike h hR ⟨hE, hRE⟩
    exact ⟨R', hR', fun _ _ => hwithin.rel rfl⟩

/-- Here `mode` looks at itself, `lib` is described twice and gets its value from the second
description, and `paths` asks for it. -/
def profile : Table :=
  ⟨[("mode", ⟨"mode", .nested, some (.single (.multiValue "mode" [] (some (.string "auto"))))⟩),
    ("lib", ⟨"lib", .root, some (.single (.presence "files" .null none))⟩),
    ("libs", ⟨"lib", .root, some (.single (.literal (.object [("a", .null), ("b", .null)])))⟩),
    ("paths", ⟨"paths", .nested,
      some (.merged [.literal (.array []), .presence "lib" (.array [.string "lib"]) none])⟩)],
    by decide⟩

/-- Two of the defaults of `profile`, with the members of `lib` in the given order. -/
def someOfProfile (lib : List (String × Json)) : Document :=
  ⟨⟨[("lib", .object lib)], by simp⟩, ⟨[("paths", .array [.string "lib"])], by decide⟩, 1⟩

theorem profile_written_out :
    let R := (profile.pass .empty).document
    let E := someOfProfile [("a", .null), ("b", .null)]
    let E' := someOfProfile [("b", .null), ("a", .null)]
    profile.forwardReferences = [] ∧ profile.resolve .empty = .ok R ∧
      (profile.pass .empty).applied.length = 3 ∧ (profile.pass E).applied.length = 1 ∧
      E.Extends .empty ∧ R.Extends E ∧ R.Covers Json.IsAlike E' ∧
      (∃ R', profile.resolve E = .ok R' ∧
        ∀ region name, R'.get? region name = R.get? region name) ∧
      ∃ R', profile.resolve E' = .ok R' ∧ ∀ region name, R.AlikeAt R' region name := by
  intro R E E'
  have h : profile.forwardReferences = [] := by decide
  have hR : profile.resolve .empty = .ok R := resolve_eq_ok_iff.mpr ⟨by decide, rfl⟩
  have hE : E.Extends .empty := Document.covers_eq_iff.mp (Document.covers_empty _ E)
  have hRE : R.Extends E := Document.covers_eq_iff.mp
    (Document.covers_of_entries fun region => by cases region <;> decide)
  have hRE' : R.Covers Json.IsAlike E' :=
    Document.covers_of_entries fun region => by cases region <;> decide
  exact ⟨h, hR, by decide, by decide, hE, hRE, hRE', (resolve_written_out h hR E).1 hE hRE,
    (resolve_written_out h hR E').2 (Document.covers_empty _ E') hRE'⟩

end Table

end OptionDefaults
