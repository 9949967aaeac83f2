import Mathlib.Data.List.Nodup
import OptionDefaults.Proofs.Reordering
import OptionDefaults.Proofs.Simulation

/-!
# Parts of a table

A part of a table that keeps, with every entry, the entries that fill what its rules look at works
on its own as it does within the table: what the other entries fill is of no concern to it. Nothing
is asked of the order, so forward references do no harm here. Leaving out an option that no rule
looks at is one case.
-/

namespace OptionDefaults

/-- Whatever fills the option is kept. -/
def KeepsFillers (keep : String × Descriptor → Bool) (es : List (String × Descriptor))
    (region : Region) (name : String) : Prop :=
  ∀ e ∈ es, e.2.fills name region = true → keep e = true

/-- Whatever fills an option that a rule of a kept entry looks at is kept. -/
def Closed (keep : String × Descriptor → Bool) (es : List (String × Descriptor)) : Prop :=
  ∀ e ∈ es, keep e = true → ∀ rule ∈ e.2.rules, ∀ option region,
    rule.reads e.2.region = some (option, region) → KeepsFillers keep es region option

instance (keep : String × Descriptor → Bool) (es : List (String × Descriptor)) (region : Region)
    (name : String) : Decidable (KeepsFillers keep es region name) :=
  inferInstanceAs (Decidable (∀ e ∈ es, e.2.fills name region = true → keep e = true))

instance (keep : String × Descriptor → Bool) (es : List (String × Descriptor)) :
    Decidable (Closed keep es) :=
  decidable_of_iff
    (∀ e ∈ es, keep e = true → ∀ rule ∈ e.2.rules, ∀ place ∈ rule.reads e.2.region,
      KeepsFillers keep es place.2 place.1)
    ⟨fun h e he hkeep rule hr option region hreads =>
        h e he hkeep rule hr (option, region) hreads,
      fun h e he hkeep rule hr place hreads => h e he hkeep rule hr place.1 place.2 hreads⟩

variable {keep : String × Descriptor → Bool} {es : List (String × Descriptor)}
variable {e : String × Descriptor}

theorem DistinctPlaces.mem_map_filter_iff (h : DistinctPlaces es) (he : e ∈ es) :
    e.2 ∈ (es.filter keep).map Prod.snd ↔ keep e = true := by
  constructor
  · intro hmem
    obtain ⟨f, hf, hsame⟩ := List.mem_map.mp hmem
    obtain ⟨hfes, hkeep⟩ := List.mem_filter.mp hf
    rw [List.inj_on_of_nodup_map h he hfes (by rw [hsame])]
    exact hkeep
  · intro hkeep
    exact List.mem_map_of_mem (List.mem_filter.mpr ⟨he, hkeep⟩)

/-- Among distinct places nothing but the entry itself fills the option of a kept entry. -/
theorem DistinctPlaces.keepsFillers (h : DistinctPlaces es) (he : e ∈ es) (hkeep : keep e = true) :
    KeepsFillers keep es e.2.region e.2.name := by
  intro f hf hfills
  obtain ⟨-, hname, hregion⟩ := Descriptor.fills_iff.mp hfills
  rw [List.inj_on_of_nodup_map h hf he (Prod.ext hregion hname)]
  exact hkeep

theorem Pass.simulation_of_closed (hdistinct : DistinctPlaces es) (hclosed : Closed keep es) :
    Simulation keep (AgreeOn (KeepsFillers keep es)) es := by
  apply simulation_of_visible
  · exact fun e he hkeep => hdistinct.keepsFillers he hkeep
  · exact hclosed
  · intro e he hkeep region name hvisible
    rw [Bool.eq_false_iff]
    intro hfills
    rw [hvisible e he hfills] at hkeep
    cases hkeep

namespace Table

variable {T : Table} {D R : Document}

/-- The entries that are kept, in their order. -/
def restrict (T : Table) (keep : String × Descriptor → Bool) : Table :=
  ⟨T.entries.filter keep, T.distinct.sublist (List.filter_sublist.map _)⟩

theorem entries_restrict (T : Table) (keep : String × Descriptor → Bool) :
    (T.restrict keep).entries = T.entries.filter keep := rfl

/-- Where the table resolves a document, so does a closed part of it: it reports what the table does
for the entries of the part, and has the same values wherever nothing that is left out fills. -/
theorem resolve_restrict (hdistinct : DistinctPlaces T.entries) (hclosed : Closed keep T.entries)
    (hR : T.resolve D = .ok R) :
    ∃ R', (T.restrict keep).resolve D = .ok R' ∧
      ((T.restrict keep).pass D).applied =
        (T.pass D).applied.filter (fun a => a.descriptor ∈ (T.restrict keep).values) ∧
      ∀ region name, KeepsFillers keep T.entries region name →
        R'.get? region name = R.get? region name := by
  obtain ⟨hok, rfl⟩ := resolve_eq_ok_iff.mp hR
  have hfollows : Pass.Follows keep _ (T.pass D) ((T.restrict keep).pass D) :=
    (Pass.simulation_of_closed hdistinct hclosed).follows fun _ _ _ => rfl
  obtain ⟨hsteps, hagree⟩ := hfollows.complete (Pass.stopsShared_of_error?_eq_none hok)
  refine ⟨_, resolve_eq_ok_iff.mpr ⟨?_, rfl⟩, ?_, hagree⟩
  · rw [Pass.error?, List.findSome?_eq_none_iff] at hok ⊢
    intro step hstep
    rw [hsteps] at hstep
    exact hok step (List.mem_filter.mp hstep).1
  · rw [Pass.applied, hsteps]
    apply Step.filterMap_applied?_filter
    intro step hstep a ha
    obtain ⟨pre, post, hes, -⟩ := Pass.exists_split_of_mem_steps hstep
    have hentry : step.entry ∈ T.entries := by
      rw [hes]
      exact List.mem_append_right pre (.head post)
    rw [Step.descriptor_of_applied? ha, Bool.eq_iff_iff, decide_eq_true_iff]
    exact hdistinct.mem_map_filter_iff hentry

section Without

variable {S : Table} {key : String} {d : Descriptor} {pre post : List (String × Descriptor)}

theorem restrict_without (hT : T.entries = pre ++ (key, d) :: post)
    (hS : S.entries = pre ++ post) : T.restrict (fun e => e ∈ S.entries) = S := by
  have hnew : (key, d) ∉ pre ++ post := by
    have hnodup : T.entries.Nodup :=
      List.Pairwise.of_map Prod.fst (fun _ _ hne heq => hne (heq ▸ rfl)) T.distinct
    rw [hT, List.perm_middle.nodup_iff, List.nodup_cons] at hnodup
    exact hnodup.1
  apply OrderedMap.ext
  rw [entries_restrict, hT, hS, List.filter_append, List.filter_cons_of_neg (by simpa using hnew),
    ← List.filter_append, List.filter_eq_self]
  simp

theorem keepsFillers_without (hT : T.entries = pre ++ (key, d) :: post)
    (hS : S.entries = pre ++ post) {region : Region} {name : String}
    (hplace : (region, name) ≠ d.place) :
    KeepsFillers (fun e => e ∈ S.entries) T.entries region name := by
  intro e he hfills
  rw [hT, List.mem_append, List.mem_cons] at he
  rcases he with he | rfl | he
  · simp [hS, he]
  · obtain ⟨-, hname, hregion⟩ := Descriptor.fills_iff.mp hfills
    exact absurd (Prod.ext hregion.symm hname.symm) hplace
  · simp [hS, he]

/-- Where no rule of the others looks at the option of the entry, the others are closed. -/
theorem closed_without (hT : T.entries = pre ++ (key, d) :: post) (hS : S.entries = pre ++ post)
    (hunread : ∀ e ∈ S.entries, ∀ rule ∈ e.2.rules,
      rule.reads e.2.region ≠ some (d.name, d.region)) :
    Closed (fun e => e ∈ S.entries) T.entries := by
  intro e _ hkeep rule hr option region hreads
  apply keepsFillers_without hT hS
  intro hplace
  obtain ⟨rfl, rfl⟩ := Prod.mk.inj hplace
  exact hunread e (of_decide_eq_true hkeep) rule hr hreads

end Without

/-- Parts of a table over distinct options resolve as they do within the table. A part that keeps
whatever fills an option that its rules look at resolves every document that the table resolves,
with the table's reports on its entries in their order, and with the table's values for its options.
So with one more option that no other rule looks at, wherever it stands, no other option has another
value. -/
theorem parts_resolve_alike {T : Table} (hdistinct : DistinctPlaces T.entries) :
    (∀ keep, Closed keep T.entries → ∀ D R, T.resolve D = .ok R →
      ∃ R', (T.restrict keep).resolve D = .ok R' ∧
        ((T.restrict keep).pass D).applied =
          (T.pass D).applied.filter (fun a => a.descriptor ∈ (T.restrict keep).values) ∧
        ∀ d ∈ (T.restrict keep).values, R'.get? d.region d.name = R.get? d.region d.name) ∧
    ∀ (S : Table) pre key d post, T.entries = pre ++ (key, d) :: post → S.entries = pre ++ post →
      (∀ e ∈ S.entries, ∀ rule ∈ e.2.rules, rule.reads e.2.region ≠ some (d.name, d.region)) →
      ∀ D R, T.resolve D = .ok R →
        ∃ R', S.resolve D = .ok R' ∧ ∀ region name, (region, name) ≠ (d.region, d.name) →
          R'.get? region name = R.get? region name := by
  constructor
  · intro keep hclosed D R hR
    obtain ⟨R', hR', happlied, hsame⟩ := resolve_restrict hdistinct hclosed hR
    refine ⟨R', hR', happlied, ?_⟩
    intro d hd
    obtain ⟨e, he, rfl⟩ := List.mem_map.mp hd
    obtain ⟨hmem, hkeep⟩ := List.mem_filter.mp he
    exact hsame _ _ (hdistinct.keepsFillers hmem hkeep)
  · intro S pre key d post hT hS hunread D R hR
    obtain ⟨R', hR', -, hsame⟩ := resolve_restrict hdistinct (closed_without hT hS hunread) hR
    rw [restrict_without hT hS] at hR'
    exact ⟨R', hR', fun region name hplace => hsame _ _ (keepsFillers_without hT hS hplace)⟩

/-- Here `module` looks at `target`, which is filled behind it, and `target` at `lib`, which the
table leaves as it is; no rule looks at `note`. -/
def moduleWithNote : Table :=
  ⟨[("module", ⟨"module", .nested, some (.single
      (.multiValue "target" [(.string "es5", .string "commonjs")] (some (.string "es6"))))⟩),
    ("note", ⟨"note", .root, some (.single (.presence "module" (.bool true) (some .null)))⟩),
    ("lib", ⟨"lib", .root, none⟩),
    ("target", ⟨"target", .nested, some (.single (.presence "lib" (.string "es5") none))⟩)],
    by decide⟩

/-- The options of `moduleWithNote` without `note`. -/
def moduleAlone : Table := ⟨moduleWithNote.entries.eraseIdx 1, by decide⟩

theorem parts_of_moduleWithNote :
    let D : Document := ⟨⟨[("lib", .null)], by decide⟩, ∅, 0⟩
    let keep : String × Descriptor → Bool := fun e => e.1 ≠ "note"
    DistinctPlaces moduleWithNote.entries ∧ Closed keep moduleWithNote.entries ∧
      moduleWithNote.forwardReferences = [⟨"module", "target"⟩] ∧
      (moduleWithNote.pass D).applied.length = 3 ∧
      ((moduleWithNote.restrict keep).pass D).applied.length = 2 ∧
      (∃ R', (moduleWithNote.restrict keep).resolve D = .ok R' ∧
        ((moduleWithNote.restrict keep).pass D).applied = (moduleWithNote.pass D).applied.filter
          (fun a => a.descriptor ∈ (moduleWithNote.restrict keep).values) ∧
        ∀ d ∈ (moduleWithNote.restrict keep).values, R'.get? d.region d.name =
          (moduleWithNote.pass D).document.get? d.region d.name) ∧
      ∃ R', moduleAlone.resolve D = .ok R' ∧ ∀ region name, (region, name) ≠ (.root, "note") →
        R'.get? region name = (moduleWithNote.pass D).document.get? region name := by
  intro D keep
  have hdistinct : DistinctPlaces moduleWithNote.entries := by decide
  have hclosed : Closed keep moduleWithNote.entries := by decide
  have hR : moduleWithNote.resolve D = .ok (moduleWithNote.pass D).document :=
    resolve_eq_ok_iff.mpr ⟨by decide, rfl⟩
  have hunread : ∀ e ∈ moduleAlone.entries, ∀ rule ∈ e.2.rules,
      rule.reads e.2.region ≠ some ("note", .root) := by decide
  obtain ⟨hparts, hwithout⟩ := parts_resolve_alike hdistinct
  exact ⟨hdistinct, hclosed, by decide, by decide, by decide, hparts keep hclosed D _ hR,
    hwithout moduleAlone [_] "note" _ _ rfl rfl hunread D _ hR⟩

end Table

end OptionDefaults
