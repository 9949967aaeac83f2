import OptionDefaults.Proofs.Alike
import OptionDefaults.Proofs.Passes

/-!
# Tables in another order

What an entry is visited on depends on the order of the table, but without forward references only
at its own option and at places that none of its rules looks at. Everywhere else the value that a
rule sees is the final one. So a pass that succeeds settles every entry by its outcome alone, and a
second order that has no forward references either comes upon each entry as settled.
-/

namespace OptionDefaults

def Descriptor.place (d : Descriptor) : Region × String := (d.region, d.name)

/-- Every option is described once. -/
def DistinctPlaces (es : List (String × Descriptor)) : Prop := (es.map fun e => e.2.place).Nodup

instance (es : List (String × Descriptor)) : Decidable (DistinctPlaces es) :=
  inferInstanceAs (Decidable (es.map fun e => e.2.place).Nodup)

/-- An entry on its own: on every document that has the value of `D` at the option itself and those
of `R` at the other places which the rules look at, the visit succeeds and leaves the option as it
is in `R`. -/
def Descriptor.Settled (d : Descriptor) (D R : Document) : Prop :=
  ∀ V : Document, V.get? d.region d.name = D.get? d.region d.name →
    (∀ rule ∈ d.rules, ∀ option region, rule.reads d.region = some (option, region) →
      (region, option) ≠ d.place → V.get? region option = R.get? region option) →
    (d.visit V).isClash = false ∧ (d.leaves V).get? d.region d.name = R.get? d.region d.name

/-- The document has the values of `R` at the options that the entries fill and else those of `D`. -/
def Document.Between (V D R : Document) (es : List (String × Descriptor)) : Prop :=
  ∀ region name, V.get? region name =
    if anyFills es name region then R.get? region name else D.get? region name

variable {D R : Document} {key : String} {d : Descriptor}
variable {pre post es : List (String × Descriptor)}

/-- Among distinct places nothing else fills the option of an entry. -/
theorem DistinctPlaces.not_anyFills (h : DistinctPlaces (pre ++ (key, d) :: post)) :
    anyFills pre d.name d.region = false ∧ anyFills post d.name d.region = false := by
  unfold DistinctPlaces at h
  rw [List.map_append, List.map_cons, List.nodup_append, List.nodup_cons] at h
  obtain ⟨-, ⟨hpost, -⟩, hpre⟩ := h
  have hother : ∀ e : String × Descriptor, e.2.place ≠ d.place →
      e.2.fills d.name d.region = false := by
    intro e hne
    cases hf : e.2.fills d.name d.region with
    | false => rfl
    | true =>
      obtain ⟨-, hname, hregion⟩ := Descriptor.fills_iff.mp hf
      exact absurd (Prod.ext hregion hname) hne
  constructor
  · rw [anyFills_eq_false_iff]
    intro e he
    exact hother e (hpre _ (List.mem_map_of_mem he) _ (.head _))
  · rw [anyFills_eq_false_iff]
    intro e he
    exact hother e fun heq => hpost (heq ▸ List.mem_map_of_mem he)

/-- A pass that succeeds, over distinct places without forward references, settles each entry. -/
theorem Pass.settled_of_run (hdistinct : DistinctPlaces es) (hhazards : hazards es = [])
    (hok : (run D es).error? = none) (he : (key, d) ∈ es) :
    d.Settled D (run D es).document := by
  obtain ⟨pre, post, rfl⟩ := List.append_of_mem he
  obtain ⟨hpre, hpost⟩ := hdistinct.not_anyFills
  obtain ⟨hokPre, hokPost⟩ := (error?_run_append D pre ((key, d) :: post)).mp hok
  have hlater : d.hazards post = [] :=
    List.subset_nil.mp (hhazards ▸ descriptor_hazards_subset pre key d post)
  have hrun := run_append hokPre ((key, d) :: post)
  generalize hS : (run D pre).document = S at hokPost hrun
  have hclash : (d.visit S).isClash = false := by
    cases hc : (d.visit S).isClash with
    | false => rfl
    | true => exact absurd hokPost (error?_run_cons_of_clash hc)
  have hown : S.get? d.region d.name = D.get? d.region d.name := by
    rw [← hS]
    exact get?_run_of_not_anyFills hpre
  have hfinal : (run D (pre ++ (key, d) :: post)).document = (run (d.leaves S) post).document := by
    rw [hrun, run_cons hclash, document_prepend]
  intro V hV hreads
  have hvisit : d.visit V = d.visit S := by
    have hsame : V.get? d.region d.name = S.get? d.region d.name := hV.trans hown.symm
    apply Descriptor.visit_congr (congrArg Option.isSome hsame)
    apply Descriptor.evaluate_congr
    intro rule hr option region hread
    by_cases hplace : (region, option) = d.place
    · obtain ⟨rfl, rfl⟩ := Prod.mk.inj hplace
      exact hsame
    · have hfree := Descriptor.anyFills_eq_false_of_hazards_eq_nil hlater hr hread
      rw [hreads rule hr option region hread hplace, hfinal, get?_run_of_not_anyFills hfree]
      apply Descriptor.get?_leaves
      rintro ⟨-, hname, hregion⟩
      exact hplace (Prod.ext hregion.symm hname.symm)
  constructor
  · rw [hvisit]
    exact hclash
  · rw [hfinal, get?_run_of_not_anyFills hpost]
    exact Descriptor.get?_leaves_congr (hV.trans hown.symm) hvisit

/-- Entries that are settled one by one are settled by a pass over them, in any order without
forward references: it succeeds, and where they fill it arrives at the settled values. -/
theorem Pass.run_of_settled (done : List (String × Descriptor))
    {todo : List (String × Descriptor)} {V : Document}
    (hdistinct : DistinctPlaces (done ++ todo)) (hhazards : hazards todo = [])
    (hsettled : ∀ e ∈ todo, e.2.Settled D R)
    (hout : ∀ region name, anyFills (done ++ todo) name region = false →
      D.get? region name = R.get? region name)
    (hV : V.Between D R done) :
    (run V todo).error? = none ∧ (run V todo).document.Between D R (done ++ todo) := by
  induction todo generalizing done V with
  | nil =>
    rw [List.append_nil]
    exact ⟨rfl, hV⟩
  | cons e todo ih =>
    obtain ⟨key, d⟩ := e
    obtain ⟨hlater, hrest⟩ := hazards_cons_eq_nil_iff.mp hhazards
    -- What a rule looks at was filled before, and has its final value, or is never filled at all.
    have hown : V.get? d.region d.name = D.get? d.region d.name := by
      rw [hV, hdistinct.not_anyFills.1]
      rfl
    have hreads : ∀ rule ∈ d.rules, ∀ option region,
        rule.reads d.region = some (option, region) → (region, option) ≠ d.place →
          V.get? region option = R.get? region option := by
      intro rule hr option region hread hplace
      rw [hV]
      cases hdone : anyFills done option region with
      | true => rfl
      | false =>
        have hfree := Descriptor.anyFills_eq_false_of_hazards_eq_nil hlater hr hread
        have hself : d.fills option region = false := by
          cases hf : d.fills option region with
          | false => rfl
          | true =>
            obtain ⟨-, rfl, rfl⟩ := Descriptor.fills_iff.mp hf
            exact absurd rfl hplace
        apply hout
        rw [anyFills_append, anyFills_cons, hdone, hself, hfree]
        rfl
    obtain ⟨hclash, hleaves⟩ := hsettled (key, d) (.head _) V hown hreads
    have hnext : (d.leaves V).Between D R (done ++ [(key, d)]) := by
      intro region name
      rw [anyFills_append, anyFills_cons]
      cases hf : d.fills name region with
      | true =>
        obtain ⟨-, rfl, rfl⟩ := Descriptor.fills_iff.mp hf
        simpa using hleaves
      | false =>
        have hnone : (anyFills done name region || (false || anyFills [] name region)) =
            anyFills done name region := by simp [anyFills]
        rw [Descriptor.get?_leaves_of_not_fills hf, hV, hnone]
    have hassoc : done ++ [(key, d)] ++ todo = done ++ (key, d) :: todo := by simp
    rw [error?_run_cons hclash, run_cons hclash, document_prepend, ← hassoc]
    refine ih (done ++ [(key, d)]) (hassoc ▸ hdistinct) hrest ?_ ?_ hnext
    · exact fun e he => hsettled e (.tail _ he)
    · rw [hassoc]
      exact hout

/-- A pass over the same entries in another order, both without forward references, succeeds when
the first one does, and comes to the same values. -/
theorem Pass.run_reordered {es' : List (String × Descriptor)} (hperm : es'.Perm es)
    (hdistinct : DistinctPlaces es) (hhazards : hazards es = []) (hhazards' : hazards es' = [])
    (hok : (run D es).error? = none) :
    (run D es').error? = none ∧ ∀ region name,
      (run D es').document.get? region name = (run D es).document.get? region name := by
  have hdistinct' : DistinctPlaces es' := (hperm.map _).nodup_iff.mpr hdistinct
  have hsettled : ∀ e ∈ es', e.2.Settled D (run D es).document := fun e he =>
    settled_of_run hdistinct hhazards hok (hperm.mem_iff.mp he)
  have hout : ∀ region name, anyFills es' name region = false →
      D.get? region name = (run D es).document.get? region name := by
    intro region name h
    have hsame : anyFills es name region = false := by
      rw [anyFills_eq_false_iff] at h ⊢
      exact fun e he => h e (hperm.mem_iff.mpr he)
    exact (get?_run_of_not_anyFills hsame).symm
  have hstart : D.Between D (run D es).document [] := fun region name => rfl
  obtain ⟨hok', hbetween⟩ := run_of_settled [] hdistinct' hhazards' hsettled hout hstart
  refine ⟨hok', fun region name => ?_⟩
  rw [hbetween, List.nil_append]
  cases h : anyFills es' name region with
  | true => rfl
  | false => exact hout region name h

theorem Table.resolve_eq_ok_iff {T : Table} {D R : Document} :
    T.resolve D = .ok R ↔ (T.pass D).error? = none ∧ (T.pass D).document = R := by
  unfold resolve
  cases h : (T.pass D).error? <;> simp [h]

/-- Two orders of the same distinct options, both without forward references, resolve the same
documents, and to the same values. -/
theorem Table.resolve_reordered {T T' : Table} (hperm : T'.entries.Perm T.entries)
    (hdistinct : DistinctPlaces T.entries) (h : T.forwardReferences = [])
    (h' : T'.forwardReferences = []) (D : Document) :
    ((∃ R, T.resolve D = .ok R) ↔ ∃ R, T'.resolve D = .ok R) ∧
      ∀ R R', T.resolve D = .ok R → T'.resolve D = .ok R' →
        R.alike R' = true ∧ ∀ region name, R.get? region name = R'.get? region name := by
  rw [forwardReferences_eq] at h h'
  have hdistinct' : DistinctPlaces T'.entries := (hperm.map _).nodup_iff.mpr hdistinct
  constructor
  · constructor
    · rintro ⟨R, hR⟩
      have hok := (resolve_eq_ok_iff.mp hR).1
      exact ⟨_, resolve_eq_ok_iff.mpr ⟨(Pass.run_reordered hperm hdistinct h h' hok).1, rfl⟩⟩
    · rintro ⟨R, hR⟩
      have hok := (resolve_eq_ok_iff.mp hR).1
      exact ⟨_, resolve_eq_ok_iff.mpr ⟨(Pass.run_reordered hperm.symm hdistinct' h' h hok).1, rfl⟩⟩
  · intro R R' hR hR'
    obtain ⟨hok, rfl⟩ := resolve_eq_ok_iff.mp hR
    obtain ⟨-, rfl⟩ := resolve_eq_ok_iff.mp hR'
    have hsame : ∀ region name, (T.pass D).document.get? region name =
        (T'.pass D).document.get? region name := fun region name =>
      ((Pass.run_reordered hperm hdistinct h h' hok).2 region name).symm
    have hat : (T.pass D).document.nestedAt = (T'.pass D).document.nestedAt :=
      (Pass.nestedAt_run D T.entries).trans (Pass.nestedAt_run D T'.entries).symm
    exact ⟨Document.alike_of_get?_eq hat hsame, hsame⟩

namespace Table

/-- Here `paths` looks at `lib`, and `mode` at itself. -/
def libraryPaths : Table :=
  ⟨[("mode", ⟨"mode", .nested, some (.single (.multiValue "mode" [] (some (.string "auto"))))⟩),
    ("lib", ⟨"lib", .root, some (.single (.literal (.array [])))⟩),
    ("paths", ⟨"paths", .root,
      some (.merged [.literal (.array []), .presence "lib" (.array [.string "lib"]) none])⟩)],
    by decide⟩

/-- The options of `libraryPaths` with `mode` last. -/
def libraryPathsFirst : Table := ⟨libraryPaths.entries.rotateLeft, by decide⟩

theorem resolve_libraryPathsFirst :
    libraryPathsFirst.entries.Perm libraryPaths.entries ∧
      (libraryPaths.pass .empty).applied.length = 3 ∧
      ((∃ R, libraryPaths.resolve .empty = .ok R) ↔
        ∃ R, libraryPathsFirst.resolve .empty = .ok R) ∧
      ∀ R R', libraryPaths.resolve .empty = .ok R → libraryPathsFirst.resolve .empty = .ok R' →
        R.alike R' = true ∧ ∀ region name, R.get? region name = R'.get? region name := by
  have hperm : libraryPathsFirst.entries.Perm libraryPaths.entries := by decide
  have hdistinct : DistinctPlaces libraryPaths.entries := by decide
  exact ⟨hperm, by decide, resolve_reordered hperm hdistinct (by decide) (by decide) .empty⟩

end Table

end OptionDefaults
