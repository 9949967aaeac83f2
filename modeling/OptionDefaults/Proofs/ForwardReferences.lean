import OptionDefaults.Proofs.Failures

/-!
# Which rules are forward references

A rule is found by its site: the place of its entry in the table and its own place among the rules
there. It looks ahead when an entry at a strictly later place has a policy for the option that it
looks at, in the region where it looks. The forward references of a table are those of the rules
that look ahead, one for each, in the order of their sites.
-/

namespace OptionDefaults

namespace Table

/-- The rule at a site looks at an option that a strictly later entry with a policy describes. -/
def LooksAhead (T : Table) (site : Nat × Nat) (reference : ForwardReference) : Prop :=
  ∃ owner rule region, T.values[site.1]? = some owner ∧ owner.rules[site.2]? = some rule ∧
    rule.reads owner.region = some (reference.dependsOn, region) ∧ reference.option = owner.name ∧
    ∃ place later, site.1 < place ∧ T.values[place]? = some later ∧ later.policy.isSome = true ∧
      later.name = reference.dependsOn ∧ later.region = region

/-- By entry and then by rule. -/
def SiteBefore (s t : Nat × Nat) : Prop := s.1 < t.1 ∨ s.1 = t.1 ∧ s.2 < t.2

/-- The forward references of the entry at a place, with their sites. -/
def referencesAt (T : Table) (owner : Descriptor) (place : Nat) :
    List ((Nat × Nat) × ForwardReference) :=
  owner.rules.zipIdx.filterMap fun (rule, k) =>
    (forwardReference? T.values owner place rule).map fun reference => ((place, k), reference)

/-- The forward references of a table with their sites. -/
def referenceSites (T : Table) : List ((Nat × Nat) × ForwardReference) :=
  T.values.zipIdx.flatMap fun (owner, place) => T.referencesAt owner place

variable {T : Table} {owner : Descriptor} {rule : Rule} {reference : ForwardReference}

/-- The last filler stands behind a place of the list exactly when some filler does. -/
theorem exists_lastFiller_gt_iff {descriptors : List Descriptor} {place : Nat}
    (hplace : place < descriptors.length) (name : String) (region : Region) :
    (∃ filled, lastFiller descriptors name region = some filled ∧ place < filled) ↔
      ∃ i later, place < i ∧ descriptors[i]? = some later ∧ later.fills name region = true := by
  -- Cut behind the place: a filler behind it is any descriptor of the second part that fills.
  have hlength : (descriptors.take (place + 1)).length = place + 1 := by
    rw [List.length_take]
    omega
  have hsplit := exists_lastFiller_ge_iff (descriptors.take (place + 1))
    (descriptors.drop (place + 1)) name region
  rw [List.take_append_drop, hlength] at hsplit
  simp only [Nat.lt_iff_add_one_le, hsplit]
  constructor
  · rintro ⟨later, hlater, hfills⟩
    obtain ⟨i, hi⟩ := List.getElem?_of_mem hlater
    rw [List.getElem?_drop] at hi
    exact ⟨place + 1 + i, later, Nat.le_add_right _ _, hi, hfills⟩
  · rintro ⟨i, later, hle, hi, hfills⟩
    refine ⟨later, List.mem_of_getElem? (i := i - (place + 1)) ?_, hfills⟩
    rw [List.getElem?_drop, Nat.add_sub_cancel' hle, hi]

theorem forwardReference?_eq_some_iff {descriptors : List Descriptor} {place : Nat} :
    forwardReference? descriptors owner place rule = some reference ↔
      ∃ region, rule.reads owner.region = some (reference.dependsOn, region) ∧
        reference.option = owner.name ∧
        ∃ filled, lastFiller descriptors reference.dependsOn region = some filled ∧
          place < filled := by
  obtain ⟨option, dependsOn⟩ := reference
  simp only [forwardReference?, Option.bind_eq_bind, Option.bind_eq_some_iff, Prod.exists,
    Option.ite_none_right_eq_some, Option.some.injEq, ForwardReference.mk.injEq]
  constructor
  · rintro ⟨name, region, hreads, filled, hfilled, hlt, rfl, rfl⟩
    exact ⟨region, hreads, rfl, filled, hfilled, hlt⟩
  · rintro ⟨region, hreads, rfl, filled, hfilled, hlt⟩
    exact ⟨dependsOn, region, hreads, filled, hfilled, hlt, rfl, rfl⟩

theorem mem_referenceSites_iff {site : Nat × Nat} :
    (site, reference) ∈ T.referenceSites ↔ T.LooksAhead site reference := by
  obtain ⟨place, k⟩ := site
  simp only [referenceSites, referencesAt, List.mem_flatMap, List.mem_filterMap, Prod.exists,
    List.mem_zipIdx_iff_getElem?, Option.map_eq_some_iff, forwardReference?_eq_some_iff,
    Prod.mk.injEq]
  constructor
  · rintro ⟨owner, _, howner, rule, _, hrule, _, ⟨region, hreads, hname, hlast⟩, ⟨rfl, rfl⟩, rfl⟩
    have hplace := (List.getElem?_eq_some_iff.mp howner).choose
    obtain ⟨i, later, hlt, hi, hfills⟩ := (exists_lastFiller_gt_iff hplace _ _).mp hlast
    exact ⟨owner, rule, region, howner, hrule, hreads, hname, i, later, hlt, hi,
      Descriptor.fills_iff.mp hfills⟩
  · rintro ⟨owner, rule, region, howner, hrule, hreads, hname, i, later, hlt, hi, hfills⟩
    have hplace := (List.getElem?_eq_some_iff.mp howner).choose
    have hlast := (exists_lastFiller_gt_iff hplace _ _).mpr
      ⟨i, later, hlt, hi, Descriptor.fills_iff.mpr hfills⟩
    exact ⟨owner, place, howner, rule, k, hrule, reference, ⟨region, hreads, hname, hlast⟩,
      ⟨rfl, rfl⟩, rfl⟩

theorem map_snd_referenceSites (T : Table) :
    T.referenceSites.map Prod.snd = T.forwardReferences := by
  have hentry : ∀ owner place, (T.referencesAt owner place).map Prod.snd =
      owner.rules.filterMap (forwardReference? T.values owner place) := by
    intro owner place
    have hrules := List.filterMap_map (f := Prod.fst) (l := owner.rules.zipIdx)
      (g := forwardReference? T.values owner place)
    rw [List.zipIdx_map_fst] at hrules
    rw [hrules, referencesAt, List.map_filterMap]
    simp only [Option.map_map, Function.comp_def, Option.map_id']
  rw [referenceSites, List.map_flatMap]
  simp only [hentry]
  rfl

theorem pairwise_snd_zipIdx {α : Type} (xs : List α) :
    xs.zipIdx.Pairwise fun x y => x.2 < y.2 := by
  apply List.pairwise_map.mp
  rw [List.zipIdx_map_snd]
  exact List.pairwise_lt_range'

theorem pairwise_referencesAt (T : Table) (owner : Descriptor) (place : Nat) :
    (T.referencesAt owner place).Pairwise fun s t => SiteBefore s.1 t.1 := by
  rw [referencesAt, List.pairwise_filterMap]
  refine (pairwise_snd_zipIdx owner.rules).imp ?_
  rintro ⟨rule, k⟩ ⟨other, l⟩ hlt s hs t ht
  obtain ⟨_, -, rfl⟩ := Option.map_eq_some_iff.mp hs
  obtain ⟨_, -, rfl⟩ := Option.map_eq_some_iff.mp ht
  exact .inr ⟨rfl, hlt⟩

theorem place_of_mem_referencesAt {place : Nat} {s : (Nat × Nat) × ForwardReference}
    (h : s ∈ T.referencesAt owner place) : s.1.1 = place := by
  obtain ⟨_, -, h⟩ := List.mem_filterMap.mp h
  obtain ⟨_, -, rfl⟩ := Option.map_eq_some_iff.mp h
  rfl

theorem pairwise_referenceSites (T : Table) :
    (T.referenceSites.map Prod.fst).Pairwise SiteBefore := by
  rw [List.pairwise_map, referenceSites, List.pairwise_flatMap]
  constructor
  · rintro ⟨owner, place⟩ -
    exact T.pairwise_referencesAt owner place
  · refine (pairwise_snd_zipIdx T.values).imp ?_
    rintro ⟨owner, i⟩ ⟨later, j⟩ hlt s hs t ht
    have hi := place_of_mem_referencesAt hs
    have hj := place_of_mem_referencesAt ht
    exact .inl (hi ▸ hj ▸ hlt)

/-- Where no descriptor with a policy has the name in the region that a rule looks at, the rule does
not look ahead. -/
theorem not_looksAhead_of_names {site : Nat × Nat} {option : String} {region : Region}
    (howner : T.values[site.1]? = some owner) (hrule : owner.rules[site.2]? = some rule)
    (hreads : rule.reads owner.region = some (option, region))
    (hnames : ∀ d ∈ T.values.drop (site.1 + 1), d.policy.isSome = true → d.name = option →
      d.region ≠ region) (reference : ForwardReference) : ¬T.LooksAhead site reference := by
  rintro ⟨owner', rule', region', howner', hrule', hreads', -, i, later, hlt, hi, hpolicy, hname,
    hregion⟩
  rw [howner] at howner'
  cases howner'
  rw [hrule] at hrule'
  cases hrule'
  rw [hreads] at hreads'
  cases hreads'
  refine hnames later (List.mem_of_getElem? (i := i - (site.1 + 1)) ?_) hpolicy hname hregion
  rw [List.getElem?_drop, Nat.add_sub_cancel' hlt, hi]

theorem not_looksAhead_of_own {site : Nat × Nat} (hdistinct : DistinctPlaces T.entries)
    (howner : T.values[site.1]? = some owner) (hrule : owner.rules[site.2]? = some rule)
    (hreads : rule.reads owner.region = some (owner.name, owner.region))
    (reference : ForwardReference) : ¬T.LooksAhead site reference := by
  obtain ⟨key, hentries⟩ := entries_eq_of_getElem? howner
  rw [hentries] at hdistinct
  obtain ⟨-, hlater⟩ := hdistinct.not_anyFills
  refine not_looksAhead_of_names howner hrule hreads ?_ reference
  intro d hd hpolicy hname hregion
  rw [OrderedMap.values, ← List.map_drop] at hd
  obtain ⟨e, he, rfl⟩ := List.mem_map.mp hd
  have hfills := anyFills_eq_false_iff.mp hlater e he
  rw [Descriptor.fills_iff.mpr ⟨hpolicy, hname, hregion⟩] at hfills
  cases hfills

theorem not_looksAhead_of_noPolicy {site : Nat × Nat} (howner : T.values[site.1]? = some owner)
    (hpolicy : owner.policy = none) (reference : ForwardReference) :
    ¬T.LooksAhead site reference := by
  rintro ⟨owner', rule, -, howner', hrule, -⟩
  rw [howner] at howner'
  cases howner'
  simp [Descriptor.rules, hpolicy] at hrule

/-- Forward references are exact. The forward references of a table are, by entry and then by rule,
one for each rule that looks at an option which a strictly later entry with a policy describes, and
no other. So nothing comes from an entry without a policy; from a rule that looks at an option which
later entries describe only without a policy or only in the other region; nor, where every option is
described once, from a rule that looks at the option of its own entry. -/
theorem forwardReferences_exact (T : Table) :
    (∃ sites : List ((Nat × Nat) × ForwardReference), T.forwardReferences = sites.map Prod.snd ∧
      (sites.map Prod.fst).Pairwise SiteBefore ∧
      ∀ site reference, (site, reference) ∈ sites ↔ T.LooksAhead site reference) ∧
    ∀ (site : Nat × Nat) owner, T.values[site.1]? = some owner →
      (owner.policy = none → ∀ reference, ¬T.LooksAhead site reference) ∧
      ∀ rule option region, owner.rules[site.2]? = some rule →
        rule.reads owner.region = some (option, region) →
          ((∀ later ∈ T.values.drop (site.1 + 1), later.policy.isSome = true →
            later.name = option → later.region ≠ region) →
              ∀ reference, ¬T.LooksAhead site reference) ∧
          (DistinctPlaces T.entries → option = owner.name → region = owner.region →
            ∀ reference, ¬T.LooksAhead site reference) := by
  refine ⟨⟨T.referenceSites, T.map_snd_referenceSites.symm, T.pairwise_referenceSites,
    fun _ _ => mem_referenceSites_iff⟩, ?_⟩
  intro site owner howner
  refine ⟨not_looksAhead_of_noPolicy howner, ?_⟩
  intro rule option region hrule hreads
  refine ⟨not_looksAhead_of_names howner hrule hreads, ?_⟩
  rintro hdistinct rfl rfl
  exact not_looksAhead_of_own hdistinct howner hrule hreads

/-- The rules of `a` look at an option without a policy, at one that is filled in the other region
only, at their own, and at `b`. -/
def lookingAround : Table :=
  ⟨[("a", ⟨"a", .nested, some (.merged [.presence "r" (.array []) none, .multiValue "c" [] none,
      .multiValue "a" [] none, .multiValue "b" [] none])⟩),
    ("r", ⟨"r", .root, none⟩), ("c", ⟨"c", .root, some (.single (.literal .null))⟩),
    ("b", ⟨"b", .nested, some (.single (.literal (.array [])))⟩)], by decide⟩

theorem forwardReferences_of_lookingAround :
    lookingAround.forwardReferences = [⟨"a", "b"⟩] ∧ DistinctPlaces lookingAround.entries ∧
      (∃ site, lookingAround.LooksAhead site ⟨"a", "b"⟩) ∧
      ∀ reference, ¬lookingAround.LooksAhead (0, 0) reference ∧
        ¬lookingAround.LooksAhead (0, 1) reference ∧
        ¬lookingAround.LooksAhead (0, 2) reference ∧
        ¬lookingAround.LooksAhead (1, 0) reference := by
  have hreferences : lookingAround.forwardReferences = [⟨"a", "b"⟩] := by decide
  have hdistinct : DistinctPlaces lookingAround.entries := by decide
  obtain ⟨⟨sites, hsites, -, hmem⟩, hnone⟩ := forwardReferences_exact lookingAround
  have ha := (hnone (0, 0) _ rfl).2
  have hc := (hnone (0, 1) _ rfl).2
  have hown := (hnone (0, 2) _ rfl).2
  have hr := (hnone (1, 0) _ rfl).1 rfl
  refine ⟨hreferences, hdistinct, ?_, fun reference => ⟨?_, ?_, ?_, hr reference⟩⟩
  · rw [hreferences] at hsites
    have hb : (⟨"a", "b"⟩ : ForwardReference) ∈ sites.map Prod.snd := hsites ▸ .head []
    obtain ⟨⟨site, reference⟩, hsite, rfl⟩ := List.mem_map.mp hb
    exact ⟨site, (hmem site _).mp hsite⟩
  · exact (ha _ "r" .root rfl rfl).1 (by decide) reference
  · exact (hc _ "c" .nested rfl rfl).1 (by decide) reference
  · exact (hown _ "a" .nested rfl rfl).2 hdistinct rfl rfl reference

end Table

end OptionDefaults
