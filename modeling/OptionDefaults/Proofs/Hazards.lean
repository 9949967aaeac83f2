import OptionDefaults.Table.Basic

/-!
# Forward references by what follows

A rule of an entry is a forward reference exactly when one of the entries that follow fills the
option it looks at, however often an option is described. So the forward references of a table are
found entry by entry from the entries that follow alone, and a table has none exactly when every
entry's rules look only at what no later entry fills.
-/

namespace OptionDefaults

theorem Descriptor.fills_iff {d : Descriptor} {name : String} {region : Region} :
    d.fills name region = true ↔ d.policy.isSome = true ∧ d.name = name ∧ d.region = region := by
  simp [fills, and_assoc]

def anyFills (es : List (String × Descriptor)) (name : String) (region : Region) : Bool :=
  es.any fun e => e.2.fills name region

theorem anyFills_eq_true_iff {es : List (String × Descriptor)} {name : String} {region : Region} :
    anyFills es name region = true ↔ ∃ e ∈ es, e.2.fills name region = true :=
  List.any_eq_true

theorem anyFills_eq_false_iff {es : List (String × Descriptor)} {name : String} {region : Region} :
    anyFills es name region = false ↔ ∀ e ∈ es, e.2.fills name region = false := by
  simp [anyFills]

theorem anyFills_cons (e : String × Descriptor) (es : List (String × Descriptor)) (name : String)
    (region : Region) :
    anyFills (e :: es) name region = (e.2.fills name region || anyFills es name region) := rfl

theorem anyFills_append (pre post : List (String × Descriptor)) (name : String) (region : Region) :
    anyFills (pre ++ post) name region =
      (anyFills pre name region || anyFills post name region) :=
  List.any_append

namespace Descriptor

/-- The forward reference of a rule of `owner` when the entries `later` follow. -/
def hazard? (owner : Descriptor) (later : List (String × Descriptor)) (rule : Rule) :
    Option ForwardReference :=
  (rule.reads owner.region).bind fun (option, region) =>
    if anyFills later option region then some ⟨owner.name, option⟩ else none

def hazards (owner : Descriptor) (later : List (String × Descriptor)) : List ForwardReference :=
  owner.rules.filterMap (owner.hazard? later)

variable {owner : Descriptor} {option : String} {region : Region} {rule : Rule}
variable {later : List (String × Descriptor)}

theorem mem_hazards (hr : rule ∈ owner.rules)
    (hreads : rule.reads owner.region = some (option, region))
    (hlater : anyFills later option region = true) :
    ⟨owner.name, option⟩ ∈ owner.hazards later := by
  refine List.mem_filterMap.mpr ⟨rule, hr, ?_⟩
  simp [hazard?, hreads, hlater]

/-- Without forward references no later entry fills what a rule looks at. -/
theorem anyFills_eq_false_of_hazards_eq_nil (h : owner.hazards later = []) (hr : rule ∈ owner.rules)
    (hreads : rule.reads owner.region = some (option, region)) :
    anyFills later option region = false := by
  cases hlater : anyFills later option region with
  | false => rfl
  | true =>
    have hm := mem_hazards hr hreads hlater
    rw [h] at hm
    cases hm

end Descriptor

/-- The forward references of entries, each judged by the entries that follow it. -/
def hazards : List (String × Descriptor) → List ForwardReference
  | [] => []
  | (_, d) :: later => d.hazards later ++ hazards later

theorem hazards_cons_eq_nil_iff {key : String} {d : Descriptor}
    {later : List (String × Descriptor)} :
    hazards ((key, d) :: later) = [] ↔ d.hazards later = [] ∧ hazards later = [] :=
  List.append_eq_nil_iff

theorem hazards_append_subset (pre post : List (String × Descriptor)) :
    hazards post ⊆ hazards (pre ++ post) := by
  induction pre with
  | nil => exact fun _ h => h
  | cons e pre ih =>
    intro f hf
    exact List.mem_append.mpr (.inr (ih hf))

theorem descriptor_hazards_subset (pre : List (String × Descriptor)) (key : String)
    (d : Descriptor) (later : List (String × Descriptor)) :
    d.hazards later ⊆ hazards (pre ++ (key, d) :: later) := by
  intro f hf
  exact hazards_append_subset pre _ (List.mem_append.mpr (.inl hf))

namespace Table

theorem lastFiller_eq (descriptors : List Descriptor) (name : String) (region : Region) :
    lastFiller descriptors name region =
      (descriptors.zipIdx.reverse.find? fun e => e.1.fills name region).map Prod.snd := rfl

/-- The last filler stands behind the first descriptors exactly when one of the others fills the
option: a later filler takes the place of every earlier one. -/
theorem exists_lastFiller_ge_iff (before later : List Descriptor) (name : String)
    (region : Region) :
    (∃ filled, lastFiller (before ++ later) name region = some filled ∧ before.length ≤ filled) ↔
      ∃ e ∈ later, e.fills name region = true := by
  rw [lastFiller_eq, List.zipIdx_append, List.reverse_append, List.find?_append, Nat.zero_add]
  -- The search starts from the end, so what it finds among the later descriptors is the last filler.
  cases h : (later.zipIdx before.length).reverse.find? fun e => e.1.fills name region with
  | some found =>
    obtain ⟨e, i⟩ := found
    have hm : (e, i) ∈ later.zipIdx before.length :=
      List.mem_reverse.mp (List.mem_of_find?_eq_some h)
    have hi : before.length ≤ i := List.le_snd_of_mem_zipIdx hm
    have he : e ∈ later := List.fst_mem_of_mem_zipIdx hm
    have hf : e.fills name region = true := by simpa using List.find?_some h
    exact ⟨fun _ => ⟨e, he, hf⟩, fun _ => ⟨i, rfl, hi⟩⟩
  | none =>
    rw [Option.none_or]
    constructor
    · rintro ⟨filled, hfilled, hge⟩
      obtain ⟨⟨e, i⟩, hfound, rfl⟩ := Option.map_eq_some_iff.mp hfilled
      have hm : (e, i) ∈ before.zipIdx := List.mem_reverse.mp (List.mem_of_find?_eq_some hfound)
      have hi := List.snd_lt_of_mem_zipIdx hm
      simp only at hge hi
      omega
    · rintro ⟨e, he, hf⟩
      obtain ⟨i, hi, rfl⟩ := List.mem_iff_getElem.mp he
      have hm : (later[i], before.length + i) ∈ (later.zipIdx before.length).reverse := by
        rw [List.mem_reverse, List.mem_zipIdx_iff_le_and_getElem?_sub]
        simp
      exact absurd hf (List.find?_eq_none.mp h _ hm)

theorem forwardReference?_eq (before : List Descriptor) (owner : Descriptor)
    (later : List (String × Descriptor)) :
    forwardReference? (before ++ owner :: later.map Prod.snd) owner before.length =
      owner.hazard? later := by
  funext rule
  unfold forwardReference? Descriptor.hazard?
  cases rule.reads owner.region with
  | none => rfl
  | some place =>
    obtain ⟨option, region⟩ := place
    have h := exists_lastFiller_ge_iff (before ++ [owner]) (later.map Prod.snd) option region
    rw [List.append_assoc, List.singleton_append, List.length_append, List.length_singleton] at h
    have hany : (∃ e ∈ later.map Prod.snd, e.fills option region = true) ↔
        anyFills later option region = true := by
      rw [← List.any_eq_true, List.any_map]
      rfl
    rw [hany] at h
    simp only [Option.bind_eq_bind, Option.bind_some]
    cases hl : lastFiller (before ++ owner :: later.map Prod.snd) option region with
    | none =>
      rw [hl] at h
      have hno : ¬anyFills later option region = true := by
        rw [← h]
        rintro ⟨filled, hf, -⟩
        cases hf
      rw [if_neg hno]
      rfl
    | some filled =>
      rw [hl] at h
      have hlt : before.length < filled ↔ anyFills later option region = true := by
        rw [← h]
        exact ⟨fun hlt => ⟨filled, rfl, hlt⟩, fun ⟨_, hf, hge⟩ => Option.some.inj hf ▸ hge⟩
      simp only [Option.bind_some, hlt]

theorem flatMap_forwardReference?_eq (before post : List (String × Descriptor)) :
    ((post.map Prod.snd).zipIdx before.length).flatMap (fun entry => entry.1.rules.filterMap
        (forwardReference? ((before ++ post).map Prod.snd) entry.1 entry.2)) = hazards post := by
  induction post generalizing before with
  | nil => rfl
  | cons e post ih =>
    obtain ⟨key, d⟩ := e
    have hrest := ih (before ++ [(key, d)])
    rw [List.append_assoc, List.singleton_append, List.length_append,
      List.length_singleton] at hrest
    have hhead := forwardReference?_eq (before.map Prod.snd) d post
    rw [List.length_map] at hhead
    rw [List.map_cons, List.zipIdx_cons, List.flatMap_cons, hrest, List.map_append, List.map_cons,
      hhead]
    rfl

/-- The forward references of a table, entry by entry from the entries that follow. -/
theorem forwardReferences_eq (T : Table) : T.forwardReferences = hazards T.entries :=
  flatMap_forwardReference?_eq [] T.entries

end Table

end OptionDefaults
