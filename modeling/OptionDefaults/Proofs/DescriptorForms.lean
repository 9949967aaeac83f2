import OptionDefaults.Proofs.Alike
import OptionDefaults.Proofs.PolicyForms
import OptionDefaults.Table.Descriptor

/-!
# Values that are descriptors

A descriptor has three fields, of which only the name has to be there. An object has them as its
members, whatever else it has and in any order, and an array as its items. Where keys are distinct,
members are read each on its own: the order in which they stand does not show in what is read.
-/

namespace OptionDefaults.Descriptor

/-- The field gives the region; a descriptor without it is for the nested region. -/
inductive RegionField : Option Json → Region → Prop
  | absent : RegionField none .nested
  | root : RegionField (some (.bool true)) .root
  | nested : RegionField (some (.bool false)) .nested

/-- The field gives the policy; a descriptor without it, or with `null`, has none. -/
inductive PolicyField : Option Json → Option Policy → Prop
  | absent : PolicyField none none
  | null : PolicyField (some .null) none
  | given {v : Json} {policy : Policy} : v ≠ .null → Policy.Form v policy →
      PolicyField (some v) (some policy)

structure Fields (name region policy : Option Json) (d : Descriptor) : Prop where
  name : name = some (.string d.name)
  region : RegionField region d.region
  policy : PolicyField policy d.policy

inductive Form : Json → Descriptor → Prop
  | object {members : List (String × Json)} {d : Descriptor} :
      Fields (Json.member? "name" members) (Json.member? "inRoot" members)
        (Json.member? "default" members) d → Form (.object members) d
  | array {items : List Json} {d : Descriptor} : items.length ≤ 3 →
      Fields items[0]? items[1]? items[2]? d → Form (.array items) d

/-! ## Reading fields -/

/-- What stands after a field was taken over: what was read from it, or what stood before when there
is none. -/
def Takes {α : Type} (read : Json → Except Fault α) (field : Option Json) (before after : α) :
    Prop :=
  match field with
  | some v => read v = .ok after
  | none => after = before

/-- The field that a member is for a key. -/
def fieldOf (key : String) (member : String × Json) : Option Json :=
  if key = member.1 then some member.2 else none

section Fields

variable {α : Type} {read : Json → Except Fault α} {key : String} {m : String × Json}
variable {members : List (String × Json)}

/-- With distinct keys a field is taken from the first member or from the others, not from both. -/
theorem takes_cons (hm : m.1 ∉ members.map Prod.fst) {before after : α} :
    Takes read (Json.member? key (m :: members)) before after ↔
      ∃ between, Takes read (fieldOf key m) before between ∧
        Takes read (Json.member? key members) between after := by
  obtain ⟨k, v⟩ := m
  rw [Json.member?, OrderedMap.lookup_cons_ite, fieldOf]
  by_cases hk : key = k
  · subst hk
    have hnone : Json.member? key members = none := Json.lookup_eq_none_of_not_mem hm
    simp [hnone, Takes]
  · simp [hk, Takes, Json.member?]

end Fields

/-- The name as a draft has it. -/
def draftName? (v : Json) : Except Fault (Option String) := (nameOfJson? v).map some

structure Draft.Takes (field : String → Option Json) (before after : Draft) : Prop where
  name : Descriptor.Takes draftName? (field "name") before.name after.name
  region : Descriptor.Takes regionOfJson? (field "inRoot") before.region after.region
  policy : Descriptor.Takes policyOfJson? (field "default") before.policy after.policy

theorem fieldOf_eq_none {key : String} {m : String × Json} (h : ∀ v, m = (key, v) → False) :
    fieldOf key m = none :=
  if_neg fun hkey => h m.2 (Prod.ext hkey.symm rfl)

theorem Draft.takes_iff {field : String → Option Json} {before after : Draft} :
    before.Takes field after ↔ Descriptor.Takes draftName? (field "name") before.name after.name ∧
      Descriptor.Takes regionOfJson? (field "inRoot") before.region after.region ∧
      Descriptor.Takes policyOfJson? (field "default") before.policy after.policy :=
  ⟨fun h => ⟨h.name, h.region, h.policy⟩,
    fun ⟨hname, hregion, hpolicy⟩ => ⟨hname, hregion, hpolicy⟩⟩

/-- A member is taken over as the one field that it is, or not at all. -/
theorem Draft.read_eq_ok_iff {before after : Draft} {m : String × Json} :
    before.read m = .ok after ↔ before.Takes (fieldOf · m) after := by
  obtain ⟨name, region, policy⟩ := after
  rw [takes_iff]
  unfold Draft.read
  split
  next v =>
    cases h : nameOfJson? v <;>
      simp [Descriptor.Takes, fieldOf, draftName?, h, Except.map, eq_comm]
  next v =>
    cases h : regionOfJson? v <;>
      simp [Descriptor.Takes, fieldOf, h, Except.map, eq_comm, and_left_comm]
  next v =>
    cases h : policyOfJson? v <;>
      simp [Descriptor.Takes, fieldOf, h, Except.map, eq_comm, and_left_comm]
  next hname hregion hpolicy =>
    rw [fieldOf_eq_none hname, fieldOf_eq_none hregion, fieldOf_eq_none hpolicy]
    cases before
    simp [Descriptor.Takes, eq_comm]

theorem Draft.foldlM_read_eq_ok_iff {members : List (String × Json)}
    (hkeys : (members.map Prod.fst).Nodup) {before after : Draft} :
    members.foldlM Draft.read before = .ok after ↔ before.Takes (Json.member? · members) after := by
  induction members generalizing before with
  | nil =>
    cases before
    cases after
    rw [takes_iff, List.foldlM_nil]
    simp [Descriptor.Takes, Json.member?, pure, Except.pure, eq_comm]
  | cons m members ih =>
    -- Each field goes through the first member and then the others, the three at once in the fold
    -- and each on its own in what it takes over.
    rw [List.map_cons, List.nodup_cons] at hkeys
    have hstep : (m :: members).foldlM Draft.read before = .ok after ↔
        ∃ between : Draft, before.Takes (fieldOf · m) between ∧
          between.Takes (Json.member? · members) after := by
      simp only [← read_eq_ok_iff, ← ih hkeys.2]
      exact bind_eq_ok_iff
    rw [hstep, takes_iff, takes_cons hkeys.1, takes_cons hkeys.1, takes_cons hkeys.1]
    constructor
    · rintro ⟨between, hm, hmembers⟩
      exact ⟨⟨_, hm.name, hmembers.name⟩, ⟨_, hm.region, hmembers.region⟩,
        ⟨_, hm.policy, hmembers.policy⟩⟩
    · rintro ⟨⟨name, hn, hname⟩, ⟨region, hr, hregion⟩, ⟨policy, hp, hpolicy⟩⟩
      exact ⟨⟨name, region, policy⟩, ⟨hn, hr, hp⟩, ⟨hname, hregion, hpolicy⟩⟩

theorem takes_name_iff {field : Option Json} {name : String} :
    Takes draftName? field none (some name) ↔ field = some (.string name) := by
  cases field with
  | none => simp [Takes]
  | some v => cases v <;> simp [Takes, draftName?, nameOfJson?, Except.map]

theorem takes_region_iff {field : Option Json} {region : Region} :
    Takes regionOfJson? field .nested region ↔ RegionField field region := by
  constructor
  · intro h
    cases field with
    | none =>
      cases h
      exact .absent
    | some v =>
      have hread : regionOfJson? v = .ok region := h
      unfold regionOfJson? at hread
      split at hread <;> cases hread
      · exact .root
      · exact .nested
  · intro h
    cases h <;> rfl

theorem policyOfJson?_of_ne_null {v : Json} (h : v ≠ .null) :
    policyOfJson? v = ((Policy.ofJson? v).map some).mapError .policy := by
  cases v <;> first | rfl | exact absurd rfl h

theorem takes_policy_iff {field : Option Json} {policy : Option Policy} :
    Takes policyOfJson? field none policy ↔ PolicyField field policy := by
  constructor
  · intro h
    cases field with
    | none =>
      cases h
      exact .absent
    | some v =>
      have hread : policyOfJson? v = .ok policy := h
      by_cases hnull : v = .null
      · subst hnull
        cases hread
        exact .null
      · rw [policyOfJson?_of_ne_null hnull] at hread
        obtain ⟨given, hgiven, rfl⟩ := map_eq_ok_iff.mp (mapError_eq_ok_iff.mp hread)
        exact .given hnull (((Policy.ofJson?_iff v).1 given).mp hgiven)
  · intro h
    cases h with
    | absent => rfl
    | null => rfl
    | given hnull hform =>
      have hread := Policy.ofJson?_of_form hform
      rw [Takes, policyOfJson?_of_ne_null hnull, hread]
      rfl

/-! ## Reading descriptors -/

theorem Draft.finish_eq_ok_iff {draft : Draft} {d : Descriptor} :
    draft.finish = .ok d ↔ draft = ⟨some d.name, d.region, d.policy⟩ := by
  obtain ⟨name, region, policy⟩ := draft
  obtain ⟨n, r, p⟩ := d
  cases name <;> simp [finish]

/-- Members with distinct keys are read field by field. -/
theorem ofMembers?_eq_ok_iff {members : List (String × Json)}
    (hkeys : (members.map Prod.fst).Nodup) {d : Descriptor} :
    ofMembers? members = .ok d ↔ Fields (Json.member? "name" members)
      (Json.member? "inRoot" members) (Json.member? "default" members) d := by
  have hread : ofMembers? members = .ok d ↔
      Draft.Takes (Json.member? · members) {} ⟨some d.name, d.region, d.policy⟩ := by
    simp only [ofMembers?, bind_eq_ok_iff, Draft.finish_eq_ok_iff,
      Draft.foldlM_read_eq_ok_iff hkeys, exists_eq_right]
  rw [hread, Draft.takes_iff, takes_name_iff, takes_region_iff, takes_policy_iff]
  exact ⟨fun ⟨hname, hregion, hpolicy⟩ => ⟨hname, hregion, hpolicy⟩,
    fun h => ⟨h.name, h.region, h.policy⟩⟩

/-- The items of an array, taken as members, are found by their places. -/
theorem member?_zip_itemNames (items : List Json) :
    Json.member? "name" (itemNames.zip items) = items[0]? ∧
      Json.member? "inRoot" (itemNames.zip items) = items[1]? ∧
      Json.member? "default" (itemNames.zip items) = items[2]? := by
  match items with
  | [] => exact ⟨rfl, rfl, rfl⟩
  | [_] => exact ⟨rfl, rfl, rfl⟩
  | [_, _] => exact ⟨rfl, rfl, rfl⟩
  | _ :: _ :: _ :: _ => exact ⟨rfl, rfl, rfl⟩

theorem nodup_map_fst_zip_itemNames (items : List Json) :
    ((itemNames.zip items).map Prod.fst).Nodup := by
  rw [List.zip_eq_zip_take_min, List.map_fst_zip (by simp)]
  exact (List.take_sublist _ _).nodup (by decide)

/-- Items are the fields in their order, and there are no more than three. -/
theorem ofItems?_eq_ok_iff {items : List Json} {d : Descriptor} :
    ofItems? items = .ok d ↔ items.length ≤ 3 ∧ Fields items[0]? items[1]? items[2]? d := by
  obtain ⟨hname, hregion, hpolicy⟩ := member?_zip_itemNames items
  have hfields : ofMembers? (itemNames.zip items) = .ok d ↔
      Fields items[0]? items[1]? items[2]? d := by
    rw [ofMembers?_eq_ok_iff (nodup_map_fst_zip_itemNames items), hname, hregion, hpolicy]
  rw [ofItems?]
  split
  next hempty =>
    rw [List.isEmpty_iff.mp hempty]
    constructor
    · intro h
      cases h
    · rintro ⟨-, hfields⟩
      cases hfields.name
  next =>
    rw [bind_eq_ok_iff]
    constructor
    · rintro ⟨e, he, h⟩
      split at h
      next hlength =>
        cases h
        exact ⟨hlength, hfields.mp he⟩
      next => cases h
    · rintro ⟨hlength, h⟩
      exact ⟨d, hfields.mpr h, if_pos hlength⟩

/-- Reading a value whose objects have distinct keys gives the descriptor of which it is a form. -/
theorem ofJson?_eq_ok_iff {v : Json} (hv : v.DistinctKeys) {d : Descriptor} :
    ofJson? v = .ok d ↔ Form v d := by
  constructor
  · intro h
    unfold ofJson? at h
    split at h
    · exact .object ((ofMembers?_eq_ok_iff hv.1).mp h)
    · obtain ⟨hlength, hfields⟩ := ofItems?_eq_ok_iff.mp h
      exact .array hlength hfields
    · cases h
  · intro h
    cases h with
    | object hfields => exact (ofMembers?_eq_ok_iff hv.1).mpr hfields
    | array hlength hfields => exact ofItems?_eq_ok_iff.mpr ⟨hlength, hfields⟩

/-! ## Acceptable values -/

/-- The fields of some descriptor: a string for the name, if anything a Boolean for the region, and
if anything `null` or a policy for the default. -/
structure AcceptableFields (name region policy : Option Json) : Prop where
  name : ∃ s, name = some (.string s)
  region : ∀ v ∈ region, ∃ b, v = .bool b
  policy : ∀ v ∈ policy, v = .null ∨ Policy.Acceptable v

inductive Acceptable : Json → Prop
  | object {members : List (String × Json)} :
      AcceptableFields (Json.member? "name" members) (Json.member? "inRoot" members)
        (Json.member? "default" members) → Acceptable (.object members)
  | array {items : List Json} : items.length ≤ 3 →
      AcceptableFields items[0]? items[1]? items[2]? → Acceptable (.array items)

theorem exists_regionField_iff {field : Option Json} :
    (∃ region, RegionField field region) ↔ ∀ v ∈ field, ∃ b, v = .bool b := by
  constructor
  · rintro ⟨region, h⟩ v hv
    cases h <;> cases hv
    · exact ⟨true, rfl⟩
    · exact ⟨false, rfl⟩
  · intro h
    cases field with
    | none => exact ⟨_, .absent⟩
    | some v =>
      obtain ⟨b, rfl⟩ := h v rfl
      cases b
      · exact ⟨_, .nested⟩
      · exact ⟨_, .root⟩

theorem exists_policyField_iff {field : Option Json} :
    (∃ policy, PolicyField field policy) ↔ ∀ v ∈ field, v = .null ∨ Policy.Acceptable v := by
  constructor
  · rintro ⟨policy, h⟩ v hv
    cases h with
    | absent => cases hv
    | null =>
      cases hv
      exact .inl rfl
    | given _ hform =>
      cases hv
      exact .inr (Policy.exists_form_iff.mp ⟨_, hform⟩)
  · intro h
    cases field with
    | none => exact ⟨_, .absent⟩
    | some v =>
      by_cases hnull : v = .null
      · subst hnull
        exact ⟨_, .null⟩
      · obtain ⟨policy, hform⟩ := Policy.exists_form_iff.mpr ((h v rfl).resolve_left hnull)
        exact ⟨_, .given hnull hform⟩

theorem exists_fields_iff {name region policy : Option Json} :
    (∃ d, Fields name region policy d) ↔ AcceptableFields name region policy := by
  constructor
  · rintro ⟨d, h⟩
    exact ⟨⟨_, h.name⟩, exists_regionField_iff.mp ⟨_, h.region⟩,
      exists_policyField_iff.mp ⟨_, h.policy⟩⟩
  · intro h
    obtain ⟨n, hname⟩ := h.name
    obtain ⟨r, hregion⟩ := exists_regionField_iff.mpr h.region
    obtain ⟨p, hpolicy⟩ := exists_policyField_iff.mpr h.policy
    exact ⟨⟨n, r, p⟩, hname, hregion, hpolicy⟩

theorem exists_form_iff {v : Json} : (∃ d, Form v d) ↔ Acceptable v := by
  constructor
  · rintro ⟨d, h⟩
    cases h with
    | object hfields => exact .object (exists_fields_iff.mp ⟨d, hfields⟩)
    | array hlength hfields => exact .array hlength (exists_fields_iff.mp ⟨d, hfields⟩)
  · intro h
    cases h with
    | object hfields =>
      obtain ⟨d, hd⟩ := exists_fields_iff.mpr hfields
      exact ⟨d, .object hd⟩
    | array hlength hfields =>
      obtain ⟨d, hd⟩ := exists_fields_iff.mpr hfields
      exact ⟨d, .array hlength hd⟩

theorem Form.exists_policy {v : Json} {d : Descriptor} (h : Form v d) {policy : Policy}
    (hpolicy : policy ∈ d.policy) : ∃ w, Policy.Form w policy ∧
      ((∃ members, v = .object members ∧ Json.member? "default" members = some w) ∨
        ∃ items, v = .array items ∧ items[2]? = some w) := by
  have hfield : ∀ {field}, PolicyField field d.policy →
      ∃ w, Policy.Form w policy ∧ field = some w := by
    intro field hfield
    rw [hpolicy] at hfield
    cases hfield with
    | given _ hform => exact ⟨_, hform, rfl⟩
  cases h with
  | object hfields =>
    obtain ⟨w, hform, hmember⟩ := hfield hfields.policy
    exact ⟨w, hform, .inl ⟨_, rfl, hmember⟩⟩
  | array _ hfields =>
    obtain ⟨w, hform, hitem⟩ := hfield hfields.policy
    exact ⟨w, hform, .inr ⟨_, rfl, hitem⟩⟩

end OptionDefaults.Descriptor
