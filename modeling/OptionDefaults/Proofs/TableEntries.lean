import OptionDefaults.Proofs.DescriptorForms
import OptionDefaults.Proofs.Reordering
import OptionDefaults.Table.Reader

/-!
# Members that are entries

An object is a table when each of its members is a descriptor that may stand in a table and no two
of them are for one option. An object that is refused is refused for its first member that is not
such an entry, and that member for the first check that it fails.
-/

namespace OptionDefaults.Table

/-- The place of the nested object among the root options. -/
def reserved : Region × String := (.root, Document.nestedKey)

def places (entries : List (String × Descriptor)) : List (Region × String) :=
  entries.map fun e => e.2.place

/-- The entries are what the members stand for, one by one, and they make a table. -/
structure Describes (members : List (String × Json)) (entries : List (String × Descriptor)) :
    Prop where
  forms : List.Forall₂ (fun m e => m.1 = e.1 ∧ Descriptor.Form m.2 e.2) members entries
  named : ∀ e ∈ entries, e.2.name ≠ ""
  unreserved : ∀ e ∈ entries, e.2.place ≠ reserved
  distinct : DistinctPlaces entries

/-- The first check that a member fails behind entries for the places `seen`. -/
inductive EntryFault (seen : List (Region × String)) (key : String) (v : Json) : Fault → Prop
  | shape {fault : Descriptor.Fault} : ¬Descriptor.Acceptable v →
      Descriptor.ofJson? v = .error fault → EntryFault seen key v (.descriptor key fault)
  | emptyName {d : Descriptor} : Descriptor.Form v d → d.name = "" →
      EntryFault seen key v (.emptyName key)
  | reservedName {d : Descriptor} : Descriptor.Form v d → d.name ≠ "" → d.place = reserved →
      EntryFault seen key v (.reservedName key)
  | duplicate {d : Descriptor} : Descriptor.Form v d → d.name ≠ "" → d.place ≠ reserved →
      d.place ∈ seen → EntryFault seen key v (.duplicate d.region d.name)

/-- The fault is that of the first member that is no entry. -/
def FirstFault (members : List (String × Json)) (fault : Fault) : Prop :=
  ∃ before key v after entries, members = before ++ (key, v) :: after ∧
    Describes before entries ∧ EntryFault (places entries) key v fault

/-! ## Single entries -/

section Entry

variable {seen : List (Region × String)} {key : String} {v : Json} {d : Descriptor}

/-- Only which places were seen counts. -/
theorem EntryFault.congr {other : List (Region × String)} {fault : Fault}
    (hsame : ∀ place ∈ seen, place ∈ other) (h : EntryFault seen key v fault) :
    EntryFault other key v fault := by
  cases h with
  | shape hnot hfault => exact .shape hnot hfault
  | emptyName hform hname => exact .emptyName hform hname
  | reservedName hform hname hreserved => exact .reservedName hform hname hreserved
  | duplicate hform hname hreserved hmem =>
    exact .duplicate hform hname hreserved (hsame _ hmem)

theorem entryOfJson?_of_ok (h : Descriptor.ofJson? v = .ok d) : entryOfJson? seen key v =
    if d.name = "" then .error (.emptyName key)
    else if d.place = reserved then .error (.reservedName key)
    else if d.place ∈ seen then .error (.duplicate d.region d.name)
    else .ok d := by
  rw [entryOfJson?, h]
  simp only [Descriptor.place, reserved, Prod.mk.injEq]
  rfl

theorem entryOfJson?_of_error {fault : Descriptor.Fault} (h : Descriptor.ofJson? v = .error fault) :
    entryOfJson? seen key v = .error (.descriptor key fault) := by
  rw [entryOfJson?, h]
  rfl

/-- A member gives its descriptor, or the first check that it fails. -/
theorem entryOfJson?_iff (hv : v.DistinctKeys) :
    (∀ d, entryOfJson? seen key v = .ok d ↔
      Descriptor.Form v d ∧ d.name ≠ "" ∧ d.place ≠ reserved ∧ d.place ∉ seen) ∧
    ∀ fault, entryOfJson? seen key v = .error fault ↔ EntryFault seen key v fault := by
  have hread : ∀ {d}, Descriptor.ofJson? v = .ok d ↔ Descriptor.Form v d :=
    Descriptor.ofJson?_eq_ok_iff hv
  apply outcome_iff
  case hgood =>
    rintro d ⟨hform, hname, hreserved, hfresh⟩
    rw [entryOfJson?_of_ok (hread.mpr hform), if_neg hname, if_neg hreserved, if_neg hfresh]
  case hbad =>
    intro fault h
    cases h with
    | shape _ hfault => exact entryOfJson?_of_error hfault
    | emptyName hform hname => rw [entryOfJson?_of_ok (hread.mpr hform), if_pos hname]
    | reservedName hform hname hreserved =>
      rw [entryOfJson?_of_ok (hread.mpr hform), if_neg hname, if_pos hreserved]
    | duplicate hform hname hreserved hmem =>
      rw [entryOfJson?_of_ok (hread.mpr hform), if_neg hname, if_neg hreserved, if_pos hmem]
  case htotal =>
    cases hv : Descriptor.ofJson? v with
    | error fault =>
      refine .inr ⟨_, .shape (fun hacceptable => ?_) hv⟩
      obtain ⟨d, hform⟩ := Descriptor.exists_form_iff.mpr hacceptable
      rw [hread.mpr hform] at hv
      cases hv
    | ok d =>
      have hform := hread.mp hv
      by_cases hname : d.name = ""
      · exact .inr ⟨_, .emptyName hform hname⟩
      by_cases hreserved : d.place = reserved
      · exact .inr ⟨_, .reservedName hform hname hreserved⟩
      by_cases hmem : d.place ∈ seen
      · exact .inr ⟨_, .duplicate hform hname hreserved hmem⟩
      · exact .inl ⟨d, hform, hname, hreserved, hmem⟩

end Entry

/-! ## Entries one after the other -/

section Entries

variable {seen : List (Region × String)} {members : List (String × Json)}
variable {entries : List (String × Descriptor)} {fault : Fault}

theorem describes_nil : Describes [] [] where
  forms := .nil
  named := nofun
  unreserved := nofun
  distinct := .nil

theorem describes_cons_iff {m : String × Json} {e : String × Descriptor} :
    Describes (m :: members) (e :: entries) ↔ m.1 = e.1 ∧ Descriptor.Form m.2 e.2 ∧
      e.2.name ≠ "" ∧ e.2.place ≠ reserved ∧ e.2.place ∉ places entries ∧
      Describes members entries := by
  constructor
  · intro h
    obtain ⟨⟨hkey, hform⟩, hforms⟩ := List.forall₂_cons.mp h.forms
    obtain ⟨hname, hnamed⟩ := List.forall_mem_cons.mp h.named
    obtain ⟨hreserved, hunreserved⟩ := List.forall_mem_cons.mp h.unreserved
    obtain ⟨hplace, hdistinct⟩ := List.nodup_cons.mp h.distinct
    exact ⟨hkey, hform, hname, hreserved, hplace, hforms, hnamed, hunreserved, hdistinct⟩
  · rintro ⟨hkey, hform, hname, hreserved, hplace, h⟩
    exact ⟨.cons ⟨hkey, hform⟩ h.forms, List.forall_mem_cons.mpr ⟨hname, h.named⟩,
      List.forall_mem_cons.mpr ⟨hreserved, h.unreserved⟩, List.nodup_cons.mpr ⟨hplace, h.distinct⟩⟩

theorem entriesOfJson?_cons_eq_ok_iff {key : String} {v : Json} :
    entriesOfJson? seen ((key, v) :: members) = .ok entries ↔
      ∃ d, entryOfJson? seen key v = .ok d ∧ ∃ rest,
        entriesOfJson? (d.place :: seen) members = .ok rest ∧ entries = (key, d) :: rest := by
  rw [entriesOfJson?]
  constructor
  · intro h
    obtain ⟨d, hd, h⟩ := bind_eq_ok_iff.mp h
    obtain ⟨rest, hrest, h⟩ := bind_eq_ok_iff.mp h
    cases h
    exact ⟨d, hd, rest, hrest, rfl⟩
  · rintro ⟨d, hd, rest, hrest, rfl⟩
    exact bind_eq_ok_iff.mpr ⟨d, hd, bind_eq_ok_iff.mpr ⟨rest, hrest, rfl⟩⟩

theorem entriesOfJson?_cons_eq_error_iff {key : String} {v : Json} :
    entriesOfJson? seen ((key, v) :: members) = .error fault ↔
      entryOfJson? seen key v = .error fault ∨ ∃ d, entryOfJson? seen key v = .ok d ∧
        entriesOfJson? (d.place :: seen) members = .error fault := by
  rw [entriesOfJson?]
  refine bind_eq_error_iff.trans (or_congr_right (exists_congr fun d => ?_))
  exact and_congr_right fun _ => map_eq_error_iff

/-- Members are entries when they stand for a table in which no place is for a seen one. -/
theorem entriesOfJson?_eq_ok_iff (hm : ∀ m ∈ members, m.2.DistinctKeys) :
    entriesOfJson? seen members = .ok entries ↔
      Describes members entries ∧ ∀ place ∈ places entries, place ∉ seen := by
  induction members generalizing seen entries with
  | nil =>
    constructor
    · intro h
      cases h
      exact ⟨describes_nil, nofun⟩
    · rintro ⟨h, -⟩
      cases h.forms
      rfl
  | cons m members ih =>
    obtain ⟨key, v⟩ := m
    obtain ⟨hv, hmembers⟩ := List.forall_mem_cons.mp hm
    -- The rest is read with the place of this member seen: that it is not among those of the rest
    -- is one half of the places being distinct.
    simp only [entriesOfJson?_cons_eq_ok_iff, (entryOfJson?_iff hv).1, ih hmembers]
    constructor
    · rintro ⟨d, ⟨hform, hname, hreserved, hfresh⟩, rest, ⟨hrest, hplaces⟩, rfl⟩
      have hown : d.place ∉ places rest := fun hmem => hplaces _ hmem (.head _)
      refine ⟨describes_cons_iff.mpr ⟨rfl, hform, hname, hreserved, hown, hrest⟩, ?_⟩
      exact List.forall_mem_cons.mpr
        ⟨hfresh, fun place hmem hseen => hplaces place hmem (.tail _ hseen)⟩
    · rintro ⟨h, hplaces⟩
      cases entries with
      | nil => cases h.forms
      | cons e rest =>
        obtain ⟨key', d⟩ := e
        obtain ⟨rfl, hform, hname, hreserved, hown, hrest⟩ := describes_cons_iff.mp h
        obtain ⟨hfresh, hplaces⟩ := List.forall_mem_cons.mp hplaces
        refine ⟨d, ⟨hform, hname, hreserved, hfresh⟩, rest, ⟨hrest, ?_⟩, rfl⟩
        rintro place hmem (_ | ⟨_, hseen⟩)
        · exact hown hmem
        · exact hplaces place hmem hseen

/-- Reading fails at the first member that fails behind those before it. -/
theorem entriesOfJson?_eq_error_iff : entriesOfJson? seen members = .error fault ↔
    ∃ before key v after entries, members = before ++ (key, v) :: after ∧
      entriesOfJson? seen before = .ok entries ∧
      entryOfJson? ((places entries).reverse ++ seen) key v = .error fault := by
  induction members generalizing seen with
  | nil =>
    constructor
    · intro h
      cases h
    · rintro ⟨before, key, v, after, entries, h, -⟩
      cases before <;> cases h
  | cons m members ih =>
    obtain ⟨key, v⟩ := m
    rw [entriesOfJson?_cons_eq_error_iff]
    simp only [ih]
    constructor
    -- Each entry puts its place in front of those seen before, so they are asked for in reverse.
    · rintro (h | ⟨d, hd, before, key', w, after, entries, rfl, hbefore, h⟩)
      · exact ⟨[], key, v, members, [], rfl, rfl, h⟩
      · refine ⟨(key, v) :: before, key', w, after, (key, d) :: entries, rfl,
          entriesOfJson?_cons_eq_ok_iff.mpr ⟨d, hd, entries, hbefore, rfl⟩, ?_⟩
        simpa [places] using h
    · rintro ⟨before, key', w, after, entries, hsplit, hbefore, h⟩
      cases before with
      | nil =>
        cases hsplit
        cases hbefore
        exact .inl h
      | cons b before =>
        cases hsplit
        obtain ⟨d, hd, rest, hrest, rfl⟩ := entriesOfJson?_cons_eq_ok_iff.mp hbefore
        refine .inr ⟨d, hd, before, key', w, after, rest, rfl, hrest, ?_⟩
        simpa [places] using h

end Entries

/-! ## Tables -/

section Members

variable {members : OrderedMap Json} {T : Table} {fault : Fault}

theorem Describes.map_fst {members : List (String × Json)} {entries : List (String × Descriptor)}
    (h : Describes members entries) : entries.map Prod.fst = members.map Prod.fst := by
  have hkeys : List.Forall₂ (fun m e => m.1 = e.1) members entries :=
    h.forms.imp fun _ _ hboth => hboth.1
  rw [← List.forall₂_eq_eq_eq, List.forall₂_map_left_iff, List.forall₂_map_right_iff]
  exact hkeys.flip.imp fun _ _ => Eq.symm

theorem ofMembers?_eq_ok_iff (hm : ∀ m ∈ members.entries, m.2.DistinctKeys) :
    ofMembers? members = .ok T ↔ Describes members.entries T.entries := by
  simp only [ofMembers?, map_eq_ok_iff, entriesOfJson?_eq_ok_iff hm, List.not_mem_nil,
    not_false_eq_true, implies_true, and_true]
  constructor
  · rintro ⟨entries, h, rfl⟩
    rwa [OrderedMap.entries_ofList (h.map_fst ▸ members.distinct)]
  · exact fun h => ⟨T.entries, h, OrderedMap.ofList_entries T⟩

theorem ofMembers?_eq_error_iff (hm : ∀ m ∈ members.entries, m.2.DistinctKeys) :
    ofMembers? members = .error fault ↔ FirstFault members.entries fault := by
  rw [ofMembers?, map_eq_error_iff, entriesOfJson?_eq_error_iff]
  have hparts : ∀ {before after : List (String × Json)} {key : String} {v : Json},
      members.entries = before ++ (key, v) :: after →
        (∀ m ∈ before, m.2.DistinctKeys) ∧ v.DistinctKeys := by
    intro before after key v hsplit
    refine ⟨fun m hmem => hm m ?_, hm (key, v) ?_⟩ <;> rw [hsplit]
    · exact List.mem_append_left _ hmem
    · exact List.mem_append_right _ (.head _)
  constructor
  · rintro ⟨before, key, v, after, entries, hsplit, hbefore, h⟩
    obtain ⟨hkeys, hv⟩ := hparts hsplit
    refine ⟨before, key, v, after, entries, hsplit,
      ((entriesOfJson?_eq_ok_iff hkeys).mp hbefore).1, ?_⟩
    exact (((entryOfJson?_iff hv).2 fault).mp h).congr (by simp)
  · rintro ⟨before, key, v, after, entries, hsplit, hbefore, h⟩
    obtain ⟨hkeys, hv⟩ := hparts hsplit
    refine ⟨before, key, v, after, entries, hsplit,
      (entriesOfJson?_eq_ok_iff hkeys).mpr ⟨hbefore, fun _ _ => List.not_mem_nil⟩, ?_⟩
    exact ((entryOfJson?_iff hv).2 fault).mpr (h.congr (by simp))

end Members

end OptionDefaults.Table
