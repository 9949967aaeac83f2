import OptionDefaults.Document.Reader
import OptionDefaults.Proofs.Additions
import OptionDefaults.Proofs.FilledValues

/-!
# Documents read back from their text

A document that was read from a text has no root option under the key of the nested object, has that
object no further back than its root options go, and has every value where it can be written and read
again. A pass of a table that was read from a text keeps all of this: the table has no entry for the
key of the nested object, options are only appended, and what is filled in fits into the room of the
nested options. So every document reached in this way is what its own text says, in either form.
-/

namespace OptionDefaults

namespace OrderedMap

variable {α : Type} {m : OrderedMap α} {key : String}

/-- Where a map has a key, and what it is without it. -/
theorem of_entries_eq {v : α} {before after : List (String × α)}
    (h : m.entries = before ++ (key, v) :: after) :
    m.get? key = some v ∧ m.indexOf key = before.length ∧
      (m.erase key).entries = before ++ after := by
  have hdistinct := m.distinct
  rw [h, List.map_append, List.map_cons, List.nodup_append, List.nodup_cons] at hdistinct
  obtain ⟨-, ⟨hafter, -⟩, hbefore⟩ := hdistinct
  have hb : ∀ e ∈ before, e.1 ≠ key := fun e he =>
    hbefore e.1 (List.mem_map_of_mem he) key (.head _)
  have ha : ∀ e ∈ after, e.1 ≠ key := by
    rintro e he rfl
    exact hafter (List.mem_map.mpr ⟨e, he, rfl⟩)
  refine ⟨?_, ?_, ?_⟩
  · refine List.lookup_eq_some_iff.mpr ⟨before, after, h, fun e he => ?_⟩
    simpa using (hb e he).symm
  · have hnone : ¬before.findIdx (fun e => e.1 == key) < before.length := by
      rw [List.findIdx_lt_length]
      rintro ⟨e, he, heq⟩
      exact hb e he (by simpa using heq)
    rw [indexOf, h, List.findIdx_append, if_neg hnone, List.findIdx_cons]
    simp
  · have hkeepBefore : before.filter (fun e => decide (e.1 ≠ key)) = before :=
      List.filter_eq_self.mpr fun e he => by simpa using hb e he
    have hkeepAfter : after.filter (fun e => decide (e.1 ≠ key)) = after :=
      List.filter_eq_self.mpr fun e he => by simpa using ha e he
    simp only [erase, h, List.filter_append, List.filter_cons, hkeepBefore, hkeepAfter]
    simp

theorem get?_eq_none_iff : m.get? key = none ↔ key ∉ m.keys := by
  rw [get?, List.lookup_eq_none_iff, keys, List.mem_map]
  constructor
  · rintro h ⟨e, he, rfl⟩
    simpa using h e he
  · intro h e he
    simpa using fun heq : key = e.1 => h ⟨e, he, heq.symm⟩

theorem not_mem_keys_erase (m : OrderedMap α) (key : String) : key ∉ (m.erase key).keys := by
  intro hkey
  obtain ⟨e, he, hname⟩ := List.mem_map.mp hkey
  have hne := (List.mem_filter.mp he).2
  simp [hname] at hne

end OrderedMap

namespace Document

open Json.Reader (maxDepth)

/-- Where the members of the document can be written and told apart again. -/
structure WellFormed (D : Document) : Prop where
  reserved : nestedKey ∉ D.root.keys
  position : D.nestedAt ≤ D.root.entries.length
  root : ∀ e ∈ D.root.entries, e.2.Readable (maxDepth - 1)
  nested : ∀ e ∈ D.nested.entries, e.2.Readable (maxDepth - 2)

theorem wellFormed_empty : empty.WellFormed where
  reserved := List.not_mem_nil
  position := Nat.le_refl 0
  root := by intro e he; cases he
  nested := by intro e he; cases he

/-! ## Documents that were read -/

theorem eq_of_ofMembers? {m : OrderedMap Json} {D : Document} (h : ofMembers? m = .ok D) :
    nestedKey ∉ m.keys ∧ D = ⟨m, ∅, 0⟩ ∨
      ∃ before options after, m.entries = before ++ (nestedKey, .object options) :: after ∧
        D = ⟨m.erase nestedKey, .ofList options, before.length⟩ := by
  unfold ofMembers? at h
  split at h
  next hnone =>
    cases h
    exact .inl ⟨OrderedMap.get?_eq_none_iff.mp hnone, rfl⟩
  next options hsome =>
    cases h
    obtain ⟨before, after, hentries, -⟩ := List.lookup_eq_some_iff.mp hsome
    obtain ⟨-, hindex, -⟩ := OrderedMap.of_entries_eq hentries
    exact .inr ⟨before, options, after, hentries, by rw [hindex]⟩
  next => cases h

theorem placed_of_ofMembers? {m : OrderedMap Json} {D : Document} (h : ofMembers? m = .ok D) :
    nestedKey ∉ D.root.keys ∧ D.nestedAt ≤ D.root.entries.length := by
  rcases eq_of_ofMembers? h with ⟨hreserved, rfl⟩ | ⟨before, options, after, hentries, rfl⟩
  · exact ⟨hreserved, Nat.zero_le _⟩
  · obtain ⟨-, -, herase⟩ := OrderedMap.of_entries_eq hentries
    refine ⟨m.not_mem_keys_erase nestedKey, ?_⟩
    rw [herase, List.length_append]
    exact Nat.le_add_right _ _

theorem wellFormed_of_ofMembers? {m : OrderedMap Json} {D : Document} (h : ofMembers? m = .ok D)
    (hm : ∀ e ∈ m.entries, e.2.Readable (maxDepth - 1)) : D.WellFormed := by
  obtain ⟨hreserved, hposition⟩ := placed_of_ofMembers? h
  rcases eq_of_ofMembers? h with ⟨-, rfl⟩ | ⟨before, options, after, hentries, rfl⟩
  · refine ⟨hreserved, hposition, hm, ?_⟩
    intro e he
    cases he
  · have hmem : (nestedKey, Json.object options) ∈ m.entries := by simp [hentries]
    refine ⟨hreserved, hposition, fun e he => hm e (List.mem_filter.mp he).1, ?_⟩
    intro e he
    have hobject := hm _ hmem
    cases hobject with
    | object _ hinner => exact hinner e (OrderedMap.mem_of_mem_ofList he)

theorem exists_members_of_ofText? {text : String} {D : Document} (h : ofText? text = .ok D) :
    ∃ m rest, Json.Reader.topObject text.toList = .ok (m, rest) ∧ ofMembers? m = .ok D := by
  unfold ofText? at h
  simp only at h
  split at h
  · cases h
  next m rest htop =>
    split at h
    · cases h
    next D' hmembers =>
      split at h
      · cases h
      · cases h
        exact ⟨m, rest, htop, hmembers⟩

theorem wellFormed_of_ofText? {text : String} {D : Document} (h : ofText? text = .ok D)
    (hi : Json.IntegersOnly text) : D.WellFormed := by
  obtain ⟨m, rest, htop, hmembers⟩ := exists_members_of_ofText? h
  refine wellFormed_of_ofMembers? hmembers fun e he => ?_
  exact Json.Reader.readable_of_topObject htop he (hi m rest htop e he)

/-! ## Documents that a pass left -/

theorem mem_entries_of_set {D : Document} {region : Region} {name : String} {v : Json}
    (h : D.isDefined region name = false) (other : Region) {e : String × Json}
    (he : e ∈ ((D.set region name v).options other).entries) :
    e ∈ (D.options other).entries ∨ region = other ∧ e = (name, v) := by
  rw [entries_set h] at he
  rcases List.mem_append.mp he with he | he
  · exact .inl he
  · split at he
    next hregion => exact .inr ⟨hregion, List.mem_singleton.mp he⟩
    next => cases he

theorem WellFormed.set {D : Document} (hD : D.WellFormed) {region : Region} {name : String}
    {v : Json} (h : D.isDefined region name = false)
    (hreserved : ¬(region = .root ∧ name = nestedKey)) (hv : v.Readable (maxDepth - 2)) :
    (D.set region name v).WellFormed := by
  constructor
  case reserved =>
    intro hkey
    obtain ⟨e, he, hname⟩ := List.mem_map.mp hkey
    rcases mem_entries_of_set h .root he with he | ⟨hregion, rfl⟩
    · exact hD.reserved (hname ▸ List.mem_map_of_mem he)
    · exact hreserved ⟨hregion, hname⟩
  case position =>
    have hlength := congrArg List.length (entries_set h v .root)
    have hposition := hD.position
    rw [List.length_append] at hlength
    rw [nestedAt_set]
    simp only [options] at hlength
    omega
  case root =>
    intro e he
    rcases mem_entries_of_set h .root he with he | ⟨-, rfl⟩
    · exact hD.root e he
    · exact hv.mono (by decide)
  case nested =>
    intro e he
    rcases mem_entries_of_set h .nested he with he | ⟨-, rfl⟩
    · exact hD.nested e he
    · exact hv

theorem WellFormed.run {D : Document} (hD : D.WellFormed) {es : List (String × Descriptor)}
    (hreserved : ∀ e ∈ es, ¬(e.2.region = .root ∧ e.2.name = nestedKey))
    (hfits : ∀ e ∈ es, e.2.Fits (maxDepth - 2)) : (Pass.run D es).document.WellFormed := by
  induction D, es using Pass.run_induct with
  | nil D => exact hD
  | stop D key d es h =>
    rw [Pass.run_cons_of_clash h]
    exact hD
  | go D key d es h ih =>
    rw [Pass.run_cons h, Pass.document_prepend]
    refine ih ?_ (fun e he => hreserved e (.tail _ he)) (fun e he => hfits e (.tail _ he))
    cases hf : (d.visit D).isFilled with
    | false =>
      rw [Descriptor.leaves_of_not_filled hf]
      exact hD
    | true =>
      obtain ⟨v, evaluations, hv⟩ := Visit.isFilled_iff.mp hf
      obtain ⟨-, hundefined, hmerged, -⟩ := Descriptor.visit_eq_filled_iff.mp hv
      have hroom := Descriptor.readable_of_merged (hfits _ (.head _)) hmerged
      rw [Descriptor.leaves_of_filled hv]
      exact hD.set hundefined (hreserved _ (.head _)) hroom

/-! ## Documents that are read back -/

variable {D : Document}

theorem WellFormed.readable_members (hD : D.WellFormed) :
    ∀ m ∈ D.members, m.2.Readable (maxDepth - 1) := by
  intro m hm
  rcases List.mem_append.mp hm with hm | hm
  · exact hD.root m (List.mem_of_mem_take hm)
  · rcases List.mem_cons.mp hm with rfl | hm
    · exact .object D.nested.distinct hD.nested
    · exact hD.root m (List.mem_of_mem_drop hm)

theorem WellFormed.ofMembers?_members (hD : D.WellFormed) :
    ofMembers? (.ofList D.members) = .ok D := by
  have hentries := OrderedMap.entries_ofList (nodup_map_fst_members hD.reserved)
  obtain ⟨hget, hindex, herase⟩ := OrderedMap.of_entries_eq hentries
  have hroot : (OrderedMap.ofList D.members).erase nestedKey = D.root := by
    apply OrderedMap.ext
    rw [herase, List.take_append_drop]
  have hlength : (D.root.entries.take D.nestedAt).length = D.nestedAt :=
    List.length_take_of_le hD.position
  simp only [ofMembers?, hget, hroot, hindex, hlength, OrderedMap.ofList_entries]

/-- A document whose members can be told apart is what its own text says, in either form and also
with blanks behind it. -/
theorem WellFormed.ofText?_write_append (hD : D.WellFormed) {layout : Json.Layout}
    (hl : layout.Blank) {blanks : List Char}
    (hblanks : ∀ c ∈ blanks, Json.Reader.isBlank c = true) :
    ofText? (String.ofList (layout.write 0 D.toJson ++ blanks)) = .ok D := by
  obtain ⟨body, hwrite, hbody⟩ := Json.Reader.objectBody_write hl
    (Json.Reader.readsBack hl (maxDepth - 1)) hD.readable_members 0 blanks
  have htop : Json.Reader.topObject (layout.write 0 D.toJson ++ blanks) =
      .ok (.ofList D.members, blanks) := by
    have hskip : Json.Reader.skipBlanks ('\x7b' :: body) = '\x7b' :: body := rfl
    rw [toJson, hwrite]
    simp only [Json.Reader.topObject, hskip, hbody]
    rfl
  have hfinish : Json.Reader.finish blanks = .ok () := by
    rw [Json.Reader.finish, Json.Reader.skipBlanks_of_blank hblanks]
  simp only [ofText?, String.toList_ofList, htop, hD.ofMembers?_members, hfinish]

theorem WellFormed.ofText?_write (hD : D.WellFormed) {layout : Json.Layout} (hl : layout.Blank) :
    ofText? (String.ofList (layout.write 0 D.toJson)) = .ok D := by
  have hread := hD.ofText?_write_append hl (List.forall_mem_nil _)
  rwa [List.append_nil] at hread

/-- The documents that texts and passes of tables from texts lead to, without doubles in any text. A
pass leads on whether it succeeds or not. -/
inductive Produced : Document → Prop
  | empty : Produced empty
  | text {text : String} {D : Document} : ofText? text = .ok D → Json.IntegersOnly text →
      Produced D
  | pass {text : String} {T : Table} {D : Document} : Produced D → Table.ofText? text = .ok T →
      Json.IntegersOnly text → Produced (T.pass D).document

theorem Produced.wellFormed (h : D.Produced) : D.WellFormed := by
  induction h with
  | empty => exact wellFormed_empty
  | text hread hi => exact wellFormed_of_ofText? hread hi
  | pass _ hread hi ih =>
    have hfits := Table.fits_of_ofText? hread hi
    exact ih.run hfits.reserved hfits.policies

/-- Every document that is reached from texts is read back from its own text, on one line or on
many: the same options in the same order, and the nested object at the same place. -/
theorem produced_read_back (h : D.Produced) :
    ofText? D.compact = .ok D ∧ ofText? D.pretty = .ok D :=
  ⟨h.wellFormed.ofText?_write Json.Layout.dense_blank,
    h.wellFormed.ofText?_write Json.Layout.indented_blank⟩

/-- A document whose nested object stands between its root options, one of them written twice. -/
def betweenFilesAndExtends : String :=
  "\x7b\"files\": [-7, \"a\\n\"], \"compilerOptions\": \x7b\x7d, \"extends\": 1, \"files\": [-8]\x7d"

/-- The second default of this table clashes when the first one is filled in. -/
def outDirThenPaths : String :=
  "\x7b\"outDir\": \x7b\"name\": \"outDir\", \"default\": [[[]]]\x7d, " ++
  "\"paths\": \x7b\"name\": \"paths\", \"default\": [[], 0]\x7d\x7d"

theorem read_back_after_clash :
    ∃ D T, ofText? betweenFilesAndExtends = .ok D ∧ Table.ofText? outDirThenPaths = .ok T ∧
      (T.pass D).applied.length = 1 ∧ (T.pass D).error?.isSome = true ∧
      Json.IntegersOnly betweenFilesAndExtends ∧ Json.IntegersOnly outDirThenPaths ∧
      let R := (T.pass D).document
      ofText? R.compact = .ok R ∧ ofText? R.pretty = .ok R := by
  have hD : ofText? betweenFilesAndExtends = .ok
      ⟨⟨[("files", .array [.number (.integer ⟨-8, by decide⟩)]),
        ("extends", .number (.integer ⟨1, by decide⟩))], by decide⟩, ∅, 1⟩ := by rfl
  have hT : Table.ofText? outDirThenPaths = .ok
      ⟨[("outDir", ⟨"outDir", .nested, some (.merged [.literal (.array [.array []])])⟩),
        ("paths", ⟨"paths", .nested, some (.merged [.literal (.array []),
          .literal (.number (.integer ⟨0, by decide⟩))])⟩)], by decide⟩ := by rfl
  have hiD : Json.IntegersOnly betweenFilesAndExtends := by
    intro members rest h e he
    have htop : Json.Reader.topObject betweenFilesAndExtends.toList = .ok
        (⟨[("files", .array [.number (.integer ⟨-8, by decide⟩)]),
          ("compilerOptions", .object []),
          ("extends", .number (.integer ⟨1, by decide⟩))], by decide⟩, []) := by rfl
    rw [htop] at h
    cases h
    rcases he with _ | ⟨_, _ | ⟨_, _ | ⟨_, ⟨⟩⟩⟩⟩
    · exact .array (by simpa using .integer _)
    · exact .object (by simp)
    · exact .integer _
  have hiT : Json.IntegersOnly outDirThenPaths := by
    intro members rest h e he
    have htop : Json.Reader.topObject outDirThenPaths.toList = .ok
        (⟨[("outDir", .object [("name", .string "outDir"),
            ("default", .array [.array [.array []]])]),
          ("paths", .object [("name", .string "paths"),
            ("default", .array [.array [], .number (.integer ⟨0, by decide⟩)])])],
          by decide⟩, []) := by rfl
    rw [htop] at h
    cases h
    have hempty : (Json.array []).Integral := .array (by simp)
    rcases he with _ | ⟨_, _ | ⟨_, ⟨⟩⟩⟩
    · have hdefault : (Json.array [.array []]).Integral := .array (by simpa using hempty)
      exact .object (by simpa using ⟨.string _, .array (by simpa using hdefault)⟩)
    · have hdefault : (Json.array [.array [], .number (.integer ⟨0, by decide⟩)]).Integral :=
        .array (by simpa using ⟨hempty, .integer _⟩)
      exact .object (by simpa using ⟨.string _, hdefault⟩)
  exact ⟨_, _, hD, hT, by rfl, by rfl, hiD, hiT, produced_read_back (.pass (.text hD hiD) hT hiT)⟩

end Document

end OptionDefaults
