import OptionDefaults.Proofs.CommentPlaces
import OptionDefaults.Proofs.DocumentText
import OptionDefaults.Table.Builtin

/-!
# The order of keys

Writing goes to the place of a key or behind the others, and nothing is ever moved. So whatever is
written and filled, the members of a document are those of the object that it was read from and then
the new ones, each where it was first written and with the value that was last written. The nested
object keeps the place that it had, also when the root options are exchanged for others: it stands
behind as many of them as before, or behind all of them.
-/

namespace OptionDefaults

namespace OrderedMap

variable {α : Type} {m : OrderedMap α} {key : String} {value : α}

theorem map_fst_write_of_mem {entries : List (String × α)} (h : key ∈ entries.map Prod.fst) :
    (write key value entries).map Prod.fst = entries.map Prod.fst := by
  induction entries with
  | nil => cases h
  | cons e es ih =>
    obtain ⟨k, v⟩ := e
    by_cases hk : k = key
    · simp [write, hk]
    · have hes : key ∈ es.map Prod.fst := (List.mem_cons.mp h).resolve_left (Ne.symm hk)
      rw [write, if_neg hk, List.map_cons, ih hes, List.map_cons]

theorem keys_insert_of_mem (h : key ∈ m.keys) : (m.insert key value).keys = m.keys :=
  map_fst_write_of_mem h

theorem keys_insert_of_not_mem (h : key ∉ m.keys) :
    (m.insert key value).keys = m.keys ++ [key] := by
  rw [keys, entries_insert_of_not_mem h, List.map_append]
  rfl

/-- The written names that are not known, each where it is written first. -/
def newNames (known written : List String) : List String :=
  (written.filter (· ∉ known)).eraseDups

theorem newNames_cons_of_mem {known written : List String} (h : key ∈ known) :
    newNames known (key :: written) = newNames known written := by
  simp [newNames, h]

theorem newNames_cons_of_not_mem {known written : List String} (h : key ∉ known) :
    newNames known (key :: written) = key :: newNames (known ++ [key]) written := by
  have hkeep : List.filter (fun k => !k == key) (written.filter (· ∉ known)) =
      written.filter (· ∉ known ++ [key]) := by
    rw [List.filter_filter]
    refine List.filter_congr fun k _ => ?_
    by_cases hk : k ∈ known <;> by_cases heq : k = key <;> simp [hk, heq]
  rw [newNames, List.filter_cons_of_pos (by simpa using h), List.eraseDups_cons, hkeep, newNames]

/-- Behind the keys that were there the new ones stand in the order of their first writes. -/
theorem keys_insertAll (m : OrderedMap α) (written : List (String × α)) :
    (m.insertAll written).keys = m.keys ++ newNames m.keys (written.map Prod.fst) := by
  induction written generalizing m with
  | nil => exact (List.append_nil _).symm
  | cons e written ih =>
    obtain ⟨k, v⟩ := e
    have hrest := ih (m.insert k v)
    rw [List.map_cons]
    by_cases hk : k ∈ m.keys
    · rw [keys_insert_of_mem hk] at hrest
      rw [newNames_cons_of_mem hk]
      exact hrest
    · rw [keys_insert_of_not_mem hk, List.append_assoc] at hrest
      rw [newNames_cons_of_not_mem hk]
      exact hrest

theorem mem_keys_insertAll {written : List (String × α)} {k : String} :
    k ∈ (m.insertAll written).keys ↔ k ∈ m.keys ∨ k ∈ written.map Prod.fst := by
  rw [keys_insertAll, List.mem_append, newNames, List.mem_eraseDups, List.mem_filter]
  by_cases hk : k ∈ m.keys <;> simp [hk]

theorem get?_insertAll (m : OrderedMap α) (written : List (String × α)) (k : String) :
    (m.insertAll written).get? k = (written.reverse.lookup k).or (m.get? k) := by
  induction written generalizing m with
  | nil => rfl
  | cons e written ih =>
    obtain ⟨l, v⟩ := e
    have hrest := ih (m.insert l v)
    rw [get?_insert] at hrest
    rw [List.reverse_cons, List.lookup_append, Option.or_assoc, lookup_cons_ite]
    refine hrest.trans (congrArg _ ?_)
    split <;> rfl

theorem insertAll_append (m : OrderedMap α) (written more : List (String × α)) :
    m.insertAll (written ++ more) = (m.insertAll written).insertAll more :=
  List.foldl_append

theorem newNames_congr {known other written : List String}
    (h : ∀ k ∈ written, (k ∈ known ↔ k ∈ other)) :
    newNames known written = newNames other written := by
  have hnew : written.filter (· ∉ known) = written.filter (· ∉ other) :=
    List.filter_congr fun k hk => by simp [h k hk]
  rw [newNames, hnew, newNames]

end OrderedMap

/-- A table that a text describes, or the built-in one. -/
def Table.Loaded (T : Table) : Prop :=
  T = Table.builtin ∨ ∃ text, Table.ofText? text = .ok T

theorem Table.Loaded.not_reserved {T : Table} (hT : T.Loaded) :
    ∀ e ∈ T.entries, ¬(e.2.region = .root ∧ e.2.name = Document.nestedKey) := by
  rcases hT with rfl | ⟨text, hread⟩
  · decide
  · exact Table.not_reserved_of_ofText? hread

namespace Document

/-! ## Changes -/

inductive Change where
  | set (region : Region) (name : String) (value : Json)
  | pass (table : Table)
  | exchangeRoot (options : OrderedMap Json)

namespace Change

def apply (D : Document) : Change → Document
  | .set region name value => D.set region name value
  | .pass table => (table.pass D).document
  | .exchangeRoot options => D.replaceRegion options .root

/-- Whether the change only writes values, one after the other. -/
def isWriting : Change → Bool
  | .set .. => true
  | .pass _ => true
  | .exchangeRoot _ => false

/-- What the change writes into a region. A pass writes what it fills. -/
def writes (D : Document) (region : Region) : Change → List (String × Json)
  | .set written name value => if written = region then [(name, value)] else []
  | .pass table => additions region (table.pass D).applied
  | .exchangeRoot _ => []

/-- Changes that put no root option under the key of the nested object. -/
def Allowed : Change → Prop
  | .set region name _ => ¬(region = .root ∧ name = nestedKey)
  | .pass table => table.Loaded
  | .exchangeRoot options => nestedKey ∉ options.keys

variable {D : Document} {c : Change}

theorem options_apply (hc : c.isWriting = true) (region : Region) :
    (c.apply D).options region = (D.options region).insertAll (c.writes D region) := by
  cases c with
  | set written name value =>
    by_cases h : written = region
    · subst h
      simp only [apply, writes, Document.set, options_replaceRegion, if_true]
      rfl
    · simp only [apply, writes, Document.set, options_replaceRegion_of_ne _ _ (Ne.symm h), if_neg h]
      rfl
  | pass table =>
    have hentries := Pass.entries_run D table.entries region
    have hdistinct := ((table.pass D).document.options region).distinct
    apply OrderedMap.ext
    rw [writes, OrderedMap.entries_insertAll]
    · exact hentries
    · rw [Table.pass, hentries] at hdistinct
      exact hdistinct
  | exchangeRoot options => cases hc

@[simp] theorem nestedAt_apply : (c.apply D).nestedAt = D.nestedAt := by
  cases c with
  | set region name value => exact nestedAt_set D region name value
  | pass table => exact Pass.nestedAt_run D table.entries
  | exchangeRoot options => rfl

theorem nestedKey_not_mem_apply (hc : c.Allowed) (hD : nestedKey ∉ D.root.keys) :
    nestedKey ∉ (c.apply D).root.keys := by
  cases c with
  | set region name value =>
    cases region with
    | nested => exact hD
    | root =>
      intro hmem
      rcases OrderedMap.mem_keys_write.mp hmem with hname | hmem
      · exact hc ⟨rfl, hname.symm⟩
      · exact hD hmem
  | pass table => exact Pass.nestedKey_not_mem_run hc.not_reserved hD
  | exchangeRoot options => exact hc

end Change

def after (D : Document) (changes : List Change) : Document := changes.foldl Change.apply D

/-- What changes write into a region, in order. -/
def written (D : Document) (region : Region) : List Change → List (String × Json)
  | [] => []
  | c :: changes => c.writes D region ++ (c.apply D).written region changes

theorem options_after (D : Document) {changes : List Change}
    (hchanges : ∀ c ∈ changes, c.isWriting = true) (region : Region) :
    (D.after changes).options region =
      (D.options region).insertAll (D.written region changes) := by
  induction changes generalizing D with
  | nil => rfl
  | cons c changes ih =>
    have hrest := ih (c.apply D) fun c hc => hchanges c (.tail _ hc)
    rw [Change.options_apply (hchanges c (.head _)), ← OrderedMap.insertAll_append] at hrest
    exact hrest

theorem nestedAt_after (D : Document) (changes : List Change) :
    (D.after changes).nestedAt = D.nestedAt := by
  induction changes generalizing D with
  | nil => rfl
  | cons c changes ih => exact (ih (c.apply D)).trans Change.nestedAt_apply

theorem nestedKey_not_mem_after {D : Document} {changes : List Change}
    (hchanges : ∀ c ∈ changes, c.Allowed) (hD : nestedKey ∉ D.root.keys) :
    nestedKey ∉ (D.after changes).root.keys := by
  induction changes generalizing D with
  | nil => exact hD
  | cons c changes ih =>
    exact ih (fun c hc => hchanges c (.tail _ hc))
      (Change.nestedKey_not_mem_apply (hchanges c (.head _)) hD)

/-! ## Members -/

/-- The members that go out one after the other when the root option with the number `index` is the
next one: the nested object before the option with the number `place`, or behind the last one. -/
def emitted (nested : String × Json) (place index : Nat) :
    List (String × Json) → List (String × Json)
  | [] => if index = place then [nested] else []
  | e :: es =>
    if index = place then nested :: e :: emitted nested place (index + 1) es
    else e :: emitted nested place (index + 1) es

variable {D E : Document}

theorem emitted_of_lt {nested : String × Json} {place index : Nat} (h : place < index)
    (es : List (String × Json)) : emitted nested place index es = es := by
  induction es generalizing index with
  | nil => rw [emitted, if_neg (Nat.ne_of_gt h)]
  | cons e es ih => rw [emitted, if_neg (Nat.ne_of_gt h), ih (Nat.lt_succ_of_lt h)]

theorem emitted_eq_insertIdx {nested : String × Json} {place index : Nat}
    {es : List (String × Json)} (hindex : index ≤ place) (hplace : place ≤ index + es.length) :
    emitted nested place index es = es.insertIdx (place - index) nested := by
  induction es generalizing index with
  | nil =>
    have heq : index = place := Nat.le_antisymm hindex hplace
    rw [emitted, if_pos heq, heq, Nat.sub_self, List.insertIdx_zero]
  | cons e es ih =>
    by_cases heq : index = place
    · rw [emitted, if_pos heq, emitted_of_lt (by omega), heq, Nat.sub_self, List.insertIdx_zero]
    · have hnext : place - index = (place - (index + 1)) + 1 := by omega
      rw [emitted, if_neg heq, ih (by omega) (by rw [List.length_cons] at hplace; omega), hnext,
        List.insertIdx_succ_cons]

theorem insertIdx_min_length {α : Type} (a : α) (l : List α) (n : Nat) :
    l.insertIdx (min n l.length) a = l.take n ++ a :: l.drop n := by
  induction l generalizing n with
  | nil => simp
  | cons b l ih =>
    cases n with
    | zero => simp
    | succ n => simp [Nat.succ_min_succ, ih]

/-- The nested object stands behind as many root options as before, or behind all of them. -/
theorem members_eq_insertIdx (D : Document) :
    D.members = D.root.entries.insertIdx (min D.nestedAt D.root.size)
      (nestedKey, .object D.nested.entries) :=
  (insertIdx_min_length _ _ _).symm

theorem members_eq_emitted (D : Document) :
    D.members = emitted (nestedKey, .object D.nested.entries) (min D.nestedAt D.root.size) 0
      D.root.entries := by
  rw [emitted_eq_insertIdx (Nat.zero_le _) (by rw [Nat.zero_add]; exact Nat.min_le_right _ _)]
  exact D.members_eq_insertIdx

theorem perm_members (D : Document) :
    D.members.Perm ((nestedKey, .object D.nested.entries) :: D.root.entries) := by
  have hmiddle : D.members.Perm ((nestedKey, .object D.nested.entries) ::
      (D.root.entries.take D.nestedAt ++ D.root.entries.drop D.nestedAt)) := List.perm_middle
  rwa [List.take_append_drop] at hmiddle

theorem mem_map_fst_members {k : String} :
    k ∈ D.members.map Prod.fst ↔ k = nestedKey ∨ k ∈ D.root.keys := by
  rw [(D.perm_members.map Prod.fst).mem_iff, List.map_cons, List.mem_cons, OrderedMap.keys]

theorem count_nestedKey_members (hD : nestedKey ∉ D.root.keys) :
    (D.members.map Prod.fst).count nestedKey = 1 := by
  have hroot : (D.root.entries.map Prod.fst).count nestedKey = 0 := List.count_eq_zero.mpr hD
  rw [(D.perm_members.map Prod.fst).count_eq, List.map_cons, List.count_cons_self, hroot]

theorem lookup_members (hD : nestedKey ∉ D.root.keys) (k : String) :
    D.members.lookup k =
      if k = nestedKey then some (.object D.nested.entries) else D.root.get? k := by
  have hroot : D.root.get? k = _ :=
    congrArg (List.lookup k) (List.take_append_drop D.nestedAt D.root.entries).symm
  rw [List.lookup_append] at hroot
  rw [members, List.lookup_append, OrderedMap.lookup_cons_ite]
  by_cases hk : k = nestedKey
  · subst hk
    rw [OrderedMap.get?_eq_none_iff.mpr hD] at hroot
    rw [(Option.or_eq_none_iff.mp hroot.symm).1, if_pos rfl, if_pos rfl, Option.none_or]
  · rw [if_neg hk, if_neg hk, hroot]

theorem map_fst_members_of_append {new : List String} (hkeys : E.root.keys = D.root.keys ++ new)
    (hnested : E.nestedAt = D.nestedAt) (hD : D.nestedAt ≤ D.root.entries.length) :
    E.members.map Prod.fst = D.members.map Prod.fst ++ new := by
  have hle : D.nestedAt ≤ (D.root.entries.map Prod.fst).length := by rwa [List.length_map]
  rw [OrderedMap.keys, OrderedMap.keys] at hkeys
  simp only [members, List.map_append, List.map_cons, List.map_take, List.map_drop, hkeys, hnested,
    List.take_append_of_le_length hle, List.drop_append_of_le_length hle]
  simp only [List.append_assoc, List.cons_append]

variable {changes : List Change}

/-- New root options come behind all members in the order in which they were first written. -/
theorem map_fst_members_after (hreserved : nestedKey ∉ D.root.keys)
    (hposition : D.nestedAt ≤ D.root.entries.length)
    (hchanges : ∀ c ∈ changes, c.Allowed ∧ c.isWriting = true) :
    (D.after changes).members.map Prod.fst =
      D.members.map Prod.fst ++
        OrderedMap.newNames (D.members.map Prod.fst)
          ((D.written .root changes).map Prod.fst) := by
  have hrest := nestedKey_not_mem_after (fun c hc => (hchanges c hc).1) hreserved
  have hroot : (D.after changes).root = D.root.insertAll (D.written .root changes) :=
    D.options_after (fun c hc => (hchanges c hc).2) .root
  have hkeys := OrderedMap.keys_insertAll D.root (D.written .root changes)
  -- The key of the nested object is not written, so it makes no difference to the new names.
  have hnew : OrderedMap.newNames D.root.keys ((D.written .root changes).map Prod.fst) =
      OrderedMap.newNames (D.members.map Prod.fst) ((D.written .root changes).map Prod.fst) := by
    refine OrderedMap.newNames_congr fun k hk => ?_
    have hne : k ≠ nestedKey := by
      rintro rfl
      exact hrest (hroot ▸ OrderedMap.mem_keys_insertAll.mpr (.inr hk))
    rw [mem_map_fst_members, or_iff_right hne]
  rw [← hroot, hnew] at hkeys
  exact map_fst_members_of_append hkeys (D.nestedAt_after changes) hposition

theorem lookup_members_after (hreserved : nestedKey ∉ D.root.keys)
    (hchanges : ∀ c ∈ changes, c.Allowed ∧ c.isWriting = true) (k : String) :
    (D.after changes).members.lookup k =
      if k = nestedKey then some (.object (D.after changes).nested.entries)
      else ((D.written .root changes).reverse.lookup k).or (D.members.lookup k) := by
  have hroot : (D.after changes).root = D.root.insertAll (D.written .root changes) :=
    D.options_after (fun c hc => (hchanges c hc).2) .root
  rw [lookup_members (nestedKey_not_mem_after (fun c hc => (hchanges c hc).1) hreserved)]
  split
  · rfl
  next hk => rw [hroot, OrderedMap.get?_insertAll, lookup_members hreserved, if_neg hk]

/-! ## Documents that were read

An object has every key once, also an object that is the value of a member. -/

/-- The members of an object, and an empty nested object in front of them if there is none. -/
def withNested (raw : OrderedMap Json) : List (String × Json) :=
  if raw.contains nestedKey then raw.entries else (nestedKey, .object []) :: raw.entries

def nestedEntries (raw : OrderedMap Json) : List (String × Json) :=
  match raw.get? nestedKey with
  | some (.object options) => options
  | _ => []

def nestedPlace (raw : OrderedMap Json) : Nat :=
  if raw.contains nestedKey then raw.indexOf nestedKey else 0

variable {raw : OrderedMap Json}

theorem lookup_withNested {k : String} (hk : k ≠ nestedKey) :
    (withNested raw).lookup k = raw.get? k := by
  unfold withNested
  split
  · rfl
  · rw [OrderedMap.lookup_cons_ite, if_neg hk, OrderedMap.get?]

theorem nestedAt_of_ofMembers? (h : ofMembers? raw = .ok D) : D.nestedAt = nestedPlace raw := by
  rcases eq_of_ofMembers? h with ⟨hreserved, rfl⟩ | ⟨before, options, after, hentries, rfl⟩
  · simp [nestedPlace, OrderedMap.contains, OrderedMap.get?_eq_none_iff.mpr hreserved]
  · obtain ⟨hget, hindex, -⟩ := OrderedMap.of_entries_eq hentries
    simp [nestedPlace, OrderedMap.contains, hget, hindex]

theorem nested_of_ofMembers? (h : ofMembers? raw = .ok D)
    (hraw : ((nestedEntries raw).map Prod.fst).Nodup) : D.nested.entries = nestedEntries raw := by
  rcases eq_of_ofMembers? h with ⟨hreserved, rfl⟩ | ⟨before, options, after, hentries, rfl⟩
  · simp only [nestedEntries, OrderedMap.get?_eq_none_iff.mpr hreserved]
    rfl
  · obtain ⟨hget, -, -⟩ := OrderedMap.of_entries_eq hentries
    simp only [nestedEntries, hget] at hraw ⊢
    exact OrderedMap.entries_ofList hraw

theorem members_of_ofMembers? (h : ofMembers? raw = .ok D)
    (hraw : ((nestedEntries raw).map Prod.fst).Nodup) : D.members = withNested raw := by
  have hnested := nested_of_ofMembers? h hraw
  rcases eq_of_ofMembers? h with ⟨hreserved, rfl⟩ | ⟨before, options, after, hentries, rfl⟩
  · simp only [withNested, OrderedMap.contains, OrderedMap.get?_eq_none_iff.mpr hreserved]
    rfl
  · obtain ⟨hget, -, herase⟩ := OrderedMap.of_entries_eq hentries
    have hoptions : (OrderedMap.ofList options).entries = options := by
      rw [hnested, nestedEntries, hget]
    simp only [withNested, OrderedMap.contains, hget, Option.isSome_some, if_true, members, herase,
      hoptions, List.take_left', List.drop_left', hentries]

/-- The members of a document that was read are those that were read. Whatever is set and filled,
the keys of both regions keep their order, the new ones come behind them in the order in which they
were first written, and every key has what was last written under it. The nested object is written
exactly once and behind as many root options as in the object that was read, or behind all of them,
also when the root options are exchanged at any time. -/
theorem keys_stay_in_order (h : ofMembers? raw = .ok D)
    (hraw : ((nestedEntries raw).map Prod.fst).Nodup) :
    D.toJson = .object (withNested raw) ∧
    (∀ changes : List Change, (∀ c ∈ changes, c.Allowed ∧ c.isWriting = true) →
      let E := D.after changes
      let rootWritten := D.written .root changes
      let nestedWritten := D.written .nested changes
      let rawKeys := (withNested raw).map Prod.fst
      let rawNestedKeys := (nestedEntries raw).map Prod.fst
      E.members.map Prod.fst =
          rawKeys ++ OrderedMap.newNames rawKeys (rootWritten.map Prod.fst) ∧
        (∀ k, E.members.lookup k =
          if k = nestedKey then some (.object E.nested.entries)
          else (rootWritten.reverse.lookup k).or (raw.get? k)) ∧
        E.nested.keys =
          rawNestedKeys ++ OrderedMap.newNames rawNestedKeys (nestedWritten.map Prod.fst) ∧
        ∀ k, E.nested.get? k =
          (nestedWritten.reverse.lookup k).or ((nestedEntries raw).lookup k)) ∧
    ∀ changes : List Change, (∀ c ∈ changes, c.Allowed) →
      let E := D.after changes
      let nested := (nestedKey, Json.object E.nested.entries)
      let place := min (nestedPlace raw) E.root.size
      E.toJson = .object (emitted nested place 0 E.root.entries) ∧
        E.members = E.root.entries.insertIdx place nested ∧
        (E.members.map Prod.fst).count nestedKey = 1 := by
  obtain ⟨hreserved, hposition⟩ := placed_of_ofMembers? h
  have hmembers := members_of_ofMembers? h hraw
  have hnested := nested_of_ofMembers? h hraw
  refine ⟨congrArg Json.object hmembers, ?_, ?_⟩
  · intro changes hchanges E rootWritten nestedWritten rawKeys rawNestedKeys
    have hE : E.nested = D.nested.insertAll nestedWritten :=
      D.options_after (fun c hc => (hchanges c hc).2) .nested
    refine ⟨?_, ?_, ?_, ?_⟩
    · have hkeys := map_fst_members_after hreserved hposition hchanges
      rwa [hmembers] at hkeys
    · intro k
      rw [lookup_members_after hreserved hchanges, hmembers]
      split
      · rfl
      next hk => rw [lookup_withNested hk]
    · rw [hE, OrderedMap.keys_insertAll, OrderedMap.keys, hnested]
    · intro k
      have hraw : D.nested.get? k = (nestedEntries raw).lookup k := congrArg (List.lookup k) hnested
      rw [hE, OrderedMap.get?_insertAll, hraw]
  · intro changes hchanges E nested place
    have hplace : E.nestedAt = nestedPlace raw :=
      (D.nestedAt_after changes).trans (nestedAt_of_ofMembers? h)
    have hemitted := E.members_eq_emitted
    have hinserted := E.members_eq_insertIdx
    rw [hplace] at hemitted hinserted
    exact ⟨congrArg Json.object hemitted, hinserted,
      count_nestedKey_members (nestedKey_not_mem_after hchanges hreserved)⟩

/-- An object whose nested object stands behind one root option and before another. -/
def betweenFilesAndReferences : OrderedMap Json :=
  ⟨[("files", .array []), (nestedKey, .object [("strict", .bool true)]),
    ("references", .array [])], by decide⟩

theorem keys_of_betweenFilesAndReferences :
    ∃ D, ofMembers? betweenFilesAndReferences = .ok D ∧
      ((nestedEntries betweenFilesAndReferences).map Prod.fst).Nodup ∧
      (let changes : List Change := [.set .root "include" .null, .set .nested "y" (.bool true),
        .pass (Completed.presenceTable "y"), .set .root "files" .null]
      (∀ c ∈ changes, c.Allowed ∧ c.isWriting = true) ∧
        (D.after changes).members.map Prod.fst = ["files", nestedKey, "references", "include"] ∧
        (D.after changes).members.lookup "files" = some .null ∧
        (D.after changes).nested.keys = ["strict", "y", "x"]) ∧
      let changes : List Change := [.exchangeRoot ∅, .pass (Completed.presenceTable "y")]
      (∀ c ∈ changes, c.Allowed) ∧
        (D.after changes).members =
          [(nestedKey, .object [("strict", .bool true), ("x", .bool false)])] := by
  have hD : ofMembers? betweenFilesAndReferences =
      .ok ⟨⟨[("files", .array []), ("references", .array [])], by decide⟩,
        ⟨[("strict", .bool true)], by decide⟩, 1⟩ := by rfl
  have hraw : ((nestedEntries betweenFilesAndReferences).map Prod.fst).Nodup := by decide
  have hloaded : (Completed.presenceTable "y").Loaded := .inr ⟨_, Completed.ofText?_presenceText⟩
  obtain ⟨-, hwriting, hallowed⟩ := keys_stay_in_order hD hraw
  refine ⟨_, hD, hraw, ?_, ?_⟩
  · intro changes
    have hchanges : ∀ c ∈ changes, c.Allowed ∧ c.isWriting = true := by
      simpa [changes, Change.Allowed, Change.isWriting, nestedKey] using hloaded
    obtain ⟨hkeys, hlookup, hnested, -⟩ := hwriting changes hchanges
    exact ⟨hchanges, hkeys, hlookup "files", hnested⟩
  · intro changes
    have hchanges : ∀ c ∈ changes, c.Allowed := by
      simpa [changes, Change.Allowed] using ⟨List.not_mem_nil, hloaded⟩
    obtain ⟨-, hinserted, -⟩ := hallowed changes hchanges
    exact ⟨hchanges, hinserted⟩

end Document

end OptionDefaults
