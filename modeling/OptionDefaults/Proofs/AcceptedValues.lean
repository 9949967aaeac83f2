import OptionDefaults.Proofs.Outcomes
import OptionDefaults.Proofs.WrittenValues

/-!
# Values that were read

A reader makes an array or an object of nothing but the values that it read inside. So what it
accepts, integers provided, has distinct keys in every object and nests no deeper than the reader had
room for: it can be written and read back where it stood.
-/

namespace OptionDefaults

namespace OrderedMap

variable {α : Type} {e : String × α} {entries : List (String × α)}

theorem mem_of_mem_write {key : String} {value : α} (h : e ∈ write key value entries) :
    e = (key, value) ∨ e ∈ entries := by
  induction entries with
  | nil => exact .inl (List.mem_singleton.mp h)
  | cons f entries ih =>
    obtain ⟨k, v⟩ := f
    rw [write] at h
    split at h
    next hk =>
      subst hk
      rcases List.mem_cons.mp h with rfl | h
      · exact .inl rfl
      · exact .inr (.tail _ h)
    next =>
      rcases List.mem_cons.mp h with rfl | h
      · exact .inr (.head _)
      · exact (ih h).imp_right (.tail _)

theorem mem_of_mem_insertAll {m : OrderedMap α} (h : e ∈ (m.insertAll entries).entries) :
    e ∈ m.entries ∨ e ∈ entries := by
  induction entries generalizing m with
  | nil => exact .inl h
  | cons f entries ih =>
    rcases ih h with h | h
    · rcases mem_of_mem_write h with rfl | h
      · exact .inr (.head _)
      · exact .inl h
    · exact .inr (.tail _ h)

theorem mem_of_mem_ofList (h : e ∈ (ofList entries).entries) : e ∈ entries := by
  rcases mem_of_mem_insertAll h with h | h
  · cases h
  · exact h

end OrderedMap

namespace Json

/-- No number in the value is a double. -/
inductive Integral : Json → Prop
  | null : Integral .null
  | bool (b : Bool) : Integral (.bool b)
  | integer (n : ExactInteger) : Integral (.number (.integer n))
  | string (s : String) : Integral (.string s)
  | array {vs : List Json} : (∀ v ∈ vs, Integral v) → Integral (.array vs)
  | object {ms : List (String × Json)} : (∀ m ∈ ms, Integral m.2) → Integral (.object ms)

/-- Distinct keys, and at most `room` brackets inside each other. -/
inductive Bounded : (room : Nat) → Json → Prop
  | null (room : Nat) : Bounded room .null
  | bool (room : Nat) (b : Bool) : Bounded room (.bool b)
  | number (room : Nat) (n : JsonNumber) : Bounded room (.number n)
  | string (room : Nat) (s : String) : Bounded room (.string s)
  | array {room : Nat} {vs : List Json} : (∀ v ∈ vs, Bounded room v) →
      Bounded (room + 1) (.array vs)
  | object {room : Nat} {ms : List (String × Json)} : (ms.map Prod.fst).Nodup →
      (∀ m ∈ ms, Bounded room m.2) → Bounded (room + 1) (.object ms)

theorem Bounded.readable {room : Nat} {v : Json} (h : v.Bounded room) (hv : v.Integral) :
    v.Readable room := by
  induction h with
  | null room => exact .null room
  | bool room b => exact .bool room b
  | string room s => exact .string room s
  | number room n =>
    cases hv with
    | integer n => exact .integer room n
  | array _ ih =>
    cases hv with
    | array hv => exact .array fun v hmem => ih v hmem (hv v hmem)
  | object hkeys _ ih =>
    cases hv with
    | object hv => exact .object hkeys fun m hmem => ih m hmem (hv m hmem)

theorem distinctKeysIn_iff {vs : List Json} :
    DistinctKeysIn vs ↔ ∀ v ∈ vs, v.DistinctKeys := by
  induction vs with
  | nil => simp [DistinctKeysIn]
  | cons v vs ih => simp [DistinctKeysIn, ih]

theorem distinctKeysAmong_iff {ms : List (String × Json)} :
    DistinctKeysAmong ms ↔ ∀ m ∈ ms, m.2.DistinctKeys := by
  induction ms with
  | nil => simp [DistinctKeysAmong]
  | cons m ms ih => simp [DistinctKeysAmong, ih]

theorem Bounded.distinctKeys {room : Nat} {v : Json} (h : v.Bounded room) : v.DistinctKeys := by
  induction h with
  | array _ ih => exact distinctKeysIn_iff.mpr ih
  | object hkeys _ ih => exact ⟨hkeys, distinctKeysAmong_iff.mpr ih⟩
  | _ => trivial

namespace Reader

theorem eq_of_keyword {w v : Json} {cs text rest : List Char}
    (h : keyword w cs text = .ok (v, rest)) : v = w := by
  induction cs generalizing text with
  | nil =>
    cases h
    rfl
  | cons c cs ih =>
    cases text with
    | nil => cases h
    | cons d text =>
      rw [keyword] at h
      split at h
      · exact ih h
      · cases h

variable {item : List Char → Reading Json}

theorem exists_item_of_mem_items {bound : Nat} {text rest : List Char} {vs : List Json}
    (h : items item bound text = .ok (vs, rest)) {v : Json} (hv : v ∈ vs) :
    ∃ text rest, item text = .ok (v, rest) := by
  induction bound generalizing text vs rest with
  | zero => cases h
  | succ bound ih =>
    obtain ⟨⟨w, left⟩, hw, h⟩ := bind_eq_ok_iff.mp h
    simp only at h
    split at h
    · cases h
    · cases h
      rw [List.mem_singleton.mp hv]
      exact ⟨_, _, hw⟩
    · split at h
      · cases h
      · obtain ⟨⟨ws, left⟩, hws, h⟩ := map_eq_ok_iff.mp h
        cases h
        rcases List.mem_cons.mp hv with rfl | hv
        · exact ⟨_, _, hw⟩
        · exact ih hws hv
    · cases h

theorem exists_item_of_mem_arrayBody {text rest : List Char} {vs : List Json}
    (h : arrayBody item text = .ok (vs, rest)) {v : Json} (hv : v ∈ vs) :
    ∃ text rest, item text = .ok (v, rest) := by
  unfold arrayBody at h
  split at h
  · cases h
  · cases h
    cases hv
  · exact exists_item_of_mem_items h hv

theorem exists_item_of_member {text rest : List Char} {m : String × Json}
    (h : member item text = .ok (m, rest)) : ∃ text rest, item text = .ok (m.2, rest) := by
  obtain ⟨⟨k, left⟩, -, h⟩ := bind_eq_ok_iff.mp h
  simp only at h
  split at h
  · cases h
  · obtain ⟨⟨v, left⟩, hv, h⟩ := map_eq_ok_iff.mp h
    cases h
    exact ⟨_, _, hv⟩
  · cases h

theorem exists_item_of_mem_members {bound : Nat} {text rest : List Char}
    {ms : List (String × Json)} (h : members item bound text = .ok (ms, rest))
    {m : String × Json} (hm : m ∈ ms) : ∃ text rest, item text = .ok (m.2, rest) := by
  induction bound generalizing text ms rest with
  | zero => cases h
  | succ bound ih =>
    obtain ⟨⟨n, left⟩, hn, h⟩ := bind_eq_ok_iff.mp h
    simp only at h
    split at h
    · cases h
    · cases h
      rw [List.mem_singleton.mp hm]
      exact exists_item_of_member hn
    · split at h
      · cases h
      · obtain ⟨⟨ns, left⟩, hns, h⟩ := map_eq_ok_iff.mp h
        cases h
        rcases List.mem_cons.mp hm with rfl | hm
        · exact exists_item_of_member hn
        · exact ih hns hm
      · cases h
      · cases h
    · cases h

theorem exists_item_of_mem_objectBody {text rest : List Char} {m : OrderedMap Json}
    (h : objectBody item text = .ok (m, rest)) {e : String × Json} (he : e ∈ m.entries) :
    ∃ text rest, item text = .ok (e.2, rest) := by
  unfold objectBody at h
  split at h
  · cases h
  · cases h
    cases he
  · obtain ⟨⟨ms, left⟩, hms, h⟩ := map_eq_ok_iff.mp h
    cases h
    exact exists_item_of_mem_members hms (OrderedMap.mem_of_mem_ofList he)
  · cases h

/-- What was read has distinct keys and stays within the room that there was. -/
theorem bounded_of_value {room : Nat} {text rest : List Char} {v : Json}
    (h : value room text = .ok (v, rest)) : v.Bounded room := by
  unfold value at h
  split at h
  · cases h
  · rw [eq_of_keyword h]
    exact .null room
  · rw [eq_of_keyword h]
    exact .bool room true
  · rw [eq_of_keyword h]
    exact .bool room false
  · obtain ⟨⟨s, left⟩, -, h⟩ := map_eq_ok_iff.mp h
    cases h
    exact .string room s
  · cases room with
    | zero => cases h
    | succ room =>
      obtain ⟨⟨vs, left⟩, hvs, h⟩ := map_eq_ok_iff.mp h
      cases h
      refine .array fun v hmem => ?_
      obtain ⟨text, rest, hitem⟩ := exists_item_of_mem_arrayBody hvs hmem
      exact bounded_of_value hitem
  · cases room with
    | zero => cases h
    | succ room =>
      obtain ⟨⟨m, left⟩, hm, h⟩ := map_eq_ok_iff.mp h
      cases h
      refine .object m.distinct fun e hmem => ?_
      obtain ⟨text, rest, hitem⟩ := exists_item_of_mem_objectBody hm hmem
      exact bounded_of_value hitem
  · split at h
    · obtain ⟨⟨n, left⟩, -, h⟩ := map_eq_ok_iff.mp h
      cases h
      exact .number room n
    · cases h
termination_by room

/-- The members of an object at the start of a text have the room that one bracket leaves. -/
theorem bounded_of_topObject {text rest : List Char} {m : OrderedMap Json}
    (h : topObject text = .ok (m, rest)) {e : String × Json} (he : e ∈ m.entries) :
    e.2.Bounded (maxDepth - 1) := by
  unfold topObject at h
  split at h
  · have hbody := mapError_eq_ok_iff.mp h
    obtain ⟨text, rest, hitem⟩ := exists_item_of_mem_objectBody hbody he
    exact bounded_of_value hitem
  · cases h
  · split at h <;> cases h

theorem readable_of_topObject {text rest : List Char} {m : OrderedMap Json}
    (h : topObject text = .ok (m, rest)) {e : String × Json} (he : e ∈ m.entries)
    (hv : e.2.Integral) : e.2.Readable (maxDepth - 1) :=
  (bounded_of_topObject h he).readable hv

end Reader

/-- No number in the object that a text holds is a double. -/
def IntegersOnly (text : String) : Prop :=
  ∀ members rest, Reader.topObject text.toList = .ok (members, rest) →
    ∀ e ∈ members.entries, e.2.Integral

theorem integersOnly_of_topObject {text : String} {m : OrderedMap Json} {rest : List Char}
    (h : Reader.topObject text.toList = .ok (m, rest)) (hm : ∀ e ∈ m.entries, e.2.Integral) :
    IntegersOnly text := by
  intro members rest h' e he
  cases h.symm.trans h'
  exact hm e he

end Json

end OptionDefaults
