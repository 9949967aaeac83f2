import OptionDefaults.Proofs.AcceptedValues
import OptionDefaults.Proofs.KeyOrder

/-!
# Texts of objects

A text that is asked for an object is read like any other text, but for what is said of a text that
holds something else. A key may be written more than once: it stands where it was written first,
with the value that was written last.
-/

namespace OptionDefaults.Json

namespace Reader

/-- After its opening brace an object has these members, as often as each is written, and this is
left. -/
inductive Written (item : List Char → Reading Json) :
    (text : List Char) → (members : List (String × Json)) → (rest : List Char) → Prop
  | empty {text rest : List Char} : skipBlanks text = '\x7d' :: rest → Written item text [] rest
  | members {text inner rest : List Char} {written : List (String × Json)} :
      skipBlanks text = '"' :: inner →
      members item (inner.length + 1) inner = .ok (written, rest) → Written item text written rest

variable {item : List Char → Reading Json} {text rest : List Char}

theorem objectBody_eq_ok_iff {m : OrderedMap Json} :
    objectBody item text = .ok (m, rest) ↔
      ∃ written, Written item text written rest ∧ m = .ofList written := by
  constructor
  · intro h
    unfold objectBody at h
    split at h
    · cases h
    next hskip =>
      cases h
      exact ⟨[], .empty hskip, rfl⟩
    next hskip =>
      obtain ⟨⟨written, left⟩, hwritten, h⟩ := map_eq_ok_iff.mp h
      cases h
      exact ⟨written, .members hskip hwritten, rfl⟩
    · cases h
  · rintro ⟨written, h, rfl⟩
    unfold objectBody
    cases h with
    | empty hskip =>
      rw [hskip]
      rfl
    | members hskip hwritten =>
      rw [hskip]
      exact map_eq_ok_iff.mpr ⟨_, hwritten, rfl⟩

theorem topObject_eq_ok_iff {m : OrderedMap Json} :
    topObject text = .ok (m, rest) ↔ ∃ inner, skipBlanks text = '\x7b' :: inner ∧
      objectBody (value (maxDepth - 1)) inner = .ok (m, rest) := by
  constructor
  · intro h
    unfold topObject at h
    split at h
    next inner hskip => exact ⟨inner, hskip, mapError_eq_ok_iff.mp h⟩
    · cases h
    · split at h <;> cases h
  · rintro ⟨inner, hskip, h⟩
    unfold topObject
    simp only [hskip, h]
    rfl

theorem value_eq_object_iff {room : Nat} {ms : List (String × Json)} :
    value (room + 1) text = .ok (.object ms, rest) ↔ ∃ inner m, skipBlanks text = '\x7b' :: inner ∧
      objectBody (value room) inner = .ok (m, rest) ∧ m.entries = ms := by
  constructor
  · intro h
    unfold value at h
    split at h
    · cases h
    · cases eq_of_keyword h
    · cases eq_of_keyword h
    · cases eq_of_keyword h
    · obtain ⟨_, -, h⟩ := map_eq_ok_iff.mp h
      cases h
    · obtain ⟨_, -, h⟩ := map_eq_ok_iff.mp h
      cases h
    next inner hskip =>
      obtain ⟨⟨m, left⟩, hm, h⟩ := map_eq_ok_iff.mp h
      cases h
      exact ⟨inner, m, hskip, hm, rfl⟩
    · split at h
      · obtain ⟨_, -, h⟩ := map_eq_ok_iff.mp h
        cases h
      · cases h
  · rintro ⟨inner, m, hskip, hm, rfl⟩
    unfold value
    simp only [hskip]
    exact map_eq_ok_iff.mpr ⟨_, hm, rfl⟩

/-- A value at the start of a text is an object when one is found there by asking for it. -/
theorem value_eq_object_iff_topObject {ms : List (String × Json)} :
    value maxDepth text = .ok (.object ms, rest) ↔
      ∃ m, topObject text = .ok (m, rest) ∧ m.entries = ms := by
  rw [show maxDepth = maxDepth - 1 + 1 from rfl, value_eq_object_iff]
  simp only [topObject_eq_ok_iff]
  constructor
  · rintro ⟨inner, m, hskip, hm, hms⟩
    exact ⟨m, ⟨inner, hskip, hm⟩, hms⟩
  · rintro ⟨m, ⟨inner, hskip, hm⟩, hms⟩
    exact ⟨inner, m, hskip, hm, hms⟩

end Reader

open Reader

variable {text : String} {members : List (String × Json)}

/-- The text is an object in which these members are written, in this order. -/
def WrittenIn (text : String) (written : List (String × Json)) : Prop :=
  ∃ inner rest, skipBlanks text.toList = '\x7b' :: inner ∧
    Written (value (maxDepth - 1)) inner written rest ∧ finish rest = .ok ()

theorem ofText?_eq_ok_iff {v : Json} : ofText? text = .ok v ↔
    ∃ rest, value maxDepth text.toList = .ok (v, rest) ∧ finish rest = .ok () := by
  simp only [ofText?, mapError_eq_ok_iff, bind_eq_ok_iff, map_eq_ok_iff]
  constructor
  · rintro ⟨⟨w, rest⟩, hvalue, ⟨⟩, hfinish, rfl⟩
    exact ⟨rest, hvalue, hfinish⟩
  · rintro ⟨rest, hvalue, hfinish⟩
    exact ⟨(v, rest), hvalue, (), hfinish, rfl⟩

theorem ofText?_eq_object_iff : ofText? text = .ok (.object members) ↔
    ∃ m rest, topObject text.toList = .ok (m, rest) ∧ finish rest = .ok () ∧
      m.entries = members := by
  simp only [ofText?_eq_ok_iff, value_eq_object_iff_topObject]
  constructor
  · rintro ⟨rest, ⟨m, htop, hm⟩, hfinish⟩
    exact ⟨m, rest, htop, hfinish, hm⟩
  · rintro ⟨m, rest, htop, hfinish, hm⟩
    exact ⟨rest, ⟨m, htop, hm⟩, hfinish⟩

theorem distinctKeys_of_ofText? {v : Json} (h : ofText? text = .ok v) : v.DistinctKeys := by
  obtain ⟨rest, hvalue, -⟩ := ofText?_eq_ok_iff.mp h
  exact (bounded_of_value hvalue).distinctKeys

/-- Of a key that is written more than once the first place and the last value count. -/
theorem exists_writtenIn_of_ofText? (h : ofText? text = .ok (.object members)) :
    ∃ written, WrittenIn text written ∧
      members.map Prod.fst = (written.map Prod.fst).eraseDups ∧
      ∀ key, members.lookup key = written.reverse.lookup key := by
  obtain ⟨m, rest, htop, hfinish, rfl⟩ := ofText?_eq_object_iff.mp h
  obtain ⟨inner, hskip, hbody⟩ := topObject_eq_ok_iff.mp htop
  obtain ⟨written, hwritten, rfl⟩ := objectBody_eq_ok_iff.mp hbody
  refine ⟨written, ⟨inner, rest, hskip, hwritten, hfinish⟩, ?_, fun key => ?_⟩
  · have hkeys := OrderedMap.keys_insertAll ∅ written
    have hnew : OrderedMap.newNames [] (written.map Prod.fst) =
        (written.map Prod.fst).eraseDups := by simp [OrderedMap.newNames]
    exact hkeys.trans hnew
  · have hlast := OrderedMap.get?_insertAll ∅ written key
    exact hlast.trans Option.or_none

end OptionDefaults.Json
