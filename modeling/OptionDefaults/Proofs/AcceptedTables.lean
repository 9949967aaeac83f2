import OptionDefaults.Proofs.FilledValues
import OptionDefaults.Proofs.ObjectTexts

/-!
# Texts that are tables

A text is a table when the object that it holds has entries for its members. What was loaded can be
relied on: each option is described once, each policy has a rule, and no pass touches the key of the
nested object.
-/

namespace OptionDefaults.Table

variable {text : String} {members : List (String × Json)} {T : Table}

theorem ofText?_iff (h : Json.ofText? text = .ok (.object members)) :
    (∀ T, ofText? text = .ok T ↔ Describes members T.entries) ∧
      ∀ error, ofText? text = .error error ↔
        ∃ fault, error = .entry fault ∧ FirstFault members fault := by
  have hm : ∀ m ∈ members, m.2.DistinctKeys :=
    Json.distinctKeysAmong_iff.mp (Json.distinctKeys_of_ofText? h).2
  obtain ⟨m, rest, htop, hfinish, rfl⟩ := Json.ofText?_eq_object_iff.mp h
  rw [ofText?_of_topObject htop hfinish]
  refine ⟨fun T => mapError_eq_ok_iff.trans (ofMembers?_eq_ok_iff hm), fun error => ?_⟩
  rw [mapError_eq_error_iff]
  refine exists_congr fun fault => ?_
  rw [ofMembers?_eq_error_iff hm, and_comm, eq_comm]

theorem object_or_text_fault (text : String) :
    (∃ members, Json.ofText? text = .ok (.object members)) ∨
      ∃ fault, ofText? text = .error (.text fault) := by
  refine (topObject_or_text_fault text).imp_left ?_
  rintro ⟨m, rest, htop, hfinish⟩
  exact ⟨m.entries, Json.ofText?_eq_object_iff.mpr ⟨m, rest, htop, hfinish, rfl⟩⟩

/-! ## Loaded tables -/

theorem Describes.rules_ne_nil {entries : List (String × Descriptor)}
    (h : Describes members entries) {e : String × Descriptor} (he : e ∈ entries) {policy : Policy}
    (hpolicy : policy ∈ e.2.policy) : policy.rules ≠ [] := by
  obtain ⟨m, -, -, hform⟩ := exists_mem_of_forall₂ h.forms he
  obtain ⟨w, hpolicy, -⟩ := hform.exists_policy hpolicy
  exact hpolicy.rules_ne_nil

theorem Loaded.place_ne_reserved (hT : T.Loaded) : ∀ e ∈ T.entries, e.2.place ≠ reserved :=
  fun e he hplace => hT.not_reserved e he (Prod.mk.inj hplace)

/-- The built-in table is as good as one that was read. -/
theorem Loaded.distinctPlaces (hT : T.Loaded) : DistinctPlaces T.entries := by
  rcases hT with rfl | ⟨text, hread⟩
  · decide
  · obtain ⟨members, -, -, h⟩ := exists_describes_of_ofText? hread
    exact h.distinct

theorem Loaded.rules_ne_nil (hT : T.Loaded) :
    ∀ e ∈ T.entries, ∀ policy ∈ e.2.policy, policy.rules ≠ [] := by
  rcases hT with rfl | ⟨text, hread⟩
  · decide
  · obtain ⟨members, -, -, h⟩ := exists_describes_of_ofText? hread
    exact fun e he policy => h.rules_ne_nil he

theorem place_ne_of_mem_applied {place : Region × String} (hT : ∀ e ∈ T.entries, e.2.place ≠ place)
    {D : Document} {a : Applied} (ha : a ∈ (T.pass D).applied) : a.place ≠ place := by
  obtain ⟨e, he, hdescriptor⟩ := List.mem_map.mp (Pass.exists_evaluate_of_mem_applied ha).1
  have hplace := hT e he
  rwa [hdescriptor] at hplace

theorem get?_pass_of_place_ne {region : Region} {name : String}
    (hT : ∀ e ∈ T.entries, e.2.place ≠ (region, name)) (D : Document) :
    (T.pass D).document.get? region name = D.get? region name := by
  apply Pass.get?_run_of_not_anyFills
  rw [anyFills_eq_false_iff]
  intro e he
  cases hf : e.2.fills name region with
  | false => rfl
  | true =>
    obtain ⟨-, hname, hregion⟩ := Descriptor.fills_iff.mp hf
    exact absurd (Prod.ext hregion hname) (hT e he)

/-- What texts are tables. Of an object, in which a key has its first place and its last value, all
members must be descriptors with names, no two of them for one option and none for the nested
object, and they are then the entries of the table; else the fault is that of the first member that
fails a check, for the first check that it fails. A text that is no object is refused as such. In
every table that is loaded each option is described once and each policy has a rule, and a pass over
it leaves the key of the nested object alone. -/
theorem ofText?_accepts_exactly_tables :
    (∀ text members, Json.ofText? text = .ok (.object members) →
      (∃ written, Json.WrittenIn text written ∧
        members.map Prod.fst = (written.map Prod.fst).eraseDups ∧
        ∀ key, members.lookup key = written.reverse.lookup key) ∧
      ((∃ T, ofText? text = .ok T) ↔ ∃ entries, Describes members entries) ∧
      (∀ T, ofText? text = .ok T ↔ Describes members T.entries) ∧
      ∀ error, ofText? text = .error error ↔
        ∃ fault, error = .entry fault ∧ FirstFault members fault) ∧
    (∀ text, (∃ members, Json.ofText? text = .ok (.object members)) ∨
      ∃ fault, ofText? text = .error (.text fault)) ∧
    ∀ T : Table, T.Loaded → DistinctPlaces T.entries ∧
      (∀ e ∈ T.entries, ∀ policy ∈ e.2.policy, policy.rules ≠ []) ∧
      ∀ D, (∀ a ∈ (T.pass D).applied, a.place ≠ reserved) ∧
        (T.pass D).document.get? .root Document.nestedKey = D.get? .root Document.nestedKey := by
  refine ⟨fun text members h => ?_, object_or_text_fault, fun T hT => ?_⟩
  · obtain ⟨hok, herror⟩ := ofText?_iff h
    refine ⟨Json.exists_writtenIn_of_ofText? h, ?_, hok, herror⟩
    simp only [hok]
    constructor
    · rintro ⟨T, hT⟩
      exact ⟨T.entries, hT⟩
    · rintro ⟨entries, hentries⟩
      exact ⟨⟨entries, hentries.map_fst ▸ (Json.distinctKeys_of_ofText? h).1⟩, hentries⟩
  · -- The pass is over entries of which none is for the reserved place.
    have hplaces := hT.place_ne_reserved
    exact ⟨hT.distinctPlaces, hT.rules_ne_nil, fun D =>
      ⟨fun a ha => place_ne_of_mem_applied hplaces ha, get?_pass_of_place_ne hplaces D⟩⟩

/-- The key `a` is written twice, the second time with a member that is not looked at. -/
def keyTwice : String :=
  "\x7b\"a\": 0, \"b\": [\"lib\", true], " ++
    "\"a\": \x7b\"more\": 1, \"default\": [null], \"name\": \"x\"\x7d\x7d"

/-- Of three members the second one is for the option of the first, and the third is no descriptor.
-/
def nameTwice : String := "\x7b\"a\": [\"x\"], \"b\": \x7b\"name\": \"x\"\x7d, \"c\": [\"\", 0]\x7d"

theorem keyTwice_and_nameTwice :
    ∃ written members others T, Json.ofText? keyTwice = .ok (.object members) ∧
      Json.WrittenIn keyTwice written ∧ members.map Prod.fst = (written.map Prod.fst).eraseDups ∧
      ofText? keyTwice = .ok T ∧ T.keys = ["a", "b"] ∧ Describes members T.entries ∧
      DistinctPlaces T.entries ∧ (T.pass .empty).applied.length = 1 ∧
      (T.pass .empty).document.get? .root Document.nestedKey = none ∧
      Json.ofText? nameTwice = .ok (.object others) ∧
      FirstFault others (.duplicate .nested "x") ∧
      ofText? nameTwice = .error (.entry (.duplicate .nested "x")) := by
  have hread : Json.ofText? keyTwice = .ok (.object [
      ("a", .object [("more", .number (.integer ⟨1, by decide⟩)), ("default", .array [.null]),
        ("name", .string "x")]),
      ("b", .array [.string "lib", .bool true])]) := by rfl
  have hT : ofText? keyTwice = .ok ⟨[("a", ⟨"x", .nested, some (.merged [.literal .null])⟩),
      ("b", ⟨"lib", .root, none⟩)], by decide⟩ := by rfl
  have hother : Json.ofText? nameTwice = .ok (.object [("a", .array [.string "x"]),
      ("b", .object [("name", .string "x")]),
      ("c", .array [.string "", .number (.integer ⟨0, by decide⟩)])]) := by rfl
  have hfault : ofText? nameTwice = .error (.entry (.duplicate .nested "x")) := by rfl
  obtain ⟨hobjects, -, hloaded⟩ := ofText?_accepts_exactly_tables
  obtain ⟨⟨written, hwritten, hkeys, -⟩, -, hok, -⟩ := hobjects _ _ hread
  obtain ⟨-, -, -, herror⟩ := hobjects _ _ hother
  obtain ⟨hdistinct, -, hpass⟩ := hloaded _ (.inr ⟨_, hT⟩)
  obtain ⟨fault, hentry, hfirst⟩ := (herror _).mp hfault
  cases hentry
  exact ⟨written, _, _, _, hread, hwritten, hkeys, hT, rfl, (hok _).mp hT, hdistinct, by rfl,
    (hpass .empty).2, hother, hfirst, hfault⟩

end OptionDefaults.Table
