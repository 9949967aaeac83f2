import OptionDefaults.Document.Basic

/-!
# Objects with the same members

Pairing off members finds nothing left over when two objects with distinct keys have the same value
under every key, in whatever order. So documents with the same options at the same places are alike.
-/

namespace OptionDefaults

namespace Json

variable {key k : String} {ms ns : List (String × Json)}

theorem lookup_eq_none_of_not_mem (h : k ∉ ms.map Prod.fst) : ms.lookup k = none := by
  rw [List.lookup_eq_none_iff]
  intro m hm
  have hne : k ≠ m.1 := fun heq => h (heq ▸ List.mem_map_of_mem hm)
  simpa using hne

theorem lookup_without_of_ne (h : k ≠ key) : (without key ns).lookup k = ns.lookup k := by
  induction ns with
  | nil => rfl
  | cons n ns ih =>
    obtain ⟨l, w⟩ := n
    by_cases hl : l = key
    · have hk : (k == l) = false := by simpa [hl] using h
      simp [without, hl, List.lookup_cons, hl ▸ hk]
    · rw [without, List.eraseP_cons_of_neg (by simpa using hl), OrderedMap.lookup_cons_ite,
        OrderedMap.lookup_cons_ite]
      rw [without] at ih
      rw [ih]

theorem lookup_without_self (h : (ns.map Prod.fst).Nodup) : (without key ns).lookup key = none := by
  induction ns with
  | nil => rfl
  | cons n ns ih =>
    obtain ⟨l, w⟩ := n
    obtain ⟨hl, hns⟩ := List.nodup_cons.mp h
    by_cases heq : l = key
    · subst heq
      rw [without, List.eraseP_cons_of_pos (by simp)]
      exact lookup_eq_none_of_not_mem hl
    · rw [without, List.eraseP_cons_of_neg (by simpa using heq), OrderedMap.lookup_cons_ite,
        if_neg (Ne.symm heq)]
      exact ih hns

theorem nodup_without (h : (ns.map Prod.fst).Nodup) : ((without key ns).map Prod.fst).Nodup :=
  h.sublist (List.eraseP_sublist.map _)

/-- Members with distinct keys that have the same value under every key are alike. -/
theorem alikeMembers_of_lookup_eq (hms : (ms.map Prod.fst).Nodup) (hns : (ns.map Prod.fst).Nodup)
    (h : ∀ k, ms.lookup k = ns.lookup k) : alikeMembers ms ns = true := by
  induction ms generalizing ns with
  | nil =>
    cases ns with
    | nil => rfl
    | cons n ns =>
      obtain ⟨l, w⟩ := n
      have hl := h l
      simp at hl
  | cons m ms ih =>
    obtain ⟨key, v⟩ := m
    obtain ⟨hkey, hms⟩ := List.nodup_cons.mp hms
    have hhead : ns.lookup key = some v := by
      rw [← h key]
      simp
    have htail : alikeMembers ms (without key ns) = true := by
      apply ih hms (nodup_without hns)
      intro k
      by_cases hk : k = key
      · subst hk
        rw [lookup_without_self hns]
        exact lookup_eq_none_of_not_mem hkey
      · have hl := h k
        rw [OrderedMap.lookup_cons_ite, if_neg hk] at hl
        rw [lookup_without_of_ne hk, hl]
    simp [alikeMembers, member?, hhead, alike_refl v, htail]

end Json

theorem Document.alike_of_get?_eq {D E : Document} (hat : D.nestedAt = E.nestedAt)
    (h : ∀ region name, D.get? region name = E.get? region name) : D.alike E = true := by
  have hroot := Json.alikeMembers_of_lookup_eq D.root.distinct E.root.distinct (h .root)
  have hnested := Json.alikeMembers_of_lookup_eq D.nested.distinct E.nested.distinct (h .nested)
  simp [alike, hroot, hnested, hat]

end OptionDefaults
