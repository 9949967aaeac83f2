import Mathlib.Data.List.Forall2

/-!
# Outcomes

A computation that can fail is known by when it gives which result and when which fault. For a
computation made of others both are put together from the outcomes of the parts, and a traversal of
a list is decided item by item, up to the first one that fails.
-/

namespace OptionDefaults

section Steps

variable {ε φ α β : Type}

theorem map_eq_ok_iff {f : α → β} {x : Except ε α} {b : β} :
    x.map f = .ok b ↔ ∃ a, x = .ok a ∧ f a = b := by
  cases x <;> simp [Except.map]

theorem bind_eq_ok_iff {f : α → Except ε β} {x : Except ε α} {b : β} :
    x.bind f = .ok b ↔ ∃ a, x = .ok a ∧ f a = .ok b := by
  cases x <;> simp [Except.bind]

theorem map_eq_error_iff {f : α → β} {x : Except ε α} {e : ε} :
    x.map f = .error e ↔ x = .error e := by
  cases x <;> simp [Except.map]

theorem bind_eq_error_iff {f : α → Except ε β} {x : Except ε α} {e : ε} :
    x.bind f = .error e ↔ x = .error e ∨ ∃ a, x = .ok a ∧ f a = .error e := by
  cases x <;> simp [Except.bind]

theorem mapError_eq_ok_iff {f : ε → φ} {x : Except ε α} {a : α} :
    x.mapError f = .ok a ↔ x = .ok a := by
  cases x with
  | error e => exact iff_of_false nofun nofun
  | ok b =>
    constructor <;> intro h <;> cases h <;> rfl

theorem mapError_eq_error_iff {f : ε → φ} {x : Except ε α} {e : φ} :
    x.mapError f = .error e ↔ ∃ fault, x = .error fault ∧ f fault = e := by
  cases x with
  | error fault =>
    constructor
    · intro h
      cases h
      exact ⟨fault, rfl, rfl⟩
    · rintro ⟨_, ⟨⟩, rfl⟩
      rfl
  | ok a => exact iff_of_false nofun (by rintro ⟨_, ⟨⟩, -⟩)

/-- What leads to each outcome is known from what is enough for it, if something always is. -/
theorem outcome_iff {x : Except ε α} {good : α → Prop} {bad : ε → Prop}
    (hgood : ∀ a, good a → x = .ok a) (hbad : ∀ e, bad e → x = .error e)
    (htotal : (∃ a, good a) ∨ ∃ e, bad e) :
    (∀ a, x = .ok a ↔ good a) ∧ ∀ e, x = .error e ↔ bad e := by
  rcases htotal with ⟨a, ha⟩ | ⟨e, he⟩
  · have hx := hgood a ha
    refine ⟨fun b => ⟨fun h => ?_, hgood b⟩, fun e => ⟨fun h => ?_, hbad e⟩⟩
    · rw [hx] at h
      cases h
      exact ha
    · rw [hx] at h
      cases h
  · have hx := hbad e he
    refine ⟨fun a => ⟨fun h => ?_, hgood a⟩, fun f => ⟨fun h => ?_, hbad f⟩⟩
    · rw [hx] at h
      cases h
    · rw [hx] at h
      cases h
      exact he

end Steps

section Traversal

variable {ε α β : Type} {f : α → Except ε β} {xs : List α} {ys : List β} {e : ε}

theorem mapM_eq_ok_iff : xs.mapM f = .ok ys ↔ List.Forall₂ (fun x y => f x = .ok y) xs ys := by
  induction xs generalizing ys with
  | nil => cases ys <;> simp [pure, Except.pure]
  | cons x xs ih =>
    rw [List.mapM_cons, List.forall₂_cons_left_iff]
    constructor
    · intro h
      obtain ⟨y, hy, h⟩ := bind_eq_ok_iff.mp h
      obtain ⟨rest, hrest, h⟩ := bind_eq_ok_iff.mp h
      cases h
      exact ⟨y, rest, hy, ih.mp hrest, rfl⟩
    · rintro ⟨y, rest, hy, hrest, rfl⟩
      rw [hy, ih.mpr hrest]
      rfl

theorem mapM_cons_eq_error_iff {x : α} : (x :: xs).mapM f = .error e ↔
    f x = .error e ∨ (∃ y, f x = .ok y) ∧ xs.mapM f = .error e := by
  rw [List.mapM_cons, ← exists_and_right]
  refine bind_eq_error_iff.trans (or_congr_right (exists_congr fun y => ?_))
  refine and_congr_right fun _ => bind_eq_error_iff.trans (or_iff_left ?_)
  rintro ⟨_, -, ⟨⟩⟩

/-- A traversal fails at the first item that fails. -/
theorem mapM_eq_error_iff : xs.mapM f = .error e ↔
    ∃ before x after, xs = before ++ x :: after ∧ (∀ b ∈ before, ∃ y, f b = .ok y) ∧
      f x = .error e := by
  induction xs with
  | nil => simp [pure, Except.pure]
  | cons x xs ih =>
    rw [mapM_cons_eq_error_iff, ih]
    constructor
    · rintro (h | ⟨hx, before, w, after, rfl, hbefore, hw⟩)
      · exact ⟨[], x, xs, rfl, nofun, h⟩
      · exact ⟨x :: before, w, after, rfl, List.forall_mem_cons.mpr ⟨hx, hbefore⟩, hw⟩
    · rintro ⟨before, w, after, hxs, hbefore, hw⟩
      cases before with
      | nil =>
        cases hxs
        exact .inl hw
      | cons b before =>
        cases hxs
        obtain ⟨hx, hbefore⟩ := List.forall_mem_cons.mp hbefore
        exact .inr ⟨hx, before, w, after, rfl, hbefore, hw⟩

theorem exists_forall₂_iff {related : α → β → Prop} :
    (∃ ys, List.Forall₂ related xs ys) ↔ ∀ x ∈ xs, ∃ y, related x y := by
  induction xs with
  | nil => simp
  | cons x xs ih =>
    rw [List.forall_mem_cons, ← ih]
    constructor
    · rintro ⟨_, _ | ⟨hx, hxs⟩⟩
      exact ⟨⟨_, hx⟩, _, hxs⟩
    · rintro ⟨⟨y, hy⟩, ys, hys⟩
      exact ⟨y :: ys, .cons hy hys⟩

theorem exists_mem_of_forall₂ {related : α → β → Prop} (h : List.Forall₂ related xs ys) {y : β}
    (hy : y ∈ ys) : ∃ x ∈ xs, related x y := by
  induction h with
  | nil => cases hy
  | @cons x z xs zs hxz _ ih =>
    rcases List.mem_cons.mp hy with rfl | hy
    · exact ⟨x, .head _, hxz⟩
    · obtain ⟨w, hw, hwy⟩ := ih hy
      exact ⟨w, .tail _ hw, hwy⟩

end Traversal

end OptionDefaults
