import OptionDefaults.Json.Reader

/-!
# Strings and integers read back

A written string is read back whatever follows it, so the written forms of two strings with something
behind each agree only when the strings do. An integer is read back when nothing follows that could
go on with the number.
-/

namespace OptionDefaults.Json

/-- What cannot go on with a number. -/
def EndsNumber (text : List Char) : Prop :=
  ∀ c ∈ text.head?, c.isDigit = false ∧ c ≠ '.' ∧ c ≠ 'e' ∧ c ≠ 'E'

theorem endsNumber_cons {c : Char} (text : List Char)
    (h : c.isDigit = false ∧ c ≠ '.' ∧ c ≠ 'e' ∧ c ≠ 'E') : EndsNumber (c :: text) := by
  intro d hd
  obtain rfl := Option.some.inj hd
  exact h

namespace Reader

/-! ## Strings -/

theorem fourHex_control : ∀ n < 0x20,
    fourHex '0' '0' (Nat.digitChar (n / 16)) (Nat.digitChar (n % 16)) = some n := by
  decide

theorem stringBody_escaped (c : Char) (rest : List Char) :
    stringBody (escaped c ++ rest) = consChar c (stringBody rest) := by
  unfold escaped
  split
  -- The quote, the backslash and the five control characters with a letter of their own.
  iterate 7 simp [stringBody, shortEscape]
  next h1 h2 h3 h4 h5 h6 h7 =>
    split
    next hc =>
      have hhex := fourHex_control c.toNat hc
      have htrailing : isTrailing c.toNat = false := by
        simp only [isTrailing, Bool.and_eq_false_iff, decide_eq_false_iff_not]
        omega
      have hleading : isLeading c.toNat = false := by
        simp only [isLeading, Bool.and_eq_false_iff, decide_eq_false_iff_not]
        omega
      simp [stringBody, hhex, htrailing, hleading, Char.ofNat_toNat]
    next hc =>
      rw [List.singleton_append, stringBody]
      · simp [hc]
      all_goals simp_all

theorem stringBody_flatMap_escaped (cs rest : List Char) :
    stringBody (cs.flatMap escaped ++ '"' :: rest) = .ok (cs, rest) := by
  induction cs with
  | nil => simp [stringBody]
  | cons c cs ih =>
    rw [List.flatMap_cons, List.append_assoc, stringBody_escaped, ih]
    rfl

theorem string_write (s : String) (rest : List Char) :
    string (s.toList.flatMap escaped ++ '"' :: rest) = .ok (s, rest) := by
  rw [string, stringBody_flatMap_escaped]
  simp [Except.map]

end Reader

theorem writeString_append (s : String) (rest : List Char) :
    writeString s ++ rest = '"' :: (s.toList.flatMap escaped ++ '"' :: rest) := by
  simp [writeString]

/-- Written strings with something behind each agree only when both parts do. -/
theorem writeString_append_inj {s t : String} {rest more : List Char} :
    writeString s ++ rest = writeString t ++ more ↔ s = t ∧ rest = more := by
  constructor
  · intro h
    rw [writeString_append, writeString_append] at h
    have hread := Reader.string_write s rest
    rw [List.cons.inj h |>.2, Reader.string_write] at hread
    simpa [eq_comm] using hread
  · rintro ⟨rfl, rfl⟩
    rfl

/-! ## Integers -/

/-- The number that digits write behind those of `n`. -/
def numeral (n : Nat) (ds : List Nat) : Nat := ds.foldl (fun n d => n * 10 + d) n

theorem le_numeral (n : Nat) (ds : List Nat) : n ≤ numeral n ds := by
  induction ds generalizing n with
  | nil => exact Nat.le_refl n
  | cons d ds ih =>
    have h := ih (n * 10 + d)
    rw [numeral, List.foldl_cons]
    rw [numeral] at h
    omega

theorem appendDigits_eq {bound n : Nat} {ds : List Nat} (h : numeral n ds < bound) :
    Binary64.appendDigits bound n ds = (numeral n ds, []) := by
  induction ds generalizing n with
  | nil => rfl
  | cons d ds ih =>
    have hle := le_numeral (n * 10 + d) ds
    have hd : numeral n (d :: ds) = numeral (n * 10 + d) ds := rfl
    rw [hd] at h ⊢
    rw [Binary64.appendDigits, if_pos (by omega)]
    exact ih h

theorem numeral_toDigits (n : Nat) :
    numeral 0 ((Nat.toDigits 10 n).map Reader.digitValue) = n := by
  have h : n = Nat.ofDigitChars 10 (Nat.toDigits 10 n) 0 := Nat.ofDigitChars_ten_toDigits.symm
  rw [Nat.ofDigitChars_eq_foldl] at h
  rw [numeral, List.foldl_map]
  simpa only [Reader.digitValue, Nat.mul_comm] using h.symm

theorem toDigits_eq_cons_of_pos {n : Nat} (h : 0 < n) :
    ∃ c cs, Nat.toDigits 10 n = c :: cs ∧ c ≠ '0' := by
  induction n using Nat.strongRecOn with
  | ind n ih =>
    rcases Nat.lt_or_ge n 10 with hlt | hge
    · refine ⟨Nat.digitChar n, [], Nat.toDigits_of_lt_base hlt, ?_⟩
      rw [ne_eq, Nat.digitChar_eq_zero]
      omega
    · obtain ⟨c, cs, hdigits, hc⟩ := ih (n / 10) (by omega) (by omega)
      refine ⟨c, cs ++ [Nat.digitChar (n % 10)], ?_, hc⟩
      rw [Nat.toDigits_of_base_le (by decide) hge, hdigits, List.cons_append]

theorem exists_toDigits_eq_cons (n : Nat) :
    ∃ c cs, Nat.toDigits 10 n = c :: cs ∧ c.isDigit = true := by
  obtain ⟨c, cs, h⟩ := List.exists_cons_of_ne_nil (Nat.toDigits_ne_nil : Nat.toDigits 10 n ≠ [])
  have hmem : c ∈ Nat.toDigits 10 n := by simp [h]
  exact ⟨c, cs, h, Nat.isDigit_of_mem_toDigits (by decide) (by decide) hmem⟩

theorem exists_writeInteger_eq_cons (n : ExactInteger) :
    ∃ c cs, n.write = c :: cs ∧ (c = '-' ∨ c.isDigit = true) := by
  unfold ExactInteger.write
  split
  · exact ⟨'-', _, rfl, .inl rfl⟩
  · obtain ⟨c, cs, h, hdigit⟩ := exists_toDigits_eq_cons n.val.natAbs
    exact ⟨c, cs, h, .inr hdigit⟩

namespace Reader

variable {rest : List Char}

theorem digits_append {ds : List Char} (hds : ∀ c ∈ ds, c.isDigit = true) (h : EndsNumber rest) :
    digits (ds ++ rest) = (ds.map digitValue, rest) := by
  have htake : rest.takeWhile Char.isDigit = [] := by
    cases rest with
    | nil => rfl
    | cons c rest => simp [(h c rfl).1]
  have hdrop : rest.dropWhile Char.isDigit = rest := by
    cases rest with
    | nil => rfl
    | cons c rest => simp [(h c rfl).1]
  rw [digits, List.takeWhile_append_of_pos hds, List.dropWhile_append_of_pos hds, htake, hdrop,
    List.append_nil]

theorem afterWhole_eq {negative : Bool} {ds : List Nat} (hds : numeral 0 ds < significandBound)
    (h : EndsNumber rest) : afterWhole negative ds rest = wholeNumber negative (numeral 0 ds) rest := by
  unfold afterWhole
  rw [appendDigits_eq hds]
  split
  next heq =>
    obtain ⟨rfl, rfl⟩ := Prod.mk.inj heq
    split
    · exact absurd rfl (h '.' rfl).2.1
    · exact absurd rfl (h 'e' rfl).2.2.1
    · exact absurd rfl (h 'E' rfl).2.2.2
    · rfl

theorem magnitude_toDigits {negative : Bool} {n : Nat} (hn : n < significandBound)
    (h : EndsNumber rest) :
    magnitude negative (Nat.toDigits 10 n ++ rest) = wholeNumber negative n rest := by
  rcases Nat.eq_zero_or_pos n with rfl | hpos
  · have hzero : afterWhole negative [0] rest = wholeNumber negative 0 rest :=
      afterWhole_eq hn h
    rw [Nat.toDigits_zero, List.singleton_append]
    cases rest with
    | nil => exact hzero
    | cons c rest =>
      have hc := (h c rfl).1
      unfold magnitude
      simpa only [hc, Bool.false_eq_true, if_false] using hzero
  · obtain ⟨c, cs, hdigits, hc⟩ := toDigits_eq_cons_of_pos hpos
    have hall : ∀ d ∈ Nat.toDigits 10 n, d.isDigit = true := fun _ hd =>
      Nat.isDigit_of_mem_toDigits (by decide) (by decide) hd
    have hdigit : c.isDigit = true := hall c (by simp [hdigits])
    have hread : digits (c :: (cs ++ rest)) = ((Nat.toDigits 10 n).map digitValue, rest) := by
      rw [← digits_append hall h, hdigits, List.cons_append]
    have hvalue := numeral_toDigits n
    rw [hdigits, List.cons_append, magnitude]
    · simp only [hdigit, if_true, hread]
      rw [afterWhole_eq (by omega) h, hvalue]
    · exact hc

theorem number_write (n : ExactInteger) (h : EndsNumber rest) :
    number (n.write ++ rest) = .ok (.integer n, rest) := by
  obtain ⟨hleast, hbound⟩ := n.inRange
  have hself := n.ofInt?_val
  unfold ExactInteger.write
  unfold ExactInteger.least at hleast
  unfold ExactInteger.bound at hbound
  have hsize : n.val.natAbs < significandBound := by
    have h64 : significandBound = 18446744073709551616 := by decide
    omega
  split
  next hneg =>
    have hval : -(n.val.natAbs : Int) = n.val := by omega
    have hne : n.val.natAbs ≠ 0 := by omega
    rw [List.cons_append, number, magnitude_toDigits hsize h, wholeNumber,
      if_neg (fun hzero => hne hzero.2), if_pos rfl, hval, hself]
  next hpos =>
    have hval : (n.val.natAbs : Int) = n.val := by omega
    have hstart : ∀ text, Nat.toDigits 10 n.val.natAbs ++ rest ≠ '-' :: text := by
      intro text heq
      obtain ⟨c, cs, hdigits, hdigit⟩ := exists_toDigits_eq_cons n.val.natAbs
      rw [hdigits, List.cons_append] at heq
      rw [(List.cons.inj heq).1] at hdigit
      cases hdigit
    rw [number, magnitude_toDigits hsize h, wholeNumber, if_neg (by simp), if_neg (by simp), hval,
      hself]
    exact hstart

end Reader

end OptionDefaults.Json
