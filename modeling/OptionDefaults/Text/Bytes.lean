/-!
# Parts of a text by bytes

A text can be cut behind a number of bytes. A character that such a cut goes through belongs to the
part in which it starts, so the two parts together are always the text.
-/

namespace OptionDefaults.Text

def byteCount : List Char → Nat
  | [] => 0
  | c :: rest => c.utf8Size + byteCount rest

/-- The characters that start within the first `bytes` bytes. -/
def takeBytes : (bytes : Nat) → List Char → List Char
  | 0, _ => []
  | _, [] => []
  | bytes, c :: rest => c :: takeBytes (bytes - c.utf8Size) rest

/-- The characters that start behind the first `bytes` bytes. -/
def dropBytes : (bytes : Nat) → List Char → List Char
  | 0, text => text
  | _, [] => []
  | bytes, c :: rest => dropBytes (bytes - c.utf8Size) rest

/-- The characters that start behind the first `start` bytes and within the first `stop`. -/
def between (start stop : Nat) (text : List Char) : List Char :=
  dropBytes start (takeBytes stop text)

/-- The characters of a text, each with the number of bytes before it; `bytes` of them are before
the text. -/
def withOffsets (bytes : Nat) : List Char → List (Nat × Char)
  | [] => []
  | c :: rest => (bytes, c) :: withOffsets (bytes + c.utf8Size) rest

theorem takeBytes_append_dropBytes (bytes : Nat) (text : List Char) :
    takeBytes bytes text ++ dropBytes bytes text = text := by
  induction text generalizing bytes with
  | nil => cases bytes <;> rfl
  | cons c rest ih =>
    cases bytes with
    | zero => rfl
    | succ n => simp [takeBytes, dropBytes, ih]

/-- A cut behind whole characters takes exactly those. -/
theorem takeBytes_byteCount_append (s t : List Char) : takeBytes (byteCount s) (s ++ t) = s := by
  induction s with
  | nil => simp [byteCount, takeBytes]
  | cons c rest ih =>
    have positive := c.utf8Size_pos
    rw [List.cons_append, takeBytes]
    · simp [byteCount, ih]
    · simp only [byteCount]
      omega

/-- A cut behind whole characters leaves exactly the others. -/
theorem dropBytes_byteCount_append (s t : List Char) : dropBytes (byteCount s) (s ++ t) = t := by
  have whole := takeBytes_append_dropBytes (byteCount s) (s ++ t)
  rw [takeBytes_byteCount_append] at whole
  exact List.append_cancel_left whole

end OptionDefaults.Text
