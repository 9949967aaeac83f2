import OptionDefaults.Text.Hidden

/-!
# Quoted text in messages

A text quoted for a reader of messages stands between double quotes; the quote, the backslash and
the usual blanks have short escapes, and every other hidden character is written by its code in
braces.
-/

namespace OptionDefaults.Text

/-- The code of a character in lower-case hexadecimal, between braces. -/
def braced (c : Char) : List Char :=
  ['\\', 'u', '\x7b'] ++ Nat.toDigits 16 c.toNat ++ ['\x7d']

def quotedChar (c : Char) : List Char :=
  match c with
  | '\x00' => ['\\', '0']
  | '\t' => ['\\', 't']
  | '\n' => ['\\', 'n']
  | '\r' => ['\\', 'r']
  | '"' => ['\\', '"']
  | '\\' => ['\\', '\\']
  | c => if isHidden c then braced c else [c]

/-- The text between double quotes, for messages. -/
def quoted (text : String) : String :=
  String.ofList ('"' :: (text.toList.flatMap quotedChar ++ ['"']))

end OptionDefaults.Text
