import SaveLint.Text.Hidden

/-!
# Quoted text

A text inside a message stands between quotation marks, and whatever would not be seen as itself is
written as an escape: the quotation mark, the backslash, the common controls by a letter, and every
other hidden character by its code point in hexadecimal, as in `\u{301}`.
-/

namespace SaveLint.Text

def hexDigits (n : Nat) : List Char := Nat.toDigits 16 n

def quotedChar (c : Char) : List Char :=
  match c with
  | '"' => ['\\', '"']
  | '\\' => ['\\', '\\']
  | '\n' => ['\\', 'n']
  | '\r' => ['\\', 'r']
  | '\t' => ['\\', 't']
  | '\x00' => ['\\', '0']
  | c => if isHidden c then '\\' :: 'u' :: '\x7b' :: hexDigits c.toNat ++ ['\x7d'] else [c]

/-- A text between quotation marks, with escapes. -/
def quoted (s : String) : String :=
  String.ofList ('"' :: s.toList.flatMap quotedChar ++ ['"'])

end SaveLint.Text
