import SaveLint.Text.Span

/-!
# Blank characters

Blank means having the Unicode property White_Space, which is wider than the ASCII blanks: it holds
the no-break space and the ideographic space, and it does not hold the zero-width space.
-/

namespace SaveLint.Text

def blankSpans : Spans :=
  [(0x9, 0xD), (0x20, 0x20), (0x85, 0x85), (0xA0, 0xA0), (0x1680, 0x1680), (0x2000, 0x200A),
   (0x2028, 0x2029), (0x202F, 0x202F), (0x205F, 0x205F), (0x3000, 0x3000)]

def isBlank (c : Char) : Bool := blankSpans.has c

def trimStart (cs : List Char) : List Char := cs.dropWhile isBlank

def trimEnd (cs : List Char) : List Char := (cs.reverse.dropWhile isBlank).reverse

def trim (cs : List Char) : List Char := trimEnd (trimStart cs)

def trimmed (s : String) : String := String.ofList (trim s.toList)

def trimmedEnd (s : String) : String := String.ofList (trimEnd s.toList)

example : isBlank '\n' = true ∧ isBlank '\u00a0' = true ∧ isBlank '\u200b' = false := by decide

example : trim [' ', 'a', ' ', 'b', '\t'] = ['a', ' ', 'b'] := by decide

end SaveLint.Text
