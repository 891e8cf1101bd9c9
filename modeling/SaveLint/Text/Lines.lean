/-!
# Lines

A line ends at a line feed or at the end of the text. A carriage return right before the line feed
belongs to the line ending. A text that ends in a line feed has no empty line after it, and the
empty text has no line at all.
-/

namespace SaveLint.Text

/-- The text cut at every line feed; there is always at least one piece. -/
def splitFeeds (cs : List Char) : List (List Char) := go cs [] []
where
  go : List Char → List Char → List (List Char) → List (List Char)
    | [], piece, done => (piece.reverse :: done).reverse
    | '\n' :: cs, piece, done => go cs [] (piece.reverse :: done)
    | c :: cs, piece, done => go cs (c :: piece) done

/-- A line without the carriage return that may end it. -/
def dropReturn (line : List Char) : List Char :=
  if line.getLast? = some '\r' then line.dropLast else line

/-- All pieces but the last lost a line feed; the last one counts only if it holds something. -/
def linesOfPieces : List (List Char) → List (List Char)
  | [] => []
  | [last] => if last = [] then [] else [last]
  | piece :: pieces => dropReturn piece :: linesOfPieces pieces

def lines (cs : List Char) : List (List Char) := linesOfPieces (splitFeeds cs)

example : lines ['a', '\r', '\n', '\n', 'b', '\r'] = [['a'], [], ['b', '\r']] := by decide

example : lines [] = [] ∧ lines ['\n'] = [[]] := by decide

end SaveLint.Text
