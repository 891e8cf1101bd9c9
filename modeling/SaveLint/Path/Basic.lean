/-!
# Paths

A path is kept as it is spelled, and it is compared by its components: repeated slashes, a slash at
the end and the component `.` do not count, except for a `.` that starts a relative path. The
component `..` counts and is never folded, because what it means depends on the links on the way.

A path is a text here. Paths that are not UTF-8, and extensions that are not, are left out.
-/

namespace SaveLint

inductive Component where
  | root
  | here
  | parent
  | name (s : String)
  deriving DecidableEq, Repr

namespace Component

def rank : Component → Nat
  | root => 0
  | here => 1
  | parent => 2
  | name _ => 3

def name? : Component → Option String
  | name s => some s
  | _ => none

def text : Component → String
  | root => "/"
  | here => "."
  | parent => ".."
  | name s => s

/-- The order of components: by kind, and names by their characters. -/
def compare : Component → Component → Ordering
  | name s, name t => Ord.compare s t
  | a, b => Ord.compare a.rank b.rank

end Component

/-- A path, kept as it is spelled. -/
structure Path where
  text : String
  deriving DecidableEq, Repr, Inhabited

namespace Path

/-- The pieces of a text between its slashes, in order; some may be empty. -/
def pieces (cs : List Char) : List (List Char) := go cs [] []
where
  go : List Char → List Char → List (List Char) → List (List Char)
    | [], piece, done => (piece.reverse :: done).reverse
    | '/' :: cs, piece, done => go cs [] (piece.reverse :: done)
    | c :: cs, piece, done => go cs (c :: piece) done

/-- Whether a piece between slashes counts for nothing. -/
def isIdle (piece : List Char) : Bool := piece = [] || piece = ['.']

def ofPiece (piece : List Char) : Component :=
  if piece = ['.', '.'] then .parent else .name (String.ofList piece)

def ofPieces (ps : List (List Char)) : List Component :=
  (ps.filter (!isIdle ·)).map ofPiece

def components (p : Path) : List Component :=
  match pieces p.text.toList with
  | [] => []
  | [] :: rest => if p.text.isEmpty then [] else .root :: ofPieces rest
  | ['.'] :: rest => .here :: ofPieces rest
  | ps => ofPieces ps

def isAbsolute (p : Path) : Bool := p.text.toList.head? == some '/'

def isEmpty (p : Path) : Bool := p.text.isEmpty

def same (p q : Path) : Bool := p.components == q.components

theorem same_iff {p q : Path} : p.same q = true ↔ p.components = q.components := beq_iff_eq

/-- The order of two sequences of components, from the first difference on. -/
def compareComponents : List Component → List Component → Ordering
  | [], [] => .eq
  | [], _ :: _ => .lt
  | _ :: _, [] => .gt
  | a :: as, b :: bs => (a.compare b).then (compareComponents as bs)

def compare (p q : Path) : Ordering := compareComponents p.components q.components

def le (p q : Path) : Bool := (p.compare q).isLE

def sorted (ps : List Path) : List Path := ps.mergeSort le

end Path

end SaveLint
