import SaveLint.Path.Basic

/-!
# Parts of paths

The name, the extension and the directory of a path, the path below a base directory, and the
absolute spelling of a path.
-/

namespace SaveLint.Path

/-- The name of the last entry, unless the path ends in the root, `.` or `..`. -/
def fileName? (p : Path) : Option String := p.components.getLast?.bind Component.name?

/-- The text after the last dot of a name, unless that dot starts the name. -/
def extensionOf (name : List Char) : Option (List Char) :=
  let back := name.reverse
  match back.dropWhile (· != '.') with
  | _ :: _ :: _ => some (back.takeWhile (· != '.')).reverse
  | _ => none

def extension? (p : Path) : Option String :=
  p.fileName?.bind fun name => (extensionOf name.toList).map String.ofList

/-- The path with one more part; a part that is absolute takes its place. -/
def join (p : Path) (part : String) : Path :=
  if part.toList.head? = some '/' then ⟨part⟩
  else if p.isEmpty || p.text.toList.getLast? = some '/' then ⟨p.text ++ part⟩
  else ⟨p.text ++ "/" ++ part⟩

def joinAll (p : Path) (cs : List Component) : Path := cs.foldl (fun p c => p.join c.text) p

/-- The text without the slashes and the idle `.` pieces at its end. -/
def withoutTail (cs : List Char) : List Char :=
  String.toList <| "/".intercalate <| List.map String.ofList <|
    ((pieces cs).reverse.dropWhile isIdle).reverse

/--
What is left of the pieces after the components of a base directory; nothing if the base is not
above them.
-/
def below : List Component → List (List Char) → Option (List (List Char))
  | [], ps => some (ps.dropWhile isIdle)
  | _ :: _, [] => none
  | c :: cs, p :: ps =>
    if isIdle p then below (c :: cs) ps
    else if ofPiece p = c then below cs ps
    else none

/--
The path relative to a base directory that is above it, in its own spelling. Slashes and idle `.`
pieces next to the base and at the end are left out.
-/
def relativeTo? (base p : Path) : Option Path :=
  let trimmed (ps : List (List Char)) : Path :=
    ⟨"/".intercalate (List.map String.ofList (ps.reverse.dropWhile isIdle).reverse)⟩
  match base.components, pieces p.text.toList with
  | [], _ =>
    if p.components.all (· == .root) then some ⟨if p.isAbsolute then "/" else ""⟩
    else some ⟨String.ofList (withoutTail p.text.toList)⟩
  | .root :: cs, [] :: ps => if p.isEmpty then none else (below cs ps).map trimmed
  | .here :: cs, ['.'] :: ps => (below cs ps).map trimmed
  | .root :: _, _ => none
  | .here :: _, _ => none
  | cs, ps => if p.isAbsolute || ps.head? = some ['.'] then none else (below cs ps).map trimmed

/-- The directory of a path: all its components but the last; the root has none. -/
def directory? (p : Path) : Option Path :=
  match p.components.reverse with
  | [] => none
  | [.root] => none
  | _ :: above => some (joinAll ⟨""⟩ above.reverse)

/--
The absolute spelling of a path, seen from a working directory: repeated slashes and `.` are left
out, `..` and a slash at the end are kept. A path that starts with exactly two slashes keeps both,
because what they mean is up to the system.
-/
def absoluteFrom (directory p : Path) : Path :=
  let cs := p.components.filter fun c => c != .here && c != .root
  let start : Path :=
    if p.isAbsolute then
      match p.text.toList with
      | '/' :: '/' :: '/' :: _ => ⟨"/"⟩
      | '/' :: '/' :: _ => ⟨"//"⟩
      | _ => ⟨"/"⟩
    else directory
  let full := joinAll start cs
  if p.text.toList.getLast? = some '/' && full.text.toList.getLast? != some '/' then
    ⟨full.text ++ "/"⟩
  else full

end SaveLint.Path
