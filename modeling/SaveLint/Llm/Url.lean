import SaveLint.Llm.Host

/-!
# Addresses of servers

An address of a server has a scheme, `http` or `https`, a host, perhaps a port, a path, and perhaps
a query and a fragment. It is read leniently, as browsers do: the scheme and the host may be in
capitals, any number of slashes may stand before the host, and dots are folded in the path. Its text
(`Url.text`) is the normal form, and what a request names (`Url.target`) is the path with the query.
-/

namespace SaveLint.Llm

open SaveLint.Text

/-- An address in its normal form. -/
structure Url where
  scheme : List Char
  host : List Char
  port : Option Nat
  path : List Char
  query : Option (List Char)
  fragment : Option (List Char)
  deriving DecidableEq, Repr

namespace Url

/-! ### Percent encoding -/

/-- Two upper-case hexadecimal digits for a byte, after a percent sign. -/
def percent (b : UInt8) : List Char :=
  let digit (n : Nat) : Char := if n < 10 then Char.ofNat (48 + n) else Char.ofNat (55 + n)
  ['%', digit (b.toNat / 16), digit (b.toNat % 16)]

/-- A text with the characters of a class, the controls and all beyond ASCII percent-encoded. -/
def encoded (special : List Char) (cs : List Char) : List Char :=
  cs.flatMap fun c =>
    if c.toNat < 0x20 || 0x7E < c.toNat || special.contains c then
      (String.utf8EncodeChar c).flatMap percent
    else [c]

def pathSpecial : List Char := [' ', '"', '#', '<', '>', '?', '`', '\x7b', '\x7d']

def querySpecial : List Char := [' ', '"', '#', '<', '>', '\'']

def fragmentSpecial : List Char := [' ', '"', '<', '>', '`']

/-! ### Parts -/

def isSlash (c : Char) : Bool := c == '/' || c == '\\'

/-- Whether a character ends the host and the port. -/
def endsAuthority (c : Char) : Bool := isSlash c || c == '?' || c == '#'

def segments (cs : List Char) : List (List Char) := go cs [] []
where
  go : List Char → List Char → List (List Char) → List (List Char)
    | [], segment, done => (segment.reverse :: done).reverse
    | c :: cs, segment, done =>
      if isSlash c then go cs [] (segment.reverse :: done) else go cs (c :: segment) done

/-- A segment with its encoded dots decoded, in lower case, for the comparison with dots. -/
def dots (segment : List Char) : List Char :=
  match lowerAscii segment with
  | ['%', '2', 'e'] => ['.']
  | ['%', '2', 'e', '%', '2', 'e'] => ['.', '.']
  | ['.', '%', '2', 'e'] => ['.', '.']
  | ['%', '2', 'e', '.'] => ['.', '.']
  | cs => cs

/-- Folds the dots of segments, given the ones kept so far in reverse. -/
def folded (kept : List (List Char)) : List (List Char) → List (List Char)
  | [] => kept.reverse
  | segment :: rest =>
    if dots segment = ['.'] then
      if rest = [] then ([] :: kept).reverse else folded kept rest
    else if dots segment = ['.', '.'] then
      if rest = [] then ([] :: kept.drop 1).reverse else folded (kept.drop 1) rest
    else folded (segment :: kept) rest

def normalPath (cs : List Char) : List Char :=
  let cs := match cs with
    | c :: rest => if isSlash c then rest else cs
    | [] => []
  (folded [] (segments cs)).flatMap fun segment => '/' :: encoded pathSpecial segment

def defaultPort (scheme : List Char) : Nat := if scheme = ['h', 't', 't', 'p'] then 80 else 443

/-- The port after the colon; the port of the scheme is left out, and so is an empty one. -/
def port? (scheme cs : List Char) : Option (Option Nat) :=
  if cs.isEmpty then some none
  else (Number.naturalUpTo? 65535 cs).map fun n => if n = defaultPort scheme then none else some n

/-- The text after the last `@`, where the host starts. -/
def withoutUser (cs : List Char) : List Char := (cs.reverse.takeWhile (· != '@')).reverse

/-- The text of a host up to the colon of a port: brackets protect colons. -/
def splitPort (inBrackets : Bool) (read : List Char) : List Char → List Char × List Char
  | [] => (read.reverse, [])
  | c :: cs =>
    if c = ':' ∧ !inBrackets then (read.reverse, cs)
    else splitPort ((inBrackets || c = '[') && c != ']') (c :: read) cs

def authority? (scheme cs : List Char) : Option (List Char × Option Nat) := do
  let (host, port) := splitPort false [] (withoutUser cs)
  return (← Host.read? host, ← port? scheme port)

/-! ### Reading -/

/-- Whether a character may stand in a scheme after its first letter. -/
def isSchemeChar (c : Char) : Bool :=
  isAsciiLetter c || isAsciiDigit c || c == '+' || c == '-' || c == '.'

def scheme? (cs : List Char) : Option (List Char × List Char) :=
  match cs.takeWhile isSchemeChar, cs.dropWhile isSchemeChar with
  | letter :: more, ':' :: rest =>
    if isAsciiLetter letter then some (lowerAscii (letter :: more), rest) else none
  | _, _ => none

/-- The text without controls and spaces around it, and without tabs and line ends inside. -/
def cleaned (cs : List Char) : List Char :=
  let isPad (c : Char) : Bool := c.toNat ≤ 0x20
  let cs := ((cs.dropWhile isPad).reverse.dropWhile isPad).reverse
  cs.filter fun c => c != '\t' && c != '\n' && c != '\r'

/-- Reads what follows the colon of the scheme. -/
def ofRest? (scheme cs : List Char) : Option Url := do
  let cs := cs.dropWhile isSlash
  let (host, port) ← authority? scheme (cs.takeWhile (!endsAuthority ·))
  let cs := cs.dropWhile (!endsAuthority ·)
  let path := cs.takeWhile fun c => c != '?' && c != '#'
  let cs := cs.dropWhile fun c => c != '?' && c != '#'
  let query :=
    match cs with
    | '?' :: cs => some (encoded querySpecial (cs.takeWhile (· != '#')))
    | _ => none
  let fragment :=
    match cs.dropWhile (· != '#') with
    | '#' :: cs => some (encoded fragmentSpecial cs)
    | _ => none
  return ⟨scheme, host, port, normalPath path, query, fragment⟩

def text (u : Url) : String :=
  let port := match u.port with
    | some n => s!":{n}"
    | none => ""
  let query := match u.query with
    | some cs => "?" ++ String.ofList cs
    | none => ""
  let fragment := match u.fragment with
    | some cs => "#" ++ String.ofList cs
    | none => ""
  String.ofList u.scheme ++ "://" ++ String.ofList u.host ++ port ++ String.ofList u.path ++ query
    ++ fragment

/-- What a request names: the path with the query. -/
def target (u : Url) : String :=
  String.ofList u.path ++
    match u.query with
    | some cs => "?" ++ String.ofList cs
    | none => ""

end Url

inductive Endpoint where
  | server (url : Url)
  /-- No request can be made, for the reason given. -/
  | unusable (reason : String)
  deriving DecidableEq, Repr

def Endpoint.ofString (s : String) : Endpoint :=
  match Url.scheme? (Url.cleaned s.toList) with
  | none => .unusable "builder error"
  | some (scheme, rest) =>
    if scheme = ['h', 't', 't', 'p'] ∨ scheme = ['h', 't', 't', 'p', 's'] then
      match Url.ofRest? scheme rest with
      | some url => .server url
      | none => .unusable "builder error"
    else .unusable s!"builder error for url ({s})"

end SaveLint.Llm
