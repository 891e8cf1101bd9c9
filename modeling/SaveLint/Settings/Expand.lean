/-!
# References to the environment

A text of the configuration may refer to the environment by `${NAME}`. `expand` reads the text once,
from left to right: a reference starts at the leftmost `${` and ends at the first closing brace after
it, and what is put in its place is not read again. A `${` without a closing brace after it is no
reference, and it stays as it is with everything after it.
-/

namespace SaveLint

/-- The values of the environment variables; a variable that is not set has none. -/
abbrev Environment := String → Option String

namespace Environment

def ofList (vars : List (String × String)) : Environment := fun name => vars.lookup name

/-- The value that is put in the place of a reference; nothing for a variable that is not set. -/
def value (env : Environment) (name : List Char) : List Char :=
  if name = [] then [] else ((env (String.ofList name)).getD "").toList

end Environment

namespace Settings

/--
The text before the first `${` and the text after it. What is read already is given in reverse.
-/
def opening? (read : List Char) : List Char → Option (List Char × List Char)
  | [] => none
  | '$' :: '\x7b' :: rest => some (read.reverse, rest)
  | c :: rest => opening? (c :: read) rest

/-- The text before the first closing brace and the text after it. -/
def closing? (read : List Char) : List Char → Option (List Char × List Char)
  | [] => none
  | '\x7d' :: rest => some (read.reverse, rest)
  | c :: rest => closing? (c :: read) rest

/-- The parts around the first reference of a text. -/
structure Reference where
  before : List Char
  name : List Char
  after : List Char
  deriving DecidableEq, Repr

def Reference.first? (cs : List Char) : Option Reference := do
  let (before, rest) ← opening? [] cs
  let (name, after) ← closing? [] rest
  return ⟨before, name, after⟩

theorem length_of_opening? {read cs before after : List Char}
    (h : opening? read cs = some (before, after)) : after.length < cs.length := by
  fun_induction opening? read cs with
  | case1 => cases h
  | case2 => cases h; simp only [List.length_cons]; omega
  | case3 _ _ _ _ ih => have := ih h; simp only [List.length_cons]; omega

theorem length_of_closing? {read cs before after : List Char}
    (h : closing? read cs = some (before, after)) : after.length < cs.length := by
  fun_induction closing? read cs with
  | case1 => cases h
  | case2 => cases h; simp
  | case3 _ _ _ _ ih => have := ih h; simp only [List.length_cons]; omega

theorem length_after_of_first? {cs : List Char} {r : Reference}
    (h : Reference.first? cs = some r) : r.after.length < cs.length := by
  simp only [Reference.first?, Option.bind_eq_bind, Option.bind_eq_some_iff, Option.pure_def,
    Option.some.injEq, Prod.exists] at h
  obtain ⟨_, _, h₁, _, _, h₂, rfl⟩ := h
  have := length_of_opening? h₁
  have := length_of_closing? h₂
  simp only; omega

/-- The text with every reference replaced by its value. -/
def expand (env : Environment) (cs : List Char) : List Char :=
  match _h : Reference.first? cs with
  | none => cs
  | some r => r.before ++ env.value r.name ++ expand env r.after
termination_by cs.length
decreasing_by exact length_after_of_first? _h

def expanded (env : Environment) (s : String) : String := String.ofList (expand env s.toList)

end Settings

end SaveLint
