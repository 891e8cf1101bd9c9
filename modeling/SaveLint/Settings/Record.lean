import SaveLint.Json.Value
import SaveLint.Number.Numeral

/-!
# Records from data

A record of the configuration is given either by name, as an object, or by position, as an array. In
both forms what is missing keeps its default. Members with unknown names are ignored; whether items
beyond the last field are ignored too is up to the format of the file.
-/

namespace SaveLint.Settings

/-- A field of a record: its name, and the record with a value put into it if the value fits. -/
structure Field (α : Type) where
  name : String
  set? : Json → α → Option α

namespace Field

variable {α : Type}

/-- The record with the members of an object put into it. -/
def ofMembers? (fields : List (Field α)) (start : α) (members : List (String × Json)) : Option α :=
  members.foldlM (fun a (name, v) =>
    match fields.find? (·.name == name) with
    | some field => field.set? v a
    | none => some a) start

/-- The record with the items of an array put into it, in the order of the fields. -/
def ofItems? (fields : List (Field α)) (start : α) (items : List Json) : Option α :=
  (fields.zip items).foldlM (fun a (field, v) => field.set? v a) start

def ofJson? (fields : List (Field α)) (ignoreExtra : Bool) (start : α) : Json → Option α
  | .object members => ofMembers? fields start members
  | .array items =>
    if !ignoreExtra && fields.length < items.length then none else ofItems? fields start items
  | _ => none

end Field

/-! ### The values of fields -/

def texts? (v : Json) : Option (List String) := v.asArray?.bind (·.mapM Json.asString?)

def naturalUpTo? (bound : Nat) (v : Json) : Option Nat :=
  v.asInteger?.bind fun n => if 0 ≤ n ∧ n ≤ bound then some n.toNat else none

end SaveLint.Settings
