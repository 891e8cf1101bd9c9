import SaveLint.Json.Printer

/-!
# Messages

The messages of a chat, the body of a request and the body of a response. A message is read from an
object with a role and a content or from an array of the two; members that are not needed are
skipped by their shape alone, but no needed member may come twice.
-/

namespace SaveLint.Llm

inductive Role where
  | user
  | assistant
  deriving DecidableEq, Repr

namespace Role

def name : Role → String
  | user => "user"
  | assistant => "assistant"

def ofName? (s : String) : Option Role := [user, assistant].find? (·.name == s)

end Role

structure Message where
  role : Role
  content : String
  deriving DecidableEq, Repr

open Json (Tree)

/-! ### Reading -/

def stringOfTree? : Tree → Option String
  | .string literal => Json.string? literal
  | _ => none

/-- The role that a tree names: by its name, or by an object whose only member is it with null. -/
def Role.ofTree? : Tree → Option Role
  | .object [(name, .null)] => (Json.string? name).bind Role.ofName?
  | tree => (stringOfTree? tree).bind Role.ofName?

def namedMembers? (members : List (Bytes × Tree)) : Option (List (String × Tree)) :=
  members.mapM fun (name, tree) => (Json.string? name).map (·, tree)

/-- The member with a name; it may not come twice. -/
def member? (name : String) (members : List (String × Tree)) : Option (Option Tree) :=
  match members.filter (·.1 == name) with
  | [] => some none
  | [(_, tree)] => some (some tree)
  | _ => none

def Message.ofTree? : Tree → Option Message
  | .object members => do
    let members ← namedMembers? members
    let role ← Role.ofTree? (← (← member? "role" members))
    let content ← stringOfTree? (← (← member? "content" members))
    return ⟨role, content⟩
  | .array [role, content] => do
    return ⟨← Role.ofTree? role, ← stringOfTree? content⟩
  | _ => none

def optionalMessage? : Tree → Option (Option Message)
  | .null => some none
  | tree => (Message.ofTree? tree).map some

/-- The message of a response; the response may have none. -/
def responseMessage? (body : Bytes) : Option (Option Message) := do
  match ← Tree.ofBytes? body with
  | .object members =>
    match ← member? "message" (← namedMembers? members) with
    | some tree => optionalMessage? tree
    | none => return none
  | .array [tree] => optionalMessage? tree
  | _ => none

/-! ### Writing -/

def Message.toJson (m : Message) : Json :=
  .object [("role", .string m.role.name), ("content", .string m.content)]

def requestBody (model : String) (messages : List Message) : String :=
  (Json.object [("model", .string model), ("messages", .array (messages.map Message.toJson)),
    ("stream", .bool false)]).written

end SaveLint.Llm
