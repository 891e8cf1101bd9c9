import SaveLint.Llm.Message
import SaveLint.Proofs.Json.Written

/-!
# What a response says

Which bodies are responses is said by rules on the tree of the body (`IsReply`): a message is an
object with a role and a content or an array of the two, and a response is an object with a message
or an array of it. Members that are not needed may be anything, but no needed member may come twice.
The reader gives exactly what the rules say (`responseMessage?_eq_some_iff`). So every message is
read back from the response that it is written in (`responseMessage?_written`).
-/

namespace SaveLint.Llm

open Json (Tree literalOf)

/-! ### Members -/

/-- The member has another name, which can be read. -/
def IsOther (name : String) (member : Bytes × Tree) : Prop :=
  ∃ other, Json.string? member.1 = some other ∧ other ≠ name

/-- Exactly one of the members has the name. -/
inductive HasOnce (name : String) (tree : Tree) : List (Bytes × Tree) → Prop where
  | here {literal : Bytes} {members : List (Bytes × Tree)} (named : Json.string? literal = some name)
      (others : ∀ member ∈ members, IsOther name member) :
      HasOnce name tree ((literal, tree) :: members)
  | there {member : Bytes × Tree} {members : List (Bytes × Tree)} (other : IsOther name member)
      (once : HasOnce name tree members) : HasOnce name tree (member :: members)

theorem namedMembers?_cons (member : Bytes × Tree) (members : List (Bytes × Tree)) :
    namedMembers? (member :: members) = (Json.string? member.1).bind fun name =>
      (namedMembers? members).map ((name, member.2) :: ·) := by
  obtain ⟨literal, tree⟩ := member
  rw [namedMembers?, List.mapM_cons, namedMembers?]
  dsimp only
  cases Json.string? literal with
  | none => rfl
  | some name =>
      generalize members.mapM (m := Option) _ = named
      cases named <;> rfl

/-- The member with a name, if all names can be read and it does not come twice. -/
def found? (name : String) (members : List (Bytes × Tree)) : Option (Option Tree) :=
  (namedMembers? members).bind (member? name)

/-- A member in front has another name, or it is the only one that has the name. -/
theorem found?_cons_eq_some_iff {name : String} {member : Bytes × Tree}
    {members : List (Bytes × Tree)} {found : Option Tree} :
    found? name (member :: members) = some found ↔
      (IsOther name member ∧ found? name members = some found) ∨
        (Json.string? member.1 = some name ∧ found? name members = some none ∧
          found = some member.2) := by
  rw [found?, found?, namedMembers?_cons, IsOther]
  cases Json.string? member.1 with
  | none => simp
  | some other =>
      cases namedMembers? members with
      | none => simp
      | some named =>
          show member? name ((other, member.2) :: named) = _ ↔ _
          by_cases h : other = name
          · subst h
            simp only [Option.bind_some, member?, List.filter_cons_of_pos, beq_self_eq_true]
            cases named.filter (·.1 == other) with
            | nil => simp [eq_comm]
            | cons _ rest => cases rest <;> simp
          · simp [member?, List.filter_cons_of_neg, h]

theorem found?_nil (name : String) : found? name [] = some none :=
  rfl

theorem found?_eq_some_none_iff {name : String} {members : List (Bytes × Tree)} :
    found? name members = some none ↔ ∀ member ∈ members, IsOther name member := by
  induction members with
  | nil => simp [found?_nil]
  | cons member members ih => simp [found?_cons_eq_some_iff, ih]

theorem found?_eq_some_some_iff {name : String} {members : List (Bytes × Tree)} {tree : Tree} :
    found? name members = some (some tree) ↔ HasOnce name tree members := by
  induction members with
  | nil =>
      rw [found?_nil]
      exact iff_of_false (by simp) nofun
  | cons member members ih =>
      rw [found?_cons_eq_some_iff, ih, found?_eq_some_none_iff]
      constructor
      · rintro (⟨other, once⟩ | ⟨named, others, htree⟩)
        · exact .there other once
        · cases htree
          exact .here named others
      · intro h
        cases h with
        | here named others => exact .inr ⟨named, others, rfl⟩
        | there other once => exact .inl ⟨other, once⟩

/-! ### Messages -/

/-- The tree is a string, which says the text. -/
def IsText (text : String) (tree : Tree) : Prop :=
  ∃ literal, tree = .string literal ∧ Json.string? literal = some text

/-- A role is given by its name or by an object with that name alone. -/
inductive IsRole (role : Role) : Tree → Prop where
  | name {tree : Tree} (text : IsText role.name tree) : IsRole role tree
  | variant {literal : Bytes} (named : Json.string? literal = some role.name) :
      IsRole role (.object [(literal, .null)])

/-- A message is an object with a role and a content, or an array of the two. -/
inductive IsMessage (m : Message) : Tree → Prop where
  | object {members : List (Bytes × Tree)} {role content : Tree}
      (hasRole : HasOnce "role" role members) (hasContent : HasOnce "content" content members)
      (isRole : IsRole m.role role) (isContent : IsText m.content content) :
      IsMessage m (.object members)
  | array {role content : Tree} (isRole : IsRole m.role role)
      (isContent : IsText m.content content) : IsMessage m (.array [role, content])

/-- A message, or null for none. -/
inductive IsOptional : Option Message → Tree → Prop where
  | none : IsOptional none .null
  | some {m : Message} {tree : Tree} (message : IsMessage m tree) : IsOptional (some m) tree

/-- A response is an object, with or without a message, or an array of a message. -/
inductive IsReply : Option Message → Tree → Prop where
  | member {reply : Option Message} {members : List (Bytes × Tree)} {tree : Tree}
      (hasMessage : HasOnce "message" tree members) (message : IsOptional reply tree) :
      IsReply reply (.object members)
  | without {members : List (Bytes × Tree)}
      (others : ∀ member ∈ members, IsOther "message" member) : IsReply none (.object members)
  | item {reply : Option Message} {tree : Tree} (message : IsOptional reply tree) :
      IsReply reply (.array [tree])

theorem stringOfTree?_eq_some_iff {tree : Tree} {text : String} :
    stringOfTree? tree = some text ↔ IsText text tree := by
  cases tree <;> simp [stringOfTree?, IsText]

theorem Role.ofName?_eq_some_iff {name : String} {role : Role} :
    Role.ofName? name = some role ↔ name = role.name := by
  constructor
  · intro h
    have hname := List.find?_some h
    exact (beq_iff_eq.mp hname).symm
  · rintro rfl
    cases role <;> rfl

theorem Role.ofTree?_eq_some_iff {tree : Tree} {role : Role} :
    Role.ofTree? tree = some role ↔ IsRole role tree := by
  constructor
  · intro h
    unfold Role.ofTree? at h
    split at h
    · obtain ⟨name, hname, hrole⟩ := Option.bind_eq_some_iff.mp h
      exact .variant (Role.ofName?_eq_some_iff.mp hrole ▸ hname)
    · obtain ⟨name, hname, hrole⟩ := Option.bind_eq_some_iff.mp h
      exact .name (Role.ofName?_eq_some_iff.mp hrole ▸ stringOfTree?_eq_some_iff.mp hname)
  · intro h
    have hrole := Role.ofName?_eq_some_iff.mpr (rfl : role.name = role.name)
    cases h with
    | name text =>
        obtain ⟨literal, rfl, htext⟩ := text
        show (Json.string? literal).bind Role.ofName? = some role
        rw [htext]
        exact hrole
    | @variant literal named =>
        show (Json.string? literal).bind Role.ofName? = some role
        rw [named]
        exact hrole

theorem Message.ofTree?_eq_some_iff {tree : Tree} {m : Message} :
    Message.ofTree? tree = some m ↔ IsMessage m tree := by
  constructor
  · intro h
    unfold Message.ofTree? at h
    split at h
    · rename_i members
      simp only [bind, Option.bind_eq_some_iff, pure, Option.some.injEq] at h
      obtain ⟨named, hnamed, _, hrole, role, rfl, _, isRole, _, hcontent, content, rfl, _, isContent,
        rfl⟩ := h
      have found {name : String} {tree : Tree} (h : member? name named = some (some tree)) :
          HasOnce name tree members :=
        found?_eq_some_some_iff.mp (Option.bind_eq_some_iff.mpr ⟨named, hnamed, h⟩)
      exact .object (found hrole) (found hcontent) (Role.ofTree?_eq_some_iff.mp isRole)
        (stringOfTree?_eq_some_iff.mp isContent)
    · simp only [bind, Option.bind_eq_some_iff, pure, Option.some.injEq] at h
      obtain ⟨_, isRole, _, isContent, rfl⟩ := h
      exact .array (Role.ofTree?_eq_some_iff.mp isRole) (stringOfTree?_eq_some_iff.mp isContent)
    · cases h
  · intro h
    cases h with
    | @object members role content hasRole hasContent isRole isContent =>
        obtain ⟨named, hnamed, hrole⟩ :=
          Option.bind_eq_some_iff.mp (found?_eq_some_some_iff.mpr hasRole)
        obtain ⟨named', hnamed', hcontent⟩ :=
          Option.bind_eq_some_iff.mp (found?_eq_some_some_iff.mpr hasContent)
        obtain rfl : named = named' := Option.some.inj (hnamed.symm.trans hnamed')
        simp only [Message.ofTree?, hnamed, hrole, hcontent, bind, Option.bind_some,
          Role.ofTree?_eq_some_iff.mpr isRole, stringOfTree?_eq_some_iff.mpr isContent]
        rfl
    | array isRole isContent =>
        simp only [Message.ofTree?, bind, Option.bind_some,
          Role.ofTree?_eq_some_iff.mpr isRole, stringOfTree?_eq_some_iff.mpr isContent]
        rfl

theorem optionalMessage?_eq_some_iff {tree : Tree} {reply : Option Message} :
    optionalMessage? tree = some reply ↔ IsOptional reply tree := by
  constructor
  · intro h
    unfold optionalMessage? at h
    split at h
    · cases h
      exact .none
    · obtain ⟨m, hm, rfl⟩ := Option.map_eq_some_iff.mp h
      exact .some (Message.ofTree?_eq_some_iff.mp hm)
  · intro h
    cases h with
    | none => rfl
    | @some m tree message =>
        have hm := Message.ofTree?_eq_some_iff.mpr message
        unfold optionalMessage?
        split
        · cases hm
        · rw [hm]
          rfl

/-! ### Responses -/

/-- A body is a response exactly if it is a JSON text of one of the shapes. -/
theorem responseMessage?_eq_some_iff {body : Bytes} {reply : Option Message} :
    responseMessage? body = some reply ↔
      ∃ tree, Tree.ofBytes? body = some tree ∧ IsReply reply tree := by
  constructor
  · intro h
    obtain ⟨tree, htree, h⟩ := Option.bind_eq_some_iff.mp h
    refine ⟨tree, htree, ?_⟩
    split at h
    · obtain ⟨named, hnamed, h⟩ := Option.bind_eq_some_iff.mp h
      obtain ⟨found, hfound, h⟩ := Option.bind_eq_some_iff.mp h
      have hfound := Option.bind_eq_some_iff.mpr ⟨named, hnamed, hfound⟩
      cases found with
      | none =>
          cases h
          exact .without (found?_eq_some_none_iff.mp hfound)
      | some tree =>
          exact .member (found?_eq_some_some_iff.mp hfound) (optionalMessage?_eq_some_iff.mp h)
    · exact .item (optionalMessage?_eq_some_iff.mp h)
    · cases h
  · rintro ⟨tree, htree, h⟩
    rw [responseMessage?, htree]
    cases h with
    | member hasMessage message =>
        obtain ⟨named, hnamed, hfound⟩ :=
          Option.bind_eq_some_iff.mp (found?_eq_some_some_iff.mpr hasMessage)
        simp only [bind, Option.bind_some, hnamed, hfound]
        exact optionalMessage?_eq_some_iff.mpr message
    | without others =>
        obtain ⟨named, hnamed, hfound⟩ :=
          Option.bind_eq_some_iff.mp (found?_eq_some_none_iff.mpr others)
        simp only [bind, Option.bind_some, hnamed, hfound]
        rfl
    | item message => exact optionalMessage?_eq_some_iff.mpr message

/-! ### Written messages -/

/-- The tree of a written message. -/
def Message.tree (m : Message) : Tree :=
  .object [(literalOf "role", .string (literalOf m.role.name)),
    (literalOf "content", .string (literalOf m.content))]

theorem Message.reads_written (m : Message) : Json.Reads (bytesOf m.toJson.written) m.tree :=
  .object (.cons ⟨rfl, .string _⟩ (.cons ⟨rfl, .string _⟩ .nil))

theorem Message.isMessage_tree (m : Message) : IsMessage m m.tree := by
  refine .object (.here (Json.string?_literalOf _) ?_)
    (.there ?_ (.here (Json.string?_literalOf _) ?_))
    (.name ⟨_, rfl, Json.string?_literalOf _⟩) ⟨_, rfl, Json.string?_literalOf _⟩
  · simp [IsOther]
  · simp [IsOther]
  · simp

/-- Members that are texts. -/
def texts (members : List (String × String)) : List (String × Json) :=
  members.map fun member => (member.1, .string member.2)

/-- The trees of members that are texts. -/
def textTrees (members : List (String × String)) : List (Bytes × Tree) :=
  members.map fun member => (literalOf member.1, .string (literalOf member.2))

theorem reads_texts_append (members : List (String × String)) {more : List (String × Json)}
    {trees : List (Bytes × Tree)} (h : List.Forall₂ Json.ReadsMember more trees) :
    List.Forall₂ Json.ReadsMember (texts members ++ more) (textTrees members ++ trees) := by
  induction members with
  | nil => exact h
  | cons member members ih => exact .cons ⟨rfl, .string _⟩ ih

theorem isOther_of_mem_textTrees {name : String} {members : List (String × String)}
    (h : ∀ member ∈ members, member.1 ≠ name) :
    ∀ member ∈ textTrees members, IsOther name member := by
  intro _ hmem
  obtain ⟨member, hmember, rfl⟩ := List.mem_map.mp hmem
  exact ⟨member.1, Json.string?_literalOf _, h member hmember⟩

theorem hasOnce_append {name : String} {tree : Tree} {before rest : List (Bytes × Tree)}
    (h : ∀ member ∈ before, IsOther name member) (once : HasOnce name tree rest) :
    HasOnce name tree (before ++ rest) := by
  induction before with
  | nil => exact once
  | cons member before ih =>
      exact .there (h member List.mem_cons_self) (ih fun m hm => h m (List.mem_cons_of_mem _ hm))

/--
Every message is read back from an object in which it is written as the message, whatever texts are
written around it under other names.
-/
theorem responseMessage?_written (m : Message) (before after : List (String × String))
    (h : ∀ member ∈ before ++ after, member.1 ≠ "message") :
    responseMessage? (bytesOf
      (Json.object (texts before ++ ("message", m.toJson) :: texts after)).written) =
        some (some m) := by
  have hmessage : Json.ReadsMember ("message", m.toJson) (literalOf "message", m.tree) :=
    ⟨rfl, m.reads_written⟩
  have hafter := reads_texts_append after .nil
  rw [List.append_nil, List.append_nil] at hafter
  have hreads := Json.Reads.object (reads_texts_append before (.cons hmessage hafter))
  refine responseMessage?_eq_some_iff.mpr ⟨_, hreads.ofBytes?, .member ?_ (.some m.isMessage_tree)⟩
  refine hasOnce_append (isOther_of_mem_textTrees fun member hmem => ?_)
    (.here (Json.string?_literalOf _) (isOther_of_mem_textTrees fun member hmem => ?_))
  · exact h member (List.mem_append_left _ hmem)
  · exact h member (List.mem_append_right _ hmem)

end SaveLint.Llm
