import SaveLint.Proofs.Toml.Names
import SaveLint.Settings.Basic

/-!
# The analyzer of a configuration file

A file may give any of the analyzer's settings, in any order and among names that mean nothing. What
it gives is looked up by name (`AnalyzerSection.ofFile?`), while the settings are put into a record
one member after the other; both come to the same, since no name comes twice in a table.

References to the environment are replaced in every text of the analyzer but the extensions. So the
effective analyzer has every reference replaced if and only if no extension has one that changes it
(`analyzer_eq_expandedIn_iff`).
-/

namespace SaveLint.Settings

/-! ### Members in any order -/

namespace Field

variable {α β : Type} {fields : List (Field α)} {name : String} {decode? : Json → Option β}
  {part : α → β} {start a : α} {members : List (String × Json)} {m : String × Json}

/-- What an object gives for a name, if anything; no result if its value does not fit. -/
def given? (decode? : Json → Option β) (members : List (String × Json)) (name : String) :
    Option (Option β) :=
  match members.lookup name with
  | none => some none
  | some v => (decode? v).map some

theorem given?_of_none (h : members.lookup name = none) :
    given? decode? members name = some none := by
  rw [given?, h]

theorem given?_of_some {v : Json} (h : members.lookup name = some v) :
    given? decode? members name = (decode? v).map some := by
  rw [given?, h]

/-- A part of a record belongs to a field, whose value it is; no other field changes it. -/
structure Decides (fields : List (Field α)) (name : String) (decode? : Json → Option β)
    (part : α → β) : Prop where
  isField : ∃ field ∈ fields, field.name = name
  own : ∀ field ∈ fields, field.name = name → ∀ v a a', field.set? v a = some a' →
    decode? v = some (part a')
  other : ∀ field ∈ fields, field.name ≠ name → ∀ v a a', field.set? v a = some a' →
    part a' = part a

/-- A member is put into the record by its field, or it is ignored. -/
theorem ofMembers?_cons_cases (h : ofMembers? fields start (m :: members) = some a) :
    ∃ next, ofMembers? fields next members = some a ∧
      ((∃ field ∈ fields, field.name = m.1 ∧ field.set? m.2 start = some next) ∨
        (∀ field ∈ fields, field.name ≠ m.1) ∧ next = start) := by
  rw [ofMembers?, List.foldlM_cons] at h
  obtain ⟨next, hnext, hrest⟩ := Option.bind_eq_some_iff.mp h
  refine ⟨next, hrest, ?_⟩
  dsimp only at hnext
  split at hnext
  · rename_i field hfield
    have hname := List.find?_some hfield
    exact .inl ⟨field, List.mem_of_find?_eq_some hfield, beq_iff_eq.mp hname, hnext⟩
  · rename_i hnone
    cases hnext
    refine .inr ⟨?_, rfl⟩
    simpa using hnone

theorem exists_ofMembers?
    (h : ∀ m ∈ members, ∀ field ∈ fields, field.name = m.1 → ∀ a, (field.set? m.2 a).isSome) :
    ∃ a, ofMembers? fields start members = some a := by
  induction members generalizing start with
  | nil => exact ⟨start, rfl⟩
  | cons m members ih =>
      obtain ⟨hm, hmembers⟩ := List.forall_mem_cons.mp h
      rw [ofMembers?, List.foldlM_cons]
      dsimp only
      split
      · rename_i field hfield
        have hname := List.find?_some hfield
        obtain ⟨next, hnext⟩ := Option.isSome_iff_exists.mp
          (hm field (List.mem_of_find?_eq_some hfield) (beq_iff_eq.mp hname) start)
        rw [hnext]
        exact ih hmembers
      · exact ih hmembers

theorem lookup_of_mem (names : (members.map (·.1)).Nodup) (hm : m ∈ members) :
    members.lookup m.1 = some m.2 := by
  obtain ⟨before, after, rfl⟩ := List.append_of_mem hm
  refine List.lookup_eq_some_iff.mpr ⟨before, after, rfl, ?_⟩
  intro p hp
  rw [List.map_append, List.nodup_append] at names
  have hne := names.2.2 p.1 (List.mem_map_of_mem hp) m.1 (by simp)
  rw [bne_iff_ne]
  exact Ne.symm hne

/-- The part of a record is what the object gives for its field, or what it was at the start. -/
theorem Decides.part_eq {g : Option β} (h : Decides fields name decode? part)
    (names : (members.map (·.1)).Nodup) (hread : ofMembers? fields start members = some a)
    (hgiven : given? decode? members name = some g) : part a = g.getD (part start) := by
  induction members generalizing start g with
  | nil =>
      cases hread
      cases hgiven
      rfl
  | cons m members ih =>
      obtain ⟨hfresh, hnames⟩ := List.nodup_cons.mp names
      obtain ⟨next, hrest, hstep⟩ := ofMembers?_cons_cases hread
      by_cases hname : m.1 = name
      · -- No later member has the name, so the part stays as this one makes it.
        have hlater : given? decode? members name = some none := by
          apply given?_of_none
          rw [List.lookup_eq_none_iff]
          intro p hp
          rw [← hname, bne_iff_ne]
          intro heq
          exact hfresh (List.mem_map.mpr ⟨p, hp, heq.symm⟩)
        obtain ⟨field, hfield, heq, hset⟩ | ⟨hnone, -⟩ := hstep
        · have hown := h.own field hfield (heq.trans hname) m.2 start next hset
          rw [← hname, given?_of_some List.lookup_cons_self, hown] at hgiven
          cases hgiven
          have hpart := ih hnames hrest hlater
          exact hpart
        · obtain ⟨field, hfield, heq⟩ := h.isField
          exact absurd (heq.trans hname.symm) (hnone field hfield)
      · have hkept : part next = part start := by
          obtain ⟨field, hfield, heq, hset⟩ | ⟨-, rfl⟩ := hstep
          · exact h.other field hfield (heq ▸ hname) m.2 start next hset
          · rfl
        rw [given?, List.lookup_cons, beq_false_of_ne (Ne.symm hname)] at hgiven
        rw [← hkept]
        exact ih hnames hrest hgiven

theorem isSome_decode?_of_mem {g : Option β} (names : (members.map (·.1)).Nodup)
    (hm : m ∈ members) (hname : name = m.1) (h : given? decode? members name = some g) :
    (decode? m.2).isSome := by
  rw [hname, given?_of_some (lookup_of_mem names hm)] at h
  obtain ⟨b, hb, -⟩ := Option.map_eq_some_iff.mp h
  exact Option.isSome_iff_exists.mpr ⟨b, hb⟩

end Field

/-! ### The section of the analyzer -/

/-- What the analyzer's section of a file gives. -/
structure AnalyzerSection where
  enabled? : Option Bool := none
  command? : Option String := none
  args? : Option (List String) := none
  language? : Option String := none
  source? : Option String := none
  extensions? : Option (List String) := none
  deriving DecidableEq, Repr

namespace AnalyzerSection

def ofMembers? (members : List (String × Json)) : Option AnalyzerSection := do
  let enabled? ← Field.given? Json.asBool? members "enabled"
  let command? ← Field.given? Json.asString? members "command"
  let args? ← Field.given? texts? members "args"
  let language? ← Field.given? Json.asString? members "language_id"
  let source? ← Field.given? Json.asString? members "source"
  let extensions? ← Field.given? texts? members "file_extensions"
  return ⟨enabled?, command?, args?, language?, source?, extensions?⟩

/-- The section of a file; a file without it gives nothing. -/
def ofFile? (file : Json) : Option AnalyzerSection :=
  match file.get? "analyzer" with
  | none => some {}
  | some (.object members) => ofMembers? members
  | some _ => none

/-- The analyzer that a section describes, with defaults for what it does not give. -/
def config (s : AnalyzerSection) : Analyzer.Config where
  enabled := s.enabled?.getD true
  command := s.command?.getD "python"
  args := s.args?.getD ["-m", "pylint", "--from-stdin", "test.py"]
  language := s.language?.getD "python"
  source := s.source?.getD "pylint"
  extensions := s.extensions?.getD ["py", "pyi"]

end AnalyzerSection

variable {members top : List (String × Json)} {given : AnalyzerSection}

theorem analyzerFields_decide :
    Field.Decides analyzerFields "enabled" Json.asBool? Analyzer.Config.enabled ∧
      Field.Decides analyzerFields "command" Json.asString? Analyzer.Config.command ∧
      Field.Decides analyzerFields "args" texts? Analyzer.Config.args ∧
      Field.Decides analyzerFields "language_id" Json.asString? Analyzer.Config.language ∧
      Field.Decides analyzerFields "source" Json.asString? Analyzer.Config.source ∧
      Field.Decides analyzerFields "file_extensions" texts? Analyzer.Config.extensions := by
  refine ⟨⟨?_, ?_, ?_⟩, ⟨?_, ?_, ?_⟩, ⟨?_, ?_, ?_⟩, ⟨?_, ?_, ?_⟩, ⟨?_, ?_, ?_⟩, ⟨?_, ?_, ?_⟩⟩
  all_goals simp [analyzerFields, -Bool.exists_bool, -Bool.forall_bool]

/-- The members of a section give the analyzer that it describes, whatever their order. -/
theorem ofMembers?_analyzerFields (names : (members.map (·.1)).Nodup)
    (hgiven : AnalyzerSection.ofMembers? members = some given) :
    Field.ofMembers? analyzerFields {} members = some given.config := by
  simp only [AnalyzerSection.ofMembers?, Option.bind_eq_bind, Option.bind_eq_some_iff,
    Option.pure_def] at hgiven
  obtain ⟨enabled, henabled, command, hcommand, args, hargs, language, hlanguage, source, hsource,
    extensions, hextensions, heq⟩ := hgiven
  cases heq
  have hfits : ∃ c, Field.ofMembers? analyzerFields {} members = some c := by
    apply Field.exists_ofMembers?
    intro m hm field hfield hname a
    simp only [analyzerFields, List.mem_cons, List.not_mem_nil, or_false] at hfield
    obtain rfl | rfl | rfl | rfl | rfl | rfl := hfield
    all_goals rw [Option.isSome_map]
    · exact Field.isSome_decode?_of_mem names hm hname henabled
    · exact Field.isSome_decode?_of_mem names hm hname hcommand
    · exact Field.isSome_decode?_of_mem names hm hname hargs
    · exact Field.isSome_decode?_of_mem names hm hname hlanguage
    · exact Field.isSome_decode?_of_mem names hm hname hsource
    · exact Field.isSome_decode?_of_mem names hm hname hextensions
  obtain ⟨c, hread⟩ := hfits
  obtain ⟨ofEnabled, ofCommand, ofArgs, ofLanguage, ofSource, ofExtensions⟩ :=
    analyzerFields_decide
  have hconfig : c =
      AnalyzerSection.config ⟨enabled, command, args, language, source, extensions⟩ := by
    cases c
    rw [AnalyzerSection.config, Analyzer.Config.mk.injEq]
    exact ⟨ofEnabled.part_eq names hread henabled, ofCommand.part_eq names hread hcommand,
      ofArgs.part_eq names hread hargs, ofLanguage.part_eq names hread hlanguage,
      ofSource.part_eq names hread hsource, ofExtensions.part_eq names hread hextensions⟩
  rw [hread, hconfig]

theorem sections_decide : Field.Decides sections "analyzer"
    (fun v => (Field.ofJson? analyzerFields true {} v).map some) Settings.analyzer? := by
  constructor
  case isField => simp [sections]
  case own => simp [sections]
  case other => simp [sections]

/-- Whether a file has no section for the language model or one whose settings fit. -/
def llmFits (file : Json) : Bool :=
  (file.get? "llm").all fun v => (Field.ofJson? llmFields true {} v).isSome

/-- What a file gives for the analyzer's section is the analyzer that the section describes. -/
theorem exists_given?_analyzer (h : (Json.object top).NamesOnce)
    (hgiven : AnalyzerSection.ofFile? (.object top) = some given) :
    ∃ g, Field.given? (fun v => (Field.ofJson? analyzerFields true {} v).map some) top "analyzer" =
      some g ∧ (g.getD none).getD {} = given.config := by
  obtain ⟨-, hvalues⟩ : (top.map (·.1)).Nodup ∧ ∀ m ∈ top, m.2.NamesOnce := by
    cases h with
    | object names hvalues => exact ⟨names, hvalues⟩
  have hget : (Json.object top).get? "analyzer" = top.lookup "analyzer" := rfl
  rw [AnalyzerSection.ofFile?, hget] at hgiven
  split at hgiven
  · rename_i hnone
    cases hgiven
    exact ⟨none, Field.given?_of_none hnone, rfl⟩
  · rename_i members hsome
    obtain ⟨before, after, rfl, -⟩ := List.lookup_eq_some_iff.mp hsome
    have hmembers := hvalues ("analyzer", .object members) (by simp)
    cases hmembers with
    | object names _ =>
        have hread := ofMembers?_analyzerFields names hgiven
        refine ⟨some (some given.config), ?_, rfl⟩
        rw [Field.given?_of_some hsome, Field.ofJson?, hread]
        rfl
  · cases hgiven

/-- A file whose sections fit is read, and its analyzer is the one that the section describes. -/
theorem exists_ofToml? {text : String}
    (hgiven : (Toml.read? text).bind AnalyzerSection.ofFile? = some given)
    (hllm : (Toml.read? text).all llmFits) :
    ∃ s, ofToml? text = some s ∧ s.analyzer?.getD {} = given.config := by
  obtain ⟨file, hfile, hsection⟩ := Option.bind_eq_some_iff.mp hgiven
  obtain ⟨top, rfl⟩ : ∃ top, file = .object top := by
    obtain ⟨d, -, rfl⟩ := Option.map_eq_some_iff.mp hfile
    exact ⟨_, rfl⟩
  have honce := Toml.namesOnce_of_read? hfile
  obtain ⟨g, hg, hconfig⟩ := exists_given?_analyzer honce hsection
  have names : (top.map (·.1)).Nodup := by
    cases honce with
    | object names _ => exact names
  have hfits : ∃ s, Field.ofMembers? sections {} top = some s := by
    apply Field.exists_ofMembers?
    intro m hm field hfield hname a
    simp only [sections, List.mem_cons, List.not_mem_nil, or_false] at hfield
    obtain rfl | rfl := hfield
    · have hdecoded := Field.isSome_decode?_of_mem names hm hname hg
      rw [Option.isSome_map] at hdecoded ⊢
      exact hdecoded
    · have hlookup := Field.lookup_of_mem names hm
      rw [← hname] at hlookup
      rw [hfile, Option.all_some, llmFits, Json.get?, hlookup, Option.all_some] at hllm
      rw [Option.isSome_map]
      exact hllm
  obtain ⟨s, hs⟩ := hfits
  refine ⟨s, ?_, ?_⟩
  · rw [ofToml?, hfile]
    exact hs
  · rw [sections_decide.part_eq names hs hg]
    exact hconfig

/-! ### Main statement -/

/-- The analyzer with the references to the environment replaced in every text. -/
def expandedIn (env : Environment) (c : Analyzer.Config) : Analyzer.Config where
  enabled := c.enabled
  command := expanded env c.command
  args := c.args.map (expanded env)
  language := expanded env c.language
  source := expanded env c.source
  extensions := c.extensions.map (expanded env)

/--
The effective analyzer is the one that the file describes, with the references to the environment
replaced in every text but the extensions. So every reference is replaced if and only if replacing
them would change no extension.
-/
theorem analyzer_eq_expandedIn_iff {text : String}
    (hgiven : (Toml.read? text).bind AnalyzerSection.ofFile? = some given)
    (hllm : (Toml.read? text).all llmFits) :
    ∃ s, ofToml? text = some s ∧ ∀ env,
      s.analyzer env =
        { expandedIn env given.config with extensions := given.config.extensions } ∧
      (s.analyzer env = expandedIn env given.config ↔
        ∀ extension ∈ given.config.extensions, expanded env extension = extension) := by
  obtain ⟨s, hs, hconfig⟩ := exists_ofToml? hgiven hllm
  refine ⟨s, hs, fun env => ?_⟩
  have heffective : s.analyzer env =
      { expandedIn env given.config with extensions := given.config.extensions } := by
    rw [analyzer, hconfig]
    rfl
  refine ⟨heffective, ?_⟩
  rw [heffective, expandedIn, Analyzer.Config.mk.injEq]
  simp only [true_and]
  rw [eq_comm]
  conv => lhs; rhs; rw [← List.map_id given.config.extensions]
  exact List.map_inj_left

/-- Settings in another order than that of the record, with a name that means nothing. -/
theorem analyzer_eq_expandedIn_of_reordered :
    ∃ s, ofToml? ("[llm]\nmodel = \"m\"\n[analyzer]\nlevel = 1\n" ++
        "file_extensions = [\"py\"]\nargs = [\"$\x7bA\x7d\", \"-x\"]\nenabled = false\n") = some s ∧
      s.analyzer (.ofList [("A", "1")]) =
        ⟨false, "python", ["1", "-x"], "python", "pylint", ["py"]⟩ := by
  have hgiven : (Toml.read? ("[llm]\nmodel = \"m\"\n[analyzer]\nlevel = 1\n" ++
      "file_extensions = [\"py\"]\nargs = [\"$\x7bA\x7d\", \"-x\"]\nenabled = false\n")).bind
      AnalyzerSection.ofFile? =
        some ⟨some false, none, some ["$\x7bA\x7d", "-x"], none, none, some ["py"]⟩ := by
    decide +kernel
  obtain ⟨s, hs, h⟩ := analyzer_eq_expandedIn_iff hgiven (by decide +kernel)
  refine ⟨s, hs, ?_⟩
  rw [(h _).1]
  decide +kernel

/-- A reference in an extension stays, although the variable is set. -/
theorem analyzer_extension_not_expanded :
    (ofToml? "[analyzer]\nfile_extensions = [\"$\x7bEXT\x7d\"]\n").map
        (·.analyzer (.ofList [("EXT", "py")])) = some { extensions := ["$\x7bEXT\x7d"] } ∧
      ((Toml.read? "[analyzer]\nfile_extensions = [\"$\x7bEXT\x7d\"]\n").bind
        AnalyzerSection.ofFile?).map (fun s => expandedIn (.ofList [("EXT", "py")]) s.config) =
          some { extensions := ["py"] } := by
  constructor
  · decide +kernel
  · decide +kernel

end SaveLint.Settings
