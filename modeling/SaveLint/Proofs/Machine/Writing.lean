import SaveLint.Machine.Basic

/-!
# Reading what was written

Writing a file puts a node under one name and may change the time of the directory above it. The
places where a file can be written (`Place.Takes`) hold no directory and no link, so a walk that has
ended at such a place goes the same way afterwards, links included, and it finds the new node
(`walk_put`). What is read then is what was written.
-/

namespace SaveLint

namespace FileSystem

variable {fs fs' : FileSystem} {names other : Names} {node : Node} {links : Nat} {here : Names}
  {pieces : List String} {place : Place}

/-! ### Nodes -/

theorem lookup_cons (key other : Names) (node : Node) (entries : List (Names × Node)) :
    ((key, node) :: entries).lookup other =
      if other = key then some node else entries.lookup other := by
  rw [List.lookup_cons]
  by_cases h : other = key
  · rw [if_pos h, beq_iff_eq.mpr h]
  · rw [if_neg h, beq_eq_false_iff_ne.mpr h]

theorem lookup_setEntry (names other : Names) (node : Node) (entries : List (Names × Node)) :
    (setEntry names node entries).lookup other =
      if other = names then some node else entries.lookup other := by
  induction entries with
  | nil => exact lookup_cons names other node []
  | cons entry entries ih =>
      obtain ⟨key, old⟩ := entry
      rw [setEntry, lookup_cons]
      by_cases hkey : key = names
      · subst hkey
        rw [if_pos rfl, lookup_cons]
        by_cases hother : other = key
        · rw [if_pos hother, if_pos hother]
        · rw [if_neg hother, if_neg hother, if_neg hother]
      · rw [if_neg hkey, lookup_cons, ih]
        by_cases hother : other = key
        · have hne : other ≠ names := fun h => hkey (hother.symm.trans h)
          rw [if_pos hother, if_neg hne, if_pos hother]
        · rw [if_neg hother, if_neg hother]

theorem node?_put_self (hnames : names ≠ []) : (fs.put names node).node? names = some node := by
  rw [node?, if_neg hnames]
  exact (lookup_setEntry _ _ _ _).trans (if_pos rfl)

/-- No other node is changed, except for the time of a directory. -/
theorem node?_put_of_ne (hne : other ≠ names) :
    (fs.put names node).node? other = fs.node? other ∨
      ∃ t t', fs.node? other = some (.directory t) ∧
        (fs.put names node).node? other = some (.directory t') := by
  by_cases hroot : other = []
  · subst hroot
    exact .inl rfl
  · have hput : (fs.put names node).node? other = (fs.put names node).entries.lookup other :=
      if_neg hroot
    rw [hput, node?, if_neg hroot, put]
    dsimp only
    rw [lookup_setEntry, if_neg hne]
    -- The entry for the directory above, if it has one, is the only other one that is set.
    split
    · rename_i hparent
      split
      · exact .inl rfl
      · rename_i hparent'
        rw [lookup_setEntry]
        by_cases hother : other = names.dropLast
        · rw [node?, if_neg hparent', ← hother] at hparent
          exact .inr ⟨_, _, hparent, if_pos hother⟩
        · exact .inl (if_neg hother)
    · exact .inl rfl

/-! ### Places -/

/-- A file can be put under names if they are not those of the root and hold nothing or a file. -/
structure Admits (fs : FileSystem) (names : Names) : Prop where
  ne_root : names ≠ []
  isFile : ∀ node, fs.node? names = some node →
    ∃ content modified executable, node = .file content modified executable

theorem admits_of_file {content : Bytes} {modified : Stamp} {executable : Bool}
    (h : fs.node? names = some (.file content modified executable)) : fs.Admits names where
  ne_root := by
    rintro rfl
    cases h
  isFile := fun node hnode => ⟨content, modified, executable, Option.some.inj (hnode.symm.trans h)⟩

theorem admits_of_none (hnames : names ≠ []) (h : fs.node? names = none) : fs.Admits names where
  ne_root := hnames
  isFile := fun _ hnode => nomatch hnode.symm.trans h

/-- A node that is not a file stands under other names. -/
theorem Admits.ne_of_node? (h : fs.Admits names) (hnode : fs.node? other = some node)
    (hfile : ∀ content modified executable, node ≠ .file content modified executable) :
    other ≠ names := by
  rintro rfl
  obtain ⟨content, modified, executable, heq⟩ := h.isFile node hnode
  exact hfile content modified executable heq

/-- A place where a file can be written under the given names. -/
inductive Place.Takes (names : Names) : Place → Prop where
  | free : Takes names (.free names)
  | file {content : Bytes} {modified : Stamp} {executable : Bool} :
      Takes names (.found names (.file content modified executable))

/--
A walk to a place where a file can be written leads to the file once it was put there. By induction
along the walk: the nodes on the way are directories and links, so they are not the one that is put.
-/
theorem walk_put (h : fs.walk links here pieces = .ok place) (hplace : place.Takes names)
    (content : Bytes) (modified : Stamp) (executable : Bool) : fs.Admits names ∧
      (fs.put names (.file content modified executable)).walk links here pieces =
        .ok (.found names (.file content modified executable)) := by
  have hself (hadmits : fs.Admits names) :
      (fs.put names (.file content modified executable)).node? names = _ :=
    node?_put_self hadmits.ne_root
  fun_induction FileSystem.walk fs links here pieces with
  | case1 links here =>
      cases h
      cases hnode : fs.node? here with
      | none =>
          rw [hnode] at hplace
          cases hplace
      | some node =>
          rw [hnode] at hplace
          cases hplace
          have hadmits := admits_of_file hnode
          refine ⟨hadmits, ?_⟩
          rw [walk, hself hadmits]
          rfl
  | case2 links here piece rest hidle ih =>
      obtain ⟨hadmits, hwalk⟩ := ih h
      refine ⟨hadmits, ?_⟩
      rw [walk, if_pos hidle, hwalk]
  | case3 links here rest hidle ih =>
      obtain ⟨hadmits, hwalk⟩ := ih h
      refine ⟨hadmits, ?_⟩
      rw [walk, if_neg hidle, if_pos rfl, hwalk]
  | case4 => cases h
  | case5 links here piece hidle hup hlength hnode =>
      cases h
      cases hplace
      have hadmits := admits_of_none (by simp) hnode
      refine ⟨hadmits, ?_⟩
      rw [walk, if_neg hidle, if_neg hup, if_neg hlength, hself hadmits]
      rfl
  | case6 => cases h
  | case7 links here piece rest hidle hup hlength t hnode ih =>
      obtain ⟨hadmits, hwalk⟩ := ih h
      have hne : here ++ [piece] ≠ names := by
        refine hadmits.ne_of_node? hnode ?_
        rintro _ _ _ ⟨⟩
      obtain ⟨t', hnode'⟩ : ∃ t', (fs.put names (.file content modified executable)).node?
          (here ++ [piece]) = some (.directory t') := by
        rcases node?_put_of_ne hne with heq | ⟨_, t', -, heq⟩
        · exact ⟨t, heq.trans hnode⟩
        · exact ⟨t', heq⟩
      refine ⟨hadmits, ?_⟩
      rw [walk, if_neg hidle, if_neg hup, if_neg hlength, hnode']
      exact hwalk
  | case8 links here piece hidle hup hlength content' t executable' hnode =>
      cases h
      cases hplace
      have hadmits := admits_of_file hnode
      refine ⟨hadmits, ?_⟩
      rw [walk, if_neg hidle, if_neg hup, if_neg hlength, hself hadmits]
      rfl
  | case9 => cases h
  | case10 => cases h
  | case11 here piece rest hidle hup hlength target hnode links start ih =>
      -- The link still leads to its target, and the rest of the walk is the one of before.
      obtain ⟨hadmits, hwalk⟩ := ih h
      have hne : here ++ [piece] ≠ names := by
        refine hadmits.ne_of_node? hnode ?_
        rintro _ _ _ ⟨⟩
      have hnode' : (fs.put names (.file content modified executable)).node? (here ++ [piece]) =
          some (.link target) := by
        rcases node?_put_of_ne hne with heq | ⟨_, _, hdirectory, -⟩
        · exact heq.trans hnode
        · cases hdirectory.symm.trans hnode
      refine ⟨hadmits, ?_⟩
      rw [walk, if_neg hidle, if_neg hup, if_neg hlength, hnode']
      exact hwalk

/-! ### Writing -/

/-- What a write does: it puts a file at the place of the path, which ends in no slash. -/
theorem write_eq_ok {p : Path} {content : Bytes} (h : fs.write p content = .ok fs') :
    ∃ place names modified executable, endsInSlash p = false ∧ fs.locate p = .ok place ∧
      place.Takes names ∧ fs' = fs.put names (.file content modified executable) := by
  unfold write at h
  cases hslash : endsInSlash p with
  | true =>
      -- A path that ends in a slash leads to an error in each case.
      rw [hslash, if_pos rfl] at h
      split at h
      · cases h
      · rename_i above _
        cases habove : fs.lookUp above with
        | error e =>
            rw [habove] at h
            cases h
        | ok found =>
            rw [habove] at h
            simp only [bind, Except.bind] at h
            split at h <;> cases h
  | false =>
      rw [hslash, if_neg Bool.false_ne_true] at h
      cases hplace : fs.locate p with
      | error e =>
          rw [hplace] at h
          cases h
      | ok place =>
          rw [hplace] at h
          refine ⟨place, ?_⟩
          cases place with
          | free names =>
              cases h
              exact ⟨names, _, _, rfl, rfl, .free, rfl⟩
          | found names node =>
              cases node with
              | file old modified executable =>
                  cases h
                  exact ⟨names, _, _, rfl, rfl, .file, rfl⟩
              | directory modified => cases h
              | link target => cases h

theorem locate_eq_ok {p : Path} (h : fs.locate p = .ok place) :
    fs.walk linkLimit [] (piecesOf p) = .ok place ∧
      ∀ fs' : FileSystem, fs'.locate p = fs'.walk linkLimit [] (piecesOf p) := by
  unfold locate at h ⊢
  split at h
  · cases h
  · split at h
    · cases h
    · split at h
      · cases h
      · rename_i hnul hempty hlength
        refine ⟨h, fun fs' => ?_⟩
        rw [if_neg hnul, if_neg hempty, if_neg hlength]

/-- A file that was written is read as it was written. -/
theorem read_of_write {p : Path} {content : Bytes} (h : fs.write p content = .ok fs') :
    fs'.read p = .ok content := by
  obtain ⟨place, names, modified, executable, -, hplace, htakes, rfl⟩ := write_eq_ok h
  obtain ⟨hwalk, hlocate⟩ := locate_eq_ok hplace
  obtain ⟨-, hput⟩ := walk_put hwalk htakes content modified executable
  rw [read, lookUp, hlocate, hput]
  rfl

end FileSystem

namespace Machine

/-- A file that was written on a machine holds what was written. -/
theorem read_of_write {m m' : Machine} {p : Path} {content : Bytes}
    (h : m.write p content = .ok m') : m'.files.read (m'.resolved p) = .ok content := by
  rw [write] at h
  cases hfiles : m.files.write (m.resolved p) content with
  | error e =>
      rw [hfiles] at h
      cases h
  | ok files =>
      rw [hfiles] at h
      cases h
      exact FileSystem.read_of_write hfiles

/-! ### A machine with one file -/

/-- A machine with one script, right below the root. -/
def ofScript (content : Bytes) (programs : String → Program) : Machine where
  files := { entries := [(["a.py"], .file content (.clock 0) false)] }
  programs := programs

variable (content : Bytes) (programs : String → Program)

theorem locate_ofScript :
    (ofScript content programs).files.locate ((ofScript content programs).resolved ⟨"/a.py"⟩) =
      .ok (.found ["a.py"] (.file content (.clock 0) false)) := by
  have hwalk : (ofScript content programs).files.walk FileSystem.linkLimit [] ["", "a.py"] =
      .ok (.found ["a.py"] (.file content (.clock 0) false)) := by
    rw [FileSystem.walk, if_pos (.inl rfl), FileSystem.walk, if_neg (by decide),
      if_neg (by decide), if_neg (by decide)]
    rfl
  have hresolved : (ofScript content programs).resolved ⟨"/a.py"⟩ = ⟨"/a.py"⟩ := rfl
  rw [hresolved]
  exact hwalk

theorem lookUp_ofScript :
    (ofScript content programs).files.lookUp ((ofScript content programs).resolved ⟨"/a.py"⟩) =
      .ok (["a.py"], .file content (.clock 0) false) := by
  rw [FileSystem.lookUp, locate_ofScript]
  rfl

theorem write_ofScript (new : Bytes) :
    ∃ m, (ofScript content programs).write ⟨"/a.py"⟩ new = .ok m := by
  have hslash : FileSystem.endsInSlash ((ofScript content programs).resolved ⟨"/a.py"⟩) =
      false := by
    show FileSystem.endsInSlash ⟨"/a.py"⟩ = false
    decide
  rw [write, FileSystem.write, hslash, if_neg Bool.false_ne_true, locate_ofScript]
  exact ⟨_, rfl⟩

theorem isAbsolute_script : (⟨"/a.py"⟩ : Path).isAbsolute = true := by decide

theorem identity?_ofScript :
    (ofScript content programs).identity? ⟨"/a.py"⟩ = some ⟨⟨"/a.py"⟩, isAbsolute_script⟩ := by
  rw [identity?_of_lookUp (by decide) (lookUp_ofScript content programs)]
  rfl

theorem readText_ofScript {text : String} (htext : stringOf? content = some text) :
    (ofScript content programs).readText ⟨"/a.py"⟩ = .ok text :=
  readText_of_lookUp (lookUp_ofScript content programs) htext

theorem modified?_ofScript :
    (ofScript content programs).modified? ⟨"/a.py"⟩ = some (.clock 0) := by
  rw [modified?, FileSystem.modified?, lookUp_ofScript]
  rfl

/-- A slash at the end stands for a directory, which the script is not. -/
theorem modified?_ofScript_slash : (ofScript content programs).modified? ⟨"/a.py/"⟩ = none := by
  have hwalk : (ofScript content programs).files.walk FileSystem.linkLimit [] ["", "a.py", ""] =
      .error .notADirectory := by
    rw [FileSystem.walk, if_pos (.inl rfl), FileSystem.walk, if_neg (by decide),
      if_neg (by decide), if_neg (by decide)]
    rfl
  have hlocate : (ofScript content programs).files.locate ⟨"/a.py/"⟩ = .error .notADirectory :=
    hwalk
  have hresolved : (ofScript content programs).resolved ⟨"/a.py/"⟩ = ⟨"/a.py/"⟩ := rfl
  rw [modified?, FileSystem.modified?, FileSystem.lookUp, hresolved, hlocate]
  rfl

end Machine

end SaveLint
