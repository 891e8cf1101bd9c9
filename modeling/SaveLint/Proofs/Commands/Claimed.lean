import SaveLint.Proofs.Commands.Saving
import SaveLint.Proofs.Text.Lines

/-!
# Which files are analyzed

The analyzer claims a file if the extension of the file is one of its own, spelled with any dots in
front and in any case (`Analyzer.Config.IsClaimed`). Saving a file asks twice: the extension gives
it a language, and then the language has to be the analyzer's. The two agree on the files that are
claimed. A file that is not claimed has the language `unknownLanguage`, and this one is the
analyzer's if the configuration says so; every file is analyzed then (`Workplace.fst_save_iff`).
-/

namespace SaveLint

/-! ### Extensions of paths -/

namespace Path

/--
The path ends in a name, and the extension is what stands after the last dot of the name, which is
not the dot that starts it.
-/
def HasExtension (p : Path) (extension : List Char) : Prop :=
  ∃ name stem, p.components.getLast? = some (.name name) ∧
    name.toList = stem ++ '.' :: extension ∧ stem ≠ [] ∧ '.' ∉ extension

theorem fileName?_eq_some_iff {p : Path} {name : String} :
    p.fileName? = some name ↔ p.components.getLast? = some (.name name) := by
  rw [fileName?, Option.bind_eq_some_iff]
  constructor
  · rintro ⟨last, hlast, hname⟩
    cases last <;> cases hname
    exact hlast
  · exact fun hlast => ⟨_, hlast, rfl⟩

theorem extensionOf_eq_some_iff {name extension : List Char} :
    extensionOf name = some extension ↔
      ∃ stem, name = stem ++ '.' :: extension ∧ stem ≠ [] ∧ '.' ∉ extension := by
  constructor
  · intro h
    have hsplit := List.takeWhile_append_dropWhile (p := (· != '.')) (l := name.reverse)
    have hdot := List.head?_dropWhile_not (· != '.') name.reverse
    rw [extensionOf] at h
    split at h
    · rename_i dot c stem hdrop
      cases h
      rw [hdrop] at hsplit hdot
      obtain rfl : dot = '.' := by simpa using hdot
      refine ⟨(c :: stem).reverse, ?_, by simp, ?_⟩
      · have hname := congrArg List.reverse hsplit
        simpa using hname.symm
      · intro hmem
        have hother := List.mem_takeWhile_imp (List.mem_reverse.mp hmem)
        exact bne_iff_ne.mp hother rfl
    · cases h
  · rintro ⟨stem, rfl, hstem, hfree⟩
    have hpass : ∀ c ∈ extension.reverse, (c != '.') = true := by
      intro c hc
      exact bne_iff_ne.mpr fun heq => hfree (heq ▸ List.mem_reverse.mp hc)
    have hback : (stem ++ '.' :: extension).reverse = extension.reverse ++ '.' :: stem.reverse := by
      simp
    obtain ⟨c, rest, hrest⟩ := List.exists_cons_of_ne_nil (mt List.reverse_eq_nil_iff.mp hstem)
    rw [extensionOf, hback, List.dropWhile_append_of_pos hpass, List.takeWhile_append_of_pos hpass,
      hrest]
    simp

theorem extension?_eq_some_iff {p : Path} {extension : String} :
    p.extension? = some extension ↔ p.HasExtension extension.toList := by
  rw [extension?, Option.bind_eq_some_iff]
  constructor
  · rintro ⟨name, hname, hfound⟩
    obtain ⟨found, hextension, rfl⟩ := Option.map_eq_some_iff.mp hfound
    obtain ⟨stem, hsplit⟩ := extensionOf_eq_some_iff.mp hextension
    rw [HasExtension, String.toList_ofList]
    exact ⟨name, stem, fileName?_eq_some_iff.mp hname, hsplit⟩
  · rintro ⟨name, stem, hname, hsplit⟩
    refine ⟨name, fileName?_eq_some_iff.mpr hname, ?_⟩
    rw [extensionOf_eq_some_iff.mpr ⟨stem, hsplit⟩, Option.map_some, String.ofList_toList]

end Path

/-! ### Claims -/

namespace Analyzer.Config

/-- A configured extension, without the dots that it starts with. -/
def IsBare (written : String) (bare : List Char) : Prop :=
  ∃ dots : List Char, written.toList = dots ++ bare ∧ (∀ d ∈ dots, d = '.') ∧ bare.head? ≠ some '.'

/-- One of the configured extensions, without its leading dots, is that of the path in any case. -/
def IsClaimed (c : Config) (p : Path) : Prop :=
  ∃ extension, p.HasExtension extension ∧ ∃ written ∈ c.extensions, ∃ bare,
    IsBare written bare ∧ Text.lowerAscii bare = Text.lowerAscii extension

theorem isBare_iff {written : String} {bare : List Char} :
    IsBare written bare ↔ written.toList.dropWhile (· == '.') = bare := by
  constructor
  · rintro ⟨dots, hsplit, hdots, hhead⟩
    rw [hsplit, List.dropWhile_append_of_pos fun d hd => beq_iff_eq.mpr (hdots d hd)]
    cases bare with
    | nil => rfl
    | cons c rest =>
        have hc : c ≠ '.' := fun heq => hhead (congrArg some heq)
        exact List.dropWhile_cons_of_neg (by simpa using hc)
  · rintro rfl
    refine ⟨written.toList.takeWhile (· == '.'), List.takeWhile_append_dropWhile.symm, ?_, ?_⟩
    · intro d hd
      have hdot := List.mem_takeWhile_imp hd
      exact beq_iff_eq.mp hdot
    · intro hhead
      have hstop := List.head?_dropWhile_not (· == '.') written.toList
      rw [hhead] at hstop
      cases hstop

theorem claims_iff {c : Config} {p : Path} : c.claims p = true ↔ c.IsClaimed p := by
  have hextension (written : String) (extension : List Char) :
      (extensionKey written == Text.lowerAscii extension) = true ↔
        ∃ bare, IsBare written bare ∧ Text.lowerAscii bare = Text.lowerAscii extension := by
    simp [isBare_iff, extensionKey]
  rw [claims]
  constructor
  · intro h
    split at h
    · rename_i extension hp
      obtain ⟨written, hwritten, hequal⟩ := List.any_eq_true.mp h
      exact ⟨_, Path.extension?_eq_some_iff.mp hp, written, hwritten,
        (hextension written _).mp hequal⟩
    · cases h
  · rintro ⟨extension, hp, written, hwritten, hequal⟩
    rw [← String.toList_ofList (l := extension)] at hp hequal
    rw [Path.extension?_eq_some_iff.mpr hp]
    exact List.any_eq_true.mpr ⟨written, hwritten, (hextension written _).mpr hequal⟩

/-- The root has no extension. -/
theorem not_isClaimed_root (c : Config) : ¬c.IsClaimed ⟨"/"⟩ := by
  rw [← claims_iff]
  exact Bool.false_ne_true

end Analyzer.Config

/-! ### Saving -/

namespace Workplace

variable {w : Workplace} {p : Path}

/-- The language of a file is the analyzer's if the file is claimed or the analyzer's is unknown. -/
theorem accepts_documentOf (s : Session) (p : Path) :
    s.linter.accepts (s.documentOf p).language = true ↔
      s.config.enabled = true ∧ (s.config.IsClaimed p ∨ s.config.language = unknownLanguage) := by
  show (s.config.enabled && (s.documentOf p).language == s.config.language) = true ↔ _
  rw [Bool.and_eq_true, beq_iff_eq, ← Analyzer.Config.claims_iff, Session.documentOf,
    Document.language_ofFile, Analyzer.Config.languageOf?]
  cases s.config.claims p with
  | true => simp
  | false =>
      rw [if_neg Bool.false_ne_true, Option.getD_none]
      constructor
      · rintro ⟨henabled, hunknown⟩
        exact ⟨henabled, .inr hunknown.symm⟩
      · rintro ⟨henabled, hclaimed | hunknown⟩
        · cases hclaimed
        · exact ⟨henabled, hunknown.symm⟩

theorem fst_save (w : Workplace) (p : Path) : (w.save p).1 = (w.savedAs? p).isSome := by
  have hsave := w.save?_eq p
  cases hfile : w.savedAs? p with
  | none =>
      rw [hfile, Option.map_none] at hsave
      simp only [save, Session.save, hsave]
      rfl
  | some file =>
      rw [hfile, Option.map_some] at hsave
      simp only [save, Session.save, hsave]
      rfl

theorem fst_save_iff (w : Workplace) (p : Path) :
    (w.save p).1 = true ↔ (w.machine.identity? p).isSome = true ∧
      w.session.config.enabled = true ∧
      (w.session.config.IsClaimed p ∨ w.session.config.language = unknownLanguage) := by
  rw [fst_save, savedAs?, ← accepts_documentOf]
  cases w.session.linter.accepts (w.session.documentOf p).language <;> simp

/-- The warning for a file ends in a letter, so nothing of it is trimmed. -/
theorem skipLine_eq (w : Workplace) (p : Path) :
    w.skipLine p = ⟨.err,
      "warning: Skipping " ++ p.text ++ ": not a " ++ w.session.config.language ++ " file\n"⟩ := by
  have hmessage : w.session.skipMessage p =
      "Skipping " ++ p.text ++ ": not a " ++ w.session.config.language ++ " file" := by
    simp [Session.skipMessage, toString]
  have hletter : ¬Text.AllBlank " file".toList := by decide
  have hend : Text.trimEnd " file".toList = " file".toList := by decide
  rw [skipLine, hmessage, Text.trimmedEnd, String.toList_append,
    Text.trimEnd_append_of_not_allBlank _ hletter, hend, ← String.toList_append,
    String.ofList_toList]
  simp [← String.toList_inj]

theorem not_savedAs_iff : (w.save p).1 = false ↔ w.savedAs? p = none := by
  rw [fst_save, Option.isSome_eq_false_iff, Option.isNone_iff_eq_none]

/-! ### Main statement -/

/--
Saving a file that has an identity starts a run exactly if the analyzer is enabled and either the
file is claimed or the analyzer's language is the one of files that are not claimed. A file that is
saved in vain is warned of once; the session and the machine stay as they are. A run that is started
is the only thing that changes, and nothing is printed. So the files that are analyzed are those
that are claimed, exactly if an enabled analyzer has a language of its own.
-/
theorem save_started_iff (w : Workplace) : ∃ c : Analyzer.Config, c = w.session.config ∧
    (∀ p, (w.save p).1 = true ↔ (w.machine.identity? p).isSome = true ∧ c.enabled = true ∧
      (c.IsClaimed p ∨ c.language = unknownLanguage)) ∧
    (∀ p, (w.save p).1 = false → (w.save p).2.session = w.session ∧
      (w.save p).2.machine = w.machine ∧
      (w.save p).2.terminal = w.terminal.print .err
        ("warning: Skipping " ++ p.text ++ ": not a " ++ c.language ++ " file\n")) ∧
    (∀ p, (w.save p).1 = true → ∃ file, w.machine.identity? p = some file ∧
      (w.save p).2 = { w with session := { w.session with
        pipeline := w.session.pipeline.start file
          (Analyzer.Run.ofFile w.machine c w.session.pipeline.count file p) } }) ∧
    ((∀ p, (w.machine.identity? p).isSome = true →
        ((w.save p).1 = true ↔ c.enabled = true ∧ c.IsClaimed p)) ↔
      (c.enabled = true → c.language ≠ unknownLanguage)) := by
  refine ⟨_, rfl, w.fst_save_iff, ?_, ?_, ?_⟩
  · intro p hp
    rw [save_of_eq_none (not_savedAs_iff.mp hp)]
    refine ⟨rfl, rfl, ?_⟩
    have hline := congrArg Printed.text (w.skipLine_eq p)
    show w.terminal.print .err _ = _
    exact congrArg _ hline
  · intro p hp
    rw [fst_save] at hp
    obtain ⟨file, hfile⟩ := Option.isSome_iff_exists.mp hp
    exact ⟨file, (Option.ite_none_right_eq_some.mp hfile).2, save_of_eq_some hfile⟩
  · constructor
    · -- The root has an identity everywhere, and it is never claimed.
      intro hclaims henabled hunknown
      have hroot : (w.machine.identity? ⟨"/"⟩).isSome = true := by
        rw [w.machine.identity?_root]
        rfl
      have hsaved := (w.fst_save_iff ⟨"/"⟩).mpr ⟨hroot, henabled, .inr hunknown⟩
      exact Analyzer.Config.not_isClaimed_root _ ((hclaims _ hroot).mp hsaved).2
    · intro hknown p hidentity
      rw [w.fst_save_iff]
      constructor
      · rintro ⟨-, henabled, hclaimed | hunknown⟩
        · exact ⟨henabled, hclaimed⟩
        · exact (hknown henabled hunknown).elim
      · rintro ⟨henabled, hclaimed⟩
        exact ⟨hidentity, henabled, .inl hclaimed⟩

/-- With the default configuration, a script starts a run, and the root is skipped. -/
theorem save_started_iff_script : ∃ w : Workplace, w.session.config = {} ∧
    (w.save ⟨"/a.py"⟩).1 = true ∧ (w.save ⟨"/"⟩).1 = false ∧
    (w.save ⟨"/"⟩).2.terminal.printed = [⟨.err, "warning: Skipping /: not a python file\n"⟩] := by
  obtain ⟨w, hw⟩ : ∃ w : Workplace, w = ⟨.ofConfig {} (.ofConfig {}), {},
    .ofScript (bytesOf "x") fun _ _ => .error .unknown⟩ := ⟨_, rfl⟩
  obtain ⟨c, hc, hstarted, hskipped, -, hclaimed⟩ := w.save_started_iff
  have hdefault : c = {} := by
    rw [hc, hw]
    rfl
  have hidentity : (w.machine.identity? ⟨"/a.py"⟩).isSome = true := by
    rw [hw, Machine.identity?_ofScript]
    rfl
  have hpython : c.IsClaimed ⟨"/a.py"⟩ := by
    rw [hdefault]
    exact Analyzer.Config.claims_iff.mp (by decide)
  have hroot : (w.save ⟨"/"⟩).1 = false := by
    refine Bool.eq_false_iff.mpr fun hsaved => ?_
    have hexact := hclaimed.mpr (by rw [hdefault]; decide)
    exact c.not_isClaimed_root ((hexact _ ((hstarted _).mp hsaved).1).mp hsaved).2
  refine ⟨w, hc.symm.trans hdefault, ?_, hroot, ?_⟩
  · exact (hstarted _).mpr ⟨hidentity, by rw [hdefault], .inl hpython⟩
  · rw [(hskipped _ hroot).2.2, hdefault, hw]
    rfl

/-- An analyzer of plain texts runs on a script, which it does not claim. -/
theorem save_unclaimed : ∃ w : Workplace,
    w.session.config = { language := "plaintext", extensions := ["txt"] } ∧
    (w.machine.identity? ⟨"/a.py"⟩).isSome = true ∧
    ¬w.session.config.IsClaimed ⟨"/a.py"⟩ ∧ (w.save ⟨"/a.py"⟩).1 = true := by
  let c : Analyzer.Config := { language := "plaintext", extensions := ["txt"] }
  let w : Workplace := ⟨.ofConfig c (.ofConfig {}), {},
    .ofScript (bytesOf "x") fun _ _ => .error .unknown⟩
  have hidentity : (w.machine.identity? ⟨"/a.py"⟩).isSome = true := by
    rw [Machine.identity?_ofScript]
    rfl
  refine ⟨w, rfl, hidentity, ?_, ?_⟩
  · exact mt Analyzer.Config.claims_iff.mpr (by decide)
  · exact (w.fst_save_iff _).mpr ⟨hidentity, rfl, .inr rfl⟩

end Workplace

end SaveLint
