/-!
# The prompt for a fix

The prompt asks for a corrected version of a document, given its text and the last report of the
analyzer. It is made from a template with a slot for each of the two. The slots are filled in one
pass from left to right: what was put into a slot is not searched for the next one, so marks for
slots inside the text or the report mean nothing (`text_eq`).
-/

namespace SaveLint.Llm.FixPrompt

/-! ### The template -/

def beforeCode : String := "\n### Fix the following Python code without changing its logic:\n"

def beforeReport : String := "\n\n### Issues detected by Pylint:\n"

def afterReport : String :=
  "\n\n### Instructions:\n" ++
  "1. Fix the above code by addressing all Pylint errors and warnings.\n" ++
  "2. Do not alter the core logic or intended functionality of the code.\n" ++
  "3. If variable or function names are unclear or ambiguous, replace them with more " ++
  "descriptive and appropriate names.\n\n" ++
  "Only return the corrected code without any explanations, comments, or additional text.\n"

def codeSlot : String := "\x7b\x7bcode\x7d\x7d"

def reportSlot : String := "\x7b\x7breport\x7d\x7d"

def template : String := beforeCode ++ codeSlot ++ beforeReport ++ reportSlot ++ afterReport

/-! ### Filling the slots -/

/-- The text before the first occurrence of a mark, which is not empty, and the text after it. -/
def splitAt? (mark : List Char) : List Char → Option (List Char × List Char)
  | [] => none
  | c :: cs =>
    if mark.isPrefixOf (c :: cs) then some ([], (c :: cs).drop mark.length)
    else (splitAt? mark cs).map (Prod.map (c :: ·) id)

/-- Puts values into slots, one after the other; a slot that is not there is passed over. -/
def fill (cs : List Char) : List (String × String) → List Char
  | [] => cs
  | (slot, value) :: slots =>
    match splitAt? slot.toList cs with
    | some (before, after) => before ++ value.toList ++ fill after slots
    | none => fill cs slots

/-- The prompt for a document and its report. -/
def text (code report : String) : String :=
  String.ofList (fill template.toList [(codeSlot, code), (reportSlot, report)])

/-- A mark is found right behind a text that does not hold its first character. -/
theorem splitAt?_append {first : Char} {mark before : List Char} (hmark : mark.head? = some first)
    (h : first ∉ before) (after : List Char) :
    splitAt? mark (before ++ (mark ++ after)) = some (before, after) := by
  obtain ⟨rest, rfl⟩ := List.head?_eq_some_iff.mp hmark
  induction before with
  | nil => simp [splitAt?]
  | cons c before ih =>
    have hc : first ≠ c := fun heq => h (heq ▸ List.mem_cons_self)
    have hbefore : first ∉ before := fun hmem => h (List.mem_cons_of_mem c hmem)
    have hstart : ¬ (first :: rest).isPrefixOf (c :: (before ++ (first :: rest ++ after))) := by
      simp [hc]
    rw [List.cons_append, splitAt?, if_neg hstart, ih hbefore]
    rfl

theorem fill_cons {slot value : String} {slots : List (String × String)}
    {cs before after : List Char} (h : splitAt? slot.toList cs = some (before, after)) :
    fill cs ((slot, value) :: slots) = before ++ value.toList ++ fill after slots := by
  rw [fill, h]

/-- The prompt has the text and the report in the places of the slots, whatever they hold. -/
theorem text_eq (code report : String) :
    text code report = beforeCode ++ code ++ beforeReport ++ report ++ afterReport := by
  have hcodeSlot : codeSlot.toList.head? = some '\x7b' := by decide
  have hreportSlot : reportSlot.toList.head? = some '\x7b' := by decide
  have hbeforeCode : '\x7b' ∉ beforeCode.toList := by simp [beforeCode]
  have hbeforeReport : '\x7b' ∉ beforeReport.toList := by simp [beforeReport]
  have htemplate : template.toList = beforeCode.toList ++ (codeSlot.toList ++
      (beforeReport.toList ++ (reportSlot.toList ++ afterReport.toList))) := by
    simp only [template, String.toList_append, List.append_assoc]
  rw [text, htemplate, fill_cons (splitAt?_append hcodeSlot hbeforeCode _),
    fill_cons (splitAt?_append hreportSlot hbeforeReport _), fill]
  simp only [String.ofList_append, String.ofList_toList, String.append_assoc]

end SaveLint.Llm.FixPrompt
