import SaveLint.Llm.Client
import SaveLint.Proofs.Settings.Expansion
import SaveLint.Proofs.Text.Lines
import SaveLint.Settings.Basic
import Mathlib.Data.List.Infix

/-!
# The connection to the language model

A URL has a normal form: no blanks around it, and a scheme, which is `http` if the URL has none
(`Llm.normalized`). The base URL of the effective connection is always in normal form. It is that of
the host, if one is given that is not blank, and then nothing else has a say in it; otherwise it is
that of the file, with the references to the environment replaced (`llmWithHost_baseUrl`). The host
decides nothing but the base URL. Requests go to the base URL without the slashes at its end, so no
slash is doubled where the path begins (`Llm.Config.exists_endpoint`).
-/

namespace SaveLint

/-! ### Normal forms of URLs -/

namespace Llm

/-- The mark between a scheme and the rest of a URL. -/
def schemeMark : List Char := [':', '/', '/']

theorem hasScheme_iff {cs : List Char} : hasScheme cs = true ↔ schemeMark <:+: cs := by
  fun_induction hasScheme cs with
  | case1 => simp [schemeMark]
  | case2 rest =>
      refine iff_of_true rfl ?_
      exact (List.prefix_append schemeMark rest).isInfix
  | case3 c rest hno ih =>
      rw [ih, List.infix_cons_iff]
      constructor
      · exact .inr
      · rintro (⟨after, hafter⟩ | hrest)
        · -- The mark would be at the front, where the scan has not found it.
          obtain ⟨rfl, rfl⟩ := List.cons.inj hafter
          exact (hno after rfl rfl).elim
        · exact hrest

/-- A URL without the blanks around it, and with `http` as its scheme if it has none. -/
def normalized (url : String) : String :=
  if schemeMark <:+: (Text.trimmed url).toList then Text.trimmed url
  else "http://" ++ Text.trimmed url

theorem ofList_withScheme (url : String) :
    String.ofList (withScheme url.toList) = normalized url := by
  rw [withScheme, normalized, Text.toList_trimmed]
  by_cases h : schemeMark <:+: Text.trim url.toList
  · rw [if_pos h, if_pos (hasScheme_iff.mpr h)]
    rfl
  · rw [if_neg h, if_neg (mt hasScheme_iff.mp h), ← String.toList_inj, String.toList_ofList,
      String.toList_append, Text.toList_trimmed]
    rfl

variable (url : String)

/-- The characters of a normal form: those of the trimmed URL, maybe after a scheme. -/
theorem normalized_cases :
    (schemeMark <:+: Text.trim url.toList ∧ (normalized url).toList = Text.trim url.toList) ∨
      (normalized url).toList = "http".toList ++ schemeMark ++ Text.trim url.toList := by
  rw [normalized, Text.toList_trimmed]
  split
  · rename_i hmark
    exact .inl ⟨hmark, Text.toList_trimmed url⟩
  · right
    rw [String.toList_append, Text.toList_trimmed]
    rfl

/-- A URL in normal form has a scheme. -/
theorem schemeMark_infix_normalized : schemeMark <:+: (normalized url).toList := by
  rcases normalized_cases url with ⟨hmark, heq⟩ | heq
  · exact heq ▸ hmark
  · exact ⟨_, _, heq.symm⟩

/-- A URL in normal form has no blanks around it. -/
theorem isBlank_of_ends_normalized {c : Char} (h : (normalized url).toList.head? = some c ∨
    (normalized url).toList.getLast? = some c) : Text.isBlank c = false := by
  rcases normalized_cases url with ⟨-, heq⟩ | heq
  · rw [heq] at h
    rcases h with hhead | hlast
    · exact Text.isBlank_of_head?_trim hhead
    · exact Text.isBlank_of_getLast?_trim hlast
  · rw [heq] at h
    rcases h with hhead | hlast
    · cases hhead
      decide
    · -- The last character is the URL's own, or the second slash if nothing else is there.
      rw [List.getLast?_append, Option.or_eq_some_iff] at hlast
      rcases hlast with hlast | ⟨-, hslash⟩
      · exact Text.isBlank_of_getLast?_trim hlast
      · cases hslash
        decide

/-- A URL in normal form is its own normal form. -/
theorem normalized_normalized : normalized (normalized url) = normalized url := by
  have htrim : Text.trimmed (normalized url) = normalized url := by
    rw [Text.trimmed, Text.trim_eq_self (fun _ h => isBlank_of_ends_normalized url (.inl h))
      fun _ h => isBlank_of_ends_normalized url (.inr h), String.ofList_toList]
  conv => lhs; rw [normalized, htrim]
  exact if_pos (schemeMark_infix_normalized url)

theorem normalized_trimmed : normalized (Text.trimmed url) = normalized url := by
  have htrim : Text.trimmed (Text.trimmed url) = Text.trimmed url := by
    rw [Text.trimmed, Text.toList_trimmed, Text.trim_trim, Text.trimmed]
  rw [normalized, htrim, normalized]

theorem Config.withBaseUrl_eq (c : Config) :
    c.withBaseUrl url = { c with baseUrl := normalized url } := by
  rw [withBaseUrl, ofList_withScheme]

/-- Requests go to the base URL without the slashes at its end, and then to the path of chats. -/
theorem Config.exists_endpoint (c : Config) : ∃ stem slashes : List Char,
    c.baseUrl.toList = stem ++ slashes ∧ (∀ d ∈ slashes, d = '/') ∧ stem.getLast? ≠ some '/' ∧
    c.endpoint = String.ofList stem ++ "/api/chat" := by
  refine ⟨c.baseUrl.toList.rdropWhile (· == '/'), c.baseUrl.toList.rtakeWhile (· == '/'),
    List.rdropWhile_append_rtakeWhile.symm, ?_, ?_, rfl⟩
  · intro d hd
    have hslash := List.mem_rtakeWhile_imp hd
    exact beq_iff_eq.mp hslash
  · intro hlast
    have hstop := List.head?_dropWhile_not (· == '/') c.baseUrl.toList.reverse
    rw [← List.getLast?_reverse] at hstop
    rw [List.rdropWhile] at hlast
    rw [hlast] at hstop
    cases hstop

end Llm

namespace Settings

/-! ### The effective connection -/

variable {host : Option String}

theorem host?_of_blank (h : ∀ given, host = some given → Text.AllBlank given.toList) :
    host? host = none := by
  cases host with
  | none => rfl
  | some given =>
      have hempty := Text.trimmed_eq_empty_iff.mpr (h given rfl)
      rw [host?, Option.map_some, hempty]
      rfl

theorem host?_of_not_blank {given : String} (h : ¬Text.AllBlank given.toList) :
    host? (some given) = some (Text.trimmed given) := by
  have hne := mt Text.trimmed_eq_empty_iff.mp h
  rw [host?, Option.map_some, Option.filter_some, if_pos (bne_iff_ne.mpr hne)]

/-- What the effective connection is made of. -/
theorem llmWithHost_eq (s : Settings) (env : Environment) (host : Option String) :
    s.llmWithHost env host =
      { s.llm?.getD {} with
        baseUrl := Llm.normalized ((host? host).getD (expanded env (s.llm?.getD {}).baseUrl))
        model := expanded env (s.llm?.getD {}).model } := by
  simp only [llmWithHost, Llm.Config.withBaseUrl_eq]

theorem baseUrl_of_blank (s : Settings) (env : Environment)
    (h : ∀ given, host = some given → Text.AllBlank given.toList) :
    (s.llmWithHost env host).baseUrl =
      Llm.normalized (expanded env (s.llm?.getD {}).baseUrl) := by
  rw [llmWithHost_eq, host?_of_blank h, Option.getD_none]

/-- A host that is not blank decides the base URL alone. -/
theorem baseUrl_of_not_blank (s : Settings) (env : Environment) {given : String}
    (h : ¬Text.AllBlank given.toList) :
    (s.llmWithHost env (some given)).baseUrl = Llm.normalized given := by
  rw [llmWithHost_eq, host?_of_not_blank h, Option.getD_some, Llm.normalized_trimmed]

/-! ### Main statement -/

/--
If a host is given that is not blank, the base URL is the normal form of this host, in every
environment and for every file. Otherwise it is the normal form of what the file or the default
says, with the references to the environment replaced. The model is that of the file or the default,
with the references replaced, and the timeout and the number of retries are as they are there,
whatever host is given. A normal form has a scheme, has no blanks around it and is its own normal
form. Requests go to the base URL without the slashes at its end, and then to the path of chats.
-/
theorem connection_of_host (s : Settings) (env : Environment) (host : Option String) :
    ∃ file c : Llm.Config, file = s.llm?.getD {} ∧ c = s.llmWithHost env host ∧
      (∀ given, host = some given → ¬Text.AllBlank given.toList →
        ∀ s' env', (llmWithHost s' env' host).baseUrl = Llm.normalized given) ∧
      ((∀ given, host = some given → Text.AllBlank given.toList) →
        c.baseUrl = Llm.normalized (expanded env file.baseUrl)) ∧
      c.model = expanded env file.model ∧
      c.timeoutSeconds = file.timeoutSeconds ∧ c.maxRetries = file.maxRetries ∧
      Llm.schemeMark <:+: c.baseUrl.toList ∧
      (∀ d, c.baseUrl.toList.head? = some d ∨ c.baseUrl.toList.getLast? = some d →
        Text.isBlank d = false) ∧
      (∀ url, Llm.normalized (Llm.normalized url) = Llm.normalized url) ∧
      (∃ stem slashes : List Char, c.baseUrl.toList = stem ++ slashes ∧
        (∀ d ∈ slashes, d = '/') ∧ stem.getLast? ≠ some '/' ∧
        c.endpoint = String.ofList stem ++ "/api/chat" ∧
        (Llm.Client.ofConfig c).endpoint = .ofString c.endpoint) ∧
      s.llm env = s.llmWithHost env (env hostVariable) := by
  obtain ⟨c, hc⟩ : ∃ c, c = s.llmWithHost env host := ⟨_, rfl⟩
  have heq := hc.trans (s.llmWithHost_eq env host)
  obtain ⟨url, hbase⟩ : ∃ url, c.baseUrl = Llm.normalized url := ⟨_, by rw [heq]⟩
  refine ⟨_, c, rfl, hc, ?_, ?_, by rw [heq], by rw [heq], by rw [heq], ?_, ?_,
    Llm.normalized_normalized, ?_, rfl⟩
  · rintro given rfl hfilled s' env'
    exact baseUrl_of_not_blank s' env' hfilled
  · intro hblank
    rw [hc, baseUrl_of_blank s env hblank]
  · rw [hbase]
    exact Llm.schemeMark_infix_normalized url
  · intro d hd
    rw [hbase] at hd
    exact Llm.isBlank_of_ends_normalized url hd
  · obtain ⟨stem, slashes, hsplit, hslashes, hstem, hendpoint⟩ := c.exists_endpoint
    refine ⟨stem, slashes, hsplit, hslashes, hstem, hendpoint, ?_⟩
    rw [Llm.Client.ofConfig]

/-- A host without a scheme, with blanks and slashes around it, against a file that refers to it. -/
theorem connection_of_host_bare :
    ∃ s env c, s = { llm? := some { baseUrl := "$\x7bOLLAMA_HOST\x7d/x", model := "$\x7bM\x7d" } } ∧
      env = Environment.ofList [("OLLAMA_HOST", " gpu:1// "), ("M", "m")] ∧
      c = llm s env ∧ ¬Text.AllBlank " gpu:1// ".toList ∧
      c.baseUrl = "http://gpu:1//" ∧ c.model = "m" ∧ c.endpoint = "http://gpu:1/api/chat" := by
  obtain ⟨s, hs⟩ : ∃ s : Settings,
      s = { llm? := some { baseUrl := "$\x7bOLLAMA_HOST\x7d/x", model := "$\x7bM\x7d" } } :=
    ⟨_, rfl⟩
  obtain ⟨env, henv⟩ : ∃ env, env = Environment.ofList [("OLLAMA_HOST", " gpu:1// "), ("M", "m")] :=
    ⟨_, rfl⟩
  have hfilled : ¬Text.AllBlank " gpu:1// ".toList := by decide
  obtain ⟨file, c, hfile, hc, hhost, -, hmodel, -, -, -, -, -, -, hllm⟩ :=
    connection_of_host s env (some " gpu:1// ")
  have hgiven : env hostVariable = some " gpu:1// " := by
    rw [henv]
    decide +kernel
  have hbase : c.baseUrl = "http://gpu:1//" := by
    rw [hc, hhost _ rfl hfilled]
    decide +kernel
  refine ⟨s, env, c, hs, henv, ?_, hfilled, hbase, ?_, ?_⟩
  · rw [hc, hllm, hgiven]
  · rw [hmodel, hfile, hs, henv]
    decide +kernel
  · rw [Llm.Config.endpoint, hbase]
    decide +kernel

end Settings

end SaveLint
