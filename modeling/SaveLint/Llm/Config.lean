import SaveLint.Text.Blank

/-!
# Connection to the language model

Where the server is, which model answers, how long a request may take and how often it is repeated.
A base URL may be given without its scheme, as `host:port`.
-/

namespace SaveLint.Llm

structure Config where
  baseUrl : String := "http://127.0.0.1:11434"
  model : String := "codellama"
  timeoutSeconds : Nat := 300
  maxRetries : UInt32 := 2
  deriving DecidableEq, Repr, Inhabited

/-- Whether a text holds the mark between a scheme and the rest of a URL. -/
def hasScheme (cs : List Char) : Bool :=
  match cs with
  | [] => false
  | ':' :: '/' :: '/' :: _ => true
  | _ :: rest => hasScheme rest

/-- A URL without the blanks around it, and with the scheme `http` if it has none. -/
def withScheme (url : List Char) : List Char :=
  let bare := Text.trim url
  if hasScheme bare then bare else 'h' :: 't' :: 't' :: 'p' :: ':' :: '/' :: '/' :: bare

namespace Config

/-- The connection to a server that was named by a URL or by `host:port`. -/
def withBaseUrl (c : Config) (url : String) : Config :=
  { c with baseUrl := String.ofList (withScheme url.toList) }

/-- The address that requests go to: slashes at the end of the base URL do not count. -/
def endpoint (c : Config) : String :=
  String.ofList (c.baseUrl.toList.reverse.dropWhile (· == '/')).reverse ++ "/api/chat"

end Config

end SaveLint.Llm
