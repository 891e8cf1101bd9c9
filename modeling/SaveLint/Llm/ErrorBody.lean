import SaveLint.Json.Value
import SaveLint.Text.Blank

/-!
# Bodies of failed requests

The body of a failed request arrives in chunks and is read up to a limit; a longer body is cut there
and marked. The message for the user is the text under `error` if the body is an object with one,
and the trimmed body otherwise.
-/

namespace SaveLint.Llm

/-- How many bytes of the body of a failed request are kept. -/
def errorBodyLimit : Nat := 32 * 1024

def cutMark : String := "...(truncated)"

/-- Reads chunks after the bytes read already, until they end or the limit is passed. -/
def cappedText (read : Bytes) : List Bytes → String
  | [] => lossyString read
  | chunk :: chunks =>
    let read := read ++ chunk
    if errorBodyLimit < read.length then lossyString (read.take errorBodyLimit) ++ cutMark
    else cappedText read chunks

/-- The text under `error`, if a body is an object with a text there. -/
def reportedError? (body : String) : Option String :=
  ((Json.ofString? body).bind (·.get? "error")).bind Json.asString?

def errorMessage (body : String) : String :=
  match reportedError? body with
  | some text => text
  | none =>
    let trimmed := Text.trimmed body
    if trimmed = "" then "no response body" else trimmed

end SaveLint.Llm
