import MetricsBridge.Json.Decoder
import MetricsBridge.Text.Blank
import MetricsBridge.Text.Cut
import MetricsBridge.Backend.Error

/-!
# Envelopes

Every answer of the metrics API is a record with a status; on success it holds data and may hold
warnings, and otherwise the kind and the text of an error.
-/
namespace MetricsBridge

/-- An answer of the metrics API whose data are of type `α`. -/
structure Envelope (α : Type) where
  status : Text
  data : Option α
  errorType : Option Text
  error : Option Text
  warnings : List Text

/-- Data and the warnings that came with them. -/
structure Reply (α : Type) where
  data : α
  warnings : List Text
  deriving DecidableEq, Repr

namespace Envelope

variable {α : Type}

/-- An envelope of which not all fields need have been read. -/
structure Partial (α : Type) where
  status : Option Text := none
  data : Option (Option α) := none
  errorType : Option (Option Text) := none
  error : Option (Option Text) := none
  warnings : Option (List Text) := none

open Json.Decoder in
/-- The fields of an envelope. -/
def entries (shape : Json.Decoder α) : List (Entry (Partial α)) :=
  [entry "status" true Partial.status (fun e v => { e with status := some v }) text,
   entry "data" false Partial.data (fun e v => { e with data := some v }) (optional shape),
   entry "errorType" false Partial.errorType (fun e v => { e with errorType := some v })
    (optional text),
   entry "error" false Partial.error (fun e v => { e with error := some v }) (optional text),
   entry "warnings" false Partial.warnings (fun e v => { e with warnings := some v }) (list text)]

/-- Reads an envelope from a whole body. -/
def read (shape : Json.Decoder α) (body : Text) : Except Json.ReadError (Envelope α) := do
  let e ← (Json.Decoder.record "Envelope" (entries shape) {}).run body
  return {
    status := e.status.getD []
    data := e.data.join
    errorType := e.errorType.join
    error := e.error.join
    warnings := e.warnings.getD [] }

/-- The most bytes that are kept of a body that is no envelope. -/
def bodyLimit : Nat := 512

/-- A body without the blanks around it, cut if it is long. -/
def excerpt (body : Text) : Text :=
  let t := Text.trim body
  if Text.byteLength t ≤ bodyLimit then t else t.takeBytes bodyLimit ++ "...".toList

/-- What an answer means. -/
def interpret (shape : Json.Decoder α) (status : Nat) (body : Text) : Except CallError (Reply α) :=
  match read shape body with
  | .ok e =>
    if e.status = "success".toList then
      match e.data with
      | some data => .ok ⟨data, e.warnings⟩
      | none => .error (.api "bad_response".toList "response has no data field".toList)
    else
      .error (.api (e.errorType.getD "unknown".toList)
        (e.error.getD ("request failed with HTTP ".toList ++ Text.ofNat status)))
  | .error e =>
    if 200 ≤ status ∧ status < 300 then .error (.undecodable e)
    else .error (.status status (excerpt body))

end Envelope

end MetricsBridge
