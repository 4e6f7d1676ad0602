import BuildHooks.Json.Printer
import BuildHooks.Json.Reader

/-!
Payloads: the JSON objects that requests carry and results are returned as.
-/

namespace BuildHooks

abbrev Payload := Json.Members

namespace Payload

/-- Why a text is no payload. -/
inductive Malformed where
  | notJson (complaint : Json.Complaint)
  /-- It is JSON of another kind; `found` is not an object. -/
  | notObject (found : Json)

/-- The kind of a document, with its article. -/
def kindName : Json → String
  | .null => "null"
  | .bool _ => "a boolean"
  | .number _ => "a number"
  | .string _ => "a string"
  | .array _ => "an array"
  | .object _ => "an object"

def Malformed.message : Malformed → String
  | .notJson complaint => s!"malformed JSON payload: {complaint.message}"
  | .notObject found =>
    s!"malformed JSON payload: expected an object but found {kindName found}"

/-- The payload that a text writes. -/
def parse (text : String) : Except Malformed Payload :=
  match Json.parse text with
  | .ok (.object members) => .ok members
  | .ok found => .error (.notObject found)
  | .error complaint => .error (.notJson complaint)

def text (payload : Payload) : String :=
  Json.render (.object payload)

end Payload

end BuildHooks
