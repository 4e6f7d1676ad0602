import BuildHooks.Http.Gzip
import BuildHooks.Http.Message
import BuildHooks.Text.Blank
import BuildHooks.Text.Cut
import BuildHooks.Text.Integer
import BuildHooks.Text.Percent

/-!
Messages as bytes. A connection brings bytes as they come; at its front there is a whole request, or the
beginning of one, or something else. A request tells the length of its body, or sends it in chunks of
which the last one is empty.
-/

namespace BuildHooks.Http.Wire

/-! ### Lines -/

/-- A reversed line without the carriage return at its end. -/
def closeLine (line : List UInt8) : List UInt8 :=
  match line with
  | 13 :: rest => rest.reverse
  | _ => line.reverse

/-- The rest of the line that has begun with `line`, reversed, and what follows it. -/
def takeLineFrom (line : List UInt8) : List UInt8 → Option (List UInt8 × List UInt8)
  | [] => none
  | b :: bs => if b = 10 then some (closeLine line, bs) else takeLineFrom (b :: line) bs

theorem length_of_takeLineFrom {line bs first rest : List UInt8}
    (h : takeLineFrom line bs = some (first, rest)) : rest.length < bs.length := by
  induction bs generalizing line with
  | nil => simp [takeLineFrom] at h
  | cons b bs ih =>
      simp only [takeLineFrom] at h
      split at h
      · simp only [Option.some.injEq, Prod.mk.injEq] at h
        simp [h.2]
      · exact Nat.lt_succ_of_lt (ih h)

/-- The lines up to an empty one, after those in `done` and the beginning of a line, both reversed. -/
def takeLinesFrom (done : List (List UInt8)) (line : List UInt8) :
    List UInt8 → Option (List (List UInt8) × List UInt8)
  | [] => none
  | b :: bs =>
    if b = 10 then
      if (closeLine line).isEmpty then some (done.reverse, bs)
      else takeLinesFrom (closeLine line :: done) [] bs
    else takeLinesFrom done (b :: line) bs

/-- The lines up to an empty one, and what follows it. -/
def takeLines (bs : List UInt8) : Option (List (List UInt8) × List UInt8) :=
  takeLinesFrom [] [] bs

/-! ### Heads -/

/-- A header as it is written: a name, a colon and a value between blanks. -/
def headerOf? (line : List UInt8) : Option (String × String) :=
  match Text.breakAt? [':'] (Text.Utf8.decodeLenient line) with
  | some (name, value) =>
    let value := Text.dropBothWhile (fun c => c = ' ' || c = '\t') value
    some (String.ofList name, String.ofList value)
  | none => none

/-- What a request begins with: its method and target, whether more requests may follow unless it says
otherwise, and its headers. -/
structure Head where
  method : String
  target : String
  keeps : Bool
  headers : List (String × String)

/-- The head in some lines. -/
def headOf? : List (List UInt8) → Option Head
  | [] => none
  | first :: rest => do
    let headers ← rest.mapM headerOf?
    match (Text.split ' ' (Text.Utf8.decodeLenient first)).map String.ofList with
    | [method, target, "HTTP/1.1"] => return ⟨method, target, true, headers⟩
    | [method, target, "HTTP/1.0"] => return ⟨method, target, false, headers⟩
    | _ => none

/-! ### Bodies -/

/-- How a body is sent. -/
inductive Framing where
  | sized (length : Nat)
  | chunked
deriving DecidableEq, Repr

/-- How the body of a request with these headers is sent. -/
def framing? (headers : Headers) : Option Framing :=
  match headers.values "transfer-encoding", headers.values "content-length" with
  | [coding], _ => if coding.map Char.toLower = "chunked" then some .chunked else none
  | _ :: _ :: _, _ => none
  | [], [] => some (.sized 0)
  | [], length :: more =>
    if more.all fun other => other == length then (Text.natural? length.toList).map .sized else none

/-- What has come of a body. -/
inductive BodyArrival where
  | incomplete
  | broken
  | complete (body rest : List UInt8)

/-- Adds bytes in front of a body. -/
def BodyArrival.after (bytes : List UInt8) : BodyArrival → BodyArrival
  | .complete body rest => .complete (bytes ++ body) rest
  | other => other

/-- A number in hexadecimal digits after `value`. -/
def hexFrom? (value : Nat) : List UInt8 → Option Nat
  | [] => some value
  | b :: bs =>
    match Text.Percent.hexValue? b with
    | some d => hexFrom? (value * 16 + d.toNat) bs
    | none => none

/-- The length of a chunk in its first line. -/
def chunkLength? (line : List UInt8) : Option Nat :=
  match line.takeWhile (· ≠ 0x3B) with
  | [] => none
  | digits => hexFrom? 0 digits

/-- A body in chunks. -/
def chunks (bs : List UInt8) : BodyArrival :=
  match _h : takeLineFrom [] bs with
  | none => .incomplete
  | some (line, rest) =>
    match chunkLength? line with
    | none => .broken
    | some 0 =>
      match takeLines rest with
      | some (_, rest) => .complete [] rest
      | none => .incomplete
    | some (n + 1) =>
      if rest.length < n + 3 then .incomplete
      else if (rest.drop (n + 1)).take 2 = [13, 10] then
        (chunks (rest.drop (n + 3))).after (rest.take (n + 1))
      else .broken
termination_by bs.length
decreasing_by
  have := length_of_takeLineFrom _h
  simp only [List.length_drop]
  omega

/-- A body that is sent in some way. -/
def Framing.read (bs : List UInt8) : Framing → BodyArrival
  | .sized n => if bs.length < n then .incomplete else .complete (bs.take n) (bs.drop n)
  | .chunked => chunks bs

/-! ### Requests -/

/-- What has come in on a connection. -/
inductive Arrival where
  | incomplete
  | broken
  /-- A request with what follows it; it may be the last one of its connection. -/
  | request (request : Request) (last : Bool) (rest : List UInt8)

/-- The request is the last one of its connection. -/
def isLast (head : Head) (headers : Headers) : Bool :=
  !head.keeps || (headers.values "connection").any fun v => v.map Char.toLower == "close"

/-- The request with a head and what follows the head. -/
def afterHead (head : Head) (bs : List UInt8) : Arrival :=
  match Request.make head.method head.target head.headers [] with
  | .error _ => .broken
  | .ok request =>
    match framing? request.headers with
    | none => .broken
    | some framing =>
      match framing.read bs with
      | .incomplete => .incomplete
      | .broken => .broken
      | .complete body rest => .request { request with body } (isLast head request.headers) rest

/-- What has come in on a connection that brought some bytes. -/
def arrival (bs : List UInt8) : Arrival :=
  match takeLines bs with
  | none => .incomplete
  | some (lines, rest) =>
    match headOf? lines with
    | none => .broken
    | some head => afterHead head rest

/-! ### Responses -/

/-- The bytes of a response's body, compressed if the headers say so. -/
def bodyBytes (r : Response) : List UInt8 :=
  let bytes := Text.Utf8.encode r.body.toList
  if bytes.isEmpty then []
  else if r.headers.first? "content-encoding" = some "gzip" then Gzip.encode bytes
  else bytes

def headerLine (h : Header) : String :=
  s!"{h.name}: {h.value}\r\n"

/-- The headers of a response as it is sent: it always tells its length, and that it is the last one of
its connection. -/
def sentHeaders (r : Response) (length : Nat) (last : Bool) : Headers :=
  r.headers
    ++ (if (r.headers.first? "content-length").isSome then []
        else [⟨"content-length", Text.showNat length⟩])
    ++ if last then [⟨"connection", "close"⟩] else []

/-- A response as it is sent. -/
def write (r : Response) (last : Bool) : List UInt8 :=
  let body := bodyBytes r
  let head :=
    s!"HTTP/1.1 {Text.showNat r.status} {reason r.status}\r\n"
      ++ String.join ((sentHeaders r body.length last).map headerLine) ++ "\r\n"
  Text.Utf8.encode head.toList ++ body

/-- The response to something that is no request. -/
def refusal (status : Nat) : Response :=
  ⟨status, [], ""⟩

end BuildHooks.Http.Wire
