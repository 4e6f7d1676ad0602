import BuildHooks.Host.Config
import BuildHooks.Host.Der
import BuildHooks.Host.Files
import BuildHooks.Host.Pem
import BuildHooks.Text.Utf8

/-!
The certificate and the key for serving over TLS. The key's file holds one private key and the
certificate's file at least one certificate, and the two have to belong together: their public keys are
the same. Where the public key cannot be told from the private one they are taken to belong together.
-/

namespace BuildHooks.Host

/-- A public key: a point of a curve, or modulus and exponent. -/
inductive PublicKey where
  | point (bytes : List UInt8)
  | rsa (modulus exponent : List UInt8)
deriving DecidableEq, Repr

namespace PublicKey

/-- The key in the bits of a public key. -/
def ofBits (bits : List UInt8) : PublicKey :=
  match Der.inSequence? bits with
  | some [n, e] => .rsa n.content e.content
  | _ => .point bits

/-- The values of a certificate's body from its serial number on. -/
def dropVersion : List Der.Value → List Der.Value
  | v :: rest => if v.tag = 0xA0 then rest else v :: rest
  | [] => []

/-- The public key in a certificate: its subject's key is the sixth value after the version. -/
def ofCertificate? (bytes : List UInt8) : Option PublicKey := do
  let body ← (← Der.inSequence? bytes).head?
  let subjectKey ← (dropVersion (← body.items?))[5]?
  match ← subjectKey.items? with
  | [_, bits] => return ofBits (← bits.bits?)
  | _ => none

/-- The public key beside the private key of a curve. -/
def ofCurveKey? (bytes : List UInt8) : Option PublicKey := do
  let values ← Der.inSequence? bytes
  let tagged ← values.find? fun v => v.tag = 0xA1
  match ← Der.sequence? tagged.content with
  | [bits] => return .point (← bits.bits?)
  | _ => none

/-- The public part of a private key with modulus and exponent. -/
def ofRsaKey? (bytes : List UInt8) : Option PublicKey := do
  match ← Der.inSequence? bytes with
  | _ :: n :: e :: _ => if n.tag = Der.integerTag then return .rsa n.content e.content else none
  | _ => none

/-- The public key of a private key of either kind. -/
def ofBareKey? (bytes : List UInt8) : Option PublicKey :=
  match ofCurveKey? bytes with
  | some key => some key
  | none => ofRsaKey? bytes

/-- The public key of a private key that is wrapped together with its kind. -/
def ofWrappedKey? (bytes : List UInt8) : Option PublicKey := do
  match ← Der.inSequence? bytes with
  | _ :: _ :: key :: _ => if key.tag = Der.octetStringTag then ofBareKey? key.content else none
  | _ => none

end PublicKey

namespace Credentials

inductive Fault where
  | unreadable (path : String) (problem : FileProblem)
  | badBlock (fault : Pem.Fault)
  | noSingleKey
  | noCertificate
  | badCertificate
  | mismatch
deriving DecidableEq, Repr

def Fault.reason : Fault → String
  | .unreadable path problem => s!"failed to read from file `{path}`: {problem.message}"
  | .badBlock fault => fault.message
  | .noSingleKey => "private key format not supported"
  | .noCertificate => "peer sent no certificates"
  | .badCertificate => "invalid peer certificate: BadEncoding"
  | .mismatch => "keys may not be consistent: KeyMismatch"

def Fault.message (f : Fault) : String :=
  s!"Failed to load TLS certificates: {f.reason}"

def readFile (files : Files) (path : String) : Except Fault (List UInt8) :=
  (files path).mapError (.unreadable path)

def blocks (bytes : List UInt8) : List (Except Pem.Fault Pem.Block) :=
  Pem.blocks (Text.Utf8.decodeLenient bytes)

/-- The public key that a block with a private key belongs to: none if the block holds no private key,
and nothing more if the public key cannot be told. -/
def keyOf? (block : Pem.Block) : Option (Option PublicKey) :=
  if block.label = "PRIVATE KEY" then some (PublicKey.ofWrappedKey? block.bytes)
  else if block.label = "EC PRIVATE KEY" then some (PublicKey.ofCurveKey? block.bytes)
  else if block.label = "RSA PRIVATE KEY" then some (PublicKey.ofRsaKey? block.bytes)
  else none

/-- The only private key of a file. Blocks that are badly written are passed over. -/
def singleKey (bytes : List UInt8) : Except Fault (Option PublicKey) :=
  match (blocks bytes).filterMap fun b => b.toOption.bind keyOf? with
  | [key] => .ok key
  | _ => .error .noSingleKey

/-- The certificates of a file. A block that is badly written spoils it. -/
def certificates (bytes : List UInt8) : Except Fault (List (List UInt8)) := do
  let blocks ← ((blocks bytes).mapM id).mapError .badBlock
  return (blocks.filter fun b => b.label = "CERTIFICATE").map Pem.Block.bytes

/-- The first certificate and the key belong together. -/
def agree (certificates : List (List UInt8)) (key : Option PublicKey) : Except Fault Unit :=
  match certificates with
  | [] => .error .noCertificate
  | first :: _ =>
    match key, PublicKey.ofCertificate? first with
    | none, _ => .ok ()
    | some _, none => .error .badCertificate
    | some key, some subject => if key = subject then .ok () else .error .mismatch

/-- Looks whether the files of a configuration can be served with. Both are read first; then the
certificate's is looked at, and then the key's. -/
def load (files : Files) (tls : Tls) : Except Fault Unit := do
  let certificateBytes ← readFile files tls.certificate
  let keyBytes ← readFile files tls.key
  let certificates ← certificates certificateBytes
  let key ← singleKey keyBytes
  agree certificates key

end Credentials

end BuildHooks.Host
