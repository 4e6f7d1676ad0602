/-!
How and where the host listens.
-/

namespace BuildHooks.Host

/-- The files of the certificate and the key for serving over TLS. -/
structure Tls where
  certificate : String
  key : String
deriving DecidableEq, Repr

structure Config where
  host : String
  /-- The port to listen on; zero lets the system choose one. -/
  port : Nat
  tls : Option Tls
  /-- The origins that may read answers; a star stands for any. -/
  origins : List String
  /-- How long a request may take, in seconds. -/
  requestTimeout : Nat
  /-- How long shutdown waits for requests, in seconds. -/
  drainTimeout : Nat
deriving DecidableEq, Repr

def Config.default : Config where
  host := "0.0.0.0"
  port := 0
  tls := none
  origins := ["*"]
  requestTimeout := 30
  drainTimeout := 30

end BuildHooks.Host
