import StreamTap.Settings.File
import StreamTap.Tracker.Lifecycle
import StreamTap.Wire.Datagram

/-!
# Failures

What a caller of the library can be told when a request fails.  Every failure is
its cause, and `message` puts the cause into words.
-/

namespace StreamTap

/-- Why a request failed. -/
inductive Failure where
  /-- A file cannot be read or written. -/
  | file (error : FileError)
  /-- A document does not describe settings. -/
  | document (error : Json.Error)
  /-- Settings cannot be used. -/
  | settings (flaws : List Flaw)
  /-- A datagram holds no packet of the service. -/
  | datagram (error : DecodeError)
  /-- There is nothing to read from a buffer any more. -/
  | bufferClosed
  /-- An event leads nowhere. -/
  | event (error : UnexpectedEvent)
  /-- The queue of packets takes no more. -/
  | queueClosed
  deriving DecidableEq, Repr

def Failure.ofLoad : LoadError → Failure
  | .file e => .file e
  | .document e => .document e

def Failure.message : Failure → String
  | .file e => "IO error: " ++ e.message
  | .document e => "JSON error: " ++ e.message
  | .settings flaws => "Config error: " ++ "; ".intercalate (flaws.map Flaw.message)
  | .datagram e => "Parse error: " ++ e.message
  | .bufferClosed => "reassembly buffer closed"
  | .event e => e.message
  | .queueClosed => "Channel closed: packet queue"

end StreamTap
