import StreamTap.Json.Pretty
import StreamTap.Json.Record
import StreamTap.Settings.Basic

/-!
# Settings as JSON documents

Settings are kept in a JSON document with three sections.  Writing gives every
setting; reading takes the default for every setting and every section that the
document leaves out.
-/

namespace StreamTap

open Json (Record Field readNatural readBool readString)

/-- How the settings of streams are written. -/
def StreamSettings.shape : Record StreamSettings where
  name := "struct ReassemblyConfig"
  blank := {}
  fields := [
    .of "window" (readNatural UInt32.size "u32") fun s n => { s with window := .ofNat n },
    .of "handoff_capacity" (readNatural UInt64.size "usize") fun s n =>
      { s with handoffCapacity := .ofNat n }]

def TrackerSettings.shape : Record TrackerSettings where
  name := "struct DispatcherConfig"
  blank := {}
  fields := [
    .of "queue_capacity" (readNatural UInt64.size "usize") fun s n =>
      { s with queueCapacity := .ofNat n },
    .of "service_port" (readNatural UInt16.size "u16") fun s n => { s with servicePort := .ofNat n },
    .of "capture_response" readBool fun s b => { s with captureResponse := b },
    .of "announce_capacity" (readNatural UInt64.size "usize") fun s n =>
      { s with announceCapacity := .ofNat n }]

def LogSettings.shape : Record LogSettings where
  name := "struct LoggingConfig"
  blank := {}
  fields := [.of "level" readString fun s level => { s with level }]

namespace Settings

/-- How settings are written. -/
def shape : Record Settings where
  name := "struct CoreConfig"
  blank := {}
  fields := [
    .of "reassembly" StreamSettings.shape.read fun s stream => { s with stream },
    .of "dispatcher" TrackerSettings.shape.read fun s tracker => { s with tracker },
    .of "logging" LogSettings.shape.read fun s log => { s with log }]

def ofDocument (text : String) : Except Json.Error Settings :=
  Json.readDocument shape.read text

/-- The settings as a value with all members. -/
def toValue (s : Settings) : Json.Value :=
  .object [
    ("reassembly", .object [
      ("window", .number s.stream.window.toNat),
      ("handoff_capacity", .number s.stream.handoffCapacity.toNat)]),
    ("dispatcher", .object [
      ("queue_capacity", .number s.tracker.queueCapacity.toNat),
      ("service_port", .number s.tracker.servicePort.toNat),
      ("capture_response", .bool s.tracker.captureResponse),
      ("announce_capacity", .number s.tracker.announceCapacity.toNat)]),
    ("logging", .object [("level", .string s.log.level)])]

def document (s : Settings) : String := s.toValue.document

end Settings

/-- Reads the settings of streams from a document of their own. -/
def StreamSettings.ofDocument (text : String) : Except Json.Error StreamSettings :=
  Json.readDocument StreamSettings.shape.read text

end StreamTap
