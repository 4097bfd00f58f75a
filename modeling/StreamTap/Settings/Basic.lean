/-!
# Settings

What a tap can be told: how streams are rebuilt, how connections are tracked, and
how much is logged.  Every setting has a default.  `Settings.flaws` lists what
makes settings unusable; a tap starts only if there is nothing to list.
-/

namespace StreamTap

/-- How streams are rebuilt. -/
structure StreamSettings where
  /-- How far ahead of the expected byte a segment may start. -/
  window : UInt32 := 65536
  /-- How many chunks wait for the reader before the writer waits. -/
  handoffCapacity : UInt64 := 1024
  deriving DecidableEq, Repr

/-- How connections are tracked. -/
structure TrackerSettings where
  /-- How many packets wait for the tracker before their sender waits. -/
  queueCapacity : UInt64 := 4096
  /-- The port of the observed service. -/
  servicePort : UInt16 := 50051
  /-- Whether what the service sends is rebuilt too. -/
  captureResponse : Bool := true
  /-- How many new connections wait to be taken before the tracker waits. -/
  announceCapacity : UInt64 := 256
  deriving DecidableEq, Repr

/-- How much is logged. -/
structure LogSettings where
  level : String := "info"
  deriving DecidableEq, Repr

/-- The settings of a tap. -/
structure Settings where
  stream : StreamSettings := {}
  tracker : TrackerSettings := {}
  log : LogSettings := {}
  deriving DecidableEq, Repr

/-- What makes settings unusable. -/
inductive Flaw where
  | zeroWindow
  | zeroHandoffCapacity
  | zeroQueueCapacity
  | zeroAnnounceCapacity
  | zeroServicePort
  | unknownLevel (level : String)
  deriving DecidableEq, Repr

namespace Settings

def levels : List String := ["trace", "debug", "info", "warn", "error", "off"]

/-- What is wrong with the settings, in a fixed order. -/
def flaws (s : Settings) : List Flaw :=
  (if s.stream.window = 0 then [.zeroWindow] else [])
    ++ (if s.stream.handoffCapacity = 0 then [.zeroHandoffCapacity] else [])
    ++ (if s.tracker.queueCapacity = 0 then [.zeroQueueCapacity] else [])
    ++ (if s.tracker.announceCapacity = 0 then [.zeroAnnounceCapacity] else [])
    ++ (if s.tracker.servicePort = 0 then [.zeroServicePort] else [])
    ++ (if s.log.level ∈ levels then [] else [.unknownLevel s.log.level])

end Settings

def Flaw.message : Flaw → String
  | .zeroWindow => "Reassembly window cannot be 0"
  | .zeroHandoffCapacity => "Hand-off queue capacity cannot be 0"
  | .zeroQueueCapacity => "Packet queue capacity cannot be 0"
  | .zeroAnnounceCapacity => "Announcement queue capacity cannot be 0"
  | .zeroServicePort => "Service port cannot be 0"
  | .unknownLevel level =>
    "Invalid log level: " ++ level ++ ". Valid levels are: "
      ++ ", ".intercalate Settings.levels

end StreamTap
