import StreamTap.Settings.Basic

/-!
# Settings from the environment

Four settings can be overridden by environment variables.  A variable either sets
its setting or, if its value is none for this setting, does nothing.

A number is written in decimal digits, of which the first may be zeros, with at
most a plus sign before them.
-/

namespace StreamTap

/-- The value of each environment variable that is set to a text. -/
abbrev Environment := String → Option String

namespace Environment

/-- The environment with these variables.  A value that is no text counts as
unset. -/
def ofVariables (vars : List (String × ByteArray)) : Environment := fun name =>
  (vars.find? (fun v => v.1 == name)).bind fun v => String.fromUTF8? v.2

/-- Appends a decimal digit to a number, which has to stay below `limit`. -/
def appendDigit? (limit n : Nat) (c : Char) : Option Nat :=
  let m := 10 * n + (c.toNat - '0'.toNat)
  if c.isDigit ∧ m < limit then some m else none

def unsigned : List Char → List Char
  | '+' :: ds => ds
  | ds => ds

/-- Reads a natural number below `limit`.  It is given up at the first digit that takes it to
the limit, however many follow. -/
def natural? (limit : Nat) (text : String) : Option Nat :=
  let digits := unsigned text.toList
  if digits.isEmpty then none else digits.foldlM (appendDigit? limit) 0

def bool? (text : String) : Option Bool :=
  if text = "true" then some true
  else if text = "false" then some false
  else none

end Environment

namespace Settings

/-- Replaces every setting that the environment overrides. -/
def override (env : Environment) (s : Settings) : Settings :=
  let number (name : String) (limit : Nat) : Option Nat :=
    (env name).bind (Environment.natural? limit)
  { s with
    stream := { s.stream with
      window := ((number "REPLAY_CORE_WINDOW" UInt32.size).map UInt32.ofNat).getD s.stream.window }
    tracker := { s.tracker with
      servicePort :=
        ((number "REPLAY_CORE_SERVICE_PORT" UInt16.size).map UInt16.ofNat).getD
          s.tracker.servicePort
      captureResponse :=
        ((env "REPLAY_CORE_CAPTURE_RESPONSE").bind Environment.bool?).getD
          s.tracker.captureResponse }
    log := { s.log with level := (env "REPLAY_CORE_LOG_LEVEL").getD s.log.level } }

end Settings

end StreamTap
