import StreamTap.Proofs.Settings.SaveLoad

/-!
# Documents that give some settings

Settings may be loaded from a document that somebody has written by hand.  In it sections and
settings come in any order, some are missing, and there may be other values besides.
`PartialSettings` is what such a document gives, and `PartialSettings.IsDocument` says which
texts give it.  Whatever the text is, what is loaded from it are the settings given, and where
there are none the defaults (`load_partial`): for a setting that is missing in its section that
of the section, and for a section that is missing that of all settings.

A section is a record whose fields are settings, and the document is a record whose fields are
sections.  For each of the four records it is to be said what reading a field does to the slots,
and everything else follows (`Slot.reads_shows`).
-/

namespace StreamTap

open Json

/-! ## What a document gives -/

/-- Settings of streams, as far as they are given. -/
structure PartialStream where
  window : Option UInt32 := none
  handoffCapacity : Option UInt64 := none

structure PartialTracker where
  queueCapacity : Option UInt64 := none
  servicePort : Option UInt16 := none
  captureResponse : Option Bool := none
  announceCapacity : Option UInt64 := none

structure PartialLog where
  level : Option String := none

structure PartialSettings where
  stream : Option PartialStream := none
  tracker : Option PartialTracker := none
  log : Option PartialLog := none

/-! ## The settings it makes up -/

def PartialStream.settings (p : PartialStream) : StreamSettings :=
  let default : StreamSettings := {}
  { window := p.window.getD default.window
    handoffCapacity := p.handoffCapacity.getD default.handoffCapacity }

def PartialTracker.settings (p : PartialTracker) : TrackerSettings :=
  let default : TrackerSettings := {}
  { queueCapacity := p.queueCapacity.getD default.queueCapacity
    servicePort := p.servicePort.getD default.servicePort
    captureResponse := p.captureResponse.getD default.captureResponse
    announceCapacity := p.announceCapacity.getD default.announceCapacity }

def PartialLog.settings (p : PartialLog) : LogSettings :=
  let default : LogSettings := {}
  { level := p.level.getD default.level }

def PartialSettings.settings (p : PartialSettings) : Settings :=
  let default : Settings := {}
  { stream := (p.stream.map PartialStream.settings).getD default.stream
    tracker := (p.tracker.map PartialTracker.settings).getD default.tracker
    log := (p.log.map PartialLog.settings).getD default.log }

/-! ## The documents that give it -/

def PartialStream.entries (p : PartialStream) : List Entry := [
  ⟨"window", p.window.map fun n => IsNatural n.toNat⟩,
  ⟨"handoff_capacity", p.handoffCapacity.map fun n => IsNatural n.toNat⟩]

def PartialTracker.entries (p : PartialTracker) : List Entry := [
  ⟨"queue_capacity", p.queueCapacity.map fun n => IsNatural n.toNat⟩,
  ⟨"service_port", p.servicePort.map fun n => IsNatural n.toNat⟩,
  ⟨"capture_response", p.captureResponse.map IsBool⟩,
  ⟨"announce_capacity", p.announceCapacity.map fun n => IsNatural n.toNat⟩]

def PartialLog.entries (p : PartialLog) : List Entry := [⟨"level", p.level.map IsString⟩]

def PartialSettings.entries (p : PartialSettings) : List Entry := [
  ⟨"reassembly", p.stream.map fun s => Shows s.entries⟩,
  ⟨"dispatcher", p.tracker.map fun s => Shows s.entries⟩,
  ⟨"logging", p.log.map fun s => Shows s.entries⟩]

def PartialSettings.IsDocument (p : PartialSettings) (document : String) : Prop :=
  ∃ (before after : Blanks) (text : List Char),
    document.toList = before.chars ++ (text ++ after.chars) ∧ Shows p.entries text

/-! ## Sections -/

namespace PartialStream

variable (p : PartialStream)

def slots : List (Slot StreamSettings) := [
  .of StreamSettings.shape "window" (·.window) id (fun n => IsNatural n.toNat) p.window,
  .of StreamSettings.shape "handoff_capacity" (·.handoffCapacity) id (fun n => IsNatural n.toNat)
    p.handoffCapacity]

theorem settled : ∀ slot ∈ p.slots, slot.Settled StreamSettings.shape p.slots := by
  simp only [slots, List.forall_mem_cons]
  refine ⟨?window, ?handoff, by simp⟩
  case window =>
    refine .of UInt32.toNat rfl (fun _ _ _ => reads_word32) fun n hn a => ?_
    simp [Slot.of, hn]
  case handoff =>
    refine .of UInt64.toNat rfl (fun _ _ _ => reads_word64) fun n hn a => ?_
    simp [Slot.of, hn]

theorem reads {text : List Char} (h : Shows p.entries text) :
    Reads StreamSettings.shape.read text p.settings := by
  refine Slot.reads_shows p.settled rfl (fun a ha => ?_) h
  cases a
  simp only [slots, Slot.of, List.forall_mem_cons, Option.map_id, id_eq] at ha
  obtain ⟨rfl, rfl, -⟩ := ha
  rfl

end PartialStream

namespace PartialTracker

variable (p : PartialTracker)

def slots : List (Slot TrackerSettings) := [
  .of TrackerSettings.shape "queue_capacity" (·.queueCapacity) id (fun n => IsNatural n.toNat)
    p.queueCapacity,
  .of TrackerSettings.shape "service_port" (·.servicePort) id (fun n => IsNatural n.toNat)
    p.servicePort,
  .of TrackerSettings.shape "capture_response" (·.captureResponse) id IsBool p.captureResponse,
  .of TrackerSettings.shape "announce_capacity" (·.announceCapacity) id
    (fun n => IsNatural n.toNat) p.announceCapacity]

theorem settled : ∀ slot ∈ p.slots, slot.Settled TrackerSettings.shape p.slots := by
  simp only [slots, List.forall_mem_cons]
  refine ⟨?queue, ?port, ?response, ?announce, by simp⟩
  case queue =>
    refine .of UInt64.toNat rfl (fun _ _ _ => reads_word64) fun n hn a => ?_
    simp [Slot.of, hn]
  case port =>
    refine .of UInt16.toNat rfl (fun _ _ _ => reads_word16) fun n hn a => ?_
    simp [Slot.of, hn]
  case response =>
    refine .of id rfl (fun _ _ _ => reads_isBool) fun b hb a => ?_
    simp [Slot.of, hb]
  case announce =>
    refine .of UInt64.toNat rfl (fun _ _ _ => reads_word64) fun n hn a => ?_
    simp [Slot.of, hn]

theorem reads {text : List Char} (h : Shows p.entries text) :
    Reads TrackerSettings.shape.read text p.settings := by
  refine Slot.reads_shows p.settled rfl (fun a ha => ?_) h
  cases a
  simp only [slots, Slot.of, List.forall_mem_cons, Option.map_id, id_eq] at ha
  obtain ⟨rfl, rfl, rfl, rfl, -⟩ := ha
  rfl

end PartialTracker

namespace PartialLog

variable (p : PartialLog)

def slots : List (Slot LogSettings) := [
  .of LogSettings.shape "level" (·.level) id IsString p.level]

theorem settled : ∀ slot ∈ p.slots, slot.Settled LogSettings.shape p.slots := by
  simp only [slots, List.forall_mem_cons]
  refine ⟨.of id rfl (fun _ _ _ => reads_isString) fun level hlevel a => ?_, by simp⟩
  simp [Slot.of, hlevel]

theorem reads {text : List Char} (h : Shows p.entries text) :
    Reads LogSettings.shape.read text p.settings := by
  refine Slot.reads_shows p.settled rfl (fun a ha => ?_) h
  cases a
  simp only [slots, Slot.of, List.forall_mem_cons, Option.map_id, id_eq] at ha
  obtain ⟨rfl, -⟩ := ha
  rfl

end PartialLog

/-! ## Documents -/

namespace PartialSettings

variable (p : PartialSettings)

def slots : List (Slot Settings) := [
  .of Settings.shape "reassembly" (·.stream) PartialStream.settings (fun s => Shows s.entries)
    p.stream,
  .of Settings.shape "dispatcher" (·.tracker) PartialTracker.settings (fun s => Shows s.entries)
    p.tracker,
  .of Settings.shape "logging" (·.log) PartialLog.settings (fun s => Shows s.entries) p.log]

theorem settled : ∀ slot ∈ p.slots, slot.Settled Settings.shape p.slots := by
  simp only [slots, List.forall_mem_cons]
  refine ⟨?stream, ?tracker, ?log, by simp⟩
  case stream =>
    refine .of PartialStream.settings rfl (fun s _ _ => s.reads) fun s hs a => ?_
    simp [Slot.of, hs]
  case tracker =>
    refine .of PartialTracker.settings rfl (fun s _ _ => s.reads) fun s hs a => ?_
    simp [Slot.of, hs]
  case log =>
    refine .of PartialLog.settings rfl (fun s _ _ => s.reads) fun s hs a => ?_
    simp [Slot.of, hs]

theorem reads {text : List Char} (h : Shows p.entries text) :
    Reads Settings.shape.read text p.settings := by
  refine Slot.reads_shows p.settled rfl (fun a ha => ?_) h
  cases a
  simp only [slots, Slot.of, List.forall_mem_cons] at ha
  obtain ⟨rfl, rfl, rfl, -⟩ := ha
  rfl

theorem ofDocument {p : PartialSettings} {document : String} (h : p.IsDocument document) :
    Settings.ofDocument document = .ok p.settings := by
  obtain ⟨before, after, text, hdocument, hshows⟩ := h
  exact readDocument_of_reads (p.reads hshows) before after hdocument

/-- From a document that gives some settings, these and the defaults of the others are loaded. -/
theorem load_partial {files : FileTree} {path : Path} {document : String} {p : PartialSettings}
    (hfile : files.text path = .ok document) (h : p.IsDocument document) :
    Settings.load files path = .ok p.settings := by
  simp only [Settings.load, hfile, ofDocument h]

/-- One setting of a section, behind values that nobody asks for, and a key and a level in
escapes.  About streams nothing is given. -/
theorem load_partial_sparse :
    let document := "\n\x7b \"extra\":\"\\ud800\",\t\"dispatcher\" :" ++
      "\x7b\"x\":[1e400,\x7b\x7d],\"service_port\": 9000\x7d ," ++
      "\"logging\":\x7b\"\\u006cevel\":\"\\ud834\\udd1e\"\x7d\x7d"
    let p : PartialSettings := {
      tracker := some { servicePort := some 9000 }, log := some { level := some "𝄞" } }
    let files := FileTree.empty.put ["tap.json"] (.file document.toUTF8)
    files.text ⟨["tap.json"]⟩ = .ok document ∧ p.IsDocument document ∧
      Settings.load files ⟨["tap.json"]⟩ =
        .ok { tracker := { servicePort := 9000 }, log := { level := "𝄞" } } := by
  intro document p files
  have hfile : files.text ⟨["tap.json"]⟩ = .ok document := FileTree.text_of_content rfl
  let tight : Spacing := ⟨.none, .none, .none, .none⟩
  let blank : Blanks := ⟨[' '], rfl⟩
  have hnumber : ∀ i j k l : Fin 16, HexNumber
      [i.val.digitChar, j.val.digitChar, k.val.digitChar, l.val.digitChar]
      (((i.val * 16 + j.val) * 16 + k.val) * 16 + l.val) := fun i j k l =>
    .mk ⟨i.isLt, .inl rfl⟩ ⟨j.isLt, .inl rfl⟩ ⟨k.isLt, .inl rfl⟩ ⟨l.isLt, .inl rfl⟩
  -- The values that are skipped.
  have hhuge : Unsigned "1e400".toList :=
    .mk (.other (by decide) (show Digits ['1'] from ⟨by decide, by decide⟩)) .none
      (@ExponentPart.some 'e' [] ['4', '0', '0'] (by decide) (by decide) ⟨by decide, by decide⟩)
  have hlist : WellFormed .value "[1e400,\x7b\x7d]".toList :=
    WellFormed.list (.item .none .none (.scalar (.number hhuge))
      (.lastItem .none .none (.emptyObject .none)))
  have hhalf : Quoted "\\ud800".toList := .cons (.number (hnumber 13 8 0 0)) .nil
  have hextra : WellFormed .value "\"\\ud800\"".toList := WellFormed.scalar (.string hhalf)
  -- The strings in escapes.
  have hletter : Spelling 'l' "\\u006c".toList := .number (hnumber 0 0 6 12)
  have hkey : Spells "level".toList "\\u006cevel".toList :=
    Spells.cons hletter (.of_plain (show "evel".toList.all isPlain = true by decide))
  have hvalue : '𝄞'.toNat = 0x1d11e := by decide
  have hclef : Spelling '𝄞' "\\ud834\\udd1e".toList :=
    @Spelling.pair _ ['d', '8', '3', '4'] ['d', 'd', '1', 'e'] (by decide)
      (by rw [hvalue]; exact hnumber 13 8 3 4) (by rw [hvalue]; exact hnumber 13 13 1 14)
  have hlevel : Spells "𝄞".toList "\\ud834\\udd1e".toList := Spells.cons hclef .nil
  -- The sections.
  have hport : IsNatural 9000 "9000".toList := rfl
  have htracker : Shows (PartialTracker.entries { servicePort := some 9000 })
      "\x7b\"x\":[1e400,\x7b\x7d],\"service_port\": 9000\x7d".toList := by
    refine ⟨[("x", "[1e400,\x7b\x7d]".toList), ("service_port", "9000".toList)],
      .joined (.more tight (.of_plain (by decide))
        (.last { tight with behindColon := blank } (.of_plain (by decide)))), ?_, ?_, ?_, ?_⟩
    · simp [PartialTracker.entries]
    · simp [PartialTracker.entries]
    · simpa [PartialTracker.entries] using hport
    · simpa [PartialTracker.entries] using hlist
  have hlog : Shows (PartialLog.entries { level := some "𝄞" })
      "\x7b\"\\u006cevel\":\"\\ud834\\udd1e\"\x7d".toList := by
    refine ⟨[("level", "\"\\ud834\\udd1e\"".toList)], .joined (.last tight hkey), ?_, ?_, ?_, ?_⟩
    · simp [PartialLog.entries]
    · simp [PartialLog.entries]
    · simpa [PartialLog.entries] using IsString.mk hlevel
    · simp [PartialLog.entries]
  have hdocument : p.IsDocument document := by
    refine ⟨⟨['\n'], rfl⟩, .none, _, ?_, [("extra", "\"\\ud800\"".toList),
      ("dispatcher", "\x7b\"x\":[1e400,\x7b\x7d],\"service_port\": 9000\x7d".toList),
      ("logging", "\x7b\"\\u006cevel\":\"\\ud834\\udd1e\"\x7d".toList)],
      .joined (.more { tight with before := blank } (.of_plain (by decide))
        (.more ⟨⟨['\t'], rfl⟩, blank, .none, blank⟩ (.of_plain (by decide))
          (.last tight (.of_plain (by decide))))), ?_, ?_, ?_, ?_⟩
    · simp [document, tight, blank, Spacing.member, Blanks.none]
    · simp [PartialSettings.entries, p]
    · simp [PartialSettings.entries]
    · simpa [PartialSettings.entries, p] using ⟨htracker, hlog⟩
    · simpa [PartialSettings.entries] using hextra
  exact ⟨hfile, hdocument, load_partial hfile hdocument⟩

end PartialSettings

end StreamTap
