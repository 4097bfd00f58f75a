import StreamTap.Proofs.Json.Records
import StreamTap.Proofs.Settings.PartialDocuments

/-!
# Numbers in documents

Five settings are numbers, of three widths, and in a document a number may be written in any way
that JSON has.  A `Draft` is what a document gives when the numbers in it are taken as they are
written.  It is loaded exactly if every literal fits its setting, and then each setting has the
value that its digits stand for; no number is wrapped, cut off or rounded (`load_draft`).  What
this says of one number in a document in which all others are right is `load_number`.

A document may hold its settings in objects or in lists, and it does not matter in which.
-/

namespace StreamTap

open Json

/-! ## What a document gives -/

/-- Settings of streams, with their numbers as they are written. -/
structure StreamDraft where
  window : Option NumberLiteral := none
  handoffCapacity : Option NumberLiteral := none

structure TrackerDraft where
  queueCapacity : Option NumberLiteral := none
  servicePort : Option NumberLiteral := none
  captureResponse : Option Bool := none
  announceCapacity : Option NumberLiteral := none

/-- The sections that are given. -/
structure Draft where
  stream : Option StreamDraft := none
  tracker : Option TrackerDraft := none
  log : Option PartialLog := none

/-- The settings that are numbers. -/
inductive NumberField where
  | window
  | handoffCapacity
  | queueCapacity
  | servicePort
  | announceCapacity
  deriving DecidableEq

namespace NumberField

/-- What the values of a setting are below. -/
def limit : NumberField → Nat
  | .window => UInt32.size
  | .handoffCapacity => UInt64.size
  | .queueCapacity => UInt64.size
  | .servicePort => UInt16.size
  | .announceCapacity => UInt64.size

/-- The value that settings have there. -/
def value (s : Settings) : NumberField → Nat
  | .window => s.stream.window.toNat
  | .handoffCapacity => s.stream.handoffCapacity.toNat
  | .queueCapacity => s.tracker.queueCapacity.toNat
  | .servicePort => s.tracker.servicePort.toNat
  | .announceCapacity => s.tracker.announceCapacity.toNat

end NumberField

def Draft.number (d : Draft) : NumberField → Option NumberLiteral
  | .window => d.stream.bind (·.window)
  | .handoffCapacity => d.stream.bind (·.handoffCapacity)
  | .queueCapacity => d.tracker.bind (·.queueCapacity)
  | .servicePort => d.tracker.bind (·.servicePort)
  | .announceCapacity => d.tracker.bind (·.announceCapacity)

/-! ## The documents that give it -/

def StreamDraft.entries (d : StreamDraft) : List Entry := [
  ⟨"window", d.window.map NumberLiteral.IsText⟩,
  ⟨"handoff_capacity", d.handoffCapacity.map NumberLiteral.IsText⟩]

def TrackerDraft.entries (d : TrackerDraft) : List Entry := [
  ⟨"queue_capacity", d.queueCapacity.map NumberLiteral.IsText⟩,
  ⟨"service_port", d.servicePort.map NumberLiteral.IsText⟩,
  ⟨"capture_response", d.captureResponse.map IsBool⟩,
  ⟨"announce_capacity", d.announceCapacity.map NumberLiteral.IsText⟩]

def Draft.entries (d : Draft) : List Entry := [
  ⟨"reassembly", d.stream.map fun s => Gives s.entries⟩,
  ⟨"dispatcher", d.tracker.map fun s => Gives s.entries⟩,
  ⟨"logging", d.log.map fun s => Gives s.entries⟩]

def Draft.IsDocument (d : Draft) (document : String) : Prop :=
  ∃ (before after : Blanks) (text : List Char),
    document.toList = before.chars ++ (text ++ after.chars) ∧ Gives d.entries text

/-! ## What it gives if its literals fit -/

def StreamDraft.given (d : StreamDraft) : PartialStream where
  window := d.window.map fun l => .ofNat l.value
  handoffCapacity := d.handoffCapacity.map fun l => .ofNat l.value

def TrackerDraft.given (d : TrackerDraft) : PartialTracker where
  queueCapacity := d.queueCapacity.map fun l => .ofNat l.value
  servicePort := d.servicePort.map fun l => .ofNat l.value
  captureResponse := d.captureResponse
  announceCapacity := d.announceCapacity.map fun l => .ofNat l.value

def Draft.given (d : Draft) : PartialSettings where
  stream := d.stream.map StreamDraft.given
  tracker := d.tracker.map TrackerDraft.given
  log := d.log

def Draft.Fits (d : Draft) : Prop := ∀ field, ∀ l ∈ d.number field, l.Fits field.limit

/-! ## Sections -/

namespace StreamDraft

variable (d : StreamDraft)

/-- The settings with the conditions on what is given for them. -/
def questions : List (Question StreamSettings) := [
  .number StreamSettings.shape "window" (·.window) .ofNat UInt32.size d.window,
  .number StreamSettings.shape "handoff_capacity" (·.handoffCapacity) .ofNat UInt64.size
    d.handoffCapacity]

theorem decided : ∀ q ∈ d.questions,
    q.Decided StreamSettings.shape (d.questions.map Question.toSlot) := by
  simp only [questions, List.forall_mem_cons]
  refine ⟨?window, ?handoff, by simp⟩
  case window =>
    refine .number rfl (by decide) fun l hl a => ?_
    simp [Question.number, Question.of, Slot.of, hl]
  case handoff =>
    refine .number rfl (by decide) fun l hl a => ?_
    simp [Question.number, Question.of, Slot.of, hl]

theorem decides {text : List Char} (h : Gives d.entries text) :
    Decides StreamSettings.shape.read text (∀ q ∈ d.questions, q.fits) d.given.settings := by
  refine Question.decides_gives d.decided ?_ rfl (fun a ha => ?_) h
  · simp [StreamSettings.shape, Field.of]
  · cases a
    simp only [questions, Question.number, Question.of, Slot.of, List.forall_mem_cons] at ha
    obtain ⟨rfl, rfl, -⟩ := ha
    rfl

theorem fits_iff : (∀ q ∈ d.questions, q.fits) ↔
    (∀ l ∈ d.window, l.Fits UInt32.size) ∧ ∀ l ∈ d.handoffCapacity, l.Fits UInt64.size := by
  simp [questions, Question.number, Question.of]

end StreamDraft

namespace TrackerDraft

variable (d : TrackerDraft)

def questions : List (Question TrackerSettings) := [
  .number TrackerSettings.shape "queue_capacity" (·.queueCapacity) .ofNat UInt64.size
    d.queueCapacity,
  .number TrackerSettings.shape "service_port" (·.servicePort) .ofNat UInt16.size d.servicePort,
  .of TrackerSettings.shape "capture_response" (·.captureResponse) id IsBool (fun _ => True)
    d.captureResponse,
  .number TrackerSettings.shape "announce_capacity" (·.announceCapacity) .ofNat UInt64.size
    d.announceCapacity]

theorem decided : ∀ q ∈ d.questions,
    q.Decided TrackerSettings.shape (d.questions.map Question.toSlot) := by
  simp only [questions, List.forall_mem_cons]
  refine ⟨?queue, ?port, ?response, ?announce, by simp⟩
  case queue =>
    refine .number rfl (by decide) fun l hl a => ?_
    simp [Question.number, Question.of, Slot.of, hl]
  case port =>
    refine .number rfl (by decide) fun l hl a => ?_
    simp [Question.number, Question.of, Slot.of, hl]
  case response =>
    refine .of id rfl (fun _ _ h => .of_reads (reads_isBool h)) fun b hb a => ?_
    simp [Question.number, Question.of, Slot.of, hb]
  case announce =>
    refine .number rfl (by decide) fun l hl a => ?_
    simp [Question.number, Question.of, Slot.of, hl]

theorem decides {text : List Char} (h : Gives d.entries text) :
    Decides TrackerSettings.shape.read text (∀ q ∈ d.questions, q.fits) d.given.settings := by
  refine Question.decides_gives d.decided ?_ rfl (fun a ha => ?_) h
  · simp [TrackerSettings.shape, Field.of]
  · cases a
    simp only [questions, Question.number, Question.of, Slot.of, List.forall_mem_cons, Option.map_id,
      id_eq] at ha
    obtain ⟨rfl, rfl, rfl, rfl, -⟩ := ha
    rfl

theorem fits_iff : (∀ q ∈ d.questions, q.fits) ↔
    (∀ l ∈ d.queueCapacity, l.Fits UInt64.size) ∧ (∀ l ∈ d.servicePort, l.Fits UInt16.size) ∧
      ∀ l ∈ d.announceCapacity, l.Fits UInt64.size := by
  simp [questions, Question.number, Question.of]

end TrackerDraft

theorem PartialLog.reads_gives (p : PartialLog) {text : List Char} (h : Gives p.entries text) :
    Reads LogSettings.shape.read text p.settings := by
  refine Slot.reads_gives ?_ rfl p.settled (fun a ha => ?_) h
  · simp [LogSettings.shape]
  · cases a
    simp only [slots, Slot.of, List.forall_mem_cons, Option.map_id, id_eq] at ha
    obtain ⟨rfl, -⟩ := ha
    rfl

/-! ## Documents -/

namespace Draft

variable (d : Draft)

def questions : List (Question Settings) := [
  .of Settings.shape "reassembly" (·.stream) (·.given.settings) (fun s => Gives s.entries)
    (fun s => ∀ q ∈ s.questions, q.fits) d.stream,
  .of Settings.shape "dispatcher" (·.tracker) (·.given.settings) (fun s => Gives s.entries)
    (fun s => ∀ q ∈ s.questions, q.fits) d.tracker,
  .of Settings.shape "logging" (·.log) PartialLog.settings (fun s => Gives s.entries)
    (fun _ => True) d.log]

theorem decided : ∀ q ∈ d.questions,
    q.Decided Settings.shape (d.questions.map Question.toSlot) := by
  simp only [questions, List.forall_mem_cons]
  refine ⟨?stream, ?tracker, ?log, by simp⟩
  case stream =>
    refine .of (·.given.settings) rfl (fun s _ => s.decides) fun s hs a => ?_
    simp [Question.of, Slot.of, hs]
  case tracker =>
    refine .of (·.given.settings) rfl (fun s _ => s.decides) fun s hs a => ?_
    simp [Question.of, Slot.of, hs]
  case log =>
    refine .of PartialLog.settings rfl (fun s _ h => .of_reads (s.reads_gives h)) fun s hs a => ?_
    simp [Question.of, Slot.of, hs]

theorem decides {text : List Char} (h : Gives d.entries text) :
    Decides Settings.shape.read text (∀ q ∈ d.questions, q.fits) d.given.settings := by
  refine Question.decides_gives d.decided ?_ rfl (fun a ha => ?_) h
  · simp [Settings.shape, Field.of]
  · cases a
    simp only [questions, Question.of, Slot.of, List.forall_mem_cons] at ha
    obtain ⟨rfl, rfl, rfl, -⟩ := ha
    simp only [given, PartialSettings.settings, Option.map_map]
    rfl

theorem fits_iff : (∀ q ∈ d.questions, q.fits) ↔ d.Fits := by
  have hquestions : (∀ q ∈ d.questions, q.fits) ↔
      (∀ s ∈ d.stream, ∀ q ∈ s.questions, q.fits) ∧ ∀ s ∈ d.tracker, ∀ q ∈ s.questions, q.fits := by
    simp [questions, Question.of]
  simp only [hquestions, StreamDraft.fits_iff, TrackerDraft.fits_iff]
  constructor
  · rintro ⟨hstream, htracker⟩ field l hl
    cases field <;> obtain ⟨s, hs, hl⟩ := Option.bind_eq_some_iff.1 hl
    · exact (hstream s hs).1 l hl
    · exact (hstream s hs).2 l hl
    · exact (htracker s hs).1 l hl
    · exact (htracker s hs).2.1 l hl
    · exact (htracker s hs).2.2 l hl
  · intro h
    exact ⟨fun s hs =>
      ⟨fun l hl => h .window l (Option.bind_eq_some_iff.2 ⟨s, hs, hl⟩),
        fun l hl => h .handoffCapacity l (Option.bind_eq_some_iff.2 ⟨s, hs, hl⟩)⟩,
      fun s hs =>
      ⟨fun l hl => h .queueCapacity l (Option.bind_eq_some_iff.2 ⟨s, hs, hl⟩),
        fun l hl => h .servicePort l (Option.bind_eq_some_iff.2 ⟨s, hs, hl⟩),
        fun l hl => h .announceCapacity l (Option.bind_eq_some_iff.2 ⟨s, hs, hl⟩)⟩⟩

theorem value_given {field : NumberField} {l : NumberLiteral} (hl : d.number field = some l)
    (hfits : l.Fits field.limit) : field.value d.given.settings = l.value := by
  have hbelow := hfits.below
  cases field <;> obtain ⟨s, hs, hl⟩ := Option.bind_eq_some_iff.1 hl <;>
    simp only [NumberField.value, given, PartialSettings.settings, StreamDraft.given,
      PartialStream.settings, TrackerDraft.given, PartialTracker.settings, hs, hl, Option.map_some,
      Option.getD_some]
  case window => exact UInt32.toNat_ofNat_of_lt hbelow
  case handoffCapacity => exact UInt64.toNat_ofNat_of_lt hbelow
  case queueCapacity => exact UInt64.toNat_ofNat_of_lt hbelow
  case servicePort => exact UInt16.toNat_ofNat_of_lt hbelow
  case announceCapacity => exact UInt64.toNat_ofNat_of_lt hbelow

theorem ofDocument {d : Draft} {document : String} (h : d.IsDocument document) :
    (d.Fits → Settings.ofDocument document = .ok d.given.settings) ∧
      (¬d.Fits → ∃ e, Settings.ofDocument document = .error e) := by
  obtain ⟨before, after, text, hdocument, hgives⟩ := h
  have hdecides := d.decides hgives
  rw [fits_iff] at hdecides
  exact ⟨fun hfits => readDocument_of_reads (hdecides.reads hfits) before after hdocument,
    fun hnot => readDocument_of_refuses (hdecides.refuses hnot) before after hdocument⟩

end Draft

section Load

variable {files : FileTree} {path : Path} {document : String} {d : Draft}
  (hfile : files.text path = .ok document) (h : d.IsDocument document)

include hfile h

theorem load_draft :
    (d.Fits → Settings.load files path = .ok d.given.settings) ∧
      (¬d.Fits → ∃ e, Settings.load files path = .error (.document e)) := by
  obtain ⟨hok, herror⟩ := Draft.ofDocument h
  constructor
  · intro hfits
    simp only [Settings.load, hfile, hok hfits]
  · intro hnot
    obtain ⟨e, he⟩ := herror hnot
    exact ⟨e, by simp only [Settings.load, hfile, he]⟩

/-- In a document in which all other numbers fit, one number is loaded exactly if it is written in
digits only and below the limit of its setting.  Then the setting has this very value, and
otherwise the document is refused. -/
theorem load_number {field : NumberField} {l : NumberLiteral} (hl : d.number field = some l)
    (hothers : ∀ other, other ≠ field → ∀ l' ∈ d.number other, l'.Fits other.limit) :
    ((∃ s, Settings.load files path = .ok s) ↔ l.Fits field.limit) ∧
      (∀ s, Settings.load files path = .ok s → field.value s = l.value) ∧
      (¬l.Fits field.limit → ∃ e, Settings.load files path = .error (.document e)) := by
  have hfits : d.Fits ↔ l.Fits field.limit := by
    refine ⟨fun hall => hall field l hl, fun hfits other l' hl' => ?_⟩
    by_cases hother : other = field
    · subst hother
      cases Option.mem_unique hl hl'
      exact hfits
    · exact hothers other hother l' hl'
  obtain ⟨hok, herror⟩ := load_draft hfile h
  rw [hfits] at hok herror
  by_cases hdone : l.Fits field.limit
  · have hload := hok hdone
    refine ⟨⟨fun _ => hdone, fun _ => ⟨_, hload⟩⟩, fun s hs => ?_, fun hnot => absurd hdone hnot⟩
    cases hload.symm.trans hs
    exact d.value_given hl hdone
  · obtain ⟨e, he⟩ := herror hdone
    refine ⟨⟨fun ⟨s, hs⟩ => ?_, fun hfits => absurd hfits hdone⟩, fun s hs => ?_, fun _ => ⟨e, he⟩⟩
    · rw [he] at hs
      cases hs
    · rw [he] at hs
      cases hs

end Load

def plainLiteral (ds : List Char) (h : Digits ds) (hzero : ds.head? ≠ some '0') :
    NumberLiteral where
  chars := ds
  isNumber := by
    obtain - | ⟨c, cs⟩ := ds
    · exact absurd rfl h.1
    · have hplain := Unsigned.mk (.other (fun hc => hzero (by rw [hc]; rfl)) h) .none .none
      rw [List.append_nil, List.append_nil] at hplain
      exact .unsigned hplain

def port : NumberLiteral := plainLiteral "65535".toList ⟨by decide, by decide⟩ (by decide)

/-- A document with the window in a list and the port in an object. -/
def narrow (window : NumberLiteral) : String :=
  "\x7b\"reassembly\":[" ++ String.ofList window.chars ++
    "],\"dispatcher\":\x7b\"service_port\": 65535\x7d\x7d"

def narrowDraft (window : NumberLiteral) : Draft where
  stream := some { window := some window }
  tracker := some { servicePort := some port }

theorem isDocument_narrow (l : NumberLiteral) : (narrowDraft l).IsDocument (narrow l) := by
  let tight : Spacing := ⟨.none, .none, .none, .none⟩
  have hstream : Gives (StreamDraft.entries { window := some l }) ('[' :: (l.chars ++ [']'])) := by
    have hlist := IsList.listed (.last .none .none (.scalar l.scalar))
    simp only [Blanks.none, List.nil_append, List.append_nil] at hlist
    refine ⟨_, .list hlist (by simp [StreamDraft.entries]), ?_, ?_, ?_, ?_⟩
    · simp [StreamDraft.entries]
    · simp [StreamDraft.entries]
    · simp [StreamDraft.entries, NumberLiteral.IsText]
    · simp [StreamDraft.entries]
  have htracker : Gives (TrackerDraft.entries { servicePort := some port })
      "\x7b\"service_port\": 65535\x7d".toList := by
    refine ⟨[("service_port", port.chars)], .object (.joined (.last
      { tight with behindColon := ⟨[' '], rfl⟩ } (.of_plain (by decide)))), ?_, ?_, ?_, ?_⟩
    · simp [TrackerDraft.entries]
    · simp [TrackerDraft.entries]
    · simp [TrackerDraft.entries, NumberLiteral.IsText]
    · simp [TrackerDraft.entries]
  refine ⟨.none, .none, _, ?_, [("reassembly", '[' :: (l.chars ++ [']'])),
    ("dispatcher", "\x7b\"service_port\": 65535\x7d".toList)],
    .object (.joined (.more tight (.of_plain (by decide)) (.last tight (.of_plain (by decide))))),
    ?_, ?_, ?_, ?_⟩
  · simp [narrow, tight, Spacing.member, Blanks.none]
  · simp [narrowDraft, Draft.entries]
  · simp [narrowDraft, Draft.entries]
  · simpa [narrowDraft, Draft.entries] using ⟨hstream, htracker⟩
  · simp [narrowDraft, Draft.entries]

def narrowFile (window : NumberLiteral) : FileTree :=
  FileTree.empty.put ["tap.json"] (.file (narrow window).toUTF8)

theorem load_narrow (l : NumberLiteral) : (narrowFile l).text ⟨["tap.json"]⟩ = .ok (narrow l) :=
  FileTree.text_of_content rfl

def widest : NumberLiteral := plainLiteral "4294967295".toList ⟨by decide, by decide⟩ (by decide)

def tooWide : NumberLiteral := plainLiteral "4294967296".toList ⟨by decide, by decide⟩ (by decide)

/-- A thousand, but no integer. -/
def roundabout : NumberLiteral where
  chars := "1e3".toList
  isNumber := .unsigned (.mk (.other (by decide) (show Digits ['1'] from ⟨by decide, by decide⟩))
    .none (@ExponentPart.some 'e' [] ['3'] (by decide) (by decide) ⟨by decide, by decide⟩))

theorem load_number_narrow :
    (∃ s, Settings.load (narrowFile widest) ⟨["tap.json"]⟩ = .ok s ∧
      NumberField.window.value s = 4294967295) ∧
      (∃ e, Settings.load (narrowFile tooWide) ⟨["tap.json"]⟩ = .error (.document e)) ∧
      ∃ e, Settings.load (narrowFile roundabout) ⟨["tap.json"]⟩ = .error (.document e) := by
  have hothers : ∀ l other, other ≠ NumberField.window →
      ∀ l' ∈ (narrowDraft l).number other, l'.Fits other.limit := by
    intro l other hother l' hl'
    cases other with
    | window => exact absurd rfl hother
    | servicePort =>
      cases hl'
      decide
    | handoffCapacity => cases hl'
    | queueCapacity => cases hl'
    | announceCapacity => cases hl'
  have hwindow : ∀ l, (narrowDraft l).number .window = some l := fun _ => rfl
  obtain ⟨hloads, hvalue, -⟩ := load_number (load_narrow widest) (isDocument_narrow widest)
    (hwindow widest) (hothers widest)
  obtain ⟨-, -, htooWide⟩ := load_number (load_narrow tooWide) (isDocument_narrow tooWide)
    (hwindow tooWide) (hothers tooWide)
  obtain ⟨-, -, hroundabout⟩ := load_number (load_narrow roundabout)
    (isDocument_narrow roundabout) (hwindow roundabout) (hothers roundabout)
  obtain ⟨s, hs⟩ := hloads.2 (by decide)
  exact ⟨⟨s, hs, (hvalue s hs).trans (by decide)⟩, htooWide (by decide), hroundabout (by decide)⟩

end StreamTap
