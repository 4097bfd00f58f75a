import StreamTap.Proofs.Files.Tree
import StreamTap.Proofs.Json.Objects
import StreamTap.Settings.File

/-!
# Saved settings are loaded back

What is written for settings fills each section's record member by member, and every member
replaces the default of its setting, so it is these settings that the document is read as
(`ofDocument_document`).  The numbers are in the range of their readers because of their types,
and about the level nothing is assumed: a string is read as it was written whatever is in it.

To save is to make directories and to write one file, and both leave alone what else there is.
Hence settings that were saved under a path are what is loaded from there, and every other
file is still there with the content it had (`load_save`).
-/

namespace StreamTap

open Json

/-! ## The document -/

theorem reads_word16 {n : UInt16} {text : List Char} (h : IsNatural n.toNat text) :
    Reads (readNatural UInt16.size "u16") text n.toNat :=
  reads_isNatural h n.toNat_lt (by decide) "u16"

theorem reads_word32 {n : UInt32} {text : List Char} (h : IsNatural n.toNat text) :
    Reads (readNatural UInt32.size "u32") text n.toNat :=
  reads_isNatural h n.toNat_lt (by decide) "u32"

theorem reads_word64 {n : UInt64} {text : List Char} (h : IsNatural n.toNat text) :
    Reads (readNatural UInt64.size "usize") text n.toNat :=
  reads_isNatural h n.toNat_lt (by decide) "usize"

theorem reads_stream (s : StreamSettings) (indent : Nat) :
    Reads StreamSettings.shape.read
      ((Value.object [
        ("window", .number s.window.toNat),
        ("handoff_capacity", .number s.handoffCapacity.toNat)]).write indent) s := by
  refine reads_object ?_ (by simp) indent
  refine .field rfl (fun _ => reads_word32 rfl) ?_
  refine .field rfl (fun _ => reads_word64 rfl) ?_
  simpa using .nil s

theorem reads_tracker (s : TrackerSettings) (indent : Nat) :
    Reads TrackerSettings.shape.read
      ((Value.object [
        ("queue_capacity", .number s.queueCapacity.toNat),
        ("service_port", .number s.servicePort.toNat),
        ("capture_response", .bool s.captureResponse),
        ("announce_capacity", .number s.announceCapacity.toNat)]).write indent) s := by
  refine reads_object ?_ (by simp) indent
  refine .field rfl (fun _ => reads_word64 rfl) ?_
  refine .field rfl (fun _ => reads_word16 rfl) ?_
  refine .field rfl (reads_bool s.captureResponse) ?_
  refine .field rfl (fun _ => reads_word64 rfl) ?_
  simpa using .nil s

theorem reads_log (s : LogSettings) (indent : Nat) :
    Reads LogSettings.shape.read
      ((Value.object [("level", .string s.level)]).write indent) s := by
  refine reads_object ?_ (by simp) indent
  refine .field rfl (reads_string s.level) ?_
  exact .nil s

namespace Settings

/-- The sections are read like their settings; that they stand inside an object makes no
difference. -/
theorem reads_toValue (s : Settings) (indent : Nat) :
    Reads shape.read (s.toValue.write indent) s := by
  refine reads_object ?_ (by simp) indent
  refine .field rfl (reads_stream s.stream) ?_
  refine .field rfl (reads_tracker s.tracker) ?_
  refine .field rfl (reads_log s.log) ?_
  exact .nil s

theorem ofDocument_document (s : Settings) : ofDocument s.document = .ok s := by
  have hread : shape.read s.document.toList = .ok (s, []) := by
    simpa [document, Value.document] using reads_toValue s 0 [] [] rfl delimited_nil
  simp only [ofDocument, readDocument, hread]
  rfl

/-! ## The file -/

theorem save_ok {s : Settings} {files : FileTree} {path : Path}
    (h : (s.save files path).2 = .ok ()) :
    (files.makeDirectories path.parents).1.write path s.document.toUTF8 =
      .ok (s.save files path).1 := by
  unfold save at h ⊢
  split at h
  · cases h
  next around hmade =>
  rw [hmade]
  split at h
  · next hwritten => simp only [hwritten]
  · cases h

theorem load_of_content {s : Settings} {files : FileTree} {path : Path}
    (h : files.content path = .ok s.document.toUTF8) : load files path = .ok s := by
  simp only [load, FileTree.text_of_content h, ofDocument_document]

/-- Settings that were saved are what is loaded from the same path, and the location of this
path is the only one where a file has come or changed. -/
theorem load_save (s : Settings) (files : FileTree) (path : Path)
    (hsaved : (s.save files path).2 = .ok ()) :
    load (s.save files path).1 path = .ok s ∧
      ∃ l, (s.save files path).1.locate path = .ok l ∧
        (s.save files path).1.node? l = some (.file s.document.toUTF8) ∧
        (∀ m, m ≠ l → ∀ content,
          (s.save files path).1.node? m = some (.file content) ↔
            files.node? m = some (.file content)) ∧
        ∀ other content, files.content other = .ok content →
          (s.save files path).1.locate other ≠ .ok l →
          (s.save files path).1.content other = .ok content := by
  obtain ⟨l, hlocate, hslash, hinside, hfree, hwritten⟩ := FileTree.write_ok (save_ok hsaved)
  have hfile : FileTree.Keeps (· = l) (files.makeDirectories path.parents).1
      (s.save files path).1 := hwritten ▸ FileTree.Keeps.put_file hfree
  have hkeeps : FileTree.Keeps (· = l) files (s.save files path).1 :=
    ((FileTree.Keeps.makeDirectories files path.parents).mono fun _ h => h.elim).trans hfile
  have hnode : (s.save files path).1.node? l = some (.file s.document.toUTF8) :=
    hwritten ▸ FileTree.node?_put_self hinside
  have hcontent : (s.save files path).1.content path = .ok s.document.toUTF8 :=
    FileTree.content_eq_ok.2 ⟨l, hfile.locate hlocate, hnode, hslash⟩
  refine ⟨load_of_content hcontent, l, hfile.locate hlocate, hnode, hkeeps.file, ?_⟩
  intro other content hother hne
  refine hkeeps.content hother fun m hm => ?_
  rintro rfl
  exact hne (hkeeps.locate hm)

/-- Every setting at an end of its range, a level that has to be escaped, a directory that is
missing, and a file beside it. -/
theorem load_save_escaped :
    let s : Settings := {
      stream := { window := 4294967295, handoffCapacity := 18446744073709551615 }
      tracker := {
        queueCapacity := 0, servicePort := 65535, captureResponse := false, announceCapacity := 1 }
      log := { level := "\"\\\u0001\n𝄞" } }
    let files := FileTree.empty.put ["notes"] (.file "kept".toUTF8)
    (s.save files ⟨["etc", "tap.json"]⟩).2 = .ok () ∧
      load (s.save files ⟨["etc", "tap.json"]⟩).1 ⟨["etc", "tap.json"]⟩ = .ok s ∧
      (s.save files ⟨["etc", "tap.json"]⟩).1.content ⟨["notes"]⟩ = .ok "kept".toUTF8 := by
  intro s files
  have hsaved : (s.save files ⟨["etc", "tap.json"]⟩).2 = .ok () := rfl
  obtain ⟨hload, l, hlocate, -, -, hothers⟩ := load_save s files ⟨["etc", "tap.json"]⟩ hsaved
  refine ⟨hsaved, hload, hothers ⟨["notes"]⟩ _ rfl ?_⟩
  rw [show (s.save files ⟨["etc", "tap.json"]⟩).1.locate ⟨["etc", "tap.json"]⟩ =
    .ok ["etc", "tap.json"] from rfl] at hlocate
  cases hlocate
  rw [show (s.save files ⟨["etc", "tap.json"]⟩).1.locate ⟨["notes"]⟩ = .ok ["notes"] from rfl]
  simp

end Settings

end StreamTap
