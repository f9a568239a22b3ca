import CloudStorage.Interaction.Calculus
import CloudStorage.Server

/-! Which files the storage functions touch: every one of them stays with the path
it is given, and a `FileManager` with the path it was opened on. -/
namespace CloudStorage
open Interaction Code Method

/-- File calls on allowed paths. -/
inductive FileAccess (allowed : Bytes → Prop) : Op → Prop where
  | file {call : FileCall} : (∀ path ∈ call.paths, allowed path) → FileAccess allowed (.file call)

theorem FileAccess.single {allowed : Bytes → Prop} {call : FileCall} {path : Bytes}
    (paths : call.paths = [path]) (h : allowed path) : FileAccess allowed (.file call) := by
  refine .file ?_
  intro other member
  rw [paths, List.mem_singleton] at member
  exact member ▸ h

namespace FileManager

/-- The open stream of the manager, if there is one, is on an allowed path. -/
def Over (allowed : Bytes → Prop) (manager : FileManager) : Prop :=
  ∀ path position, manager.m_stream = some (path, position) → allowed path

variable {allowed : Bytes → Prop} {path : Bytes}

theorem over_closed {mode : OpenMode} {size chunks last : Nat} :
    Over allowed ⟨mode, none, size, chunks, last⟩ := by
  intro _ _ opened
  exact nomatch opened

theorem over_opened {mode : OpenMode} {position size chunks last : Nat} (h : allowed path) :
    Over allowed ⟨mode, some (path, position), size, chunks, last⟩ := by
  rintro _ _ ⟨⟩
  exact h

theorem Over.initFileInfo {manager : FileManager} (stays : manager.Over allowed) (size : Nat) :
    (manager.initFileInfo size).Over allowed := stays

theorem isFilePresent_keeps (h : allowed path) :
    (isFilePresent path).Keeps (FileAccess allowed) := .invoke (.single rfl h)

theorem openRead_keeps (h : allowed path) :
    (openRead path).Keeps (FileAccess allowed) (Over allowed) := by
  refine .bind (.invoke (.single rfl h)) fun opened _ => ?_
  refine .ite (fun _ => ?_) fun _ => .pure over_closed
  refine .bind (.invoke (.single rfl h)) fun size _ => ?_
  cases size with
  | none => exact .pure (over_opened h)
  | some size => exact .pure (Over.initFileInfo (over_opened h) size)

theorem openWrite_keeps (h : allowed path) :
    (openWrite path).Keeps (FileAccess allowed) (Over allowed) := by
  refine .bind (isFilePresent_keeps h) fun present _ => ?_
  refine .ite (fun _ => .pure over_closed) fun _ => ?_
  refine .bind (.invoke (.single rfl h)) fun opened _ => ?_
  exact .ite (fun _ => .pure (over_opened h)) fun _ => .pure over_closed

theorem readChunk_keeps {manager : FileManager} (stays : manager.Over allowed) (buffer : Bytes)
    (size : Nat) :
    (readChunk manager buffer size).Keeps (FileAccess allowed)
      fun result => result.1.Over allowed := by
  obtain ⟨mode, stream, fileSize, chunks, last⟩ := manager
  refine .ite (fun _ => .pure stays) fun _ => ?_
  cases stream with
  | none => exact .pure stays
  | some stream =>
      obtain ⟨path, position⟩ := stream
      have h : allowed path := stays path position rfl
      refine .bind (.invoke (.single rfl h)) fun content _ => .pure ?_
      by_cases short : content.length < size
      · simp only [short, if_true]
        exact over_closed
      · simp only [short, if_false]
        exact over_opened h

theorem writeChunk_keeps {manager : FileManager} (stays : manager.Over allowed) (chunk : Bytes) :
    (writeChunk manager chunk).Keeps (FileAccess allowed) := by
  obtain ⟨mode, stream, fileSize, chunks, last⟩ := manager
  refine .ite (fun _ => .pure trivial) fun _ => ?_
  cases stream with
  | none => exact .pure trivial
  | some stream =>
      obtain ⟨path, position⟩ := stream
      exact .bind (.invoke (.single rfl (stays path position rfl))) fun _ _ => .pure trivial

theorem getFilesList_keeps (h : allowed path) :
    (getFilesList path).Keeps (FileAccess allowed) := by
  refine .bind (.invoke (.single rfl h)) fun present _ => ?_
  split
  · refine .bind (.invoke (.single rfl h)) fun names _ => ?_
    cases names with
    | none => exact .pure trivial
    | some names => exact .pure trivial
  · exact .pure trivial

end FileManager

namespace Server
open FileManager
variable {allowed : Bytes → Prop} {path : Bytes}

theorem isDownloadable_keeps (h : allowed path) :
    (isDownloadable path).Keeps (FileAccess allowed) := by
  refine .bind (isFilePresent_keeps h) fun present _ => ?_
  refine .ite (fun _ => .pure trivial) fun _ => ?_
  refine .bind (.invoke (.single rfl h)) fun regular _ => ?_
  cases regular with
  | none => exact .throw
  | some regular =>
      refine .ite (fun _ => .pure trivial) fun _ => ?_
      refine .bind (.invoke (.single rfl h)) fun symlink _ => ?_
      cases symlink with
      | none => exact .throw
      | some symlink => exact .pure trivial

theorem openDownload_keeps (h : allowed path) :
    (openDownload path).Keeps (FileAccess allowed)
      fun opened => ∀ manager, opened = some manager → manager.Over allowed := by
  refine .bind (isDownloadable_keeps h) fun downloadable _ => ?_
  refine .ite (fun _ => ?_) fun _ => .pure nofun
  refine .bind (openRead_keeps h) fun manager stays => .pure ?_
  rintro _ ⟨⟩
  exact stays

/-- The codes of a RenameM2 message. -/
def renameCodes : List UInt8 :=
  [Return.FILE_NOT_FOUND.byte, Return.FILE_ALREADY_EXISTS.byte, Result.NACK.byte,
    Result.ACK.byte]

theorem renameFile_keeps {old new : Bytes} (oldAllowed : allowed old) (newAllowed : allowed new) :
    (renameFile old new).Keeps (FileAccess allowed) fun code => code ∈ renameCodes := by
  refine .bind (isFilePresent_keeps oldAllowed) fun present _ => ?_
  refine .ite (fun _ => .pure (by decide)) fun _ => ?_
  refine .bind (isFilePresent_keeps newAllowed) fun taken _ => ?_
  refine .ite (fun _ => .pure (by decide)) fun _ => ?_
  have both : ∀ path ∈ (FileCall.rename old new).paths, allowed path := by
    intro path member
    simp only [FileCall.paths, List.mem_cons, List.not_mem_nil, or_false] at member
    rcases member with rfl | rfl
    · exact oldAllowed
    · exact newAllowed
  refine .bind (.invoke (.file both)) fun result _ => ?_
  exact .ite (fun _ => .pure (by decide)) fun _ => .pure (by decide)

end Server
end CloudStorage
