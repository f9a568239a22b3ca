import CloudStorage.Server
import CloudStorage.Session.Party

/-! What the storage functions find and leave on a machine on which no file call fails. -/
namespace CloudStorage
open Interaction Code Method

namespace FileStore
variable (S : FileStore)

def present (state : S.State) (path : Bytes) : Bool := (S.respond state (.ifstream_open path)).1

/-- The manager that reads a file. -/
def reader (state : S.State) (path : Bytes) : FileManager :=
  if S.present state path then
    match S.size state path with
    | some file_size => FileManager.initFileInfo ⟨.READ, some (path, 0), 0, 0, 0⟩ file_size
    | none => ⟨.READ, some (path, 0), 0, 0, 0⟩
  else ⟨.READ, none, 0, 0, 0⟩

/-- Where the manager that writes a new file puts its chunks. -/
def created (state : S.State) (path : Bytes) : Option Bytes :=
  if (S.respond state (.ofstream_open path)).1 then some path else none

def put (state : S.State) : Option Bytes → Bytes → S.State
  | none, _ => state
  | some path, chunk => S.after state (.write path chunk)

def fill (state : S.State) (target : Option Bytes) (chunks : List Bytes) : S.State :=
  chunks.foldl (S.put · target ·) state

/-- The chunks of a file from a position on, the last one of its own size. -/
def pieces (state : S.State) (path : Bytes) (last : Nat) : Nat → Nat → List Bytes
  | _, 0 => []
  | position, left + 1 =>
      let count := if left = 0 then last else Config.CHUNK_SIZE
      (S.respond state (.read path position count)).1 ::
        pieces state path last (position + count) left

/-- The list of a directory. -/
def listing (state : S.State) (path : Bytes) : Bytes :=
  match (S.respond state (.exists_ path)).1 with
  | some true =>
      match (S.respond state (.directory_iterator path)).1 with
      | some names => (names.map (· ++ ascii ",")).flatten.dropLast
      | none => ascii "error"
  | _ => ascii "error"

/-- A file that is there, regular and no link. -/
def downloadable (state : S.State) (path : Bytes) : Bool :=
  S.present state path && (S.respond state (.is_regular_file path)).1 == some true &&
    (S.respond state (.is_symlink path)).1 == some false

/-- The code of a renames and what it leaves. -/
def renames (state : S.State) (old new : Bytes) : UInt8 × S.State :=
  if S.present state old then
    if S.present state new then (Return.FILE_ALREADY_EXISTS.byte, state)
    else
      let answer := S.respond state (.rename old new)
      if answer.1 = 0 then (Result.ACK.byte, answer.2) else (Result.NACK.byte, answer.2)
  else (Return.FILE_NOT_FOUND.byte, state)

end FileStore

namespace Party
variable {C : Crypto} {F : Computer} {role : Role} {Safe : Machine F → Prop} {files : F.State}
  {inbox out : Bytes} {s : Session octets}

theorem isFilePresent_found (safe : ∀ files, Safe (busy files)) (path : Bytes) :
    (FileManager.isFilePresent path).ensures (desk C role Safe)
      (Same C role s files inbox out (· = F.present files path)) s ⟨busy files, inbox, out⟩ :=
  look safe trivial

theorem openRead_found (safe : ∀ files, Safe (busy files)) (path : Bytes) :
    (FileManager.openRead path).ensures (desk C role Safe)
      (Same C role s files inbox out (· = F.reader files path)) s ⟨busy files, inbox, out⟩ := by
  refine ensures_seq (look safe (show FileCall.Looks (.ifstream_open path) from trivial)) ?_
  rintro opened s _ ⟨known, rfl, rfl⟩
  have present : opened = F.present files path := known
  unfold FileStore.reader
  rw [← present]
  cases opened with
  | false => exact ensures_pure ⟨rfl, rfl, rfl⟩
  | true =>
      refine ensures_seq (look safe (show FileCall.Looks (.seek_end path) from trivial)) ?_
      rintro found s _ ⟨known, rfl, rfl⟩
      have size : found = F.size files path := known
      rw [← size]
      cases found with
      | none => exact ensures_pure ⟨rfl, rfl, rfl⟩
      | some file_size => exact ensures_pure ⟨rfl, rfl, rfl⟩

/-- A new file, possibly without a stream. -/
theorem openWrite_created (safe : ∀ files, Safe (busy files)) {path : Bytes}
    (absent : F.present files path = false) :
    (FileManager.openWrite path).ensures (desk C role Safe)
      (Same C role s (F.after files (.ofstream_open path)) inbox out
        (· = ⟨.WRITE, (F.created files path).map (·, 0), 0, 0, 0⟩)) s
      ⟨busy files, inbox, out⟩ := by
  refine ensures_seq (isFilePresent_found safe path) ?_
  rintro _ s _ ⟨rfl, rfl, rfl⟩
  rw [absent]
  refine ensures_seq (ask_file safe (.ofstream_open path)) ?_
  rintro opened s _ ⟨known, rfl, rfl⟩
  unfold FileStore.created
  rw [← known]
  cases opened with
  | false => exact ensures_pure ⟨rfl, rfl, rfl⟩
  | true => exact ensures_pure ⟨rfl, rfl, rfl⟩

theorem readChunk_read (safe : ∀ files, Safe (busy files)) {path buffer : Bytes}
    {length position count size chunks last : Nat} (found : F.size files path = some length)
    (inside : position + count ≤ length) :
    (FileManager.readChunk ⟨.READ, some (path, position), size, chunks, last⟩ buffer
      count).ensures (desk C role Safe)
      (Same C role s files inbox out fun result => ∃ rest,
        result = (⟨.READ, some (path, position + count), size, chunks, last⟩,
          (F.respond files (.read path position count)).1 ++ rest, 0)) s
      ⟨busy files, inbox, out⟩ := by
  refine ensures_seq (look safe (show FileCall.Looks (.read path position count) from trivial)) ?_
  rintro content s _ ⟨rfl, rfl, rfl⟩
  have whole := F.whole files path length position count found inside
  dsimp only
  rw [if_neg (Nat.not_lt.mpr (Nat.le_of_eq whole.symm))]
  exact ensures_pure ⟨⟨_, rfl⟩, rfl, rfl⟩

theorem writeChunk_written (safe : ∀ files, Safe (busy files)) {target : Option Bytes}
    {chunk : Bytes} {size chunks last : Nat} :
    (FileManager.writeChunk ⟨.WRITE, target.map (·, 0), size, chunks, last⟩ chunk).ensures
      (desk C role Safe)
      (Same C role s (F.put files target chunk) inbox out (· = 0)) s ⟨busy files, inbox, out⟩ := by
  cases target with
  | none => exact ensures_pure ⟨rfl, rfl, rfl⟩
  | some path =>
      refine ensures_seq (ask_file safe (.write path chunk)) ?_
      rintro _ s _ ⟨-, rfl, rfl⟩
      exact ensures_pure ⟨rfl, rfl, rfl⟩

theorem getFilesList_listed (safe : ∀ files, Safe (busy files)) (path : Bytes) :
    (FileManager.getFilesList path).ensures (desk C role Safe)
      (Same C role s files inbox out (· = F.listing files path)) s ⟨busy files, inbox, out⟩ := by
  refine ensures_seq (look safe (show FileCall.Looks (.exists_ path) from trivial)) ?_
  rintro there s _ ⟨known, rfl, rfl⟩
  unfold FileStore.listing
  rw [← known]
  cases there with
  | none => exact ensures_pure ⟨rfl, rfl, rfl⟩
  | some there =>
      cases there with
      | false => exact ensures_pure ⟨rfl, rfl, rfl⟩
      | true =>
          refine ensures_seq
            (look safe (show FileCall.Looks (.directory_iterator path) from trivial)) ?_
          rintro names s _ ⟨known, rfl, rfl⟩
          rw [← known]
          cases names with
          | none => exact ensures_pure ⟨rfl, rfl, rfl⟩
          | some names => exact ensures_pure ⟨rfl, rfl, rfl⟩

theorem openDownload_found (safe : ∀ files, Safe (busy files)) (path : Bytes) :
    (Server.openDownload path).ensures (desk C role Safe)
      (Same C role s files inbox out
        (· = if F.downloadable files path then some (F.reader files path) else none)) s
      ⟨busy files, inbox, out⟩ := by
  have kind : (Server.isDownloadable path).ensures (desk C role Safe)
      (Same C role s files inbox out (· = F.downloadable files path)) s
      ⟨busy files, inbox, out⟩ := by
    refine ensures_seq (isFilePresent_found safe path) ?_
    rintro opened s _ ⟨known, rfl, rfl⟩
    unfold FileStore.downloadable
    rw [← known]
    cases opened with
    | false => exact ensures_pure ⟨rfl, rfl, rfl⟩
    | true =>
        refine ensures_seq (look safe (show FileCall.Looks (.is_regular_file path) from trivial)) ?_
        rintro regular s _ ⟨known, rfl, rfl⟩
        have told := F.regular files path
        rw [← known] at told ⊢
        obtain ⟨regular, rfl⟩ := Option.isSome_iff_exists.mp told
        cases regular with
        | false => exact ensures_pure ⟨rfl, rfl, rfl⟩
        | true =>
            refine ensures_seq (look safe (show FileCall.Looks (.is_symlink path) from trivial)) ?_
            rintro symlink s _ ⟨known, rfl, rfl⟩
            have told := F.symlink files path
            rw [← known] at told ⊢
            obtain ⟨symlink, rfl⟩ := Option.isSome_iff_exists.mp told
            cases symlink with
            | false => exact ensures_pure ⟨rfl, rfl, rfl⟩
            | true => exact ensures_pure ⟨rfl, rfl, rfl⟩
  refine ensures_seq kind ?_
  rintro _ s _ ⟨rfl, rfl, rfl⟩
  cases F.downloadable files path with
  | false => exact ensures_pure ⟨rfl, rfl, rfl⟩
  | true =>
      refine ensures_seq (openRead_found safe path) ?_
      rintro _ s _ ⟨rfl, rfl, rfl⟩
      exact ensures_pure ⟨rfl, rfl, rfl⟩

theorem renameFile_renamed (safe : ∀ files, Safe (busy files)) (old new : Bytes) :
    (Server.renameFile old new).ensures (desk C role Safe)
      (Same C role s (F.renames files old new).2 inbox out (· = (F.renames files old new).1)) s
      ⟨busy files, inbox, out⟩ := by
  refine ensures_seq (isFilePresent_found safe old) ?_
  rintro opened s _ ⟨known, rfl, rfl⟩
  unfold FileStore.renames
  rw [← known]
  cases opened with
  | false => exact ensures_pure ⟨rfl, rfl, rfl⟩
  | true =>
      refine ensures_seq (isFilePresent_found safe new) ?_
      rintro taken s _ ⟨known, rfl, rfl⟩
      rw [← known]
      cases taken with
      | true => exact ensures_pure ⟨rfl, rfl, rfl⟩
      | false =>
          refine ensures_seq (ask_file safe (.rename old new)) ?_
          rintro result s _ ⟨known, rfl, rfl⟩
          dsimp only
          rw [← known]
          by_cases done_ : result = 0
          · rw [if_neg (not_not.mpr done_), done_]
            exact ensures_pure ⟨rfl, rfl, rfl⟩
          · rw [if_pos done_]
            simp only [done_]
            exact ensures_pure ⟨rfl, rfl, rfl⟩

end Party
end CloudStorage
