import CloudStorage.Session.Operations

/-! `FileManager.cpp` without its console functions. -/
namespace CloudStorage

inductive OpenMode where
  | READ
  | WRITE
  deriving DecidableEq, Repr

/-- `m_stream` is the path and position of the open stream, or `none` if the stream
is closed or has failed. -/
structure FileManager where
  m_open_mode : OpenMode
  m_stream : Option (Bytes × Nat)
  m_file_size : Nat
  m_chunks_num : Nat
  m_last_chunk_size : Nat
  deriving DecidableEq, Repr

namespace FileManager
open Method

/-- The quotient of doubles is exact for sizes below 2^53. -/
def initFileInfo (manager : FileManager) (file_size : Nat) : FileManager :=
  { manager with
    m_file_size := file_size
    m_chunks_num := (file_size + Config.CHUNK_SIZE - 1) / Config.CHUNK_SIZE
    m_last_chunk_size :=
      if file_size % Config.CHUNK_SIZE ≠ 0 then file_size % Config.CHUNK_SIZE
      else Config.CHUNK_SIZE }

def isFilePresent (file_path : Bytes) : Method Bool := file (.ifstream_open file_path)

/-- The constructor with `OpenMode::READ`. Exceptions of `openFile` are caught: the
sizes then stay 0. -/
def openRead (file_path : Bytes) : Method FileManager := do
  let manager : FileManager := ⟨.READ, none, 0, 0, 0⟩
  if ← file (.ifstream_open file_path) then
    let manager := { manager with m_stream := some (file_path, 0) }
    match ← file (.seek_end file_path) with
    | some file_size => return manager.initFileInfo file_size
    | none => return manager
  else return manager

/-- The constructor with `OpenMode::WRITE`. -/
def openWrite (file_path : Bytes) : Method FileManager := do
  let manager : FileManager := ⟨.WRITE, none, 0, 0, 0⟩
  if ← isFilePresent file_path then return manager
  if ← file (.ofstream_open file_path) then
    return { manager with m_stream := some (file_path, 0) }
  else return manager

/-- The new content of the buffer and the return code. A short read leaves the end
of the buffer as it was and the stream failed. -/
def readChunk (manager : FileManager) (buffer : Bytes) (size : Nat) :
    Method (FileManager × Bytes × Int) := do
  if manager.m_open_mode ≠ .READ then return (manager, buffer, -1)
  match manager.m_stream with
  | none => return (manager, buffer, 0)
  | some (path, position) =>
      let content ← file (.read path position size)
      let stream := if content.length < size then none else some (path, position + size)
      return ({ manager with m_stream := stream }, content ++ buffer.drop content.length, 0)

def writeChunk (manager : FileManager) (chunk : Bytes) : Method Int := do
  if manager.m_open_mode ≠ .WRITE then return -1
  match manager.m_stream with
  | none => return 0
  | some (path, _) =>
      file (.write path chunk)
      return 0

/-- Names joined by ','; "error" stands for any exception. -/
def getFilesList (path : Bytes) : Method Bytes := do
  match ← file (.exists_ path) with
  | some true =>
      match ← file (.directory_iterator path) with
      | some names => return (names.map (· ++ ascii ",")).flatten.dropLast
      | none => return ascii "error"
  | _ => return ascii "error"

def whitelist : Bytes :=
  ascii "abcdefghijklmnopqrstuvwxyzABCDEFGHIJKLMNOPQRSTUVWXYZ1234567890_-.@"

/-- `strspn` stops at the first byte that is not listed, which includes the
terminator of `c_str`. -/
def isStringValid (input_string : Bytes) : Bool :=
  if (input_string.takeWhile (· ∈ whitelist)).length < input_string.length then false
  else if input_string = [] then false
  else if Config.FILE_NAME_LEN ≤ input_string.length then false
  else if input_string = ascii "." ∨ input_string = ascii ".." then false
  else true

theorem takeWhile_whole {allowed : UInt8 → Bool} {name : Bytes} :
    ¬(name.takeWhile allowed).length < name.length ↔ ∀ byte ∈ name, allowed byte = true := by
  rw [← List.takeWhile_eq_self_iff]
  constructor
  · intro whole
    exact List.IsPrefix.eq_of_length_le (List.takeWhile_prefix _) (Nat.not_lt.mp whole)
  · intro same
    rw [same]
    exact Nat.lt_irrefl _

/-- Exactly the short names over the whitelist that are neither "." nor "..". -/
theorem isStringValid_iff {name : Bytes} :
    isStringValid name = true ↔
      (1 ≤ name.length ∧ name.length ≤ Config.FILE_NAME_LEN - 1) ∧
        (∀ byte ∈ name, byte ∈ whitelist) ∧ name ≠ ascii "." ∧ name ≠ ascii ".." := by
  have listed : ¬(name.takeWhile (· ∈ whitelist)).length < name.length ↔
      ∀ byte ∈ name, decide (byte ∈ whitelist) = true := takeWhile_whole
  simp only [decide_eq_true_eq] at listed
  have short : ¬Config.FILE_NAME_LEN ≤ name.length ↔
      name.length ≤ Config.FILE_NAME_LEN - 1 := by
    simp only [Config.FILE_NAME_LEN]
    omega
  have some_ : name ≠ [] ↔ 1 ≤ name.length := List.length_pos_iff.symm
  rw [← listed, ← short, ← some_, isStringValid]
  split_ifs with unlisted empty long reserved
  · simp [unlisted]
  · simp [empty]
  · simp [long]
  · rcases reserved with rfl | rfl
    · simp
    · simp
  · simpa [unlisted, empty, long] using not_or.mp reserved

/-- A name that passes the check is not empty, fits its field and is made of listed
characters. -/
theorem proper_of_valid {name : Bytes} (valid : isStringValid name = true) :
    (∀ byte ∈ name, byte ∈ whitelist) ∧ name ≠ [] ∧ name.length < Config.FILE_NAME_LEN := by
  obtain ⟨⟨some_, short⟩, listed, -⟩ := isStringValid_iff.mp valid
  exact ⟨listed, List.length_pos_iff.mp some_, Nat.lt_of_le_pred (by decide) short⟩

/-- A name that passes the check has no terminator and fits its field. -/
theorem clean_of_valid {name : Bytes} (valid : isStringValid name = true) :
    (0 : UInt8) ∉ name ∧ name.length < Config.FILE_NAME_LEN := by
  obtain ⟨listed, -, short⟩ := proper_of_valid valid
  refine ⟨?_, short⟩
  intro member
  exact absurd (listed 0 member) (by decide)

end FileManager
end CloudStorage
