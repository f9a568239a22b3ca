import CloudStorage.Session.Loose
import CloudStorage.Session.Menu

/-! What the storage functions do on a machine whose files may do anything: which calls
they make, with which answers, and what they return for them. -/
namespace CloudStorage
open Interaction Code Method

namespace Loose

/-- The call may be answered so while the request is served. -/
def Habit.Allows (H : Habit) (command : Option UInt8) (entry : Entry) : Prop :=
  ∃ b, b.scene.command = command ∧ H.Files b entry.call entry.answer

/-- Only file calls have been made, and they are in the diary. -/
def Filed (C : Crypto) (H : Habit) (role : Role) (s : Session octets) (b : Bench) {α : Type}
    (known : α → List Entry → Prop) : α → Session octets → Desk (loose C H role) → Prop :=
  fun answer t g => t = s ∧ ∃ entries, known answer entries ∧
    (∀ entry ∈ entries, H.Allows b.scene.command entry) ∧ g = ⟨b.wrote entries, [], []⟩

/-- What the reading constructor makes of its answers. -/
inductive OpensRead (scene : Scene) (path : Bytes) : FileManager → List Entry → Prop where
  | refused : OpensRead scene path ⟨.READ, none, 0, 0, 0⟩ [⟨scene, .ifstream_open path, false⟩]
  | unsized : OpensRead scene path ⟨.READ, some (path, 0), 0, 0, 0⟩
      [⟨scene, .ifstream_open path, true⟩, ⟨scene, .seek_end path, none⟩]
  | sized (file_size : Nat) : OpensRead scene path
      (FileManager.initFileInfo ⟨.READ, some (path, 0), 0, 0, 0⟩ file_size)
      [⟨scene, .ifstream_open path, true⟩, ⟨scene, .seek_end path, some file_size⟩]

/-- What the writing constructor makes of its answers. -/
inductive OpensWrite (scene : Scene) (path : Bytes) : FileManager → List Entry → Prop where
  | present : OpensWrite scene path ⟨.WRITE, none, 0, 0, 0⟩ [⟨scene, .ifstream_open path, true⟩]
  | refused : OpensWrite scene path ⟨.WRITE, none, 0, 0, 0⟩
      [⟨scene, .ifstream_open path, false⟩, ⟨scene, .ofstream_open path, false⟩]
  | created : OpensWrite scene path ⟨.WRITE, some (path, 0), 0, 0, 0⟩
      [⟨scene, .ifstream_open path, false⟩, ⟨scene, .ofstream_open path, true⟩]

/-- What a read leaves of the stream and the buffer. -/
inductive ReadsChunk (scene : Scene) (manager : FileManager) (buffer : Bytes) (size : Nat) :
    FileManager × Bytes × Int → List Entry → Prop where
  | failed : manager.m_stream = none →
      ReadsChunk scene manager buffer size (manager, buffer, 0) []
  | read (path : Bytes) (position : Nat) (content : Bytes) :
      manager.m_stream = some (path, position) →
      ReadsChunk scene manager buffer size
        ({ manager with
            m_stream := if content.length < size then none else some (path, position + size) },
          content ++ buffer.drop content.length, 0)
        [⟨scene, .read path position size, content⟩]

/-- A chunk is written if there is a stream. -/
def written (scene : Scene) (target : Option (Bytes × Nat)) (chunk : Bytes) : List Entry :=
  match target with
  | none => []
  | some (path, _) => [⟨scene, .write path chunk, ()⟩]

/-- What becomes of a directory. -/
inductive Lists (scene : Scene) (path : Bytes) : Bytes → List Entry → Prop where
  | missing (there : Option Bool) : there ≠ some true →
      Lists scene path (ascii "error") [⟨scene, .exists_ path, there⟩]
  | unreadable : Lists scene path (ascii "error")
      [⟨scene, .exists_ path, some true⟩, ⟨scene, .directory_iterator path, none⟩]
  | listed (names : List Bytes) : Lists scene path (names.map (· ++ ascii ",")).flatten.dropLast
      [⟨scene, .exists_ path, some true⟩, ⟨scene, .directory_iterator path, some names⟩]

/-- The sizes of the chunks that are left. -/
def sizes (last : Nat) : Nat → List Nat
  | 0 => []
  | left + 1 => Lockstep.chunkSize last left :: sizes last left

/-- The sizes of the chunks of a file. -/
def chunkSizes (file_size : Nat) : List Nat :=
  let file := FileManager.initFileInfo ⟨.READ, none, 0, 0, 0⟩ file_size
  sizes file.m_last_chunk_size file.m_chunks_num

/-- The calls by which chunks are read, and what is sent of the buffer each time. -/
inductive Sends : (scene : Scene) → FileManager → (buffer : Bytes) → List Nat → List Entry →
    List Bytes → Prop where
  | nil (scene : Scene) (manager : FileManager) (buffer : Bytes) :
      Sends scene manager buffer [] [] []
  | cons {scene later : Scene} {manager manager' : FileManager} {buffer buffer' : Bytes}
      {count : Nat} {counts : List Nat} {result : Int} {read reads : List Entry}
      {chunks : List Bytes} :
      ReadsChunk scene manager buffer count (manager', buffer', result) read →
      Sends later manager' buffer' counts reads chunks →
      Sends scene manager buffer (count :: counts) (read ++ reads) (buffer'.take count :: chunks)

/-- The calls by which chunks are written. -/
inductive Writes (target : Option (Bytes × Nat)) : List Entry → List Bytes → Prop where
  | nil : Writes target [] []
  | cons {chunk : Bytes} {writes : List Entry} {chunks : List Bytes} (scene : Scene) :
      Writes target writes chunks →
      Writes target (written scene target chunk ++ writes) (chunk :: chunks)

/-- A file is read on one side, and what has been read is written on the other. -/
structure Carried (path other : Bytes) (source target : List Entry) : Prop where
  parts : ∃ scene scene' command buffer reader opening writer creating reads writes chunks,
    OpensRead scene path reader opening ∧ OpensWrite scene' other writer creating ∧
    Sends ⟨command, buffer⟩ reader buffer (chunkSizes reader.m_file_size.toUInt32.toNat) reads chunks ∧
    Writes writer.m_stream writes chunks ∧ Config.CHUNK_SIZE ≤ buffer.length ∧
    source = opening ++ reads ∧ target = creating ++ writes

theorem OpensRead.mode {scene : Scene} {path : Bytes} {reader : FileManager} {opening : List Entry}
    (opens : OpensRead scene path reader opening) : reader.m_open_mode = .READ := by
  cases opens with
  | _ => rfl

theorem OpensWrite.mode {scene : Scene} {path : Bytes} {writer : FileManager} {creating : List Entry}
    (opens : OpensWrite scene path writer creating) : writer.m_open_mode = .WRITE := by
  cases opens with
  | _ => rfl

/-- A reader with a size has found it. -/
theorem OpensRead.found {scene : Scene} {path : Bytes} {reader : FileManager} {opening : List Entry}
    (opens : OpensRead scene path reader opening) (some_ : reader.m_file_size ≠ 0) :
    reader = FileManager.initFileInfo ⟨.READ, some (path, 0), 0, 0, 0⟩ reader.m_file_size ∧
      ⟨scene, .seek_end path, some reader.m_file_size⟩ ∈ opening := by
  cases opens with
  | refused => exact absurd rfl some_
  | unsized => exact absurd rfl some_
  | sized file_size => exact ⟨rfl, List.mem_cons_of_mem _ (List.mem_cons_self ..)⟩

theorem ReadsChunk.kept {scene : Scene} {buffer : Bytes} {manager manager' : FileManager}
    {buffer' : Bytes} {size : Nat} {result : Int} {entries : List Entry}
    (read : ReadsChunk scene manager buffer size (manager', buffer', result) entries) :
    result = 0 ∧ manager'.m_open_mode = manager.m_open_mode ∧
      manager'.m_last_chunk_size = manager.m_last_chunk_size ∧
      buffer.length ≤ buffer'.length := by
  cases read with
  | failed => exact ⟨rfl, rfl, rfl, Nat.le_refl _⟩
  | read path position content =>
      refine ⟨rfl, rfl, rfl, ?_⟩
      rw [List.length_append, List.length_drop]
      omega

section Files
variable {C : Crypto} {H : Habit} {role : Role} {Safe : Bench → Prop} {b : Bench}
  {s : Session octets} {α β : Type}

theorem filed_pure {known : α → List Entry → Prop} {value : α} (holds : known value []) :
    (pure value : Method α).ensures ((loose C H role).desk Safe) (Filed C H role s b known) s
      ⟨b, [], []⟩ := by
  apply ensures_pure
  refine ⟨rfl, [], holds, nofun, ?_⟩
  rw [Bench.wrote, List.append_nil]

theorem filed_seq {c : Method α} {f : α → Method β} {known : α → List Entry → Prop}
    {known' : β → List Entry → Prop}
    (first : c.ensures ((loose C H role).desk Safe) (Filed C H role s b known) s ⟨b, [], []⟩)
    (rest : ∀ value entries, known value entries →
      (f value).ensures ((loose C H role).desk Safe)
        (Filed C H role s (b.wrote entries) fun answer later => known' answer (entries ++ later)) s
        ⟨b.wrote entries, [], []⟩) :
    (c >>= f).ensures ((loose C H role).desk Safe) (Filed C H role s b known') s ⟨b, [], []⟩ := by
  apply ensures_seq first
  rintro value _ _ ⟨rfl, entries, holds, allowed, rfl⟩
  apply ensures_mono _ (rest value entries holds)
  rintro answer _ _ ⟨rfl, later, holds', allowed', rfl⟩
  refine ⟨rfl, entries ++ later, holds', ?_, ?_⟩
  · intro entry member
    cases List.mem_append.mp member with
    | inl early => exact allowed entry early
    | inr late => exact allowed' entry late
  · rw [Bench.wrote_wrote]

/-- One call. -/
theorem filed_file (safe : ∀ b, Safe b) (call : FileCall) :
    (file call).ensures ((loose C H role).desk Safe)
      (Filed C H role s b fun answer entries => entries = [⟨b.scene, call, answer⟩]) s
      ⟨b, [], []⟩ := by
  rintro _ rfl answer legal
  refine ⟨⟨safe b, Nat.zero_le _, nofun⟩, answer, s, rfl, rfl, [_], rfl, ?_, rfl⟩
  intro entry member
  obtain rfl := List.mem_singleton.mp member
  exact ⟨b, rfl, legal⟩

theorem isFilePresent_filed (safe : ∀ b, Safe b) (path : Bytes) :
    (FileManager.isFilePresent path).ensures ((loose C H role).desk Safe)
      (Filed C H role s b fun answer entries =>
        entries = [⟨b.scene, .ifstream_open path, answer⟩]) s ⟨b, [], []⟩ :=
  filed_file safe (.ifstream_open path)

theorem openRead_filed (safe : ∀ b, Safe b) (path : Bytes) :
    (FileManager.openRead path).ensures ((loose C H role).desk Safe)
      (Filed C H role s b (OpensRead b.scene path)) s ⟨b, [], []⟩ := by
  apply filed_seq (filed_file safe (.ifstream_open path))
  rintro opened _ rfl
  cases opened with
  | false => exact filed_pure .refused
  | true =>
      apply filed_seq (filed_file safe (.seek_end path))
      rintro found _ rfl
      cases found with
      | none => exact filed_pure .unsized
      | some file_size => exact filed_pure (.sized file_size)

theorem openWrite_filed (safe : ∀ b, Safe b) (path : Bytes) :
    (FileManager.openWrite path).ensures ((loose C H role).desk Safe)
      (Filed C H role s b (OpensWrite b.scene path)) s ⟨b, [], []⟩ := by
  apply filed_seq (isFilePresent_filed safe path)
  rintro there _ rfl
  cases there with
  | true => exact filed_pure .present
  | false =>
      apply filed_seq (filed_file safe (.ofstream_open path))
      rintro opened _ rfl
      cases opened with
      | false => exact filed_pure .refused
      | true => exact filed_pure .created

theorem readChunk_filed (safe : ∀ b, Safe b) {manager : FileManager} {buffer : Bytes} {size : Nat}
    (mode : manager.m_open_mode = .READ) :
    (manager.readChunk buffer size).ensures ((loose C H role).desk Safe)
      (Filed C H role s b (ReadsChunk b.scene manager buffer size)) s ⟨b, [], []⟩ := by
  rw [FileManager.readChunk, if_neg (not_not.mpr mode)]
  cases stream : manager.m_stream with
  | none => exact filed_pure (.failed stream)
  | some place =>
      obtain ⟨path, position⟩ := place
      apply filed_seq (filed_file safe (.read path position size))
      rintro content _ rfl
      exact filed_pure (.read path position content stream)

theorem writeChunk_filed (safe : ∀ b, Safe b) {manager : FileManager} {chunk : Bytes}
    (mode : manager.m_open_mode = .WRITE) :
    (manager.writeChunk chunk).ensures ((loose C H role).desk Safe)
      (Filed C H role s b fun result entries =>
        result = 0 ∧ entries = written b.scene manager.m_stream chunk) s ⟨b, [], []⟩ := by
  rw [FileManager.writeChunk, if_neg (not_not.mpr mode)]
  cases manager.m_stream with
  | none => exact filed_pure ⟨rfl, rfl⟩
  | some place =>
      apply filed_seq (filed_file safe (.write place.1 chunk))
      rintro _ _ rfl
      exact filed_pure ⟨rfl, rfl⟩

theorem getFilesList_filed (safe : ∀ b, Safe b) (path : Bytes) :
    (FileManager.getFilesList path).ensures ((loose C H role).desk Safe)
      (Filed C H role s b (Lists b.scene path)) s ⟨b, [], []⟩ := by
  apply filed_seq (filed_file safe (.exists_ path))
  rintro there _ rfl
  by_cases found : there = some true
  · subst found
    apply filed_seq (filed_file safe (.directory_iterator path))
    rintro names _ rfl
    cases names with
    | none => exact filed_pure .unreadable
    | some names => exact filed_pure (.listed names)
  · cases there with
    | none => exact filed_pure (.missing none found)
    | some there =>
        cases there with
        | false => exact filed_pure (.missing (some false) found)
        | true => exact absurd rfl found

/-- A rename answers in any case. -/
theorem renameFile_filed (safe : ∀ b, Safe b) (old new : Bytes) :
    (Server.renameFile old new).ensures ((loose C H role).desk Safe)
      (Filed C H role s b fun _ _ => True) s ⟨b, [], []⟩ := by
  apply filed_seq (isFilePresent_filed safe old)
  rintro there _ -
  cases there with
  | false => exact filed_pure trivial
  | true =>
      apply filed_seq (isFilePresent_filed safe new)
      rintro taken _ -
      cases taken with
      | true => exact filed_pure trivial
      | false =>
          apply filed_seq (filed_file safe (.rename old new))
          rintro result _ -
          by_cases failed : result ≠ 0
          · rw [if_pos failed]
            exact filed_pure trivial
          · rw [if_neg failed]
            exact filed_pure trivial

end Files
end Loose
end CloudStorage
