import CloudStorage.Session.Errands

/-! Downloads and uploads: both sides cut the file into the same chunks, and the receiving
side writes what the sending side reads. -/
namespace CloudStorage
open Interaction Code Method Party

namespace Lockstep
variable {C : Crypto} {F G : Computer} {α β γ δ : Type} {ends : Pair C F G α β → Prop}
  {host : Endian} {files : F.State} {storage : G.State}
  {kC : Except Thrown γ × Session octets → Program Op Op.Ans α}

/-- How many bytes the chunks have that are left. -/
def remaining (last : Nat) : Nat → Nat
  | 0 => 0
  | left + 1 => left * Config.CHUNK_SIZE + last

def chunkSize (last left : Nat) : Nat := if left = 0 then last else Config.CHUNK_SIZE

theorem remaining_succ (last left : Nat) :
    remaining last (left + 1) = chunkSize last left + remaining last left := by
  cases left with
  | zero => simp only [remaining, chunkSize, Nat.zero_mul, Nat.zero_add, Nat.add_zero, if_true]
  | succ left =>
      simp only [remaining, chunkSize, Nat.succ_ne_zero, if_false]
      rw [Nat.succ_mul]
      omega

theorem chunkSize_eq (last left : Nat) :
    (if left = 0 then last else Config.CHUNK_SIZE) = chunkSize last left := rfl

theorem chunkSize_le {last : Nat} (short : last ≤ Config.CHUNK_SIZE) (left : Nat) :
    chunkSize last left ≤ Config.CHUNK_SIZE := by
  unfold chunkSize
  split
  · exact short
  · exact Nat.le_refl _

/-- A chunk as it is sent. -/
theorem chunk_length (code : UInt8) {content : Bytes} {count : Nat}
    (whole : content.length = count) (short : count ≤ Config.CHUNK_SIZE) :
    (Block.serialize ⟨code, content⟩).length = 1 + count ∧
      (Block.serialize ⟨code, content⟩).length < 2 ^ 31 := by
  have length : (Block.serialize ⟨code, content⟩).length = 1 + count := by
    rw [Block.serialize_length, whole]
  have limit : Config.CHUNK_SIZE = 1000000 := rfl
  exact ⟨length, by omega⟩

theorem chunk_read {code : UInt8} {content : Bytes} {count : Nat} (whole : content.length = count) :
    Block.deserialize (Block.serialize ⟨code, content⟩) count = ⟨code, content⟩ := by
  subst whole
  exact Block.deserialize_serialize _

section Chunks
variable {kS : Except Thrown δ × Session octets → Program Op Op.Ans β} {username : Bytes}
  {f : Option Nat → Method γ} {g : Option Nat → Method δ} {path : Bytes} {target : Option Bytes}
  {length size chunks size' chunks' last : Nat}

/-- The server reads and sends the chunks, the client writes them. -/
theorem download_chunks (name : FileManager.isStringValid username = true)
    (found : G.size storage path = some length) (short : last ≤ Config.CHUNK_SIZE)
    {left position : Nat} {files : F.State} {m_counter : UInt32} {key buffer : Bytes}
    (inside : position + remaining last left ≤ length)
    (next : ∀ m_counter key, At ends ((f none ⟨username, m_counter, key⟩).bind kC)
      ((g none ⟨username, m_counter, key⟩).bind kS)
      (F.fill files target (G.pieces storage path last position left)) storage) :
    At ends
      (((Client.receiveChunks host ⟨.WRITE, target.map (·, 0), size', chunks', last⟩ left >>= f)
        ⟨username, m_counter, key⟩).bind kC)
      (((Server.sendChunks host ⟨.READ, some (path, position), size, chunks, last⟩ buffer left
        >>= g) ⟨username, m_counter, key⟩).bind kS) files storage := by
  induction left generalizing position files m_counter key buffer with
  | zero => exact next m_counter key
  | succ left ih =>
      rw [remaining_succ] at inside
      rw [Client.receiveChunks, Server.sendChunks]
      rw [FileStore.pieces] at next
      simp only [Code.bind_assoc, chunkSize_eq] at next ⊢
      have small := chunkSize_le short left
      generalize chunkSize last left = count at inside small next ⊢
      have within : position + count ≤ length := by omega
      have whole := G.whole storage path length position count found within
      refine local_right (readChunk_read safe_right found within) ?_
      rintro _ ⟨rest, rfl⟩
      dsimp only
      generalize (G.respond storage (.read path position count)).1 = content at whole next ⊢
      obtain ⟨sent, sealable⟩ := chunk_length Message.DOWNLOAD_CHUNK.byte whole small
      rw [if_neg sent_fine, Code.bind_assoc, List.take_left' whole, DownloadMi.ofChunk]
      refine to_client sealable sent ?_
      dsimp only
      rw [chunk_read whole, Code.bind_assoc, Code.bind_assoc]
      refine increments name fun m_counter key => ?_
      rw [if_neg (not_not.mpr rfl), Code.bind_assoc]
      refine local_left rfl (writeChunk_written safe_left) ?_
      rintro _ rfl
      rw [if_neg sent_fine]
      exact ih (by omega) next

/-- The client reads and sends the chunks, the server writes them. -/
theorem upload_chunks (name : FileManager.isStringValid username = true)
    (found : F.size files path = some length) (short : last ≤ Config.CHUNK_SIZE)
    {left position : Nat} {storage : G.State} {m_counter : UInt32} {key buffer : Bytes}
    (inside : position + remaining last left ≤ length)
    (next : ∀ m_counter key, At ends ((f none ⟨username, m_counter, key⟩).bind kC)
      ((g none ⟨username, m_counter, key⟩).bind kS) files
      (G.fill storage target (F.pieces files path last position left))) :
    At ends
      (((Client.sendChunks host ⟨.READ, some (path, position), size, chunks, last⟩ buffer left
        >>= f) ⟨username, m_counter, key⟩).bind kC)
      (((Server.receiveChunks host ⟨.WRITE, target.map (·, 0), size', chunks', last⟩ left >>= g)
        ⟨username, m_counter, key⟩).bind kS) files storage := by
  induction left generalizing position storage m_counter key buffer with
  | zero => exact next m_counter key
  | succ left ih =>
      rw [remaining_succ] at inside
      rw [Client.sendChunks, Server.receiveChunks]
      rw [FileStore.pieces] at next
      simp only [Code.bind_assoc, chunkSize_eq] at next ⊢
      have small := chunkSize_le short left
      generalize chunkSize last left = count at inside small next ⊢
      have within : position + count ≤ length := by omega
      have whole := F.whole files path length position count found within
      refine local_left rfl (readChunk_read safe_left found within) ?_
      rintro _ ⟨rest, rfl⟩
      dsimp only
      generalize (F.respond files (.read path position count)).1 = content at whole next ⊢
      obtain ⟨sent, sealable⟩ := chunk_length Message.UPLOAD_CHUNK.byte whole small
      rw [List.take_left' whole, UploadMi.ofChunk]
      refine to_server sealable sent ?_
      dsimp only
      rw [chunk_read whole, Code.bind_assoc, Code.bind_assoc]
      refine increments name fun m_counter key => ?_
      rw [Code.bind_assoc]
      refine local_right (writeChunk_written safe_right) ?_
      rintro _ rfl
      rw [if_neg sent_fine]
      exact ih (by omega) next

end Chunks

/-- The chunks of a file have its length. -/
theorem remaining_initFileInfo (manager : FileManager) (file_size : Nat) :
    remaining (manager.initFileInfo file_size).m_last_chunk_size
      (manager.initFileInfo file_size).m_chunks_num = file_size ∧
    (manager.initFileInfo file_size).m_last_chunk_size ≤ Config.CHUNK_SIZE := by
  have limit : Config.CHUNK_SIZE = 1000000 := rfl
  simp only [FileManager.initFileInfo, limit]
  by_cases even : file_size % 1000000 = 0
  · rw [if_neg (not_not.mpr even)]
    refine ⟨?_, Nat.le_refl _⟩
    obtain ⟨chunks, rfl⟩ := Nat.dvd_of_mod_eq_zero even
    have count : (1000000 * chunks + 1000000 - 1) / 1000000 = chunks := by omega
    rw [count]
    cases chunks with
    | zero => rfl
    | succ chunks =>
        rw [remaining, limit]
        omega
  · rw [if_pos even]
    refine ⟨?_, by omega⟩
    have count : (file_size + 1000000 - 1) / 1000000 = file_size / 1000000 + 1 := by omega
    rw [count, remaining, limit]
    omega

/-- The regular files are shorter than 2^32 bytes. -/
def Small (storage : G.State) : Prop := ∀ length, G.Holds storage length → length < 2 ^ 32

theorem downloadable_present {path : Bytes} (found : G.downloadable storage path = true) :
    G.present storage path = true := by
  rw [FileStore.downloadable, Bool.and_eq_true, Bool.and_eq_true] at found
  exact found.1.1

/-- A file that is there has a size and is cut accordingly, or counts as empty. -/
theorem reader_opened {S : FileStore} {state : S.State} {path : Bytes}
    (present : S.present state path = true) :
    ((S.reader state path).m_file_size = 0 ∧ (S.reader state path).m_chunks_num = 0) ∨
      ∃ length, length ≠ 0 ∧ S.size state path = some length ∧
        S.reader state path =
          FileManager.initFileInfo ⟨.READ, some (path, 0), 0, 0, 0⟩ length := by
  unfold FileStore.reader
  rw [if_pos present]
  cases size : S.size state path with
  | none => exact .inl ⟨rfl, rfl⟩
  | some length =>
      by_cases empty : length = 0
      · subst empty
        exact .inl ⟨rfl, rfl⟩
      · exact .inr ⟨length, empty, rfl, rfl⟩

theorem reader_small {path : Bytes} (small : Small storage)
    (found : G.downloadable storage path = true) :
    (G.reader storage path).m_file_size < 2 ^ 32 := by
  rcases reader_opened (downloadable_present found) with ⟨empty, -⟩ | ⟨length, -, size, opened⟩
  · rw [empty]
    decide
  · rw [FileStore.downloadable, Bool.and_eq_true, Bool.and_eq_true, beq_iff_eq, beq_iff_eq] at found
    rw [opened]
    exact small length ⟨path, found.1.2, size⟩

variable {kS : Except Thrown Unit × Session octets → Program Op Op.Ans β} {rounds : Nat}
  {username : Bytes}

/-- What a download returns and leaves. -/
def downloads (files : F.State) (storage : G.State) (here there : Bytes) : Nat × F.State :=
  if F.present files here then (Return.FILE_ALREADY_EXISTS.val, files)
  else if G.downloadable storage there then
    let file := G.reader storage there
    (Return.SUCCESS.val, F.fill (F.after files (.ofstream_open here)) (F.created files here)
      (G.pieces storage there file.m_last_chunk_size 0 file.m_chunks_num))
  else (Return.FILE_NOT_FOUND.val, files)

theorem download {key filename : Bytes} {m_counter : UInt32} {f : Nat → Method γ}
    {result : Nat × F.State} (name : FileManager.isStringValid username = true)
    (valid : FileManager.isStringValid filename = true)
    (limit : G.downloadable storage (storagePath username filename) = true →
      (G.reader storage (storagePath username filename)).m_file_size < 2 ^ 32)
    (outcome : downloads files storage (Client.localPath filename)
      (storagePath username filename) = result)
    (next : ∀ left, rounds ≤ left → ∀ m_counter key,
      Waiting ends host kS ((f result.1 ⟨username, m_counter, key⟩).bind kC) left
        ⟨username, m_counter, key⟩ result.2 storage) :
    Waiting ends host kS
      (((Client.downloadRequest host filename >>= f) ⟨username, m_counter, key⟩).bind kC)
      (rounds + 1) ⟨username, m_counter, key⟩ files storage := by
  subst outcome
  have width := strncpy_length filename Config.FILE_NAME_LEN
  rw [Client.downloadRequest]
  simp only [Code.bind_assoc]
  refine local_left rfl (isFilePresent_found safe_left _) ?_
  rintro _ rfl
  unfold downloads at next
  by_cases present : F.present files (Client.localPath filename) = true
  · rw [if_pos present]
    rw [if_pos present] at next
    exact next _ (Nat.le_succ _) m_counter key
  rw [if_neg present] at next ⊢
  rw [Code.bind_assoc]
  refine local_left rfl (ask_random (safe_left files) (busy_atWork files) _) fun filler length => ?_
  have whole : ((DownloadM1.ofName filename).serialize filler).length = Config.MAX_PACKET_SIZE :=
    NameRequest.serialize_length width length
  have read : NameRequest.deserialize ((DownloadM1.ofName filename).serialize filler) =
      DownloadM1.ofName filename := NameRequest.deserialize_serialize width
  rw [Code.bind_assoc]
  refine request (Server.downloadRequest host) whole rfl ?_
  dsimp only
  rw [Server.downloadRequest, read]
  simp only [Code.bind_assoc]
  refine increments name fun m_counter key => ?_
  rw [run_get, DownloadM1.ofName, NameRequest.ofName]
  dsimp only
  rw [cString_last valid, Code.pure_bind]
  refine local_right (openDownload_found safe_right _) ?_
  rintro _ rfl
  by_cases found : G.downloadable storage (storagePath username filename) = true
  · rw [if_pos found] at next ⊢
    dsimp only at next ⊢
    have limit := limit found
    have opened := reader_opened (downloadable_present found)
    generalize G.reader storage (storagePath username filename) = file at limit opened next ⊢
    refine to_client (by rw [DownloadM2.serialize_length]; decide)
      (DownloadM2.serialize_length _ _) ?_
    dsimp only
    rw [DownloadM2.deserialize_serialize, Code.bind_assoc, Code.bind_assoc]
    refine increments name fun m_counter key => ?_
    have size : file.m_file_size.toUInt32.toNat = file.m_file_size :=
      UInt32.toNat_ofNat_of_lt' limit
    rw [DownloadM2.ofSize_code, DownloadM2.ofSize_size, size, if_neg (by decide),
      if_neg (not_not.mpr rfl), Code.bind_assoc]
    refine local_left rfl (openWrite_created safe_left (Bool.eq_false_iff.mpr present)) ?_
    rintro _ rfl
    rw [Code.bind_assoc]
    rcases opened with ⟨empty, none_⟩ | ⟨length, some_, sized, rfl⟩
    · rw [none_] at next
      rw [empty]
      exact leave (next rounds (Nat.le_refl _) m_counter key)
    · obtain ⟨whole, short⟩ := remaining_initFileInfo
        ⟨.READ, some (storagePath username filename, 0), 0, 0, 0⟩ length
      have proper : ¬length.toUInt32 = 0 := by
        intro zero
        have value : length.toUInt32.toNat = length := size
        rw [zero] at value
        exact some_ value.symm
      rw [show FileManager.m_file_size (FileManager.initFileInfo _ length) = length from rfl,
        if_neg proper, Code.bind_assoc]
      refine local_right (ask_memory safe_right _) fun current_chunk _ => ?_
      rw [Code.bind_assoc]
      refine download_chunks name sized short (Nat.le_of_eq ((Nat.zero_add _).trans whole))
        fun m_counter key => ?_
      exact leave (next rounds (Nat.le_refl _) m_counter key)
  · rw [if_neg found] at next ⊢
    dsimp only
    refine to_client (by rw [DownloadM2.serialize_length]; decide)
      (DownloadM2.serialize_length _ _) ?_
    dsimp only
    rw [DownloadM2.deserialize_serialize, Code.bind_assoc, Code.bind_assoc]
    refine increments name fun m_counter key => ?_
    exact leave (next rounds (Nat.le_refl _) m_counter key)

/-- What an upload returns and leaves. -/
def uploads (files : F.State) (storage : G.State) (here there : Bytes) : Nat × G.State :=
  if F.present files here then
    let file := F.reader files here
    if file.m_file_size = 0 ∨ Config.MAX_FILE_SIZE < file.m_file_size then
      (Return.WRONG_FILE_SIZE.val, storage)
    else if G.present storage there then (Return.FILE_ALREADY_EXISTS.val, storage)
    else
      (Return.SUCCESS.val, G.fill (G.after storage (.ofstream_open there)) (G.created storage there)
        (F.pieces files here file.m_last_chunk_size 0 file.m_chunks_num))
  else (Return.FILE_NOT_FOUND.val, storage)

/-- A size that `UploadM1` carries. -/
theorem uploadSize {filename : Bytes} {length : Nat} (limit : length < Config.MAX_FILE_SIZE) :
    (UploadM1.ofFile filename length).m_file_size.toNat = length := by
  have bound : length < 4 * 1000 * 1000 * 1000 := limit
  rw [UploadM1.ofFile, if_pos bound]
  exact UInt32.toNat_ofNat_of_lt' (show length < 2 ^ 32 by omega)

theorem upload {key filename : Bytes} {m_counter : UInt32} {f : Nat → Method γ}
    {result : Nat × G.State} (name : FileManager.isStringValid username = true)
    (valid : FileManager.isStringValid filename = true)
    (carried : F.present files (Client.localPath filename) = true →
      F.size files (Client.localPath filename) ≠ some Config.MAX_FILE_SIZE)
    (outcome : uploads files storage (Client.localPath filename)
      (storagePath username filename) = result)
    (next : ∀ left, rounds ≤ left → ∀ m_counter key,
      Waiting ends host kS ((f result.1 ⟨username, m_counter, key⟩).bind kC) left
        ⟨username, m_counter, key⟩ files result.2) :
    Waiting ends host kS
      (((Client.uploadRequest host filename >>= f) ⟨username, m_counter, key⟩).bind kC)
      (rounds + 1) ⟨username, m_counter, key⟩ files storage := by
  subst outcome
  have width := strncpy_length filename Config.FILE_NAME_LEN
  rw [Client.uploadRequest]
  simp only [Code.bind_assoc]
  refine local_left rfl (isFilePresent_found safe_left _) ?_
  rintro _ rfl
  unfold uploads at next
  by_cases absent : ¬F.present files (Client.localPath filename) = true
  · rw [if_pos absent]
    rw [if_neg absent] at next
    exact next _ (Nat.le_succ _) m_counter key
  have present := not_not.mp absent
  rw [if_neg absent, Code.bind_assoc]
  rw [if_pos present] at next
  refine local_left rfl (openRead_found safe_left _) ?_
  rintro _ rfl
  have opened := reader_opened present
  dsimp only at next
  generalize F.reader files (Client.localPath filename) = file at opened next ⊢
  by_cases wrong : file.m_file_size = 0 ∨ Config.MAX_FILE_SIZE < file.m_file_size
  · rw [if_pos wrong] at next ⊢
    exact next _ (Nat.le_succ _) m_counter key
  rw [if_neg wrong] at next ⊢
  rw [Code.bind_assoc]
  refine local_left rfl (ask_random (safe_left files) (busy_atWork files) _) fun filler long => ?_
  obtain ⟨length, some_, sized, rfl⟩ : ∃ length, length ≠ 0 ∧
      F.size files (Client.localPath filename) = some length ∧ file =
        FileManager.initFileInfo ⟨.READ, some (Client.localPath filename, 0), 0, 0, 0⟩ length := by
    rcases opened with ⟨empty, -⟩ | opened
    · exact absurd (.inl empty) wrong
    · exact opened
  have limit : length < Config.MAX_FILE_SIZE := by
    have bound : length ≤ Config.MAX_FILE_SIZE := Nat.not_lt.mp fun above => wrong (.inr above)
    refine Nat.lt_of_le_of_ne bound ?_
    rintro rfl
    exact carried present sized
  have whole : ((UploadM1.ofFile filename length).serialize host filler).length =
      Config.MAX_PACKET_SIZE := UploadM1.serialize_length width long
  have read : UploadM1.deserialize host ((UploadM1.ofFile filename length).serialize host filler) =
      UploadM1.ofFile filename length := UploadM1.deserialize_serialize width
  rw [Code.bind_assoc]
  refine request (Server.uploadRequest host) whole rfl ?_
  dsimp only
  rw [show FileManager.m_file_size (FileManager.initFileInfo _ length) = length from rfl,
    Server.uploadRequest, read]
  simp only [Code.bind_assoc]
  refine increments name fun m_counter key => ?_
  rw [run_get, uploadSize limit, show (UploadM1.ofFile filename length).m_filename =
    strncpy filename Config.FILE_NAME_LEN from rfl, cString_name valid, Code.pure_bind]
  refine local_right (isFilePresent_found safe_right _) ?_
  rintro _ rfl
  refine simple_to_client fun filler => ?_
  dsimp only
  rw [SimpleMessage.deserialize_serialize, Code.bind_assoc, Code.bind_assoc]
  refine increments name fun m_counter key => ?_
  by_cases taken : G.present storage (storagePath username filename) = true
  · rw [if_pos taken] at next ⊢
    exact leave (next rounds (Nat.le_refl _) m_counter key)
  rw [if_neg taken] at next ⊢
  rw [if_neg (by decide), if_neg (not_not.mpr rfl), if_neg (by decide), Code.bind_assoc,
    Code.bind_assoc]
  refine local_right (openWrite_created safe_right (Bool.eq_false_iff.mpr taken)) ?_
  rintro _ rfl
  refine local_left rfl (ask_memory safe_left _) fun chunk_buffer _ => ?_
  rw [Code.bind_assoc, Code.bind_assoc]
  obtain ⟨total, short⟩ := remaining_initFileInfo
    ⟨.READ, some (Client.localPath filename, 0), 0, 0, 0⟩ length
  refine upload_chunks name sized short (Nat.le_of_eq ((Nat.zero_add _).trans total))
    fun m_counter key => ?_
  dsimp only
  rw [Client.finishUpload]
  simp only [Code.bind_assoc]
  refine simple_to_client fun filler => ?_
  dsimp only
  rw [SimpleMessage.deserialize_serialize, Code.bind_assoc, Code.bind_assoc]
  refine increments name fun m_counter key => ?_
  rw [if_neg (not_not.mpr rfl)]
  exact leave (next rounds (Nat.le_refl _) m_counter key)

theorem Small.after_rename (small : Small storage) (old new : Bytes) :
    Small (G.renames storage old new).2 := by
  unfold FileStore.renames
  split
  · split
    · exact small
    · have kept : Small (G.respond storage (.rename old new)).2 := fun length holds =>
        small length (G.renamed storage old new length holds)
      dsimp only
      split
      · exact kept
      · exact kept
  · exact small

theorem Small.after_remove {path : Bytes} {storage' : G.State} (small : Small storage)
    (removed : removes storage path = some storage') : Small storage' := by
  unfold removes at removed
  dsimp only at removed
  split at removed
  · obtain rfl := Option.some.inj removed
    exact fun length holds => small length (G.removed storage path length holds)
  · exact nomatch removed

theorem fill_none {S : FileStore} {state : S.State} (chunks : List Bytes) :
    S.fill state none chunks = state := by
  unfold FileStore.fill
  induction chunks with
  | nil => rfl
  | cons chunk chunks ih => exact ih

/-- The file that is being filled has room for all that is still to come. -/
theorem Small.after_chunks {path here : Bytes} {length last : Nat} (total : Nat)
    (limit : total < 2 ^ 32)
    (found : F.size files here = some length) {left position : Nat} {storage : G.State}
    (inside : position + remaining last left ≤ length)
    (room : ∀ before, G.size storage path = some before → before + remaining last left ≤ total)
    (small : Small storage) :
    Small (G.fill storage (some path) (F.pieces files here last position left)) := by
  induction left generalizing position storage with
  | zero => exact small
  | succ left ih =>
      rw [remaining_succ] at inside room
      rw [FileStore.pieces, chunkSize_eq]
      generalize chunkSize last left = count at inside room ⊢
      have within : position + count ≤ length := by omega
      have whole := F.whole files here length position count found within
      generalize (F.respond files (.read here position count)).1 = content at whole ⊢
      refine ih (by omega) ?_ ?_
      · intro after grown
        obtain ⟨before, size, bound⟩ := G.extended storage path content after grown
        have fits := room before size
        omega
      · intro after holds
        rcases G.written storage path content after holds with kept | ⟨before, size, bound⟩
        · exact small after kept
        · have fits := room before size
          omega

theorem Small.after_upload {here there : Bytes} (small : Small storage) :
    Small (uploads files storage here there).2 := by
  unfold uploads
  by_cases absent : ¬F.present files here = true
  · rw [if_neg absent]
    exact small
  rw [if_pos (not_not.mp absent)]
  have opened := reader_opened (not_not.mp absent)
  dsimp only
  generalize F.reader files here = file at opened ⊢
  by_cases wrong : file.m_file_size = 0 ∨ Config.MAX_FILE_SIZE < file.m_file_size
  · rw [if_pos wrong]
    exact small
  rw [if_neg wrong]
  by_cases taken : G.present storage there = true
  · rw [if_pos taken]
    exact small
  rw [if_neg taken]
  rcases opened with ⟨empty, -⟩ | ⟨length, -, found, rfl⟩
  · exact absurd (.inl empty) wrong
  have limit : length ≤ Config.MAX_FILE_SIZE := Nat.not_lt.mp fun above => wrong (.inr above)
  obtain ⟨total, short⟩ := remaining_initFileInfo ⟨.READ, some (here, 0), 0, 0, 0⟩ length
  have start : Small (G.after storage (.ofstream_open there)) := by
    intro after holds
    rcases G.opened storage there after holds with rfl | kept
    · decide
    · exact small after kept
  unfold FileStore.created
  by_cases answer : (G.respond storage (.ofstream_open there)).1 = true
  · rw [if_pos answer]
    refine start.after_chunks length ?_ found (by omega) ?_
    · exact Nat.lt_of_le_of_lt limit (by decide)
    · intro before size
      have empty := G.emptied storage there before answer size
      omega
  · rw [if_neg answer, fill_none]
    exact start

end Lockstep
end CloudStorage
