import CloudStorage.Storage.FileManager
import CloudStorage.Messages.Session

/-! The size of a file on its way to the other side. Both sides cut a file by the size
they know: the sender by that of its own file, the receiver by what the message says. -/
namespace CloudStorage

/-- Two managers cut a file into the same chunks. -/
structure FileManager.SameCut (sender receiver : FileManager) : Prop where
  size : receiver.m_file_size = sender.m_file_size
  chunks : receiver.m_chunks_num = sender.m_chunks_num
  last : receiver.m_last_chunk_size = sender.m_last_chunk_size

theorem FileManager.sameCut_iff (sender receiver : FileManager) (size size' : Nat) :
    SameCut (sender.initFileInfo size) (receiver.initFileInfo size') ↔ size' = size := by
  constructor
  · intro same
    exact same.size
  · intro same
    subst same
    exact ⟨rfl, rfl, rfl⟩

/-- The size that the server reads from the request of an upload. -/
def UploadM1.received (host : Endian) (filename filler : Bytes) (file_size : Nat) : Nat :=
  (deserialize host ((ofFile filename file_size).serialize host filler)).m_file_size.toNat

/-- The size that the client reads from the answer to a download. -/
def DownloadM2.received (host : Endian) (file_size : Nat) : Nat :=
  (deserialize host ((ofSize Message.DOWNLOAD_ACK.byte file_size).serialize host)).m_file_size.toNat

theorem UploadM1.received_eq (host : Endian) (filename filler : Bytes) (file_size : Nat) :
    received host filename filler file_size =
      if file_size < 4 * 1000 * 1000 * 1000 then file_size else 0 := by
  rw [received, deserialize_serialize (strncpy_length ..), ofFile]
  by_cases small : file_size < 4 * 1000 * 1000 * 1000
  · rw [if_pos small, if_pos small]
    exact UInt32.toNat_ofNat_of_lt' (by simp only [UInt32.size]; omega)
  · rw [if_neg small, if_neg small]
    rfl

theorem DownloadM2.received_eq (host : Endian) (file_size : Nat) :
    received host file_size = file_size % 2 ^ 32 := by
  rw [received, deserialize_serialize, ofSize_size, Nat.toUInt32, UInt32.toNat_ofNat']

namespace FileManager

/-- Of the files that the client admits, the largest is announced as empty; of the files
that the server sends, those whose size 32 bits do not hold are announced by what is
left of it. All others are cut alike on both sides. -/
theorem same_cut_iff (host : Endian) (filename filler : Bytes) (sender receiver : FileManager)
    (file_size : Nat) :
    (¬(file_size = 0 ∨ Config.MAX_FILE_SIZE < file_size) →
      (SameCut (sender.initFileInfo file_size)
        (receiver.initFileInfo (UploadM1.received host filename filler file_size)) ↔
          file_size ≠ Config.MAX_FILE_SIZE)) ∧
    (SameCut (sender.initFileInfo file_size)
      (receiver.initFileInfo (DownloadM2.received host file_size)) ↔ file_size < 2 ^ 32) := by
  have limit : Config.MAX_FILE_SIZE = 4 * 1000 * 1000 * 1000 := rfl
  rw [sameCut_iff, sameCut_iff, UploadM1.received_eq, DownloadM2.received_eq, limit]
  constructor
  · intro admitted
    have positive : file_size ≠ 0 := fun zero => admitted (.inl zero)
    have bound : file_size ≤ 4 * 1000 * 1000 * 1000 := by omega
    by_cases small : file_size < 4 * 1000 * 1000 * 1000
    · rw [if_pos small]
      simp only [true_iff]
      omega
    · rw [if_neg small]
      omega
  · constructor
    · intro kept
      rw [← kept]
      exact Nat.mod_lt _ (by decide)
    · exact Nat.mod_eq_of_lt

theorem same_cut_of_a_megabyte : SameCut (initFileInfo ⟨.READ, none, 0, 0, 0⟩ 1000000)
    (initFileInfo ⟨.WRITE, none, 0, 0, 0⟩ (UploadM1.received .little [] [] 1000000)) :=
  ((same_cut_iff .little [] [] _ _ 1000000).1 (by decide)).mpr (by decide)

/-- A file of exactly 4,000,000,000 bytes passes the check of the client, which then sends
4000 chunks; the server is told 0 bytes and waits for none. -/
theorem largest_upload_cut_apart : ∃ file_size,
    ¬(file_size = 0 ∨ Config.MAX_FILE_SIZE < file_size) ∧
      (initFileInfo ⟨.READ, none, 0, 0, 0⟩ file_size).m_chunks_num = 4000 ∧
      (initFileInfo ⟨.WRITE, none, 0, 0, 0⟩
        (UploadM1.received .little [] [] file_size)).m_chunks_num = 0 := by
  refine ⟨Config.MAX_FILE_SIZE, by decide, by decide, ?_⟩
  rw [UploadM1.received_eq, if_neg (by decide)]
  rfl

end FileManager
end CloudStorage
