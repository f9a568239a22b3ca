import CloudStorage.Session.Hazards

/-! Downloads and uploads over files that may do anything: each side cuts the file into
the same chunks, whatever is read and written of it. -/
namespace CloudStorage
open Interaction Code Method

namespace Loose
open Lockstep (served handled chunkSize chunkSize_eq chunkSize_le chunk_length chunk_read)

variable {C : Crypto} {H J : Habit} {α β γ δ : Type} {ends : Pair C H J α β → Prop}
  {host : Endian} {b b' : Bench} {rounds : Nat} {username : Bytes}
  {kC : Except Thrown γ × Session octets → Program Op Op.Ans α}
  (registered : J.keyFile = .key ())
include registered

section Chunks
variable {kS : Except Thrown δ × Session octets → Program Op Op.Ans β}
  {f : Option Nat → Method γ} {g : Option Nat → Method δ} {last : Nat}

/-- The server reads and sends the chunks, the client writes them. -/
theorem download_chunks (name : FileManager.isStringValid username = true)
    {reader writer : FileManager} {left : Nat} {m_counter : UInt32} {key buffer : Bytes}
    (reads : reader.m_open_mode = .READ) (writes : writer.m_open_mode = .WRITE)
    (cut : reader.m_last_chunk_size = last) (cut' : writer.m_last_chunk_size = last)
    (short : last ≤ Config.CHUNK_SIZE) (wide : Config.CHUNK_SIZE ≤ buffer.length)
    (next : ∀ reads writes chunks, Sends b'.scene reader buffer (sizes last left) reads chunks →
      Writes writer.m_stream writes chunks → ∀ after after', after.diary = b.diary ++ writes →
      after'.diary = b'.diary ++ reads → ∀ m_counter key,
        At ends ((f none ⟨username, m_counter, key⟩).bind kC)
          ((g none ⟨username, m_counter, key⟩).bind kS) after after') :
    At ends
      (((Client.receiveChunks host writer left >>= f) ⟨username, m_counter, key⟩).bind kC)
      (((Server.sendChunks host reader buffer left >>= g) ⟨username, m_counter, key⟩).bind kS)
      b b' := by
  induction left generalizing reader m_counter key buffer b b' with
  | zero =>
      exact next [] [] [] (.nil ..) .nil b b' (List.append_nil _).symm (List.append_nil _).symm
        m_counter key
  | succ left ih =>
      rw [Client.receiveChunks, Server.sendChunks]
      rw [sizes] at next
      simp only [Code.bind_assoc, cut, cut', chunkSize_eq]
      have small := chunkSize_le short left
      generalize chunkSize last left = count at small next ⊢
      apply local_right (readChunk_filed calm_right reads)
      rintro ⟨reader', buffer', result⟩ read isRead -
      obtain ⟨rfl, same, cut'', longer⟩ := isRead.kept
      have whole : (buffer'.take count).length = count := by
        rw [List.length_take]
        omega
      obtain ⟨sent, sealable⟩ := chunk_length Message.DOWNLOAD_CHUNK.byte whole small
      rw [if_neg Lockstep.sent_fine, Code.bind_assoc, DownloadMi.ofChunk]
      apply to_client registered sealable sent
      intro _ _
      dsimp only
      rw [chunk_read whole, Code.bind_assoc, Code.bind_assoc]
      apply increments registered name
      intro m_counter key memory memory'
      rw [if_neg (not_not.mpr rfl), Code.bind_assoc]
      apply local_left (writeChunk_filed calm_left writes)
      rintro result _ ⟨rfl, rfl⟩ -
      rw [if_neg Lockstep.sent_fine]
      apply ih (same.trans reads) (cut''.trans cut) (Nat.le_trans wide longer)
      intro later writes chunks sends puts after after' diary diary'
      apply next _ _ _ (.cons isRead sends) (.cons _ puts)
      · rw [diary]
        exact List.append_assoc ..
      · rw [diary']
        exact List.append_assoc ..

/-- The client reads and sends the chunks, the server writes them. -/
theorem upload_chunks (name : FileManager.isStringValid username = true)
    {reader writer : FileManager} {left : Nat} {m_counter : UInt32} {key buffer : Bytes}
    (reads : reader.m_open_mode = .READ) (writes : writer.m_open_mode = .WRITE)
    (cut : reader.m_last_chunk_size = last) (cut' : writer.m_last_chunk_size = last)
    (short : last ≤ Config.CHUNK_SIZE) (wide : Config.CHUNK_SIZE ≤ buffer.length)
    (next : ∀ reads writes chunks, Sends b.scene reader buffer (sizes last left) reads chunks →
      Writes writer.m_stream writes chunks → ∀ after after', after.diary = b.diary ++ reads →
      after'.diary = b'.diary ++ writes → ∀ m_counter key,
        At ends ((f none ⟨username, m_counter, key⟩).bind kC)
          ((g none ⟨username, m_counter, key⟩).bind kS) after after') :
    At ends
      (((Client.sendChunks host reader buffer left >>= f) ⟨username, m_counter, key⟩).bind kC)
      (((Server.receiveChunks host writer left >>= g) ⟨username, m_counter, key⟩).bind kS)
      b b' := by
  induction left generalizing reader m_counter key buffer b b' with
  | zero =>
      exact next [] [] [] (.nil ..) .nil b b' (List.append_nil _).symm (List.append_nil _).symm
        m_counter key
  | succ left ih =>
      rw [Client.sendChunks, Server.receiveChunks]
      rw [sizes] at next
      simp only [Code.bind_assoc, cut, cut', chunkSize_eq]
      have small := chunkSize_le short left
      generalize chunkSize last left = count at small next ⊢
      apply local_left (readChunk_filed calm_left reads)
      rintro ⟨reader', buffer', result⟩ read isRead -
      obtain ⟨-, same, cut'', longer⟩ := isRead.kept
      have whole : (buffer'.take count).length = count := by
        rw [List.length_take]
        omega
      obtain ⟨sent, sealable⟩ := chunk_length Message.UPLOAD_CHUNK.byte whole small
      rw [UploadMi.ofChunk]
      apply to_server registered sealable sent
      intro _ _
      dsimp only
      rw [chunk_read whole, Code.bind_assoc, Code.bind_assoc]
      apply increments registered name
      intro m_counter key memory memory'
      rw [Code.bind_assoc]
      apply local_right (writeChunk_filed calm_right writes)
      rintro result _ ⟨rfl, rfl⟩ -
      rw [if_neg Lockstep.sent_fine]
      apply ih (same.trans reads) (cut''.trans cut) (Nat.le_trans wide longer)
      intro later writes chunks sends puts after after' diary diary'
      apply next _ _ _ (.cons isRead sends) (.cons _ puts)
      · rw [diary]
        exact List.append_assoc ..
      · rw [diary']
        exact List.append_assoc ..

end Chunks
/-- The kind of a file can be told. -/
def Tells (J : Habit) : Prop :=
  ∀ b path answer, J.Files b (.is_regular_file path) answer ∨ J.Files b (.is_symlink path) answer →
    answer.isSome = true

omit registered in
/-- A file is opened for a download, or not, or the search for it ends in an exception. -/
theorem openDownload {left : Program Op Op.Ans α} {path : Bytes} {t : Session octets}
    {kS : Except Thrown δ × Session octets → Program Op Op.Ans β} {g : Option FileManager → Method δ}
    (absent : ∀ entries, At ends left ((g none t).bind kS) b (b'.wrote entries))
    (thrown : ¬Tells J → ∀ entries, At ends left (kS (.error .exception, t)) b (b'.wrote entries))
    (opened : ∀ scene reader opening, OpensRead scene path reader opening →
      (∀ entry ∈ opening, J.Allows b'.scene.command entry) →
      At ends left ((g (some reader) t).bind kS) b (b'.wrote
        (⟨scene, .ifstream_open path, true⟩ :: ⟨scene, .is_regular_file path, some true⟩ ::
          ⟨scene, .is_symlink path, some false⟩ :: opening))) :
    At ends left (((Server.openDownload path >>= g) t).bind kS) b b' := by
  rw [Server.openDownload, Server.isDownloadable]
  simp only [Code.bind_assoc]
  apply local_right (isFilePresent_filed calm_right path)
  rintro present _ rfl -
  cases present with
  | false => exact absent _
  | true =>
      rw [if_neg (not_not.mpr rfl), Code.bind_assoc]
      apply local_right (filed_file calm_right (.is_regular_file path))
      rintro regular _ rfl allowed
      rw [Bench.wrote_wrote]
      cases regular with
      | none =>
          obtain ⟨_, -, files⟩ := allowed _ (List.mem_singleton.mpr rfl)
          exact thrown (fun tells => nomatch tells _ _ none (.inl files)) _
      | some regular =>
          cases regular with
          | false => exact absent _
          | true =>
              dsimp only
              rw [if_neg (not_not.mpr rfl), Code.bind_assoc]
              apply local_right (filed_file calm_right (.is_symlink path))
              rintro symlink _ rfl allowed
              rw [Bench.wrote_wrote]
              cases symlink with
              | none =>
                  obtain ⟨_, -, files⟩ := allowed _ (List.mem_singleton.mpr rfl)
                  exact thrown (fun tells => nomatch tells _ _ none (.inr files)) _
              | some symlink =>
                  cases symlink with
                  | true => exact absent _
                  | false =>
                      dsimp only
                      rw [Code.pure_bind, if_pos (by decide), Code.bind_assoc]
                      apply local_right (openRead_filed calm_right path)
                      intro reader opening opens allowed
                      rw [Bench.wrote_wrote]
                      exact opened _ reader opening opens allowed

/-- The client has not come to its end. -/
def Unfinished (c : Pair C H J α β) : Prop := ∃ op next, c.left = .call op next

/-- What a successful download does to the files of both sides. -/
def Downloaded (here there : Bytes) (entries entries' : List Entry) : Prop :=
  ∃ scene scene' source target,
    entries = ⟨scene, .ifstream_open here, false⟩ :: target ∧
    entries' = ⟨scene', .ifstream_open there, true⟩ ::
      ⟨scene', .is_regular_file there, some true⟩ ::
        ⟨scene', .is_symlink there, some false⟩ :: source ∧
    Carried there here source target

/-- What the server has done of a download of a file whose size it was told. -/
def Measures (there : Bytes) (file_size : Nat) (entries' : List Entry) : Prop :=
  ∃ scene scene' later,
    entries' = ⟨scene', .ifstream_open there, true⟩ ::
      ⟨scene', .is_regular_file there, some true⟩ :: ⟨scene', .is_symlink there, some false⟩ ::
        ⟨scene, .ifstream_open there, true⟩ :: ⟨scene, .seek_end there, some file_size⟩ :: later

/-- A size fits `UploadM1` and `DownloadM2`, or counts as empty in both. -/
def Fits (file_size : Nat) : Prop := file_size < 2 ^ 32 ∨ file_size % 2 ^ 32 = 0

omit registered in
theorem Fits.carried {file_size : Nat} (fits : Fits file_size) (some_ : file_size.toUInt32 ≠ 0) :
    file_size.toUInt32.toNat = file_size := by
  cases fits with
  | inl small => exact UInt32.toNat_ofNat_of_lt' small
  | inr even =>
      refine absurd (UInt32.toNat_inj.mp ?_) some_
      exact (UInt32.toNat_ofNat' ..).trans even

variable {kS : Except Thrown Unit × Session octets → Program Op Op.Ans β}
  {key filename : Bytes} {m_counter : UInt32} {f : Nat → Method γ}

theorem download (name : FileManager.isStringValid username = true)
    (valid : FileManager.isStringValid filename = true)
    (oversized : ∀ bench path file_size, J.Files bench (.seek_end path) (some file_size) →
      ¬Fits file_size → ∀ c : Pair C H J α β, ∀ entries',
        Measures (storagePath username filename) file_size entries' →
        c.there.diary = b'.diary ++ entries' → Link.Good (pact ends) c)
    (quits : ∀ e t, ∃ value, kS (.error e, t) = .done value)
    (stops : ¬Tells J → ∀ c : Pair C H J α β, Unfinished c → ends c)
    (next : ∀ code entries entries', (code = Return.SUCCESS.val →
        Downloaded (Client.localPath filename) (storagePath username filename) entries entries') →
      ∀ after after', after.diary = b.diary ++ entries → after'.diary = b'.diary ++ entries' →
        ∀ left, rounds ≤ left → ∀ m_counter key,
          Waiting ends host kS ((f code ⟨username, m_counter, key⟩).bind kC) left
            ⟨username, m_counter, key⟩ after after') :
    Waiting ends host kS
      (((Client.downloadRequest host filename >>= f) ⟨username, m_counter, key⟩).bind kC)
      (rounds + 1) ⟨username, m_counter, key⟩ b b' := by
  have width := strncpy_length filename Config.FILE_NAME_LEN
  rw [Client.downloadRequest]
  simp only [Code.bind_assoc]
  apply local_left (isFilePresent_filed calm_left _)
  rintro present _ rfl -
  by_cases taken : present = true
  · rw [if_pos taken]
    exact next Return.FILE_ALREADY_EXISTS.val _ [] (fun wrong => absurd wrong (by decide)) _ _ rfl
      (List.append_nil _).symm _ (Nat.le_succ _) m_counter key
  obtain rfl := Bool.eq_false_iff.mpr taken
  rw [if_neg taken, Code.bind_assoc]
  apply ask_left rfl rfl
  intro filler length
  have whole : ((DownloadM1.ofName filename).serialize filler).length = Config.MAX_PACKET_SIZE :=
    NameRequest.serialize_length width length
  have read : NameRequest.deserialize ((DownloadM1.ofName filename).serialize filler) =
      DownloadM1.ofName filename := NameRequest.deserialize_serialize width
  rw [Code.bind_assoc]
  apply request registered (Server.downloadRequest host) whole rfl
  intro _ _
  dsimp only
  rw [Server.downloadRequest, read]
  simp only [Code.bind_assoc]
  apply increments registered name
  intro m_counter key _ _
  rw [run_get, DownloadM1.ofName, NameRequest.ofName]
  dsimp only
  rw [Lockstep.cString_last valid, Code.pure_bind]
  apply openDownload
  · intro entries
    dsimp only
    apply to_client registered (by rw [DownloadM2.serialize_length]; decide)
      (DownloadM2.serialize_length _ _)
    intro _ _
    dsimp only
    rw [DownloadM2.deserialize_serialize, Code.bind_assoc, Code.bind_assoc]
    apply increments registered name
    intro m_counter key _ _
    exact leave (next Return.FILE_NOT_FOUND.val _ _ (fun wrong => absurd wrong (by decide)) _ _ rfl
      rfl rounds (Nat.le_refl _) m_counter key)
  · intro untold entries
    obtain ⟨value, ended⟩ := quits .exception ⟨username, m_counter, key⟩
    rw [ended]
    apply Link.Good.stop trivial trivial
    · rintro ⟨_, _, ⟨⟩, enough⟩
      exact absurd enough (by simp [Generic.getMessageSize, Config.IV_LEN])
    · rintro ⟨_, _, ⟨⟩, -⟩
    · exact fun resting => resting.elim
    · exact stops untold _ ⟨_, _, rfl⟩
  · intro scene' reader opening opens allowed
    dsimp only
    apply to_client registered (by rw [DownloadM2.serialize_length]; decide)
      (DownloadM2.serialize_length _ _)
    intro _ _
    dsimp only
    rw [DownloadM2.deserialize_serialize, Code.bind_assoc, Code.bind_assoc]
    apply increments registered name
    intro m_counter key _ _
    rw [DownloadM2.ofSize_code, DownloadM2.ofSize_size, if_neg (by decide),
      if_neg (not_not.mpr rfl), Code.bind_assoc]
    apply local_left (openWrite_filed calm_left _)
    intro writer creating creates _
    rw [Code.bind_assoc]
    by_cases empty : reader.m_file_size.toUInt32 = 0
    · rw [if_pos empty, empty]
      refine leave (next Return.SUCCESS.val _ _ (fun _ => ?_) _ _ (List.append_assoc ..) rfl rounds (Nat.le_refl _)
        m_counter key)
      have chunks : chunkSizes reader.m_file_size.toUInt32.toNat = [] := by
        rw [empty]
        rfl
      refine ⟨_, _, _, _, rfl, rfl, ⟨_, _, none, List.replicate Config.CHUNK_SIZE 0, reader, opening,
        writer, creating, [], [], [], opens, creates, ?_, .nil, Nat.le_of_eq List.length_replicate.symm,
        (List.append_nil _).symm, (List.append_nil _).symm⟩⟩
      rw [chunks]
      exact .nil ..
    · have some_ : reader.m_file_size ≠ 0 := by
        intro zero
        rw [zero] at empty
        exact empty rfl
      obtain ⟨found, member⟩ := opens.found some_
      obtain ⟨_, -, files⟩ := allowed _ member
      by_cases unfit : ¬Fits reader.m_file_size
      · apply oversized _ _ _ files unfit _ _ _ rfl
        cases opens with
        | refused => exact absurd rfl some_
        | unsized => exact absurd rfl some_
        | sized file_size => exact ⟨_, _, [], rfl⟩
      have size := (not_not.mp unfit).carried empty
      rw [if_neg empty, Code.bind_assoc, size]
      apply ask_right rfl rfl
      intro current_chunk wide
      rw [Code.bind_assoc]
      generalize reader.m_file_size = file_size at *
      subst found
      obtain ⟨-, short⟩ := Lockstep.remaining_initFileInfo
        ⟨.READ, some (storagePath username filename, 0), 0, 0, 0⟩ file_size
      have reading : (FileManager.initFileInfo ⟨.READ, some (storagePath username filename, 0), 0, 0,
        0⟩ file_size).m_open_mode = .READ := rfl
      have writing : (writer.initFileInfo file_size).m_open_mode = .WRITE := creates.mode
      apply download_chunks registered name reading writing rfl rfl short
        (Nat.le_of_eq (show current_chunk.length = _ from wide).symm)
      intro reads writes chunks sends puts after after' diary diary' m_counter key
      have kept : Downloaded (Client.localPath filename) (storagePath username filename)
          (⟨b.scene, .ifstream_open (Client.localPath filename), false⟩ :: (creating ++ writes))
          (⟨scene', .ifstream_open (storagePath username filename), true⟩ ::
            ⟨scene', .is_regular_file (storagePath username filename), some true⟩ ::
              ⟨scene', .is_symlink (storagePath username filename), some false⟩ ::
                (opening ++ reads)) := by
        refine ⟨_, _, _, _, rfl, rfl, ⟨_, _, some Message.DOWNLOAD_REQUEST.byte, current_chunk, _, opening, writer,
          creating, reads, writes, chunks, opens, creates, ?_, puts,
          Nat.le_of_eq (show current_chunk.length = _ from wide).symm, rfl, rfl⟩⟩
        rw [show FileManager.m_file_size (FileManager.initFileInfo _ file_size) = file_size from rfl,
          size]
        exact sends
      exact leave (next Return.SUCCESS.val _ _ (fun _ => kept) after after'
        (diary.trans ((List.append_assoc ..).trans (List.append_assoc ..)))
        (diary'.trans (List.append_assoc ..)) rounds (Nat.le_refl _) m_counter key)

/-- What an upload returns, and what both sides have done to their files. -/
inductive Uploaded (here there : Bytes) : Nat → List Entry → List Entry → Prop where
  | absent (scene : Scene) : Uploaded here there Return.FILE_NOT_FOUND.val
      [⟨scene, .ifstream_open here, false⟩] []
  | unfit {scene scene' : Scene} {reader : FileManager} {opening : List Entry} :
      OpensRead scene' here reader opening →
      reader.m_file_size = 0 ∨ Config.MAX_FILE_SIZE < reader.m_file_size →
      Uploaded here there Return.WRONG_FILE_SIZE.val
        (⟨scene, .ifstream_open here, true⟩ :: opening) []
  | refused {source : List Entry} (scene : Scene) :
      Uploaded here there Return.FILE_ALREADY_EXISTS.val source
        [⟨scene, .ifstream_open there, true⟩]
  | carried {source target : List Entry} (scene scene' : Scene) : Carried here there source target →
      Uploaded here there Return.SUCCESS.val (⟨scene, .ifstream_open here, true⟩ :: source)
        (⟨scene', .ifstream_open there, false⟩ :: target)

theorem upload (name : FileManager.isStringValid username = true)
    (valid : FileManager.isStringValid filename = true)
    (carried : ∀ b path, ¬H.Files b (.seek_end path) (some Config.MAX_FILE_SIZE))
    (next : ∀ code entries entries',
      Uploaded (Client.localPath filename) (storagePath username filename) code entries entries' →
      ∀ after after', after.diary = b.diary ++ entries → after'.diary = b'.diary ++ entries' →
        ∀ left, rounds ≤ left → ∀ m_counter key,
          Waiting ends host kS ((f code ⟨username, m_counter, key⟩).bind kC) left
            ⟨username, m_counter, key⟩ after after') :
    Waiting ends host kS
      (((Client.uploadRequest host filename >>= f) ⟨username, m_counter, key⟩).bind kC)
      (rounds + 1) ⟨username, m_counter, key⟩ b b' := by
  have width := strncpy_length filename Config.FILE_NAME_LEN
  rw [Client.uploadRequest]
  simp only [Code.bind_assoc]
  apply local_left (isFilePresent_filed calm_left _)
  rintro present _ rfl -
  by_cases absent : ¬present = true
  · obtain rfl := (Bool.not_eq_true present).mp absent
    rw [if_pos absent]
    exact next _ _ [] (.absent _) _ _ rfl (List.append_nil _).symm _ (Nat.le_succ _) m_counter key
  obtain rfl := not_not.mp absent
  rw [if_neg absent, Code.bind_assoc]
  apply local_left (openRead_filed calm_left _)
  intro reader opening opens allowed
  rw [Bench.wrote_wrote]
  by_cases wrong : reader.m_file_size = 0 ∨ Config.MAX_FILE_SIZE < reader.m_file_size
  · rw [if_pos wrong]
    exact next _ _ [] (.unfit opens wrong) _ _ rfl
      (List.append_nil _).symm _ (Nat.le_succ _) m_counter key
  rw [if_neg wrong, Code.bind_assoc]
  apply ask_left rfl rfl
  intro filler long
  obtain ⟨found, member⟩ := opens.found fun empty => wrong (.inl empty)
  obtain ⟨_, -, files⟩ := allowed _ member
  have limit : reader.m_file_size < Config.MAX_FILE_SIZE := by
    have bound := Nat.not_lt.mp fun above => wrong (.inr above)
    apply Nat.lt_of_le_of_ne bound
    intro exact_
    rw [exact_] at files
    exact carried _ _ files
  generalize reader.m_file_size = file_size at *
  subst found
  have whole : ((UploadM1.ofFile filename file_size).serialize host filler).length =
      Config.MAX_PACKET_SIZE := UploadM1.serialize_length width long
  have read : UploadM1.deserialize host
      ((UploadM1.ofFile filename file_size).serialize host filler) =
        UploadM1.ofFile filename file_size := UploadM1.deserialize_serialize width
  rw [Code.bind_assoc]
  apply request registered (Server.uploadRequest host) whole rfl
  intro _ _
  dsimp only
  rw [Server.uploadRequest, read]
  simp only [Code.bind_assoc]
  apply increments registered name
  intro m_counter key _ memory'
  rw [run_get, Lockstep.uploadSize limit, show (UploadM1.ofFile filename file_size).m_filename =
    strncpy filename Config.FILE_NAME_LEN from rfl, Lockstep.cString_name valid, Code.pure_bind]
  apply local_right (isFilePresent_filed calm_right _)
  rintro taken _ rfl -
  apply simple_to_client registered
  intro filler _ _
  dsimp only
  rw [SimpleMessage.deserialize_serialize, Code.bind_assoc, Code.bind_assoc]
  apply increments registered name
  intro m_counter key _ _
  by_cases refused : taken = true
  · subst refused
    rw [if_pos rfl]
    exact leave (next Return.FILE_ALREADY_EXISTS.val _ _ (.refused _) _ _ rfl rfl rounds
      (Nat.le_refl _) m_counter key)
  obtain rfl := Bool.eq_false_iff.mpr refused
  rw [if_neg refused, if_neg (by decide), if_neg (not_not.mpr rfl), if_neg (by decide),
    Code.bind_assoc, Code.bind_assoc]
  apply local_right (openWrite_filed calm_right _)
  intro writer creating creates _
  apply ask_left rfl rfl
  intro chunk_buffer wide
  rw [Code.bind_assoc, Code.bind_assoc]
  obtain ⟨-, short⟩ := Lockstep.remaining_initFileInfo
    ⟨.READ, some (Client.localPath filename, 0), 0, 0, 0⟩ file_size
  have reading : (FileManager.initFileInfo ⟨.READ, some (Client.localPath filename, 0), 0, 0, 0⟩
    file_size).m_open_mode = .READ := rfl
  have writing : (writer.initFileInfo file_size).m_open_mode = .WRITE := creates.mode
  apply upload_chunks registered name reading writing rfl rfl short
    (Nat.le_of_eq (show chunk_buffer.length = _ from wide).symm)
  intro reads writes chunks sends puts after after' diary diary' m_counter key
  dsimp only
  rw [Client.finishUpload]
  simp only [Code.bind_assoc]
  apply simple_to_client registered
  intro filler early early'
  dsimp only
  rw [SimpleMessage.deserialize_serialize, Code.bind_assoc, Code.bind_assoc]
  apply increments registered name
  intro m_counter key late late'
  rw [if_neg (not_not.mpr rfl)]
  have size : file_size.toUInt32.toNat = file_size :=
    UInt32.toNat_ofNat_of_lt' (Nat.lt_trans limit (by decide))
  have kept : Uploaded (Client.localPath filename) (storagePath username filename)
      Return.SUCCESS.val
      (⟨b.scene, .ifstream_open (Client.localPath filename), true⟩ :: (opening ++ reads))
      (⟨⟨some Message.UPLOAD_REQUEST.byte, memory'⟩,
        .ifstream_open (storagePath username filename), false⟩ :: (creating ++ writes)) := by
    refine .carried _ _ ⟨⟨_, _, b.scene.command, chunk_buffer, _, opening, writer, creating, reads,
      writes, chunks, opens, creates, ?_, puts,
      Nat.le_of_eq (show chunk_buffer.length = _ from wide).symm, rfl, rfl⟩⟩
    rw [show FileManager.m_file_size (FileManager.initFileInfo _ file_size) = file_size from rfl,
      size]
    exact sends
  exact leave (next Return.SUCCESS.val _ _ kept ((after.forget early).forget late)
    ((after'.forget early').forget late') (diary.trans (List.append_assoc ..))
    (diary'.trans ((List.append_assoc ..).trans (List.append_assoc ..))) rounds (Nat.le_refl _)
    m_counter key)

end Loose
end CloudStorage
