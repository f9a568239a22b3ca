import CloudStorage.Session.Rounds

/-! Every operation of the client together with its handler on the server: what it
returns and leaves is a function of both file systems, and the counters stay together. -/
namespace CloudStorage
open Interaction Code Method Party

namespace Lockstep
variable {C : Crypto} {F G : Computer} {α β γ δ : Type} {ends : Pair C F G α β → Prop}
  {host : Endian} {files : F.State} {storage : G.State} {s t : Session octets}
  {kC : Except Thrown γ × Session octets → Program Op Op.Ans α}
  {kS : Except Thrown Unit × Session octets → Program Op Op.Ans β} {rounds : Nat}

/-- The client has not come to its end. -/
def Unfinished (c : Pair C F G α β) : Prop := ∃ op next, c.left = .call op next

/-- The client waits for an answer while the server waits for a request. -/
theorem stuck {size : Nat} {f : Except Return Bytes → Method γ}
    (stops : ∀ c : Pair C F G α β, Unfinished c → ends c) :
    Waiting ends host kS (((receiveGeneric size >>= f) s).bind kC) rounds t files storage := by
  refine .stop rfl rfl ?_ ?_ nofun (stops _ ⟨_, _, rfl⟩)
  · rintro ⟨_, _, ⟨⟩, enough⟩
    exact absurd enough (by simp [Generic.getMessageSize, Config.IV_LEN])
  · rintro ⟨_, _, ⟨⟩, enough⟩
    exact absurd enough (by simp [Link.swap, Generic.getMessageSize, Config.MAX_PACKET_SIZE])

/-- The size that ListM2 announces. -/
def listSize (files : Bytes) : UInt32 :=
  if files.length.toUInt32 ≠ 0 then files.length.toUInt32 + 1 else 0

theorem listSize_eq (files : Bytes) :
    (if files.length.toUInt32 ≠ 0 then files.length.toUInt32 + 1 else 0) = listSize files := rfl

/-- The directory can be read and its list can be sealed. -/
def Listable (files : Bytes) : Prop :=
  files ≠ ascii "error" ∧ ListM3.getMessageSize (listSize files).toNat < 2 ^ 31

instance (files : Bytes) : Decidable (Listable files) := inferInstanceAs (Decidable (_ ∧ _))

theorem fileList_length (files : Bytes) :
    ((files ++ [0]).take (listSize files).toNat).length = (listSize files).toNat := by
  have size : (listSize files).toNat ≤ files.length + 1 := by
    unfold listSize
    split
    · have mod := Nat.mod_le files.length (2 ^ 32)
      have sum := Nat.mod_le (files.length.toUInt32.toNat + (1 : UInt32).toNat) (2 ^ 32)
      rw [UInt32.toNat_add]
      rw [Nat.toUInt32, UInt32.toNat_ofNat'] at sum ⊢
      have one : (1 : UInt32).toNat = 1 := rfl
      omega
    · exact Nat.zero_le _
  rw [List.length_take, List.length_append, List.length_singleton]
  exact Nat.min_eq_left size

/-- A length that is negative as an `int`. -/
theorem sendGeneric_long {plaintext : Bytes} (long : 2 ^ 31 ≤ plaintext.length) :
    sendGeneric plaintext = pure (some Return.ENCRYPTION_FAILURE.val) := by
  rw [sendGeneric, encryptGeneric, if_pos long, Code.pure_bind]

/-- The file list that arrives, if one is sent. -/
def fileList (files : Bytes) : Option Bytes :=
  if listSize files = 0 then none else some ((files ++ [0]).take (listSize files).toNat)

theorem list {η : Type} {keep : Nat → Option Bytes → η} {username key : Bytes} {m_counter : UInt32}
    {f : η → Method γ} (name : FileManager.isStringValid username = true)
    (stops : ¬Listable (G.listing storage (storageDirectory username)) →
      ∀ c : Pair C F G α β, Unfinished c → ends c)
    (next : Listable (G.listing storage (storageDirectory username)) → ∀ m_counter key,
      Waiting ends host kS
        ((f (keep Return.SUCCESS.val (fileList (G.listing storage (storageDirectory username))))
          ⟨username, m_counter, key⟩).bind kC) rounds
        ⟨username, m_counter, key⟩ files storage) :
    Waiting ends host kS
      (((Client.listRequestWith host keep >>= f) ⟨username, m_counter, key⟩).bind kC)
      (rounds + 1) ⟨username, m_counter, key⟩ files storage := by
  rw [Client.listRequestWith]
  simp only [sendSimple, Code.bind_assoc]
  refine local_left rfl (ask_random (safe_left files) (busy_atWork files) _) fun filler length => ?_
  refine request (Server.listRequest host)
    (by simp [SimpleMessage.serialize, length, fillerSize, Config.MAX_PACKET_SIZE]) rfl ?_
  simp only [Server.listRequest, Code.bind_assoc]
  refine increments name fun m_counter key => ?_
  rw [run_get]
  refine local_right (getFilesList_listed safe_right _) ?_
  rintro _ rfl
  dsimp only
  generalize G.listing storage (storageDirectory username) = found at stops next ⊢
  by_cases failed : found = ascii "error"
  · rw [if_pos failed]
    exact leave (stuck (stops fun listable => listable.1 failed))
  rw [if_neg failed]
  rw [listSize_eq]
  rw [Code.bind_assoc]
  refine to_client (by rw [ListM2.serialize_length]; decide) (ListM2.serialize_length _ _) ?_
  dsimp only
  rw [ListM2.deserialize_serialize, Code.bind_assoc, Code.bind_assoc]
  refine increments name fun m_counter key => ?_
  rw [ListM2.ofSize, if_neg (not_not.mpr rfl)]
  dsimp only
  by_cases empty : listSize found = 0
  · rw [fileList, if_pos empty] at next
    rw [if_pos empty, if_pos empty]
    exact leave (next ⟨failed, by rw [empty]; decide⟩ m_counter key)
  rw [fileList, if_neg empty] at next
  rw [if_neg empty, if_neg empty, Code.bind_assoc, Code.bind_assoc]
  have content := fileList_length found
  have length : (ListM3.ofList ((found ++ [0]).take (listSize found).toNat)).serialize.length =
      ListM3.getMessageSize (listSize found).toNat := by
    rw [Block.serialize_length, ListM3.getMessageSize, ListM3.ofList, content]
  by_cases sealable : ListM3.getMessageSize (listSize found).toNat < 2 ^ 31
  · refine to_client (length ▸ sealable) length ?_
    dsimp only
    rw [Code.bind_assoc, Code.bind_assoc]
    refine increments name fun m_counter key => ?_
    have read := Block.deserialize_serialize
      (ListM3.ofList ((found ++ [0]).take (listSize found).toNat))
    rw [show (ListM3.ofList _).m_content = (found ++ [0]).take (listSize found).toNat from rfl,
      content] at read
    rw [read, ListM3.ofList, if_neg (not_not.mpr rfl)]
    exact leave (next ⟨failed, sealable⟩ m_counter key)
  · rw [sendGeneric_long (length ▸ Nat.not_lt.mp sealable), Code.pure_bind]
    exact leave (stuck (stops fun listable => sealable listable.2))

/-- A name that passes the check arrives as it was, whatever follows its field. -/
theorem cString_name {name : Bytes} (valid : FileManager.isStringValid name = true)
    (array : NameField) (rest : Bytes) :
    cString array (strncpy name Config.FILE_NAME_LEN ++ rest) = pure name := by
  obtain ⟨clean, short⟩ := FileManager.clean_of_valid valid
  rw [cString, if_pos (List.mem_append_left _ (mem_strncpy short)), strncpy_eq short,
    List.append_assoc, List.cons_append, cPrefix_terminated clean]

theorem cString_last {name : Bytes} (valid : FileManager.isStringValid name = true)
    (array : NameField) : cString array (strncpy name Config.FILE_NAME_LEN) = pure name := by
  simpa only [List.append_nil] using cString_name valid array []

/-- The code that the client returns for a RenameM2 message. -/
def renameCode (message_code : UInt8) : Nat :=
  if message_code = Return.FILE_NOT_FOUND.byte then Return.FILE_NOT_FOUND.val
  else if message_code = Return.FILE_ALREADY_EXISTS.byte then Return.FILE_ALREADY_EXISTS.val
  else if message_code = Result.NACK.byte then Return.RENAME_FAILURE.val
  else Return.SUCCESS.val

theorem rename {username key : Bytes} {m_counter : UInt32} {f : Nat → Method γ}
    {old_file_name new_file_name : Bytes} {renamed : UInt8 × G.State}
    (name : FileManager.isStringValid username = true)
    (old : FileManager.isStringValid old_file_name = true)
    (new : FileManager.isStringValid new_file_name = true)
    (result : G.renames storage (storagePath username old_file_name)
      (storagePath username new_file_name) = renamed)
    (next : ∀ m_counter key,
      Waiting ends host kS ((f (renameCode renamed.1) ⟨username, m_counter, key⟩).bind kC) rounds
        ⟨username, m_counter, key⟩ files renamed.2) :
    Waiting ends host kS
      (((Client.renameRequest host old_file_name new_file_name >>= f)
        ⟨username, m_counter, key⟩).bind kC)
      (rounds + 1) ⟨username, m_counter, key⟩ files storage := by
  subst result
  have oldLength := strncpy_length old_file_name Config.FILE_NAME_LEN
  have newLength := strncpy_length new_file_name Config.FILE_NAME_LEN
  have whole : (Rename.ofNames old_file_name new_file_name).serialize.length =
      Config.MAX_PACKET_SIZE := Rename.serialize_length oldLength newLength
  have read : Rename.deserialize (Rename.ofNames old_file_name new_file_name).serialize =
      Rename.ofNames old_file_name new_file_name := Rename.deserialize_serialize oldLength newLength
  rw [Client.renameRequest, Code.bind_assoc]
  refine request (Server.renameRequest host) whole rfl ?_
  rw [Server.renameRequest, read]
  simp only [Code.bind_assoc]
  refine increments name fun m_counter key => ?_
  rw [run_get, Rename.ofNames]
  dsimp only
  rw [cString_name old, Code.pure_bind, cString_last new, Code.pure_bind]
  refine local_right (renameFile_renamed safe_right _ _) ?_
  rintro _ rfl
  refine simple_to_client fun filler => ?_
  dsimp only
  rw [Code.bind_assoc, Code.bind_assoc]
  refine increments name fun m_counter key => ?_
  have back := next m_counter key
  unfold renameCode at back
  rw [SimpleMessage.deserialize_serialize]
  refine leave ?_
  dsimp only
  split_ifs at back ⊢
  all_goals exact back

/-- The outcome of a deletion, if the server sends one. -/
def removes (storage : G.State) (path : Bytes) : Option G.State :=
  let answer := G.respond storage (.remove path)
  if G.present storage path = true ∧ answer.1 = 0 then some answer.2 else none

theorem delete {username key : Bytes} {m_counter : UInt32} {f : Nat → Method γ}
    {filename : Bytes} (name : FileManager.isStringValid username = true)
    (valid : FileManager.isStringValid filename = true)
    (stops : F.chooses 1 2 1 → removes storage (storagePath username filename) = none →
      ∀ c : Pair C F G α β, Unfinished c → ends c)
    (refused : ∀ choice, F.chooses 1 2 choice → choice ≠ 1 → ∀ m_counter key,
      Waiting ends host kS
        ((f Return.NO_DELETE_CONFIRM.val ⟨username, m_counter, key⟩).bind kC) rounds
        ⟨username, m_counter, key⟩ files storage)
    (removed : F.chooses 1 2 1 → ∀ storage',
      removes storage (storagePath username filename) = some storage' → ∀ m_counter key,
      Waiting ends host kS ((f Return.SUCCESS.val ⟨username, m_counter, key⟩).bind kC) rounds
        ⟨username, m_counter, key⟩ files storage') :
    Waiting ends host kS
      (((Client.deleteRequest host filename >>= f) ⟨username, m_counter, key⟩).bind kC)
      (rounds + 1) ⟨username, m_counter, key⟩ files storage := by
  have width := strncpy_length filename Config.FILE_NAME_LEN
  rw [Client.deleteRequest, Code.bind_assoc]
  refine local_left rfl (ask_random (safe_left files) (busy_atWork files) _) fun filler length => ?_
  have whole : ((Delete.ofName filename).serialize filler).length = Config.MAX_PACKET_SIZE :=
    NameRequest.serialize_length width length
  have read : NameRequest.deserialize ((Delete.ofName filename).serialize filler) =
      Delete.ofName filename := NameRequest.deserialize_serialize width
  rw [Code.bind_assoc]
  refine request (Server.deleteRequest host) whole rfl ?_
  dsimp only
  rw [Server.deleteRequest, read]
  simp only [Code.bind_assoc]
  refine increments name fun m_counter key => ?_
  refine simple_to_client fun filler => ?_
  dsimp only
  simp only [Code.bind_assoc]
  refine increments name fun m_counter key => ?_
  rw [SimpleMessage.deserialize_serialize, if_neg (not_not.mpr rfl), Code.bind_assoc]
  refine .code_left (safe_right storage) (ask_choice (safe_left files) (busy_atWork files) 1 2) ?_
  rintro choice s _ ⟨chosen, rfl, rfl⟩
  dsimp only
  rw [Code.bind_assoc]
  refine simple_to_server ⟨rfl, rfl⟩ fun filler => ?_
  dsimp only
  simp only [Code.bind_assoc]
  refine increments name fun m_counter key => ?_
  rw [SimpleMessage.deserialize_serialize]
  by_cases confirmed : choice = 1
  · subst confirmed
    rw [if_pos rfl, if_neg (by decide), if_neg (not_not.mpr rfl), Delete.ofName, NameRequest.ofName]
    dsimp only
    rw [cString_last valid, Code.pure_bind, Client.finishDelete]
    simp only [Code.bind_assoc]
    rw [run_get]
    refine local_right (isFilePresent_found safe_right _) ?_
    rintro _ rfl
    dsimp only
    by_cases present : G.present storage (storagePath username filename) = true
    · rw [if_neg (not_not.mpr present), Code.bind_assoc]
      refine local_right (ask_file safe_right _) ?_
      rintro _ rfl
      by_cases gone : (G.respond storage (.remove (storagePath username filename))).1 = 0
      · rw [if_neg (not_not.mpr gone), Code.bind_assoc]
        refine simple_to_client fun filler => ?_
        dsimp only
        simp only [Code.bind_assoc]
        refine increments name fun m_counter key => ?_
        rw [SimpleMessage.deserialize_serialize, if_neg (not_not.mpr rfl)]
        exact leave (removed chosen _ (if_pos ⟨present, gone⟩) m_counter key)
      · rw [if_pos gone]
        exact leave (stuck (stops chosen (if_neg fun both => gone both.2)))
    · rw [if_pos present]
      exact leave (stuck (stops chosen (if_neg fun both => present both.1)))
  · rw [if_neg confirmed, if_pos rfl, if_pos (by decide)]
    exact leave (refused choice chosen confirmed m_counter key)

end Lockstep
end CloudStorage
