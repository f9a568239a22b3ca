import CloudStorage.Session.Exchange
import CloudStorage.Storage.FileManager

/-! `Server.cpp`. Every handler reads the plaintext of its request; the number it
returns is the code that `run` prints. -/
namespace CloudStorage
open Interaction Code Method

/-- "../data/" + m_username -/
def storageDirectory (username : Bytes) : Bytes := ascii "../data/" ++ username

/-- "../data/" + m_username + "/" + name -/
def storagePath (username name : Bytes) : Bytes := storageDirectory username ++ ascii "/" ++ name

namespace Server
variable (host : Endian)

/-- `authenticationRequest` with a remark on its success. -/
def authenticate : Method Nat := do
  let result ← Auth.onWire (authenticationRequest host)
  if result ≠ Return.AUTHENTICATION_SUCCESS.val then return result
  let s ← get
  note (.authenticated s.m_username s.m_session_key)
  return result

def incrementCounter : Method Unit := do
  let s ← get
  if s.m_counter = Config.MAX_COUNTER_VALUE then
    let result ← authenticate host
    if result ≠ Return.AUTHENTICATION_SUCCESS.val then
      throw (.code Return.AUTHENTICATION_FAILURE.val)
  else modify fun s => { s with m_counter := s.m_counter + 1 }

def listRequest (_plaintext : Bytes) : Method Nat := do
  incrementCounter host
  let s ← get
  let files ← FileManager.getFilesList (storageDirectory s.m_username)
  if files = ascii "error" then return Return.WRONG_PATH.val
  let length := files.length.toUInt32
  let list_size := if length ≠ 0 then length + 1 else 0
  if let some code ← sendGeneric ((ListM2.ofSize list_size).serialize host) then return code
  incrementCounter host
  if list_size = 0 then return Return.SUCCESS.val
  let file_list := (files ++ [0]).take list_size.toNat
  if let some code ← sendGeneric (ListM3.ofList file_list).serialize then return code
  incrementCounter host
  return Return.SUCCESS.val

/-- `isFilePresent(path) && is_regular_file(path) && !is_symlink(path)` -/
def isDownloadable (file_path : Bytes) : Method Bool := do
  if ¬ (← FileManager.isFilePresent file_path) then return false
  let some regular ← file (.is_regular_file file_path) | throw .exception
  if ¬ regular then return false
  let some symlink ← file (.is_symlink file_path) | throw .exception
  return ¬ symlink

def openDownload (file_path : Bytes) : Method (Option FileManager) := do
  if ← isDownloadable file_path then
    let file_to_send ← FileManager.openRead file_path
    return some file_to_send
  else return none

def sendChunks (file_to_send : FileManager) (current_chunk : Bytes) : Nat → Method (Option Nat)
  | 0 => return none
  | left + 1 => do
      let chunk_size := if left = 0 then file_to_send.m_last_chunk_size else Config.CHUNK_SIZE
      let (file_to_send, current_chunk, result) ←
        file_to_send.readChunk current_chunk chunk_size
      if result = -1 then return some Return.READ_CHUNK_FAILURE.val
      if let some code ←
        sendGeneric (DownloadMi.ofChunk (current_chunk.take chunk_size)).serialize
      then return some code
      incrementCounter host
      sendChunks file_to_send current_chunk left

def downloadRequest (plaintext : Bytes) : Method Nat := do
  let download_msg1 := NameRequest.deserialize plaintext
  incrementCounter host
  let s ← get
  let filename ← cString .m_filename download_msg1.m_filename
  let file_to_send ← openDownload (storagePath s.m_username filename)
  let download_msg2 := match file_to_send with
    | some manager => DownloadM2.ofSize Message.DOWNLOAD_ACK.byte manager.m_file_size
    | none => DownloadM2.ofSize Error.FILE_NOT_FOUND.byte 0
  if let some code ← sendGeneric (download_msg2.serialize host) then return code
  incrementCounter host
  if download_msg2.m_file_size = 0 then return Return.FILE_NOT_FOUND.val
  let some manager := file_to_send | return Return.FILE_NOT_FOUND.val
  let current_chunk ← ask (.memory Config.CHUNK_SIZE)
  if let some code ← sendChunks host manager current_chunk manager.m_chunks_num then return code
  return Return.SUCCESS.val

def receiveChunks (file_to_upload : FileManager) : Nat → Method (Option Nat)
  | 0 => return none
  | left + 1 => do
      let chunk_size := if left = 0 then file_to_upload.m_last_chunk_size else Config.CHUNK_SIZE
      match ← receiveGeneric (UploadMi.getSizeUploadMi chunk_size) with
      | .error code => return some code.val
      | .ok plaintext =>
          incrementCounter host
          let result ←
            file_to_upload.writeChunk (Block.deserialize plaintext chunk_size).m_content
          if result = -1 then return some Return.WRITE_CHUNK_FAILURE.val
          receiveChunks file_to_upload left

/-- A name without terminator runs on into the size, which follows it in `UploadM1`. -/
def uploadRequest (plaintext : Bytes) : Method Nat := do
  let upload_msg1 := UploadM1.deserialize host plaintext
  incrementCounter host
  let s ← get
  let filename ← cString .m_filename
    (upload_msg1.m_filename ++ host.bytes upload_msg1.m_file_size)
  let file_path := storagePath s.m_username filename
  let present ← FileManager.isFilePresent file_path
  let upload_msg2 := if present then Result.NACK else Result.ACK
  if let some code ← sendSimple upload_msg2.byte then return code
  incrementCounter host
  if upload_msg2 = .NACK then return Error.FILENAME_ALREADY_EXISTS.val
  let manager ← FileManager.openWrite file_path
  let file_to_upload := manager.initFileInfo upload_msg1.m_file_size.toNat
  if let some code ← receiveChunks host file_to_upload file_to_upload.m_chunks_num then return code
  if let some code ← sendSimple Result.ACK.byte then return code
  incrementCounter host
  return Return.SUCCESS.val

/-- The code of the RenameM2 message. -/
def renameFile (old_file_name_path new_file_name_path : Bytes) : Method UInt8 := do
  if ¬ (← FileManager.isFilePresent old_file_name_path) then return Return.FILE_NOT_FOUND.byte
  if ← FileManager.isFilePresent new_file_name_path then return Return.FILE_ALREADY_EXISTS.byte
  let result ← file (.rename old_file_name_path new_file_name_path)
  if result ≠ 0 then return Result.NACK.byte
  return Result.ACK.byte

/-- An old name without terminator runs on into the new one. -/
def renameRequest (plaintext : Bytes) : Method Nat := do
  let renameM1 := Rename.deserialize plaintext
  incrementCounter host
  let s ← get
  let old_file_name ← cString .m_old_filename
    (renameM1.m_old_filename ++ renameM1.m_new_filename)
  let new_file_name ← cString .m_new_filename renameM1.m_new_filename
  let message_code ← renameFile (storagePath s.m_username old_file_name)
    (storagePath s.m_username new_file_name)
  if let some code ← sendSimple message_code then return code
  incrementCounter host
  return Return.SUCCESS.val

def deleteRequest (plaintext : Bytes) : Method Nat := do
  let delete_msg1 := NameRequest.deserialize plaintext
  incrementCounter host
  if let some code ← sendSimple Message.DELETE_ASK.byte then return code
  incrementCounter host
  match ← receiveGeneric SimpleMessage.getMessageSize with
  | .error code => return code.val
  | .ok plaintext =>
      let delete_msg3 := SimpleMessage.deserialize plaintext
      incrementCounter host
      if delete_msg3.m_message_code ≠ Message.DELETE_CONFIRM.byte then
        return Return.WRONG_MSG_CODE.val
      let file_name ← cString .m_filename delete_msg1.m_filename
      let s ← get
      let file_path := storagePath s.m_username file_name
      if ¬ (← FileManager.isFilePresent file_path) then return Error.FILENAME_NOT_FOUND.val
      let result ← file (.remove file_path)
      if result ≠ 0 then return Error.DELETE_FILE_ERROR.val
      if let some code ← sendSimple Result.ACK.byte then return code
      incrementCounter host
      return Return.SUCCESS.val

/-- `OPENSSL_cleanse(m_session_key, sizeof(m_session_key))` -/
def erasedKey : Bytes := List.replicate Config.AES_KEY_LEN 0

/-- The key is erased between sealing the answer and sending it. -/
def dismiss (plaintext : Bytes) : Method Nat := do
  let some message ← encryptGeneric plaintext | return Return.ENCRYPTION_FAILURE.val
  modify fun s => { s with m_session_key := erasedKey }
  note .erased
  let sent ← ask (.send message.serialize)
  if sent = -1 then return Return.SEND_FAILURE.val
  return Return.SUCCESS.val

def logoutRequest (_plaintext : Bytes) : Method Nat := do
  incrementCounter host
  let filler ← ask (.random (fillerSize 1))
  dismiss (SimpleMessage.serialize ⟨Result.ACK.byte⟩ filler)

/-- The handler of a command. -/
def handler (command : UInt8) : Option (Bytes → Method Nat) :=
  if command = Message.LIST_REQUEST.byte then some (listRequest host)
  else if command = Message.DOWNLOAD_REQUEST.byte then some (downloadRequest host)
  else if command = Message.UPLOAD_REQUEST.byte then some (uploadRequest host)
  else if command = Message.RENAME_REQUEST.byte then some (renameRequest host)
  else if command = Message.DELETE_REQUEST.byte then some (deleteRequest host)
  else if command = Message.LOGOUT_REQUEST.byte then some (logoutRequest host)
  else none

/-- The `switch` of `run`. -/
def dispatch (plaintext : Bytes) : Method Unit := do
  let command := plaintext.headD 0
  match handler host command with
  | some request =>
      note (.started command)
      let result ← request plaintext
      note (.finished result)
  | none => return ()

/-- The plaintext of the next request, or `none` if the loop ends. -/
def awaitCommand : Method (Option Bytes) := do
  let (result, buffer) ← ask (.receive (Generic.getMessageSize Config.MAX_PACKET_SIZE))
  if result = -1 then return none
  if result = -2 then return none
  match ← openGeneric (Generic.deserialize buffer Config.MAX_PACKET_SIZE) with
  | .error code =>
      if code = .WRONG_COUNTER then throw (.code Return.WRONG_COUNTER.val)
      return none
  | .ok plaintext => return some plaintext

/-- One pass of the loop up to its `switch`. -/
def receiveCommand : Method (Option Bytes) := do
  let s ← get
  note (.idle s.m_session_key s.m_counter)
  awaitCommand

/-- The command loop, cut after the given number of rounds. -/
def serve : Nat → Method Unit
  | 0 => return ()
  | rounds + 1 => do
      let some plaintext ← receiveCommand | return ()
      dispatch host plaintext
      serve rounds

def session (rounds : Nat) : Method Unit := do
  let result ← authenticate host
  if result ≠ Return.AUTHENTICATION_SUCCESS.val then return ()
  serve host rounds

/-- `Server::run`: whatever is thrown ends the session. -/
def run (rounds : Nat) (s : Session octets) : Program Op Op.Ans Unit :=
  (session host rounds s).bind fun _ => .done ()

end Server
end CloudStorage
