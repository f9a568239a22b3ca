import CloudStorage.Session.Exchange
import CloudStorage.Storage.FileManager

/-! `Client.cpp`. Every operation returns the code that `run` reports. -/
namespace CloudStorage
open Interaction Code Method

namespace Client
variable (host : Endian)

/-- "../files/" + filename -/
def localPath (filename : Bytes) : Bytes := ascii "../files/" ++ filename

/-- `authenticationRequest` with a remark on its success. -/
def authenticate : Method Nat := do
  let result ← Auth.onWire (authenticationRequest host)
  if result ≠ Return.AUTHENTICATION_SUCCESS.val then return result
  let s ← get
  note (.authenticated s.m_username s.m_session_key)
  return result

def incrementCounter : Method Unit := do
  let s ← get
  if s.m_counter = Config.MAX_COUNTER_VALUE then
    let result ← authenticate host
    if result ≠ Return.AUTHENTICATION_SUCCESS.val then
      throw (.code Return.AUTHENTICATION_FAILURE.val)
  else modify fun s => { s with m_counter := s.m_counter + 1 }

/-- `listRequest`, and what is kept of its result and of the file list that it shows before it
returns. -/
def listRequestWith {α : Type} (keep : Nat → Option Bytes → α) : Method α := do
  if let some code ← sendSimple Message.LIST_REQUEST.byte then return keep code none
  incrementCounter host
  match ← receiveGeneric ListM2.getMessageSize with
  | .error code => return keep code.val none
  | .ok plaintext =>
      let list_msg2 := ListM2.deserialize host plaintext
      incrementCounter host
      if list_msg2.m_message_code ≠ Message.LIST_ACK.byte then
        return keep Return.WRONG_MSG_CODE.val none
      let list_size := list_msg2.m_list_size
      if list_size = 0 then return keep Return.SUCCESS.val none
      match ← receiveGeneric (ListM3.getMessageSize list_size.toNat) with
      | .error code => return keep code.val none
      | .ok plaintext =>
          let list_msg3 := Block.deserialize plaintext list_size.toNat
          incrementCounter host
          if list_msg3.m_message_code ≠ Message.LIST_RESPONSE.byte then
            return keep Return.WRONG_MSG_CODE.val none
          return keep Return.SUCCESS.val (some list_msg3.m_content)

def listRequest : Method Nat := listRequestWith host fun result _ => result

/-- With the file list. -/
def showList : Method (Nat × Option Bytes) := listRequestWith host Prod.mk

/-- The lines of `getline(file_list_stream, file_name, ',')`: nothing is left to read
behind a last comma. -/
def fileNames (text : Bytes) : List Bytes :=
  let lines := text.splitOn 44
  if lines.getLast? = some [] then lines.dropLast else lines

/-- The names that are printed. The list is read as a C string in memory, so `beyond` is
what lies behind its array. -/
def printedNames (beyond : Bytes) : Option Bytes → List Bytes
  | none => []
  | some file_list => fileNames (cPrefix (file_list ++ beyond))

def receiveChunks (downloaded_file : FileManager) : Nat → Method (Option Nat)
  | 0 => return none
  | left + 1 => do
      let chunk_size := if left = 0 then downloaded_file.m_last_chunk_size else Config.CHUNK_SIZE
      match ← receiveGeneric (DownloadMi.getMessageSize chunk_size) with
      | .error code => return some code.val
      | .ok plaintext =>
          let download_msg3i := Block.deserialize plaintext chunk_size
          incrementCounter host
          if download_msg3i.m_message_code ≠ Message.DOWNLOAD_CHUNK.byte then
            return some Return.WRONG_MSG_CODE.val
          let result ← downloaded_file.writeChunk download_msg3i.m_content
          if result = -1 then return some Return.WRITE_CHUNK_FAILURE.val
          receiveChunks downloaded_file left

def downloadRequest (filename : Bytes) : Method Nat := do
  let file_path := localPath filename
  if ← FileManager.isFilePresent file_path then return Return.FILE_ALREADY_EXISTS.val
  let filler ← ask (.random (fillerSize NameRequest.encodedSize))
  if let some code ← sendGeneric ((DownloadM1.ofName filename).serialize filler) then return code
  incrementCounter host
  match ← receiveGeneric DownloadM2.getMessageSize with
  | .error code => return code.val
  | .ok plaintext =>
      let download_msg2 := DownloadM2.deserialize host plaintext
      incrementCounter host
      if download_msg2.m_message_code = Error.FILE_NOT_FOUND.byte then
        return Return.FILE_NOT_FOUND.val
      if download_msg2.m_message_code ≠ Message.DOWNLOAD_ACK.byte then
        return Return.WRONG_MSG_CODE.val
      let manager ← FileManager.openWrite file_path
      let downloaded_file := manager.initFileInfo download_msg2.m_file_size.toNat
      if let some code ← receiveChunks host downloaded_file downloaded_file.m_chunks_num then
        return code
      return Return.SUCCESS.val

/-- The result of `readChunk` is not looked at. -/
def sendChunks (file_to_upload : FileManager) (chunk_buffer : Bytes) : Nat → Method (Option Nat)
  | 0 => return none
  | left + 1 => do
      let chunk_size := if left = 0 then file_to_upload.m_last_chunk_size else Config.CHUNK_SIZE
      let (file_to_upload, chunk_buffer, _) ← file_to_upload.readChunk chunk_buffer chunk_size
      if let some code ← sendGeneric (UploadMi.ofChunk (chunk_buffer.take chunk_size)).serialize
      then return some code
      incrementCounter host
      sendChunks file_to_upload chunk_buffer left

/-- The confirmation that `uploadRequest` ends with. -/
def finishUpload : Method Nat := do
  match ← receiveGeneric SimpleMessage.getMessageSize with
  | .error code => return code.val
  | .ok plaintext =>
      let upload_msg3i1 := SimpleMessage.deserialize plaintext
      incrementCounter host
      if upload_msg3i1.m_message_code ≠ Result.ACK.byte then return Return.WRONG_MSG_CODE.val
      return Return.SUCCESS.val

def uploadRequest (filename : Bytes) : Method Nat := do
  let file_path := localPath filename
  if ¬ (← FileManager.isFilePresent file_path) then return Return.FILE_NOT_FOUND.val
  let file_to_upload ← FileManager.openRead file_path
  if file_to_upload.m_file_size = 0 ∨ Config.MAX_FILE_SIZE < file_to_upload.m_file_size then
    return Return.WRONG_FILE_SIZE.val
  let filler ← ask (.random (fillerSize UploadM1.getSizeUploadM1))
  if let some code ← sendGeneric
      ((UploadM1.ofFile filename file_to_upload.m_file_size).serialize host filler) then
    return code
  incrementCounter host
  match ← receiveGeneric SimpleMessage.getMessageSize with
  | .error code => return code.val
  | .ok plaintext =>
      let upload_msg2 := SimpleMessage.deserialize plaintext
      incrementCounter host
      if upload_msg2.m_message_code = Result.NACK.byte then
        return Return.FILE_ALREADY_EXISTS.val
      if upload_msg2.m_message_code ≠ Result.ACK.byte then return Return.WRONG_MSG_CODE.val
      let chunk_buffer ← ask (.memory Config.CHUNK_SIZE)
      if let some code ← sendChunks host file_to_upload chunk_buffer file_to_upload.m_chunks_num
      then return code
      finishUpload host

def renameRequest (old_file_name new_file_name : Bytes) : Method Nat := do
  if let some code ← sendGeneric (Rename.ofNames old_file_name new_file_name).serialize then
    return code
  incrementCounter host
  match ← receiveGeneric SimpleMessage.getMessageSize with
  | .error code => return code.val
  | .ok plaintext =>
      let renameM2 := SimpleMessage.deserialize plaintext
      incrementCounter host
      if renameM2.m_message_code = Return.FILE_NOT_FOUND.byte then
        return Return.FILE_NOT_FOUND.val
      if renameM2.m_message_code = Return.FILE_ALREADY_EXISTS.byte then
        return Return.FILE_ALREADY_EXISTS.val
      if renameM2.m_message_code = Result.NACK.byte then return Return.RENAME_FAILURE.val
      return Return.SUCCESS.val

/-- The counter is not advanced after the answer: the session is over. -/
def logoutRequest : Method Nat := do
  if let some code ← sendSimple Message.LOGOUT_REQUEST.byte then return code
  incrementCounter host
  match ← receiveGeneric SimpleMessage.getMessageSize with
  | .error code => return code.val
  | .ok plaintext =>
      let logout_msg2 := SimpleMessage.deserialize plaintext
      if logout_msg2.m_message_code ≠ Result.ACK.byte then return Return.WRONG_MSG_CODE.val
      return Return.SUCCESS.val

/-- The outcome of a deletion that was confirmed. -/
def finishDelete : Method Nat := do
  match ← receiveGeneric SimpleMessage.getMessageSize with
  | .error code => return code.val
  | .ok plaintext =>
      let delete_msg4 := SimpleMessage.deserialize plaintext
      incrementCounter host
      if delete_msg4.m_message_code ≠ Result.ACK.byte then return Return.WRONG_MSG_CODE.val
      return Return.SUCCESS.val

def deleteRequest (filename : Bytes) : Method Nat := do
  let filler ← ask (.random (fillerSize NameRequest.encodedSize))
  if let some code ← sendGeneric ((Delete.ofName filename).serialize filler) then return code
  incrementCounter host
  match ← receiveGeneric SimpleMessage.getMessageSize with
  | .error code => return code.val
  | .ok plaintext =>
      let delete_msg2 := SimpleMessage.deserialize plaintext
      incrementCounter host
      if delete_msg2.m_message_code ≠ Message.DELETE_ASK.byte then
        return Return.WRONG_MSG_CODE.val
      let confirmation_code ← ask (.getValidCode 1 2)
      let delete_msg3 := if confirmation_code = 1 then Message.DELETE_CONFIRM
        else Message.NO_DELETE_CONFIRM
      if let some code ← sendSimple delete_msg3.byte then return code
      incrementCounter host
      if delete_msg3 = .NO_DELETE_CONFIRM then return Return.NO_DELETE_CONFIRM.val
      finishDelete host

/-- A name from the console, or `none` if it is not valid. -/
def readName : Method (Option Bytes) := do
  let name ← ask .getline
  if FileManager.isStringValid name then return some name
  else return none

/-- An operation between its two remarks. -/
def invoke (command : UInt8) (names : List Bytes) (operation : Method Nat) : Method Nat := do
  note (.invoked command names)
  let result ← operation
  note (.finished result)
  return result

/-- The `switch` of `run`: `some code` ends the program. -/
def operate (operationCode : Nat) : Method (Option Int) := do
  match operationCode with
  | 1 =>
      let _ ← invoke Message.LIST_REQUEST.byte [] (listRequest host)
      return none
  | 2 =>
      let some filename ← readName | return none
      let _ ← invoke Message.DOWNLOAD_REQUEST.byte [filename] (downloadRequest host filename)
      return none
  | 3 =>
      let some filename ← readName | return none
      let _ ← invoke Message.UPLOAD_REQUEST.byte [filename] (uploadRequest host filename)
      return none
  | 4 =>
      let some old_file_name ← readName | return none
      let some new_file_name ← readName | return none
      let _ ← invoke Message.RENAME_REQUEST.byte [old_file_name, new_file_name]
        (renameRequest host old_file_name new_file_name)
      return none
  | 5 =>
      let some filename ← readName | return none
      let s ← get
      let file_path := ascii "../data/" ++ s.m_username ++ ascii "/" ++ filename
      if ¬ (← FileManager.isFilePresent file_path) then return none
      let _ ← invoke Message.DELETE_REQUEST.byte [filename] (deleteRequest host filename)
      return none
  | 6 =>
      let _ ← invoke Message.LOGOUT_REQUEST.byte [] (logoutRequest host)
      return some 0
  | 7 =>
      let result ← invoke Message.LOGOUT_REQUEST.byte [] (logoutRequest host)
      if result ≠ Return.SUCCESS.val then return some 0
      return some 1
  | _ => return none

/-- The menu, cut after the given number of rounds. -/
def menu : Nat → Method (Option Int)
  | 0 => return none
  | rounds + 1 => do
      let s ← get
      note (.idle s.m_session_key s.m_counter)
      let operationCode ← ask (.getValidCode 1 7)
      match ← operate host operationCode with
      | some code => return some code
      | none => menu rounds

/-- The name of the user, the key and the connection; `false` if one of them fails. -/
def login : Method Bool := do
  let m_username ← ask .getline
  modify fun s => { s with m_username := m_username }
  let password ← ask .getline
  if ¬ FileManager.isStringValid m_username ∨ ¬ FileManager.isStringValid password then
    return false
  let private_key_file := ascii "../resources/encrypted_private_keys/" ++ m_username ++
    ascii "_key.pem"
  match ← ask (.unlock private_key_file password) with
  | .missing => return false
  | .unreadable => return false
  | .key () =>
      let connected ← ask .connect
      return connected

def session (rounds : Nat) : Method (Option Int) := do
  if ¬ (← login) then return some (-1)
  let result ← authenticate host
  if result ≠ Return.AUTHENTICATION_SUCCESS.val then return some (-1)
  menu host rounds

/-- `Client::run`: an `int` that is thrown ends it with 0. -/
def run (rounds : Nat) (s : Session octets) : Program Op Op.Ans (Option Int) :=
  (session host rounds s).bind fun
    | (.ok code, _) => .done code
    | (.error _, _) => .done (some 0)

end Client
end CloudStorage
