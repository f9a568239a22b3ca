/-! Constants and enumerations of `Config.h` and `CodesManager.h`. -/
namespace CloudStorage

abbrev Bytes := List UInt8

/-- A string literal of the source. -/
def ascii (text : String) : Bytes := text.toList.map fun c => c.toNat.toUInt8

namespace Config
def FILE_NAME_LEN : Nat := 35
def USERNAME_LEN : Nat := 35
def MAX_PACKET_SIZE : Nat := 71
def AES_TAG_LEN : Nat := 16
def AES_KEY_LEN : Nat := 16
def AAD_LEN : Nat := 4
def IV_LEN : Nat := 12
def KB_SIZE : Nat := 1000
def CHUNK_SIZE : Nat := KB_SIZE * KB_SIZE
def MAX_COUNTER_VALUE : UInt32 := 0xffffffff
def MAX_FILE_SIZE : Nat := 4 * KB_SIZE * KB_SIZE * KB_SIZE
end Config

def EPHEMERAL_KEY_LEN : Nat := 1024
def ENCRYPTED_SIGNATURE_LEN : Nat := 128
def MAX_SERIALIZED_CERTIFICATE_LEN : Nat := 1500

inductive Result where
  | ACK
  | NACK
  deriving DecidableEq, Repr

inductive Message where
  | AUTHENTICATION_REQUEST
  | UPLOAD_REQUEST
  | UPLOAD_CHUNK
  | DOWNLOAD_REQUEST
  | DOWNLOAD_ACK
  | DOWNLOAD_CHUNK
  | DELETE_REQUEST
  | DELETE_ASK
  | DELETE_CONFIRM
  | LIST_REQUEST
  | LIST_ACK
  | LIST_RESPONSE
  | RENAME_REQUEST
  | LOGOUT_REQUEST
  | NO_DELETE_CONFIRM
  deriving DecidableEq, Repr

inductive Error where
  | USERNAME_NOT_FOUND
  | FILENAME_ALREADY_EXISTS
  | FILE_NOT_FOUND
  | FILENAME_NOT_FOUND
  | DELETE_FILE_ERROR
  deriving DecidableEq, Repr

inductive Return where
  | SUCCESS
  | AUTHENTICATION_SUCCESS
  | AUTHENTICATION_FAILURE
  | ENCRYPTION_FAILURE
  | SEND_FAILURE
  | RECEIVE_FAILURE
  | DECRYPTION_FAILURE
  | WRONG_COUNTER
  | WRONG_MSG_CODE
  | WRONG_PATH
  | FILE_ALREADY_EXISTS
  | FILE_NOT_FOUND
  | READ_CHUNK_FAILURE
  | WRITE_CHUNK_FAILURE
  | WRONG_FILE_SIZE
  | NO_DELETE_CONFIRM
  | RENAME_FAILURE
  deriving DecidableEq, Repr

/-- The numbers of the four enumerations run on from one to the next: 0, 2, 17
and 22 start them, so no two enumerators share a number. -/
def Result.val : Result → Nat
  | .ACK => 0
  | .NACK => 1

def Message.val : Message → Nat
  | .AUTHENTICATION_REQUEST => 2
  | .UPLOAD_REQUEST => 3
  | .UPLOAD_CHUNK => 4
  | .DOWNLOAD_REQUEST => 5
  | .DOWNLOAD_ACK => 6
  | .DOWNLOAD_CHUNK => 7
  | .DELETE_REQUEST => 8
  | .DELETE_ASK => 9
  | .DELETE_CONFIRM => 10
  | .LIST_REQUEST => 11
  | .LIST_ACK => 12
  | .LIST_RESPONSE => 13
  | .RENAME_REQUEST => 14
  | .LOGOUT_REQUEST => 15
  | .NO_DELETE_CONFIRM => 16

def Error.val : Error → Nat
  | .USERNAME_NOT_FOUND => 17
  | .FILENAME_ALREADY_EXISTS => 18
  | .FILE_NOT_FOUND => 19
  | .FILENAME_NOT_FOUND => 20
  | .DELETE_FILE_ERROR => 21

def Return.val : Return → Nat
  | .SUCCESS => 22
  | .AUTHENTICATION_SUCCESS => 23
  | .AUTHENTICATION_FAILURE => 24
  | .ENCRYPTION_FAILURE => 25
  | .SEND_FAILURE => 26
  | .RECEIVE_FAILURE => 27
  | .DECRYPTION_FAILURE => 28
  | .WRONG_COUNTER => 29
  | .WRONG_MSG_CODE => 30
  | .WRONG_PATH => 31
  | .FILE_ALREADY_EXISTS => 32
  | .FILE_NOT_FOUND => 33
  | .READ_CHUNK_FAILURE => 34
  | .WRITE_CHUNK_FAILURE => 35
  | .WRONG_FILE_SIZE => 36
  | .NO_DELETE_CONFIRM => 37
  | .RENAME_FAILURE => 38

/-- `static_cast<uint8_t>` of an enumerator, as it travels in a message. -/
def Result.byte (r : Result) : UInt8 := r.val.toUInt8
def Message.byte (m : Message) : UInt8 := m.val.toUInt8
def Error.byte (e : Error) : UInt8 := e.val.toUInt8
def Return.byte (r : Return) : UInt8 := r.val.toUInt8

end CloudStorage
