import CloudStorage.Wire.Bytes

/-! The plaintexts of the session: `SimpleMessage`, `List`, `Download`, `Upload`,
`Rename` and `Delete`. Filler is what `RAND_bytes` wrote; integers that are not
passed through `htonl` keep the byte order of the host. -/
namespace CloudStorage

structure SimpleMessage where
  m_message_code : UInt8
  deriving DecidableEq, Repr

namespace SimpleMessage
def getMessageSize : Nat := Config.MAX_PACKET_SIZE

def serialize (message : SimpleMessage) (filler : Bytes) : Bytes :=
  message.m_message_code :: filler

def deserialize (buffer : Bytes) : SimpleMessage := ⟨buffer.headD 0⟩

@[simp] theorem deserialize_serialize (message : SimpleMessage) (filler : Bytes) :
    deserialize (message.serialize filler) = message := rfl
end SimpleMessage

/-- The number of random bytes behind the encoded fields of a fixed-size packet. -/
def fillerSize (encoded : Nat) : Nat := Config.MAX_PACKET_SIZE - encoded

structure ListM2 where
  m_message_code : UInt8
  m_list_size : UInt32
  deriving DecidableEq, Repr

namespace ListM2
def getMessageSize : Nat := 1 + 4

def ofSize (list_size : UInt32) : ListM2 := ⟨Message.LIST_ACK.byte, list_size⟩

/-- The buffer has `MAX_PACKET_SIZE` bytes, of which `getMessageSize` are written
and encrypted; the others never leave the function. -/
def serialize (host : Endian) (message : ListM2) : Bytes :=
  message.m_message_code :: host.bytes message.m_list_size

def deserialize (host : Endian) (buffer : Bytes) : ListM2 where
  m_message_code := buffer.headD 0
  m_list_size := host.value (field 1 4 buffer)

@[simp] theorem serialize_length (host : Endian) (message : ListM2) :
    (message.serialize host).length = getMessageSize := by
  simp [serialize, getMessageSize]

@[simp] theorem deserialize_serialize (host : Endian) (message : ListM2) :
    deserialize host (message.serialize host) = message := by
  have width : (host.bytes message.m_list_size).take 4 = host.bytes message.m_list_size :=
    List.take_of_length_le (by simp)
  simp [deserialize, serialize, field, width]
end ListM2

/-- `ListM3`, `DownloadMi` and `UploadMi`: a code followed by a block of bytes. -/
structure Block where
  m_message_code : UInt8
  m_content : Bytes
  deriving DecidableEq, Repr

namespace Block
def serialize (message : Block) : Bytes := message.m_message_code :: message.m_content

def deserialize (buffer : Bytes) (size : Nat) : Block where
  m_message_code := buffer.headD 0
  m_content := field 1 size buffer

@[simp] theorem serialize_length (message : Block) :
    message.serialize.length = 1 + message.m_content.length := by
  simp [serialize, Nat.add_comm]

@[simp] theorem deserialize_serialize (message : Block) :
    deserialize message.serialize message.m_content.length = message := by
  simp [deserialize, serialize, field]
end Block

namespace ListM3
def getMessageSize (list_size : Nat) : Nat := 1 + list_size
def ofList (file_list : Bytes) : Block := ⟨Message.LIST_RESPONSE.byte, file_list⟩
end ListM3

namespace DownloadMi
def getMessageSize (chunk_size : Nat) : Nat := 1 + chunk_size
def ofChunk (file_chunk : Bytes) : Block := ⟨Message.DOWNLOAD_CHUNK.byte, file_chunk⟩
end DownloadMi

namespace UploadMi
def getSizeUploadMi (chunk_size : Nat) : Nat := 1 + chunk_size
def ofChunk (chunk : Bytes) : Block := ⟨Message.UPLOAD_CHUNK.byte, chunk⟩
end UploadMi

structure DownloadM2 where
  m_message_code : UInt8
  m_file_size : UInt32
  deriving DecidableEq, Repr

namespace DownloadM2
def getMessageSize : Nat := 1 + 4

/-- The constructor truncates the size to 32 bits. -/
def ofSize (message_code : UInt8) (file_size : Nat) : DownloadM2 :=
  ⟨message_code, file_size.toUInt32⟩

@[simp] theorem ofSize_code (message_code : UInt8) (file_size : Nat) :
    (ofSize message_code file_size).m_message_code = message_code := rfl

@[simp] theorem ofSize_size (message_code : UInt8) (file_size : Nat) :
    (ofSize message_code file_size).m_file_size = file_size.toUInt32 := rfl

def serialize (host : Endian) (message : DownloadM2) : Bytes :=
  message.m_message_code :: host.bytes message.m_file_size

def deserialize (host : Endian) (buffer : Bytes) : DownloadM2 where
  m_message_code := buffer.headD 0
  m_file_size := host.value (field 1 4 buffer)

@[simp] theorem serialize_length (host : Endian) (message : DownloadM2) :
    (message.serialize host).length = getMessageSize := by
  simp [serialize, getMessageSize]

@[simp] theorem deserialize_serialize (host : Endian) (message : DownloadM2) :
    deserialize host (message.serialize host) = message := by
  have width : (host.bytes message.m_file_size).take 4 = host.bytes message.m_file_size :=
    List.take_of_length_le (by simp)
  simp [deserialize, serialize, field, width]
end DownloadM2

/-- `DownloadM1` and `Delete`: a code and one file name field. -/
structure NameRequest where
  m_message_code : UInt8
  m_filename : Bytes
  deriving DecidableEq, Repr

namespace NameRequest
def ofName (message_code : UInt8) (filename : Bytes) : NameRequest :=
  ⟨message_code, strncpy filename Config.FILE_NAME_LEN⟩

def encodedSize : Nat := 1 + Config.FILE_NAME_LEN

def serialize (message : NameRequest) (filler : Bytes) : Bytes :=
  message.m_message_code :: message.m_filename ++ filler

def deserialize (buffer : Bytes) : NameRequest where
  m_message_code := buffer.headD 0
  m_filename := field 1 Config.FILE_NAME_LEN buffer

theorem serialize_length {message : NameRequest} {filler : Bytes}
    (name : message.m_filename.length = Config.FILE_NAME_LEN)
    (rest : filler.length = fillerSize encodedSize) :
    (message.serialize filler).length = Config.MAX_PACKET_SIZE := by
  simp [serialize, name, rest, fillerSize, encodedSize, Config.FILE_NAME_LEN,
    Config.MAX_PACKET_SIZE]

theorem deserialize_serialize {message : NameRequest} {filler : Bytes}
    (name : message.m_filename.length = Config.FILE_NAME_LEN) :
    deserialize (message.serialize filler) = message := by
  simp [deserialize, serialize, field, ← name]
end NameRequest

namespace DownloadM1
def ofName (filename : Bytes) : NameRequest := .ofName Message.DOWNLOAD_REQUEST.byte filename
end DownloadM1

namespace Delete
def ofName (file_name : Bytes) : NameRequest := .ofName Message.DELETE_REQUEST.byte file_name
end Delete

structure UploadM1 where
  m_message_code : UInt8
  m_filename : Bytes
  m_file_size : UInt32
  deriving DecidableEq, Repr

namespace UploadM1
/-- Sizes from 4 * 10^9 on are replaced by 0. -/
def ofFile (filename : Bytes) (file_size : Nat) : UploadM1 where
  m_message_code := Message.UPLOAD_REQUEST.byte
  m_filename := strncpy filename Config.FILE_NAME_LEN
  m_file_size := if file_size < 4 * 1000 * 1000 * 1000 then file_size.toUInt32 else 0

def getSizeUploadM1 : Nat := 1 + Config.FILE_NAME_LEN + 4

def serialize (host : Endian) (message : UploadM1) (filler : Bytes) : Bytes :=
  message.m_message_code :: message.m_filename ++ host.bytes message.m_file_size ++ filler

def deserialize (host : Endian) (buffer : Bytes) : UploadM1 where
  m_message_code := buffer.headD 0
  m_filename := field 1 Config.FILE_NAME_LEN buffer
  m_file_size := host.value (field (1 + Config.FILE_NAME_LEN) 4 buffer)

theorem serialize_length {host : Endian} {message : UploadM1} {filler : Bytes}
    (name : message.m_filename.length = Config.FILE_NAME_LEN)
    (rest : filler.length = fillerSize getSizeUploadM1) :
    (message.serialize host filler).length = Config.MAX_PACKET_SIZE := by
  simp [serialize, name, rest, fillerSize, getSizeUploadM1, Config.FILE_NAME_LEN,
    Config.MAX_PACKET_SIZE]

theorem deserialize_serialize {host : Endian} {message : UploadM1} {filler : Bytes}
    (name : message.m_filename.length = Config.FILE_NAME_LEN) :
    deserialize host (message.serialize host filler) = message := by
  have width : (host.bytes message.m_file_size ++ filler).take 4 =
      host.bytes message.m_file_size := List.take_left' (by simp)
  simp [deserialize, serialize, field, ← name, Nat.add_comm 1, width]
end UploadM1

structure Rename where
  m_message_code : UInt8
  m_old_filename : Bytes
  m_new_filename : Bytes
  deriving DecidableEq, Repr

namespace Rename
def ofNames (old_filename new_filename : Bytes) : Rename where
  m_message_code := Message.RENAME_REQUEST.byte
  m_old_filename := strncpy old_filename Config.FILE_NAME_LEN
  m_new_filename := strncpy new_filename Config.FILE_NAME_LEN

def getMessageSize : Nat := 1 + Config.FILE_NAME_LEN + Config.FILE_NAME_LEN

def serialize (message : Rename) : Bytes :=
  message.m_message_code :: message.m_old_filename ++ message.m_new_filename

def deserialize (buffer : Bytes) : Rename where
  m_message_code := buffer.headD 0
  m_old_filename := field 1 Config.FILE_NAME_LEN buffer
  m_new_filename := field (1 + Config.FILE_NAME_LEN) Config.FILE_NAME_LEN buffer

theorem serialize_length {message : Rename}
    (old : message.m_old_filename.length = Config.FILE_NAME_LEN)
    (new : message.m_new_filename.length = Config.FILE_NAME_LEN) :
    message.serialize.length = Config.MAX_PACKET_SIZE := by
  simp [serialize, old, new, Config.FILE_NAME_LEN, Config.MAX_PACKET_SIZE]

theorem deserialize_serialize {message : Rename}
    (old : message.m_old_filename.length = Config.FILE_NAME_LEN)
    (new : message.m_new_filename.length = Config.FILE_NAME_LEN) :
    deserialize message.serialize = message := by
  have width : message.m_new_filename.take 35 = message.m_new_filename :=
    List.take_of_length_le (by rw [new]; decide)
  have first : (message.m_old_filename ++ message.m_new_filename).take 35 =
      message.m_old_filename := List.take_left' old
  have second : (message.m_old_filename ++ message.m_new_filename).drop 35 =
      message.m_new_filename := List.drop_left' old
  simp [deserialize, serialize, field, Config.FILE_NAME_LEN, width, first, second]
end Rename

end CloudStorage
