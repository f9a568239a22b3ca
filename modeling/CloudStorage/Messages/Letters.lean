import CloudStorage.Messages.Authentication
import CloudStorage.Messages.Session
import CloudStorage.Storage.FileManager
import Mathlib.Tactic.SplitIfs

/-! Every message on its way: from the fields to the bytes that the sender emits, and from
the bytes that the receiver asks for to the fields. -/
namespace CloudStorage

/-- AES-GCM for a given IV: a ciphertext as long as the plaintext and a tag, and back. -/
structure Gcm where
  encrypt : (key iv aad plaintext : Bytes) → Bytes × Bytes
  decrypt : (key iv aad ciphertext tag : Bytes) → Option Bytes
  ciphertext_length : ∀ key iv aad plaintext,
    (encrypt key iv aad plaintext).1.length = plaintext.length
  tag_length : ∀ key iv aad plaintext, (encrypt key iv aad plaintext).2.length = Config.AES_TAG_LEN
  decrypts : ∀ key iv aad plaintext,
    decrypt key iv aad (encrypt key iv aad plaintext).1 (encrypt key iv aad plaintext).2 =
      some plaintext

namespace Gcm

/-- AES-128-GCM with the zero key and the zero IV on `DOWNLOAD_ACK` for a file of one byte, and
elsewhere a cipher that leaves the plaintext as it is under a blank tag. -/
def vector : Bytes × Bytes :=
  ([5, 137, 218, 206, 96],
    [22, 126, 107, 231, 164, 207, 248, 87, 190, 88, 142, 88, 77, 125, 0, 19])

def sample : Gcm where
  encrypt key iv aad plaintext :=
    if key = List.replicate 16 0 ∧ iv = List.replicate 12 0 ∧ aad = List.replicate 4 0 ∧
        plaintext = [6, 1, 0, 0, 0] then vector
    else (plaintext, List.replicate 16 0)
  decrypt key iv aad ciphertext tag :=
    if tag = List.replicate 16 0 then some ciphertext
    else if key = List.replicate 16 0 ∧ iv = List.replicate 12 0 ∧ aad = List.replicate 4 0 ∧
        (ciphertext, tag) = vector then some [6, 1, 0, 0, 0]
    else none
  ciphertext_length key iv aad plaintext := by
    split_ifs with known
    · rw [known.2.2.2]
      rfl
    · rfl
  tag_length key iv aad plaintext := by
    split_ifs <;> rfl
  decrypts key iv aad plaintext := by
    by_cases known : key = List.replicate 16 0 ∧ iv = List.replicate 12 0 ∧
      aad = List.replicate 4 0 ∧ plaintext = [6, 1, 0, 0, 0]
    · obtain ⟨rfl, rfl, rfl, rfl⟩ := known
      decide
    · simp only [if_neg known, if_true]

end Gcm

/-- The plaintexts of the session. A command is a request without fields. -/
inductive Packet where
  | simple (message : SimpleMessage)
  | command (message : SimpleMessage)
  | listM2 (message : ListM2)
  | listM3 (message : Block)
  | downloadM1 (message : NameRequest)
  | downloadM2 (message : DownloadM2)
  | downloadMi (message : Block)
  | uploadM1 (message : UploadM1)
  | uploadMi (message : Block)
  | rename (message : Rename)
  | delete (message : NameRequest)
  deriving DecidableEq, Repr

/-- What a receiver waits for, with the sizes that it knows from earlier messages. -/
inductive PacketStep where
  | simple
  | command
  | listM2
  | listM3 (list_size : Nat)
  | downloadM1
  | downloadM2
  | downloadMi (chunk_size : Nat)
  | uploadM1
  | uploadMi (chunk_size : Nat)
  | rename
  | delete
  deriving DecidableEq, Repr

/-- Bytes that nobody has chosen: from `RAND_bytes`, or left in a buffer. -/
def noise (memory : Nat → UInt8) (size : Nat) : Bytes := (List.range size).map memory

@[simp] theorem noise_length (memory : Nat → UInt8) (size : Nat) :
    (noise memory size).length = size := by
  simp [noise]

namespace Packet

/-- The buffer that the `serialize` of the class returns. -/
def buffer (host : Endian) (memory : Nat → UInt8) : Packet → Bytes
  | simple message | command message => message.serialize (noise memory (fillerSize 1))
  | listM2 message => message.serialize host ++ noise memory (fillerSize ListM2.getMessageSize)
  | listM3 message | downloadMi message | uploadMi message => message.serialize
  | downloadM1 message | delete message =>
      message.serialize (noise memory (fillerSize NameRequest.encodedSize))
  | downloadM2 message => message.serialize host
  | uploadM1 message => message.serialize host (noise memory (fillerSize UploadM1.getSizeUploadM1))
  | rename message => message.serialize

/-- How much of the buffer the sender encrypts. -/
def plaintext_len : Packet → Nat
  | simple _ | command _ => SimpleMessage.getMessageSize
  | listM2 _ => ListM2.getMessageSize
  | listM3 message => ListM3.getMessageSize message.m_content.length
  | downloadM1 _ | uploadM1 _ | delete _ => Config.MAX_PACKET_SIZE
  | downloadM2 _ => DownloadM2.getMessageSize
  | downloadMi message => DownloadMi.getMessageSize message.m_content.length
  | uploadMi message => UploadMi.getSizeUploadMi message.m_content.length
  | rename _ => Rename.getMessageSize

def step : Packet → PacketStep
  | simple _ => .simple
  | command _ => .command
  | listM2 _ => .listM2
  | listM3 message => .listM3 message.m_content.length
  | downloadM1 _ => .downloadM1
  | downloadM2 _ => .downloadM2
  | downloadMi message => .downloadMi message.m_content.length
  | uploadM1 _ => .uploadM1
  | uploadMi message => .uploadMi message.m_content.length
  | rename _ => .rename
  | delete _ => .delete

/-- The names in the message as the receiver reads them: C strings. -/
def texts : Packet → List Bytes
  | downloadM1 message | delete message => [cPrefix message.m_filename]
  | uploadM1 message => [cPrefix message.m_filename]
  | rename message => [cPrefix message.m_old_filename, cPrefix message.m_new_filename]
  | _ => []

/-- The widths of the name arrays. -/
def WellFormed : Packet → Prop
  | downloadM1 message | delete message => message.m_filename.length = Config.FILE_NAME_LEN
  | uploadM1 message => message.m_filename.length = Config.FILE_NAME_LEN
  | rename message => message.m_old_filename.length = Config.FILE_NAME_LEN ∧
      message.m_new_filename.length = Config.FILE_NAME_LEN
  | _ => True

/-- The name fields have been filled by `strncpy` with these names. -/
def Built : Packet → List Bytes → Prop
  | downloadM1 message, names | delete message, names => ∃ name, names = [name] ∧
      FileManager.isStringValid name = true ∧
      message.m_filename = strncpy name Config.FILE_NAME_LEN
  | uploadM1 message, names => ∃ name, names = [name] ∧
      FileManager.isStringValid name = true ∧
      message.m_filename = strncpy name Config.FILE_NAME_LEN
  | rename message, names => ∃ old new, names = [old, new] ∧
      FileManager.isStringValid old = true ∧ FileManager.isStringValid new = true ∧
      message.m_old_filename = strncpy old Config.FILE_NAME_LEN ∧
      message.m_new_filename = strncpy new Config.FILE_NAME_LEN
  | _, names => names = []

end Packet

namespace PacketStep

/-- The length of the plaintext that the receiver computes. Requests arrive at the loop of
the server, which does not know them yet. -/
def plaintext_len : PacketStep → Nat
  | simple => SimpleMessage.getMessageSize
  | command | downloadM1 | uploadM1 | rename | delete => Config.MAX_PACKET_SIZE
  | listM2 => ListM2.getMessageSize
  | listM3 list_size => ListM3.getMessageSize list_size
  | downloadM2 => DownloadM2.getMessageSize
  | downloadMi chunk_size => DownloadMi.getMessageSize chunk_size
  | uploadMi chunk_size => UploadMi.getSizeUploadMi chunk_size

def deserialize (host : Endian) (plaintext : Bytes) : PacketStep → Packet
  | simple => .simple (SimpleMessage.deserialize plaintext)
  | command => .command (SimpleMessage.deserialize plaintext)
  | listM2 => .listM2 (ListM2.deserialize host plaintext)
  | listM3 list_size => .listM3 (Block.deserialize plaintext list_size)
  | downloadM1 => .downloadM1 (NameRequest.deserialize plaintext)
  | downloadM2 => .downloadM2 (DownloadM2.deserialize host plaintext)
  | downloadMi chunk_size => .downloadMi (Block.deserialize plaintext chunk_size)
  | uploadM1 => .uploadM1 (UploadM1.deserialize host plaintext)
  | uploadMi chunk_size => .uploadMi (Block.deserialize plaintext chunk_size)
  | rename => .rename (Rename.deserialize plaintext)
  | delete => .delete (NameRequest.deserialize plaintext)

end PacketStep

/-- `static_cast<int>` of a length. Nothing of negative length can be allocated. -/
def intLength (length : Nat) : Option Nat :=
  if length % 2 ^ 32 < 2 ^ 31 then some (length % 2 ^ 32) else none

theorem intLength_small {length : Nat} (small : length < 2 ^ 31) :
    intLength length = some length := by
  have whole : length % 2 ^ 32 = length := Nat.mod_eq_of_lt (by omega)
  rw [intLength, whole, if_pos small]

theorem intLength_le {length cut : Nat} (cast : intLength length = some cut) : cut ≤ length := by
  simp only [intLength, Option.ite_none_right_eq_some, Option.some.injEq] at cast
  omega

theorem intLength_large {length cut : Nat} (large : 2 ^ 31 ≤ length)
    (cast : intLength length = some cut) : cut < length := by
  simp only [intLength, Option.ite_none_right_eq_some, Option.some.injEq] at cast
  omega

/-- `Generic::encrypt` and `Generic::serialize`: the sender's side of a session message. -/
def Packet.emit (gcm : Gcm) (key : Bytes) (host : Endian) (iv : Bytes) (memory : Nat → UInt8)
    (m_counter : UInt32) (message : Packet) : Option Bytes := do
  let length ← intLength message.plaintext_len
  let aad := Generic.aad m_counter
  let (ciphertext, tag) := gcm.encrypt key iv aad ((message.buffer host memory).take length)
  return Generic.serialize ⟨aad, ⟨iv, tag, ciphertext⟩⟩

/-- `Generic::deserialize`, `Generic::decrypt`, `getCounter` and the `deserialize` of the
class: the receiver's side. -/
def PacketStep.receive (gcm : Gcm) (key : Bytes) (host : Endian) (step : PacketStep)
    (frame : Bytes) : Option (UInt32 × Packet) := do
  let generic := Generic.deserialize frame step.plaintext_len
  let length ← intLength step.plaintext_len
  let plaintext ← gcm.decrypt key generic.m_sealed.m_iv generic.m_aad
    (generic.m_sealed.m_ciphertext.take length) generic.m_sealed.m_tag
  return (generic.getCounter, step.deserialize host plaintext)

theorem Block.take_serialize (message : Block) :
    message.serialize.take (1 + message.m_content.length) = message.serialize :=
  List.take_of_length_le (Block.serialize_length message).le

namespace Packet

theorem step_plaintext_len (message : Packet) :
    message.step.plaintext_len = message.plaintext_len := by
  cases message <;> rfl

theorem Built.wellFormed {message : Packet} {names : List Bytes} (built : message.Built names) :
    message.WellFormed := by
  cases message with
  | downloadM1 | uploadM1 | delete =>
    obtain ⟨name, -, -, filled⟩ := built
    simp [WellFormed, filled]
  | rename =>
    obtain ⟨old, new, -, -, -, filled, filled'⟩ := built
    simp [WellFormed, filled, filled']
  | _ => trivial

theorem cPrefix_field {name : Bytes} (valid : FileManager.isStringValid name = true) :
    cPrefix (strncpy name Config.FILE_NAME_LEN) = name := by
  obtain ⟨clean, fits⟩ := FileManager.clean_of_valid valid
  exact cPrefix_strncpy clean fits

theorem Built.texts {message : Packet} {names : List Bytes} (built : message.Built names) :
    message.texts = names := by
  cases message with
  | downloadM1 | uploadM1 | delete =>
    obtain ⟨name, rfl, valid, filled⟩ := built
    simp [Packet.texts, filled, cPrefix_field valid]
  | rename =>
    obtain ⟨old, new, rfl, validOld, validNew, filled, filled'⟩ := built
    simp [Packet.texts, filled, filled', cPrefix_field validOld, cPrefix_field validNew]
  | _ => exact (show names = [] from built).symm

/-- The buffers of the classes hold at least the plaintext; that of `ListM2` is longer. -/
theorem plaintext_len_le (host : Endian) (memory : Nat → UInt8) {message : Packet}
    (wellFormed : message.WellFormed) :
    message.plaintext_len ≤ (message.buffer host memory).length := by
  cases message with
  | simple | command =>
    simp [plaintext_len, buffer, SimpleMessage.serialize, SimpleMessage.getMessageSize, fillerSize,
      Config.MAX_PACKET_SIZE]
  | listM2 => simp [plaintext_len, buffer]
  | listM3 => simp [plaintext_len, buffer, ListM3.getMessageSize]
  | downloadM1 | delete =>
    exact (NameRequest.serialize_length wellFormed (noise_length memory _)).ge
  | downloadM2 => simp [plaintext_len, buffer]
  | downloadMi => simp [plaintext_len, buffer, DownloadMi.getMessageSize]
  | uploadM1 => exact (UploadM1.serialize_length wellFormed (noise_length memory _)).ge
  | uploadMi => simp [plaintext_len, buffer, UploadMi.getSizeUploadMi]
  | rename => exact (Rename.serialize_length wellFormed.1 wellFormed.2).ge

/-- What the receiver's class reads from the whole plaintext is the sender's message. -/
theorem deserialize_plaintext (host : Endian) (memory : Nat → UInt8) {message : Packet}
    (wellFormed : message.WellFormed) :
    message.step.deserialize host ((message.buffer host memory).take message.plaintext_len) =
      message := by
  cases message with
  | simple | command => rfl
  | listM2 message =>
    have whole : ((message.serialize host ++
        noise memory (fillerSize ListM2.getMessageSize)).take ListM2.getMessageSize) =
        message.serialize host := List.take_left' (ListM2.serialize_length host message)
    simp [plaintext_len, buffer, step, PacketStep.deserialize, whole]
  | listM3 message =>
    have whole := Block.take_serialize message
    simp [plaintext_len, buffer, step, PacketStep.deserialize, whole, ListM3.getMessageSize]
  | downloadMi message =>
    have whole := Block.take_serialize message
    simp [plaintext_len, buffer, step, PacketStep.deserialize, whole, DownloadMi.getMessageSize]
  | uploadMi message =>
    have whole := Block.take_serialize message
    simp [plaintext_len, buffer, step, PacketStep.deserialize, whole, UploadMi.getSizeUploadMi]
  | downloadM2 message =>
    have whole : (message.serialize host).take DownloadM2.getMessageSize = message.serialize host :=
      List.take_of_length_le (DownloadM2.serialize_length host message).le
    simp [plaintext_len, buffer, step, PacketStep.deserialize, whole]
  | downloadM1 message | delete message =>
    have whole := List.take_of_length_le
      (NameRequest.serialize_length wellFormed (noise_length memory _)).le
    simp only [plaintext_len, buffer, step, PacketStep.deserialize, whole,
      NameRequest.deserialize_serialize wellFormed]
  | uploadM1 message =>
    have size : (message.serialize host (noise memory (fillerSize UploadM1.getSizeUploadM1))).length =
        Config.MAX_PACKET_SIZE := UploadM1.serialize_length wellFormed (noise_length memory _)
    have whole := List.take_of_length_le size.le
    simp only [plaintext_len, buffer, step, PacketStep.deserialize, whole,
      UploadM1.deserialize_serialize wellFormed]
  | rename message =>
    have whole : message.serialize.take Rename.getMessageSize = message.serialize :=
      List.take_of_length_le (Rename.serialize_length wellFormed.1 wellFormed.2).le
    simp only [plaintext_len, buffer, step, PacketStep.deserialize, whole,
      Rename.deserialize_serialize wellFormed.1 wellFormed.2]

/-- The envelope around the first `length` bytes of the buffer. -/
def envelope (gcm : Gcm) (key : Bytes) (host : Endian) (iv : Bytes) (memory : Nat → UInt8)
    (m_counter : UInt32) (message : Packet) (length : Nat) : Generic :=
  let sealed := gcm.encrypt key iv (Generic.aad m_counter)
    ((message.buffer host memory).take length)
  ⟨Generic.aad m_counter, ⟨iv, sealed.2, sealed.1⟩⟩

section
variable {gcm : Gcm} {key iv frame : Bytes} {sender receiver : Endian} {memory : Nat → UInt8}
  {m_counter : UInt32} {message : Packet} {length : Nat}

theorem emit_eq : message.emit gcm key sender iv memory m_counter =
    (intLength message.plaintext_len).map fun length =>
      (message.envelope gcm key sender iv memory m_counter length).serialize := by
  unfold emit
  cases intLength message.plaintext_len <;> rfl

theorem emit_some (cast : intLength message.plaintext_len = some length) :
    message.emit gcm key sender iv memory m_counter =
      some (message.envelope gcm key sender iv memory m_counter length).serialize := by
  rw [emit_eq, cast, Option.map_some]

theorem envelope_wellFormed (width : iv.length = Config.IV_LEN) :
    (message.envelope gcm key sender iv memory m_counter length).WellFormed where
  iv := width
  aad := networkBytes_length m_counter
  tag := gcm.tag_length ..

theorem envelope_length (enough : length ≤ (message.buffer sender memory).length) :
    (message.envelope gcm key sender iv memory m_counter length).m_sealed.m_ciphertext.length =
      length := by
  simp [envelope, gcm.ciphertext_length, enough]

theorem frame_length (width : iv.length = Config.IV_LEN)
    (enough : length ≤ (message.buffer sender memory).length) :
    (message.envelope gcm key sender iv memory m_counter length).serialize.length =
      Generic.getMessageSize length := by
  rw [(envelope_wellFormed width).serialize_length, envelope_length enough]

/-- Whatever the cast leaves of the plaintext is what the receiver's class gets. -/
theorem receive_envelope (width : iv.length = Config.IV_LEN)
    (enough : length ≤ (message.buffer sender memory).length)
    (cast : intLength message.plaintext_len = some length) :
    message.step.receive gcm key receiver
      (message.envelope gcm key sender iv memory m_counter length).serialize =
      some (m_counter, message.step.deserialize receiver
        ((message.buffer sender memory).take length)) := by
  have size : (message.envelope gcm key sender iv memory m_counter
      length).m_sealed.m_ciphertext.length = length := envelope_length enough
  have same := Generic.WellFormed.deserialize_of_le (envelope_wellFormed width)
    (size.le.trans (intLength_le cast))
  have whole := List.take_of_length_le size.le
  have opened := gcm.decrypts key iv (Generic.aad m_counter)
    ((message.buffer sender memory).take length)
  unfold PacketStep.receive
  rw [step_plaintext_len, same, cast]
  simp only [Option.bind_eq_bind, Option.bind_some, whole]
  simp only [envelope, opened, Option.bind_some, Generic.getCounter_aad]
  rfl

/-- A cut block is not the sender's block. -/
theorem deserialize_cut (large : 2 ^ 31 ≤ message.plaintext_len)
    (short : length < message.plaintext_len) :
    message.step.deserialize receiver ((message.buffer sender memory).take length) ≠ message := by
  have cut : ∀ block : Block, length < 1 + block.m_content.length → 0 < block.m_content.length →
      Block.deserialize (block.serialize.take length) block.m_content.length ≠ block := by
    intro block short some_ same
    have sizes := congrArg (fun block => block.m_content.length) same
    simp only [Block.deserialize, field, List.length_take, List.length_drop] at sizes
    omega
  intro same
  cases message with
  | listM3 block | downloadMi block | uploadMi block =>
    simp only [plaintext_len, ListM3.getMessageSize, DownloadMi.getMessageSize,
      UploadMi.getSizeUploadMi] at large short
    simp only [step, PacketStep.deserialize, buffer, listM3.injEq, downloadMi.injEq,
      uploadMi.injEq] at same
    exact cut block short (by omega) same
  | _ => simp [plaintext_len, SimpleMessage.getMessageSize, ListM2.getMessageSize,
      DownloadM2.getMessageSize, Rename.getMessageSize, Config.MAX_PACKET_SIZE,
      Config.FILE_NAME_LEN] at large

end

end Packet

/-- Everything that travels between the two programs. M3 and M4 carry a counter that is
copied as it lies in memory. -/
inductive Letter where
  | m1 (m_message_code : UInt8) (message : AuthenticationM1 octets)
  | m2 (message : SimpleMessage)
  | m3 (m_counter : UInt32) (m_ephemeral_key : Bytes) (m_ephemeral_key_len : UInt32)
      (m_sealed : SealedBytes) (m_serialized_certificate : Bytes)
      (m_serialized_certificate_len : UInt32)
  | m4 (m_counter : UInt32) (m_sealed : SealedBytes)
  | packet (m_counter : UInt32) (message : Packet)

inductive LetterStep where
  | m1
  | m2
  | m3
  | m4
  | packet (step : PacketStep)

namespace Letter

def emit (gcm : Gcm) (key : Bytes) (host : Endian) (iv : Bytes) (memory : Nat → UInt8) :
    Letter → Option Bytes
  | m1 m_message_code message => some (m_message_code :: message.serialize.drop 1)
  | m2 message => some (message.serialize (noise memory (fillerSize 1)))
  | m3 m_counter m_ephemeral_key m_ephemeral_key_len m_sealed m_serialized_certificate
      m_serialized_certificate_len =>
      let message : AuthenticationM3 octets := ⟨m_ephemeral_key, m_ephemeral_key_len,
        host.bytes m_counter, m_sealed, m_serialized_certificate, m_serialized_certificate_len⟩
      some message.serialize
  | m4 m_counter m_sealed =>
      let message : AuthenticationM4 octets := ⟨host.bytes m_counter, m_sealed⟩
      some message.serialize
  | packet m_counter message => message.emit gcm key host iv memory m_counter

def step : Letter → LetterStep
  | m1 _ _ => .m1
  | m2 _ => .m2
  | m3 _ _ _ _ _ _ => .m3
  | m4 _ _ => .m4
  | packet _ message => .packet message.step

/-- The texts in the letter as the receiver reads them: the keys and the certificate up to
their declared lengths, the names as C strings. -/
def texts : Letter → List Bytes
  | m1 _ message =>
      let key : Bytes := message.m_ephemeral_key
      [key.take message.m_ephemeral_key_len.toNat, cPrefix message.m_username]
  | m3 _ m_ephemeral_key m_ephemeral_key_len _ m_serialized_certificate
      m_serialized_certificate_len =>
      [m_ephemeral_key.take m_ephemeral_key_len.toNat,
        m_serialized_certificate.take m_serialized_certificate_len.toNat]
  | packet _ message => message.texts
  | _ => []

/-- The widths of the arrays. -/
def WellFormed : Letter → Prop
  | m1 _ message => message.WellFormed
  | m2 _ => True
  | m3 _ m_ephemeral_key _ m_sealed m_serialized_certificate _ =>
      m_ephemeral_key.length = EPHEMERAL_KEY_LEN ∧ m_sealed.m_iv.length = Config.IV_LEN ∧
        m_sealed.m_tag.length = Config.AES_TAG_LEN ∧
        m_sealed.m_ciphertext.length = ENCRYPTED_SIGNATURE_LEN ∧
        m_serialized_certificate.length = MAX_SERIALIZED_CERTIFICATE_LEN
  | m4 _ m_sealed =>
      m_sealed.m_iv.length = Config.IV_LEN ∧ m_sealed.m_tag.length = Config.AES_TAG_LEN ∧
        m_sealed.m_ciphertext.length = ENCRYPTED_SIGNATURE_LEN
  | packet _ message => message.WellFormed

/-- The letter has been made by the constructor of its class from these texts. -/
def Built : Letter → List Bytes → Prop
  | m1 m_message_code message, texts => ∃ key username, texts = [key, username] ∧
      key.length ≤ EPHEMERAL_KEY_LEN ∧ FileManager.isStringValid username = true ∧
      m_message_code = Message.AUTHENTICATION_REQUEST.byte ∧
      message = AuthenticationM1.ofKey key username
  | m3 _ m_ephemeral_key m_ephemeral_key_len m_sealed m_serialized_certificate
      m_serialized_certificate_len, texts => ∃ key certificate : Bytes, texts = [key, certificate] ∧
      key.length ≤ EPHEMERAL_KEY_LEN ∧ certificate.length ≤ MAX_SERIALIZED_CERTIFICATE_LEN ∧
      m_sealed.m_iv.length = Config.IV_LEN ∧ m_sealed.m_tag.length = Config.AES_TAG_LEN ∧
      m_sealed.m_ciphertext.length = ENCRYPTED_SIGNATURE_LEN ∧
      m_ephemeral_key = padded (P := octets) key EPHEMERAL_KEY_LEN ∧
      m_ephemeral_key_len = key.length.toUInt32 ∧
      m_serialized_certificate =
        padded (P := octets) certificate MAX_SERIALIZED_CERTIFICATE_LEN ∧
      m_serialized_certificate_len = certificate.length.toUInt32
  | m2 _, texts => texts = []
  | m4 _ m_sealed, texts => texts = [] ∧ m_sealed.m_iv.length = Config.IV_LEN ∧
      m_sealed.m_tag.length = Config.AES_TAG_LEN ∧
      m_sealed.m_ciphertext.length = ENCRYPTED_SIGNATURE_LEN
  | packet _ message, texts => message.Built texts

end Letter

namespace LetterStep

/-- How many bytes the receiver asks the socket for. -/
def size : LetterStep → Nat
  | m1 => AuthenticationM1.getMessageSize
  | m2 => SimpleMessage.getMessageSize
  | m3 => AuthenticationM3.getMessageSize
  | m4 => AuthenticationM4.getMessageSize
  | packet step => Generic.getMessageSize step.plaintext_len

def receive (gcm : Gcm) (key : Bytes) (host : Endian) (frame : Bytes) :
    LetterStep → Option Letter
  | m1 => some (.m1 (frame.headD 0) (AuthenticationM1.deserialize frame))
  | m2 => some (.m2 (SimpleMessage.deserialize frame))
  | m3 =>
      let message := AuthenticationM3.deserialize frame
      some (.m3 (host.value message.m_aad) message.m_ephemeral_key message.m_ephemeral_key_len
        message.m_sealed message.m_serialized_certificate message.m_serialized_certificate_len)
  | m4 =>
      let message := AuthenticationM4.deserialize frame ENCRYPTED_SIGNATURE_LEN
      some (.m4 (host.value message.m_aad) message.m_sealed)
  | packet step => (step.receive gcm key host frame).map fun (counter, message) =>
      .packet counter message

end LetterStep

namespace Letter

/-- `encrypt` gets the length of the plaintext as an `int`. -/
def Sealable : Letter → Prop
  | packet _ message => message.plaintext_len < 2 ^ 31
  | _ => True

/-- The sender emits a frame of the length that the receiver computes, from which the
receiver reads the letter and the texts it was made of. -/
def Returns (gcm : Gcm) (key : Bytes) (host : Endian) (iv : Bytes) (memory : Nat → UInt8)
    (letter : Letter) (texts : List Bytes) : Prop :=
  ∃ frame, letter.emit gcm key host iv memory = some frame ∧ frame.length = letter.step.size ∧
    letter.step.receive gcm key host frame = some letter ∧ letter.texts = texts

/-- What a padded array holds up to the declared length is the text. -/
theorem take_padded {text : Bytes} {width : Nat} (fits : text.length ≤ width)
    (narrow : width < 2 ^ 32) :
    (padded (P := octets) text width).take text.length.toUInt32.toNat = text := by
  have size : text.length.toUInt32.toNat = text.length :=
    UInt32.toNat_ofNat_of_lt' (by change text.length < 2 ^ 32; omega)
  rw [size, padded, List.take_left]

theorem padded_length {text : Bytes} {width : Nat} (fits : text.length ≤ width) :
    (padded (P := octets) text width).length = width := by
  simp only [padded, List.length_append, List.length_replicate]
  omega

section
variable {gcm : Gcm} {key iv frame : Bytes} {host : Endian} {memory : Nat → UInt8}
  {letter : Letter} {texts : List Bytes}

theorem Built.wellFormed (built : letter.Built texts) : letter.WellFormed := by
  cases letter with
  | m1 code message =>
    obtain ⟨key, username, -, fits, -, -, rfl⟩ := built
    constructor
    · exact padded_length fits
    · exact strncpy_length username Config.USERNAME_LEN
  | m3 =>
    obtain ⟨key, certificate, -, fits, fits', iv, tag, signature, rfl, -, rfl, -⟩ := built
    exact ⟨padded_length fits, iv, tag, signature, padded_length fits'⟩
  | m4 => exact built.2
  | m2 => trivial
  | packet => exact Packet.Built.wellFormed built

theorem Built.texts_eq (built : letter.Built texts) : letter.texts = texts := by
  cases letter with
  | m1 code message =>
    obtain ⟨key, username, rfl, fits, valid, -, rfl⟩ := built
    have name : cPrefix (strncpy username Config.USERNAME_LEN) = username :=
      Packet.cPrefix_field valid
    simp only [Letter.texts, AuthenticationM1.ofKey, name]
    rw [take_padded fits (by decide)]
  | m3 =>
    obtain ⟨key, certificate, rfl, fits, fits', -, -, -, rfl, rfl, rfl, rfl⟩ := built
    simp only [Letter.texts]
    rw [take_padded fits (by decide), take_padded fits' (by decide)]
  | m2 => exact (show texts = [] from built).symm
  | m4 => exact built.1.symm
  | packet => exact Packet.Built.texts built

/-- Every letter that can be sealed comes back whole. -/
theorem receive_emit (gcm : Gcm) (key : Bytes) (host : Endian) (memory : Nat → UInt8)
    (width : iv.length = Config.IV_LEN) (wellFormed : letter.WellFormed)
    (sealable : letter.Sealable) :
    ∃ frame, letter.emit gcm key host iv memory = some frame ∧ frame.length = letter.step.size ∧
      letter.step.receive gcm key host frame = some letter := by
  cases letter with
  | m1 code message =>
    refine ⟨_, rfl, ?_, ?_⟩
    · have size := AuthenticationM1.WellFormed.serialize_length wellFormed
      simp only [List.length_cons, List.length_drop, size]
      rfl
    · have same := AuthenticationM1.WellFormed.deserialize_serialize wellFormed
      -- the fields behind the code do not depend on it
      exact congrArg (fun message => some (m1 code message)) same
  | m2 message =>
    refine ⟨_, rfl, ?_, rfl⟩
    simp [SimpleMessage.serialize, fillerSize, step, LetterStep.size, SimpleMessage.getMessageSize,
      Config.MAX_PACKET_SIZE]
  | m3 counter key key_len sealed certificate certificate_len =>
    obtain ⟨hkey, hiv, htag, hsignature, hcertificate⟩ := wellFormed
    have whole : AuthenticationM3.WellFormed
        ⟨key, key_len, host.bytes counter, sealed, certificate, certificate_len⟩ :=
      ⟨hkey, hiv, host.bytes_length counter, htag, hsignature, hcertificate⟩
    refine ⟨_, rfl, whole.serialize_length, ?_⟩
    simp only [step, LetterStep.receive, whole.deserialize_serialize, Endian.value_bytes]
  | m4 counter sealed =>
    obtain ⟨hiv, htag, hsignature⟩ := wellFormed
    have whole : Generic.WellFormed ⟨host.bytes counter, sealed⟩ :=
      ⟨hiv, host.bytes_length counter, htag⟩
    refine ⟨_, rfl, ?_, ?_⟩
    · have size := whole.serialize_length
      rw [hsignature] at size
      exact size
    · have same := whole.deserialize_of_le hsignature.le
      simp only [step, LetterStep.receive, AuthenticationM4.deserialize, AuthenticationM4.serialize,
        AuthenticationM4.envelope, same, Endian.value_bytes]
  | packet counter message =>
    have cast := intLength_small sealable
    have enough := Packet.plaintext_len_le host memory wellFormed
    refine ⟨(message.envelope gcm key host iv memory counter message.plaintext_len).serialize,
      ?_, ?_, ?_⟩
    · exact Packet.emit_some cast
    · rw [Packet.frame_length width enough, step, LetterStep.size, Packet.step_plaintext_len]
    · rw [step, LetterStep.receive, Packet.receive_envelope width enough cast,
        Packet.deserialize_plaintext host memory wellFormed]
      rfl

/-- The frame around a plaintext that the cast has cut is too short. -/
theorem not_returns (width : iv.length = Config.IV_LEN) (wellFormed : letter.WellFormed)
    (long : ¬letter.Sealable) : ¬letter.Returns gcm key host iv memory texts := by
  rintro ⟨frame, emitted, length, -, -⟩
  cases letter with
  | packet counter message =>
    have large : 2 ^ 31 ≤ message.plaintext_len := Nat.le_of_not_lt long
    rw [emit, Packet.emit_eq] at emitted
    obtain ⟨cut, cast, rfl⟩ := Option.map_eq_some_iff.mp emitted
    have short := intLength_large large cast
    have enough := short.le.trans (Packet.plaintext_len_le host memory wellFormed)
    rw [Packet.frame_length width enough, step, LetterStep.size, Packet.step_plaintext_len] at length
    simp only [Generic.getMessageSize] at length
    omega
  | _ => exact long trivial

/-- Decoding undoes encoding for every message, unless the length of its plaintext is cut by
the cast to `int`. -/
theorem returns_iff_sealable (gcm : Gcm) (key : Bytes) (host : Endian) (iv : Bytes)
    (memory : Nat → UInt8) (letter : Letter) (texts : List Bytes)
    (width : iv.length = Config.IV_LEN) (built : letter.Built texts) :
    letter.Returns gcm key host iv memory texts ↔ letter.Sealable := by
  constructor
  · intro returns
    by_contra long
    exact not_returns width built.wellFormed long returns
  · intro sealable
    obtain ⟨frame, emitted, length, received⟩ :=
      receive_emit gcm key host memory width built.wellFormed sealable
    exact ⟨frame, emitted, length, received, built.texts_eq⟩

/-- `DOWNLOAD_ACK` for a file of one byte. -/
def acknowledgement : Letter := packet 0 (.downloadM2 ⟨Message.DOWNLOAD_ACK.byte, 1⟩)

theorem acknowledgement_returns :
    acknowledgement.Returns Gcm.sample (List.replicate 16 0) .little (List.replicate 12 0)
      (fun _ => 0) [] :=
  (returns_iff_sealable Gcm.sample (List.replicate 16 0) .little (List.replicate 12 0)
    (fun _ => 0) acknowledgement [] (by decide) rfl).mpr
    (show DownloadM2.getMessageSize < 2 ^ 31 by decide)

def response (file_list : Bytes) : Letter := packet 0 (.listM3 (ListM3.ofList file_list))

/-- With the code before it, the length of such a list is 0 as an `int`. -/
theorem response_lost {file_list : Bytes} (length : file_list.length = 2 ^ 32 - 1)
    (width : iv.length = Config.IV_LEN) :
    ((response file_list).emit gcm key host iv memory).isSome = true ∧
      ¬(response file_list).Returns gcm key host iv memory [] := by
  have size : ListM3.getMessageSize file_list.length = 2 ^ 32 := by
    rw [length]
    rfl
  constructor
  · rw [response, emit, Packet.emit_eq, Packet.plaintext_len, ListM3.ofList, size]
    rfl
  · have wellFormed : (response file_list).WellFormed := trivial
    apply not_returns width wellFormed
    rw [response, Sealable, Packet.plaintext_len, ListM3.ofList, size]
    decide

end

/-- The sender emits an envelope without content for the longest list. -/
theorem longest_list_lost :
    (response (List.replicate (2 ^ 32 - 1) 44)).Built [] ∧
      ((response (List.replicate (2 ^ 32 - 1) 44)).emit Gcm.sample (List.replicate 16 0) .little
        (List.replicate 12 0) (fun _ => 0)).isSome = true ∧
      ¬(response (List.replicate (2 ^ 32 - 1) 44)).Returns Gcm.sample (List.replicate 16 0) .little
        (List.replicate 12 0) (fun _ => 0) [] :=
  ⟨rfl, response_lost List.length_replicate (by decide)⟩

end Letter

end CloudStorage
