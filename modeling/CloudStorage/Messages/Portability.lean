import CloudStorage.Messages.Letters

/-! Two hosts of different byte order: which letters they read alike. -/
namespace CloudStorage

namespace Endian

/-- The integer lies in memory in the same way on both kinds of host. -/
def Same (value : UInt32) : Prop := Endian.little.bytes value = Endian.big.bytes value

instance (value : UInt32) : Decidable (Same value) :=
  inferInstanceAs (Decidable (Endian.little.bytes value = Endian.big.bytes value))

theorem Same.bytes {value : UInt32} (same : Same value) (sender receiver : Endian) :
    sender.bytes value = receiver.bytes value := by
  cases sender <;> cases receiver
  · rfl
  · exact same
  · exact same.symm
  · rfl

theorem Same.of_value {value : UInt32} (read : Endian.big.value (Endian.little.bytes value) = value) :
    Same value := by
  have back := Endian.big.bytes_value (Endian.little.bytes_length value)
  rw [read] at back
  exact back.symm

end Endian

namespace Packet

/-- The integers of the message that do not pass through `htonl`. -/
def Symmetric : Packet → Prop
  | listM2 message => Endian.Same message.m_list_size
  | downloadM2 message => Endian.Same message.m_file_size
  | uploadM1 message => Endian.Same message.m_file_size
  | _ => True

theorem Symmetric.buffer {message : Packet} (symmetric : message.Symmetric)
    (sender receiver : Endian) (memory : Nat → UInt8) :
    message.buffer sender memory = message.buffer receiver memory := by
  cases message with
  | listM2 message =>
    simp only [Packet.buffer, ListM2.serialize, Endian.Same.bytes symmetric sender receiver]
  | downloadM2 message =>
    simp only [Packet.buffer, DownloadM2.serialize, Endian.Same.bytes symmetric sender receiver]
  | uploadM1 message =>
    simp only [Packet.buffer, UploadM1.serialize, Endian.Same.bytes symmetric sender receiver]
  | _ => rfl

/-- A big-endian receiver has read the integer of a little-endian sender backwards. -/
theorem symmetric_of_read {message : Packet} {memory : Nat → UInt8}
    (wellFormed : message.WellFormed)
    (read : message.step.deserialize .big
      ((message.buffer .little memory).take message.plaintext_len) = message) :
    message.Symmetric := by
  cases message with
  | listM2 message =>
    obtain ⟨code, size⟩ := message
    simp only [step, PacketStep.deserialize, listM2.injEq, ListM2.mk.injEq, ListM2.deserialize] at read
    exact Endian.Same.of_value read.2
  | downloadM2 message =>
    obtain ⟨code, size⟩ := message
    simp only [step, PacketStep.deserialize, downloadM2.injEq, DownloadM2.mk.injEq,
      DownloadM2.deserialize] at read
    exact Endian.Same.of_value read.2
  | uploadM1 message =>
    obtain ⟨code, filename, size⟩ := message
    have length : (UploadM1.serialize .little ⟨code, filename, size⟩
        (noise memory (fillerSize UploadM1.getSizeUploadM1))).length = Config.MAX_PACKET_SIZE :=
      UploadM1.serialize_length wellFormed (noise_length memory _)
    have whole := List.take_of_length_le length.le
    simp only [step, PacketStep.deserialize, uploadM1.injEq, plaintext_len, buffer, whole,
      UploadM1.deserialize, UploadM1.mk.injEq] at read
    have skipped : field (1 + Config.FILE_NAME_LEN) 4
        (UploadM1.serialize .little ⟨code, filename, size⟩
          (noise memory (fillerSize UploadM1.getSizeUploadM1))) = Endian.little.bytes size := by
      have width : filename.length = 35 := wellFormed
      simp [UploadM1.serialize, field, Config.FILE_NAME_LEN, width]
    rw [skipped] at read
    exact Endian.Same.of_value read.2.2
  | _ => trivial

/-- Only blocks are so long, and they have no integers. -/
theorem symmetric_of_large {message : Packet} (large : 2 ^ 31 ≤ message.plaintext_len) :
    message.Symmetric := by
  cases message with
  | listM2 | downloadM2 | uploadM1 =>
    simp [plaintext_len, ListM2.getMessageSize, DownloadM2.getMessageSize,
      Config.MAX_PACKET_SIZE] at large
  | _ => trivial

end Packet

namespace Letter

/-- The integers of the letter that do not pass through `htonl`. -/
def Symmetric : Letter → Prop
  | m3 m_counter _ _ _ _ _ => Endian.Same m_counter
  | m4 m_counter _ => Endian.Same m_counter
  | packet _ message => message.Symmetric
  | _ => True

/-- What the cast to `int` leaves of the length, if it leaves anything, is the length. -/
def Uncut : Letter → Prop
  | packet _ message => ∀ length, intLength message.plaintext_len = some length →
      length = message.plaintext_len
  | _ => True

/-- Senders of both byte orders emit the same frame, and every receiver reads the letter. -/
def Portable (gcm : Gcm) (key iv : Bytes) (memory : Nat → UInt8) (letter : Letter) : Prop :=
  letter.emit gcm key .little iv memory = letter.emit gcm key .big iv memory ∧
    ∀ sender receiver frame, letter.emit gcm key sender iv memory = some frame →
      letter.step.receive gcm key receiver frame = some letter

section
variable {gcm : Gcm} {key iv frame : Bytes} {memory : Nat → UInt8} {letter : Letter}

theorem Symmetric.emit (symmetric : letter.Symmetric) (sender receiver : Endian) :
    letter.emit gcm key sender iv memory = letter.emit gcm key receiver iv memory := by
  cases letter with
  | m3 | m4 => simp only [Letter.emit, Endian.Same.bytes symmetric sender receiver]
  | packet counter message =>
    simp only [Letter.emit, Packet.emit, Packet.Symmetric.buffer symmetric sender receiver]
  | _ => rfl

theorem sealable_of_emitted {host : Endian} (uncut : letter.Uncut)
    (emitted : letter.emit gcm key host iv memory = some frame) : letter.Sealable := by
  cases letter with
  | packet counter message =>
    rw [Letter.emit, Packet.emit_eq] at emitted
    obtain ⟨length, cast, -⟩ := Option.map_eq_some_iff.mp emitted
    by_contra large
    have short := intLength_large (Nat.le_of_not_lt large) cast
    exact absurd (uncut length cast) short.ne
  | _ => trivial

theorem portable_of_symmetric (width : iv.length = Config.IV_LEN) (wellFormed : letter.WellFormed)
    (symmetric : letter.Symmetric) (uncut : letter.Uncut) :
    letter.Portable gcm key iv memory := by
  constructor
  · exact symmetric.emit .little .big
  · intro sender receiver frame emitted
    have sealable := sealable_of_emitted uncut emitted
    obtain ⟨own, emitted', -, received⟩ :=
      receive_emit gcm key receiver memory width wellFormed sealable
    rw [symmetric.emit sender receiver, emitted'] at emitted
    cases emitted
    exact received

/-- The receiver of a cut list or chunk misses bytes. -/
theorem Portable.uncut (width : iv.length = Config.IV_LEN) (wellFormed : letter.WellFormed)
    (portable : letter.Portable gcm key iv memory) : letter.Uncut := by
  cases letter with
  | packet counter message =>
    intro length cast
    by_contra other
    have short := lt_of_le_of_ne (intLength_le cast) other
    have large : 2 ^ 31 ≤ message.plaintext_len := by
      by_contra small
      rw [intLength_small (Nat.lt_of_not_le small)] at cast
      exact other (Option.some.inj cast).symm
    have enough := short.le.trans (Packet.plaintext_len_le .little memory wellFormed)
    have received := portable.2 .little .little _ (Packet.emit_some cast)
    rw [step, LetterStep.receive, Packet.receive_envelope width enough cast] at received
    simp only [Option.map_some, Option.some.injEq, packet.injEq, true_and] at received
    exact Packet.deserialize_cut large short received
  | _ => trivial

theorem Portable.symmetric (width : iv.length = Config.IV_LEN) (wellFormed : letter.WellFormed)
    (portable : letter.Portable gcm key iv memory) : letter.Symmetric := by
  cases letter with
  | m3 counter key key_len sealed certificate certificate_len =>
    obtain ⟨hkey, hiv, htag, hsignature, hcertificate⟩ := wellFormed
    have whole : AuthenticationM3.WellFormed ⟨key, key_len, Endian.little.bytes counter, sealed,
        certificate, certificate_len⟩ :=
      ⟨hkey, hiv, Endian.bytes_length .little counter, htag, hsignature, hcertificate⟩
    have received := portable.2 .little .big _ rfl
    simp only [step, LetterStep.receive, whole.deserialize_serialize, Option.some.injEq,
      m3.injEq, and_true] at received
    exact Endian.Same.of_value received
  | m4 counter sealed =>
    obtain ⟨hiv, htag, hsignature⟩ := wellFormed
    have whole : Generic.WellFormed ⟨Endian.little.bytes counter, sealed⟩ :=
      ⟨hiv, Endian.bytes_length .little counter, htag⟩
    have received := portable.2 .little .big _ rfl
    simp only [step, LetterStep.receive, AuthenticationM4.deserialize, AuthenticationM4.serialize,
      AuthenticationM4.envelope, whole.deserialize_of_le hsignature.le, Option.some.injEq,
      m4.injEq, and_true] at received
    exact Endian.Same.of_value received
  | packet counter message =>
    by_cases small : message.plaintext_len < 2 ^ 31
    · have cast := intLength_small small
      have enough := Packet.plaintext_len_le .little memory wellFormed
      have received := portable.2 .little .big _ (Packet.emit_some cast)
      rw [step, LetterStep.receive, Packet.receive_envelope width enough cast] at received
      simp only [Option.map_some, Option.some.injEq, packet.injEq, true_and] at received
      exact Packet.symmetric_of_read wellFormed received
    · exact Packet.symmetric_of_large (Nat.le_of_not_lt small)
  | _ => trivial

/-- A letter travels between hosts of any byte order exactly when its plain integers are
palindromes, and the cast to `int` does not cut it. -/
theorem portable_iff_symmetric (gcm : Gcm) (key iv : Bytes) (memory : Nat → UInt8)
    (letter : Letter) (width : iv.length = Config.IV_LEN) (wellFormed : letter.WellFormed) :
    letter.Portable gcm key iv memory ↔ letter.Symmetric ∧ letter.Uncut := by
  constructor
  · intro portable
    exact ⟨portable.symmetric width wellFormed, portable.uncut width wellFormed⟩
  · rintro ⟨symmetric, uncut⟩
    exact portable_of_symmetric width wellFormed symmetric uncut

end

/-- M3 of a handshake, with the first lines of a key and of a certificate. -/
def offer : Letter :=
  m3 0 (strncpy (ascii "-----BEGIN PUBLIC KEY-----") EPHEMERAL_KEY_LEN) 26
    ⟨(List.range 12).map Nat.toUInt8, List.replicate 16 7, (List.range 128).map Nat.toUInt8⟩
    (strncpy (ascii "-----BEGIN CERTIFICATE-----") MAX_SERIALIZED_CERTIFICATE_LEN) 27

theorem offer_wellFormed : offer.WellFormed :=
  ⟨strncpy_length _ _, rfl, rfl, rfl, strncpy_length _ _⟩

theorem offer_portable :
    offer.Portable Gcm.sample (List.replicate 16 5) (List.replicate 12 9) (fun _ => 0) :=
  (portable_iff_symmetric Gcm.sample (List.replicate 16 5) (List.replicate 12 9) (fun _ => 0)
    offer (by decide) offer_wellFormed).mpr ⟨show Endian.Same 0 by decide, trivial⟩

/-- M4 of every handshake. -/
def confirmation : Letter :=
  m4 1 ⟨List.replicate 12 0, List.replicate 16 0, List.replicate 128 0⟩

/-- A big-endian server reads the counter 1 of a little-endian client as `2 ^ 24`. -/
theorem confirmation_not_portable : confirmation.WellFormed ∧
    ¬confirmation.Portable Gcm.sample (List.replicate 16 0) (List.replicate 12 0) (fun _ => 0) := by
  have wellFormed : confirmation.WellFormed :=
    ⟨List.length_replicate, List.length_replicate, List.length_replicate⟩
  apply And.intro wellFormed
  intro portable
  have same : Endian.Same 1 := portable.symmetric (by decide) wellFormed
  exact absurd same (by decide)

end Letter

end CloudStorage
