import CloudStorage.Authentication.Operations
import CloudStorage.Messages.Generic

/-! `Authentication.cpp`: the handshake messages as they travel. Keys, secrets and
certificates are byte strings here. -/
namespace CloudStorage

@[reducible] def octets : Primitives where
  Symbol := UInt8
  Exponent := Bytes
  Element := Bytes
  Secret := Bytes
  Key := Bytes
  Data := Bytes
  Sealed := SealedBytes
  PublicKey := Bytes
  Certificate := Bytes
  blank := 0
  terminates := fun symbol => symbol == 0
  ofBytes := id
  head := fun plaintext => plaintext.headD 0

namespace AuthenticationM1
def getMessageSize : Nat := 1 + EPHEMERAL_KEY_LEN + 4 + Config.USERNAME_LEN

def serialize (message : AuthenticationM1 octets) : Bytes :=
  let key : Bytes := message.m_ephemeral_key
  Message.AUTHENTICATION_REQUEST.byte ::
    (key ++ (networkBytes message.m_ephemeral_key_len ++ message.m_username))

def deserialize (buffer : Bytes) : AuthenticationM1 octets where
  m_ephemeral_key := field 1 EPHEMERAL_KEY_LEN buffer
  m_ephemeral_key_len := networkValue (field (1 + EPHEMERAL_KEY_LEN) 4 buffer)
  m_username := field (1 + EPHEMERAL_KEY_LEN + 4) Config.USERNAME_LEN buffer

structure WellFormed (message : AuthenticationM1 octets) : Prop where
  key : message.m_ephemeral_key.length = EPHEMERAL_KEY_LEN
  username : message.m_username.length = Config.USERNAME_LEN

theorem WellFormed.serialize_length {message : AuthenticationM1 octets}
    (h : message.WellFormed) : message.serialize.length = getMessageSize := by
  obtain ⟨hkey, husername⟩ := h
  simp only [EPHEMERAL_KEY_LEN] at hkey
  simp [serialize, hkey, husername, getMessageSize, EPHEMERAL_KEY_LEN, Config.USERNAME_LEN]

theorem WellFormed.deserialize_serialize {message : AuthenticationM1 octets}
    (h : message.WellFormed) : deserialize message.serialize = message := by
  obtain ⟨key, len, username⟩ := message
  obtain ⟨hkey, husername⟩ := h
  dsimp only at hkey husername
  simp only [EPHEMERAL_KEY_LEN, Config.USERNAME_LEN] at hkey husername
  simp [deserialize, serialize, EPHEMERAL_KEY_LEN, Config.USERNAME_LEN, field_cons, field_skip,
    field_head, field_whole, hkey, husername]
end AuthenticationM1

namespace AuthenticationM3
def getMessageSize : Nat :=
  EPHEMERAL_KEY_LEN + 4 + Config.IV_LEN + Config.AAD_LEN + Config.AES_TAG_LEN +
    ENCRYPTED_SIGNATURE_LEN + MAX_SERIALIZED_CERTIFICATE_LEN + 4

def serialize (message : AuthenticationM3 octets) : Bytes :=
  let key : Bytes := message.m_ephemeral_key
  let certificate : Bytes := message.m_serialized_certificate
  key ++ (networkBytes message.m_ephemeral_key_len ++ (message.m_sealed.m_iv ++
    (message.m_aad ++ (message.m_sealed.m_tag ++ (message.m_sealed.m_ciphertext ++
      (certificate ++ networkBytes message.m_serialized_certificate_len))))))

def deserialize (buffer : Bytes) : AuthenticationM3 octets where
  m_ephemeral_key := field 0 EPHEMERAL_KEY_LEN buffer
  m_ephemeral_key_len := networkValue (field 1024 4 buffer)
  m_aad := field 1040 Config.AAD_LEN buffer
  m_sealed :=
    { m_iv := field 1028 Config.IV_LEN buffer
      m_tag := field 1044 Config.AES_TAG_LEN buffer
      m_ciphertext := field 1060 ENCRYPTED_SIGNATURE_LEN buffer }
  m_serialized_certificate := field 1188 MAX_SERIALIZED_CERTIFICATE_LEN buffer
  m_serialized_certificate_len := networkValue (field 2688 4 buffer)

structure WellFormed (message : AuthenticationM3 octets) : Prop where
  key : message.m_ephemeral_key.length = EPHEMERAL_KEY_LEN
  iv : message.m_sealed.m_iv.length = Config.IV_LEN
  aad : message.m_aad.length = Config.AAD_LEN
  tag : message.m_sealed.m_tag.length = Config.AES_TAG_LEN
  signature : message.m_sealed.m_ciphertext.length = ENCRYPTED_SIGNATURE_LEN
  certificate : message.m_serialized_certificate.length = MAX_SERIALIZED_CERTIFICATE_LEN

theorem WellFormed.serialize_length {message : AuthenticationM3 octets}
    (h : message.WellFormed) : message.serialize.length = getMessageSize := by
  simp only [serialize, List.length_append, h.key, h.iv, h.aad, h.tag, h.signature,
    h.certificate, networkBytes_length]
  rfl

theorem WellFormed.deserialize_serialize {message : AuthenticationM3 octets}
    (h : message.WellFormed) : deserialize message.serialize = message := by
  obtain ⟨key, len, aad, ⟨iv, tag, ciphertext⟩, certificate, certificateLen⟩ := message
  obtain ⟨hkey, hiv, haad, htag, hsignature, hcertificate⟩ := h
  dsimp only at hkey hiv haad htag hsignature hcertificate
  simp only [EPHEMERAL_KEY_LEN, Config.IV_LEN, Config.AAD_LEN, Config.AES_TAG_LEN,
    ENCRYPTED_SIGNATURE_LEN, MAX_SERIALIZED_CERTIFICATE_LEN]
    at hkey hiv haad htag hsignature hcertificate
  simp [deserialize, serialize, EPHEMERAL_KEY_LEN, Config.IV_LEN, Config.AAD_LEN,
    Config.AES_TAG_LEN, ENCRYPTED_SIGNATURE_LEN, MAX_SERIALIZED_CERTIFICATE_LEN, field_skip,
    field_head, field_whole, hkey, hiv, haad, htag, hsignature, hcertificate]
end AuthenticationM3

namespace AuthenticationM4
def getMessageSize : Nat :=
  Config.IV_LEN + Config.AAD_LEN + Config.AES_TAG_LEN + ENCRYPTED_SIGNATURE_LEN

/-- M4 and M5 travel in the layout of `Generic`. -/
def envelope (message : AuthenticationM4 octets) : Generic := ⟨message.m_aad, message.m_sealed⟩

def serialize (message : AuthenticationM4 octets) : Bytes := message.envelope.serialize

def deserialize (buffer : Bytes) (ciphertext_len : Nat) : AuthenticationM4 octets :=
  let generic := Generic.deserialize buffer ciphertext_len
  ⟨generic.m_aad, generic.m_sealed⟩
end AuthenticationM4

end CloudStorage
