import CloudStorage.Wire.Bytes

/-! `Generic.cpp`: the envelope of every session message. -/
namespace CloudStorage

/-- IV, tag and ciphertext: what `AesGcm::encrypt` produces besides its input AAD. -/
structure SealedBytes where
  m_iv : Bytes
  m_tag : Bytes
  m_ciphertext : Bytes
  deriving DecidableEq, Repr

structure Generic where
  m_aad : Bytes
  m_sealed : SealedBytes
  deriving DecidableEq, Repr

namespace Generic

/-- `Generic(uint32_t counter)`: the AAD in network order. -/
def aad (counter : UInt32) : Bytes := networkBytes counter

def getMessageSize (plaintext_len : Nat) : Nat :=
  Config.IV_LEN + Config.AAD_LEN + Config.AES_TAG_LEN + plaintext_len

def serialize (message : Generic) : Bytes :=
  message.m_sealed.m_iv ++ message.m_aad ++ message.m_sealed.m_tag ++
    message.m_sealed.m_ciphertext

def deserialize (buffer : Bytes) (ciphertext_len : Nat) : Generic where
  m_aad := field Config.IV_LEN Config.AAD_LEN buffer
  m_sealed :=
    { m_iv := field 0 Config.IV_LEN buffer
      m_tag := field (Config.IV_LEN + Config.AAD_LEN) Config.AES_TAG_LEN buffer
      m_ciphertext := field (Config.IV_LEN + Config.AAD_LEN + Config.AES_TAG_LEN)
        ciphertext_len buffer }

def getCounter (message : Generic) : UInt32 := networkValue message.m_aad

/-- The field widths that `AesGcm::encrypt` guarantees. -/
structure WellFormed (message : Generic) : Prop where
  iv : message.m_sealed.m_iv.length = Config.IV_LEN
  aad : message.m_aad.length = Config.AAD_LEN
  tag : message.m_sealed.m_tag.length = Config.AES_TAG_LEN

theorem WellFormed.serialize_length {message : Generic} (h : message.WellFormed) :
    message.serialize.length = getMessageSize message.m_sealed.m_ciphertext.length := by
  simp only [serialize, List.length_append, h.iv, h.aad, h.tag, getMessageSize]

/-- A receiver that asks for more than the ciphertext gets the ciphertext. -/
theorem WellFormed.deserialize_of_le {message : Generic} (h : message.WellFormed)
    {ciphertext_len : Nat} (enough : message.m_sealed.m_ciphertext.length ≤ ciphertext_len) :
    deserialize message.serialize ciphertext_len = message := by
  obtain ⟨aad, iv, tag, ciphertext⟩ := message
  obtain ⟨hiv, haad, htag⟩ := h
  dsimp only at hiv haad htag enough
  simp only [deserialize, serialize, field, Config.IV_LEN, Config.AAD_LEN, Config.AES_TAG_LEN,
    List.drop_zero] at *
  have first : (iv ++ aad ++ tag ++ ciphertext).drop 12 = aad ++ tag ++ ciphertext := by
    rw [List.append_assoc, List.append_assoc, List.drop_left' hiv, List.append_assoc]
  have second : (iv ++ aad ++ tag ++ ciphertext).drop (12 + 4) = tag ++ ciphertext := by
    rw [← List.drop_drop, first, List.append_assoc, List.drop_left' haad]
  have third : (iv ++ aad ++ tag ++ ciphertext).drop (12 + 4 + 16) = ciphertext := by
    rw [← List.drop_drop, second, List.drop_left' htag]
  simp only [first, second, third]
  congr
  · rw [List.append_assoc, List.take_left' haad]
  · rw [List.append_assoc, List.append_assoc, List.take_left' hiv]
  · rw [List.take_left' htag]
  · exact List.take_of_length_le enough

theorem WellFormed.deserialize_serialize {message : Generic} (h : message.WellFormed) :
    deserialize message.serialize message.m_sealed.m_ciphertext.length = message :=
  h.deserialize_of_le (Nat.le_refl _)

@[simp] theorem getCounter_aad (counter : UInt32) (sealed : SealedBytes) :
    getCounter ⟨aad counter, sealed⟩ = counter := networkValue_networkBytes counter

end Generic
end CloudStorage
