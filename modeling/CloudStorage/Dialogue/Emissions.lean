import CloudStorage.Interaction.Returns
import CloudStorage.Session.Exchange

/-! What a party puts on the network under its keys, and what is asked of OpenSSL and of
the session key of an epoch: the time from an authentication to the next one or to the
logout. -/
namespace CloudStorage
open Interaction

/-- What was sealed and then sent. -/
structure Emission where
  key : Bytes
  aad : Bytes
  plaintext : Bytes
  box : SealedBytes
  deriving DecidableEq

namespace Emission

def counter (e : Emission) : Nat := (networkValue e.aad).toNat

/-- `m_message_code` -/
def code (e : Emission) : UInt8 := e.plaintext.headD 0

/-- What is sent of the text. -/
def size (e : Emission) : Nat := e.box.m_ciphertext.length

/-- A text that a session seals. -/
def under (s : Session octets) (plaintext : Bytes) (box : SealedBytes) : Emission :=
  ⟨s.m_session_key, Generic.aad s.m_counter, plaintext, box⟩

@[simp] theorem under_counter (s : Session octets) (plaintext : Bytes) (box : SealedBytes) :
    (under s plaintext box).counter = s.m_counter.toNat :=
  congrArg UInt32.toNat (networkValue_networkBytes s.m_counter)

end Emission

/-- Only the last counter has no successor. -/
theorem counter_succ {counter : UInt32} (more : counter ≠ Config.MAX_COUNTER_VALUE) :
    (counter + 1).toNat = counter.toNat + 1 := by
  have bound := counter.toNat_lt
  have differs : counter.toNat ≠ 4294967295 := fun last => more (UInt32.toNat_inj.mp last)
  rw [UInt32.toNat_add]
  exact Nat.mod_eq_of_lt (by simp; omega)

/-- What was sealed last and is not sent yet, and what was sent, latest first. -/
structure Outbox where
  pending : Option Emission
  sent : List Emission

namespace Outbox

def start : Outbox := ⟨none, []⟩

/-- A send that fails has sent nothing. -/
def observe (g : Outbox) : (op : Op) → op.Ans → Outbox
  | .ssl (.encrypt key aad plaintext), answer =>
      { g with pending := answer.map fun box => ⟨key, aad, plaintext, box⟩ }
  | .send _, result => ⟨none, if result = -1 then g.sent else g.pending.toList ++ g.sent⟩
  | _, _ => g

end Outbox

/-- All that a party has sent sealed. -/
def emitted (trace : List (Event Op Op.Ans)) : List Emission :=
  ((Monitor.recording Outbox Outbox.observe).after .start trace).sent

/-- AES-GCM keeps the length of a text, and a signature fills its field. -/
def KeepsLength : (op : Op) → op.Ans → Prop
  | .ssl (.encrypt _ _ plaintext), answer =>
      ∀ box ∈ answer, box.m_ciphertext.length = plaintext.length
  | .ssl (.generateDS _), signature => List.length signature = ENCRYPTED_SIGNATURE_LEN
  | _, _ => True

/-- What opens under the key is of the given kind. -/
def OpensOnly (key : Bytes) (known : Emission → Prop) : (op : Op) → op.Ans → Prop
  | .ssl (.decrypt other aad box), answer =>
      ∀ plaintext ∈ answer, other = key → known ⟨key, aad, plaintext, box⟩
  | _, _ => True

end CloudStorage
