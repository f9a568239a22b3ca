import CloudStorage.Session.Operations

/-! The steps that every operation repeats: sealing and sending a plaintext under the
own counter, and receiving, opening and checking one. `some code` or `error code` is
a code with which the calling method returns. -/
namespace CloudStorage
open Interaction Code

namespace Method

/-- `Generic::encrypt`. A length that is negative as an `int` fails in `AesGcm`. -/
def encryptGeneric (plaintext : Bytes) : Method (Option Generic) := do
  if 2 ^ 31 ≤ plaintext.length then return none
  let s ← get
  let aad := Generic.aad s.m_counter
  let some ciphertext ← ssl (.encrypt s.m_session_key aad plaintext) | return none
  return some ⟨aad, ciphertext⟩

def sendGeneric (plaintext : Bytes) : Method (Option Nat) := do
  let some message ← encryptGeneric plaintext | return some Return.ENCRYPTION_FAILURE.val
  let sent ← ask (.send message.serialize)
  if sent = -1 then return some Return.SEND_FAILURE.val
  return none

def sendSimple (message_code : UInt8) : Method (Option Nat) := do
  let filler ← ask (.random (fillerSize 1))
  sendGeneric (SimpleMessage.serialize ⟨message_code⟩ filler)

/-- `Generic::decrypt` and the comparison of the counters. -/
def openGeneric (frame : Generic) : Method (Except Return Bytes) := do
  let s ← get
  let some plaintext ← ssl (.decrypt s.m_session_key frame.m_aad frame.m_sealed)
    | return .error .DECRYPTION_FAILURE
  note (.checked s.m_counter frame.getCounter)
  if s.m_counter ≠ frame.getCounter then return .error .WRONG_COUNTER
  note (.accepted s.m_session_key frame plaintext)
  return .ok plaintext

/-- Only -1 counts as a failed receive here. -/
def receiveGeneric (plaintext_len : Nat) : Method (Except Return Bytes) := do
  let (result, buffer) ← ask (.receive (Generic.getMessageSize plaintext_len))
  if result = -1 then return .error .RECEIVE_FAILURE
  openGeneric (Generic.deserialize buffer plaintext_len)

end Method
end CloudStorage
