import CloudStorage.Interaction.Transfer
import CloudStorage.Authentication.Negotiation
import CloudStorage.Messages.Authentication

/-! What the two ends seal while they negotiate, in every run of a negotiation, finished
or not: signatures, and the outcome. -/
namespace CloudStorage
open Interaction Code Negotiation

namespace Sealing

/-- Signatures fill their field. -/
def SignatureFits : (op : AuthOp octets) → op.Ans → Prop
  | .ssl (.generateDS _), signature => List.length signature = ENCRYPTED_SIGNATURE_LEN
  | _, _ => True

/-- Whether the own ephemeral key has been drawn, and whether something is sealed that
has not been sent. -/
structure Record where
  drawn : Bool
  unsent : Bool

def Record.observe (r : Record) : AuthOp octets → Record
  | .ssl .generateEphemeralKey => { r with drawn := true }
  | .ssl (.encrypt _ _ _) => { r with unsent := true }
  | .sendM1 _ | .sendM2 _ | .sendM3 _ | .sendM4 _ | .sendM5 _ => { r with unsent := false }
  | _ => r

/-- What is sealed is sealed under the new key, and of the given form. -/
def Seals (form : Bytes → Bytes → Prop) (r : Record) : AuthOp octets → Prop
  | .ssl (.encrypt _ aad plaintext) => r.drawn = true ∧ form aad plaintext
  | _ => True

@[reducible] def monitor (form : Bytes → Bytes → Prop) : Monitor (AuthOp octets) AuthOp.Ans where
  State := Record
  Legal := fun _ => SignatureFits
  Safe := fun r op _ => Seals form r op
  step := fun r op _ => r.observe op

variable {form : Bytes → Bytes → Prop} {s : Session octets} {r : Record}

theorem wp_call {α : Type} {op : AuthOp octets} {f : op.Ans → Auth octets α}
    {post : α → Session octets → Record → Prop}
    (rest : ∀ answer, SignatureFits op answer → Seals form r op ∧
      (f answer).wp (monitor form) post s (r.observe op)) :
    (invoke op >>= f).wp (monitor form) post s r := by
  refine wp_bind.mpr (wp_invoke.mpr ?_)
  rintro _ rfl answer legal
  exact rest answer legal

/-- Neither the session nor the record has changed. -/
def Unchanged (s : Session octets) (r : Record) {α : Type} (_value : α) (t : Session octets)
    (r' : Record) : Prop :=
  t = s ∧ r' = r

theorem counterDiffers_seals {received : UInt32} :
    (counterDiffers received : Auth octets Bool).wp (monitor form) (Unchanged s r) s r := by
  refine wp_bind.mpr (wp_get.mpr ?_)
  apply wp_call
  intro _ _
  exact ⟨trivial, (wp_pure _).mpr ⟨rfl, rfl⟩⟩

theorem usernameText_seals {m_username : Bytes} :
    (usernameText m_username : Auth octets Bytes).wp (monitor form) (Unchanged s r) s r := by
  refine wp_ite.mpr ⟨fun _ => (wp_pure _).mpr ⟨rfl, rfl⟩, fun _ => ?_⟩
  apply wp_call
  intro _ _
  exact ⟨trivial, (wp_pure _).mpr ⟨rfl, rfl⟩⟩

theorem keyText_seals {array : Bytes} {length : UInt32} :
    (keyText (P := octets) array length).wp (monitor form) (Unchanged s r) s r := by
  rw [keyText]
  refine wp_ite.mpr ⟨fun _ => (wp_pure _).mpr ⟨rfl, rfl⟩, fun _ => ?_⟩
  refine wp_ite.mpr ⟨fun _ => (wp_pure _).mpr ⟨rfl, rfl⟩, fun _ => ?_⟩
  apply wp_call
  intro _ _
  exact ⟨trivial, (wp_pure _).mpr ⟨rfl, rfl⟩⟩

theorem certificateText_seals {array : Bytes} {length : UInt32} :
    (certificateText (P := octets) array length).wp (monitor form) (Unchanged s r) s r := by
  rw [certificateText]
  refine wp_ite.mpr ⟨fun _ => ?_, fun _ => ?_⟩
  · refine wp_ite.mpr ⟨fun _ => (wp_pure _).mpr ⟨rfl, rfl⟩, fun _ => ?_⟩
    apply wp_call
    intro _ _
    refine ⟨trivial, wp_ite.mpr ⟨fun _ => (wp_pure _).mpr ⟨rfl, rfl⟩, fun _ => ?_⟩⟩
    apply wp_call
    intro _ _
    exact ⟨trivial, (wp_pure _).mpr ⟨rfl, rfl⟩⟩
  · refine wp_ite.mpr ⟨fun _ => (wp_pure _).mpr ⟨rfl, rfl⟩, fun _ => ?_⟩
    apply wp_call
    intro _ _
    exact ⟨trivial, (wp_pure _).mpr ⟨rfl, rfl⟩⟩

/-- A success leaves the counter at 0 and nothing unsent. -/
def Resets (code : Nat) (t : Session octets) (r : Record) : Prop :=
  code = Return.AUTHENTICATION_SUCCESS.val → t.m_counter = 0 ∧ r.drawn = true ∧ r.unsent = false

theorem failed {code : Nat} (failure : code ≠ Return.AUTHENTICATION_SUCCESS.val) :
    (pure code : Auth octets Nat).wp (monitor form) Resets s r :=
  (wp_pure _).mpr fun success => absurd success failure

end Sealing

namespace Server
open Sealing
variable {host : Endian} {s : Session octets} {r : Record}

/-- The server seals its signature under counter 0, and the outcome. -/
def Discloses (host : Endian) (aad plaintext : Bytes) : Prop :=
  (aad = host.bytes 0 ∧ plaintext.length = ENCRYPTED_SIGNATURE_LEN) ∨
    plaintext.headD 0 = Result.ACK.byte ∨ plaintext.headD 0 = Result.NACK.byte

theorem finishAuthentication_seals (drawn : r.drawn = true)
    {client_public_key ephemeral_key_buffer : Bytes} :
    (finishAuthentication (P := octets) host client_public_key ephemeral_key_buffer).wp
      (monitor (Discloses host)) Resets s r := by
  apply wp_call
  rintro ⟨result, response⟩ -
  refine ⟨trivial, wp_ite.mpr ⟨fun _ => failed (by decide), fun _ => ?_⟩⟩
  apply wp_seq counterDiffers_seals
  rintro _ s _ ⟨rfl, rfl⟩
  refine wp_ite.mpr ⟨fun _ => failed (by decide), fun _ => ?_⟩
  refine wp_bind.mpr (wp_modify.mpr (wp_bind.mpr (wp_get.mpr ?_)))
  apply wp_call
  intro opened _
  refine ⟨trivial, ?_⟩
  cases opened with
  | none => exact failed (by decide)
  | some client_signature =>
  apply wp_call
  intro verified _
  refine ⟨trivial, ?_⟩
  apply wp_call
  intro filler _
  refine ⟨trivial, wp_bind.mpr (wp_get.mpr ?_)⟩
  apply wp_call
  intro closed _
  constructor
  · refine ⟨drawn, .inr ?_⟩
    cases verified with
    | true => exact .inl rfl
    | false => exact .inr rfl
  cases closed with
  | none => exact failed (by decide)
  | some ciphertext =>
  apply wp_call
  intro sent _
  refine ⟨trivial, wp_ite.mpr ⟨fun _ => failed (by decide), fun _ => ?_⟩⟩
  refine wp_bind.mpr (wp_modify.mpr (wp_ite.mpr ⟨fun _ => ?_, fun _ => failed (by decide)⟩))
  exact (wp_pure _).mpr fun _ => ⟨rfl, drawn, rfl⟩

theorem answerAuthentication_seals {request : AuthenticationM1 octets} {client_public_key : Bytes} :
    (answerAuthentication (P := octets) host request client_public_key).wp
      (monitor (Discloses host)) Resets s r := by
  apply wp_call
  intro own _
  refine ⟨trivial, ?_⟩
  apply wp_seq keyText_seals
  rintro text s _ ⟨rfl, rfl⟩
  cases text with
  | none => exact failed (by decide)
  | some client_key_text =>
  apply wp_call
  intro element _
  refine ⟨trivial, ?_⟩
  cases element with
  | none => exact failed (by decide)
  | some client_ephemeral_key =>
  apply wp_call
  intro secret _
  refine ⟨trivial, ?_⟩
  cases secret with
  | none => exact failed (by decide)
  | some shared_secret =>
  apply wp_call
  intro session_key _
  refine ⟨trivial, wp_bind.mpr (wp_modify.mpr ?_)⟩
  apply wp_call
  intro text _
  refine ⟨trivial, ?_⟩
  cases text with
  | none => exact failed (by decide)
  | some server_key_text =>
  apply wp_call
  intro loaded _
  refine ⟨trivial, wp_ite.mpr ⟨fun _ => failed (by decide), fun _ => ?_⟩⟩
  apply wp_call
  intro digital_signature fits
  refine ⟨trivial, wp_bind.mpr (wp_modify.mpr ?_)⟩
  apply wp_call
  intro closed _
  refine ⟨⟨rfl, .inl ⟨rfl, fits⟩⟩, ?_⟩
  cases closed with
  | none => exact failed (by decide)
  | some ciphertext =>
  apply wp_call
  intro certificate _
  refine ⟨trivial, ?_⟩
  apply wp_call
  intro sent _
  refine ⟨trivial, wp_ite.mpr ⟨fun _ => failed (by decide), fun _ => ?_⟩⟩
  exact wp_bind.mpr (wp_modify.mpr (finishAuthentication_seals rfl))

theorem authenticationRequest_seals :
    (authenticationRequest (P := octets) host).wp (monitor (Discloses host)) Resets s r := by
  apply wp_call
  rintro ⟨result, request⟩ -
  refine ⟨trivial, wp_ite.mpr ⟨fun _ => failed (by decide), fun _ => ?_⟩⟩
  apply wp_seq usernameText_seals
  rintro username s _ ⟨rfl, rfl⟩
  apply wp_call
  intro file _
  refine ⟨trivial, ?_⟩
  cases file with
  | missing => exact failed (by decide)
  | unreadable =>
      refine wp_bind.mpr (wp_modify.mpr ?_)
      apply wp_call
      intro sent _
      refine ⟨trivial, wp_ite.mpr ?_⟩
      exact ⟨fun _ => failed (by decide), fun _ => failed (by decide)⟩
  | key client_public_key =>
      refine wp_bind.mpr (wp_modify.mpr ?_)
      apply wp_call
      intro sent _
      refine ⟨trivial, wp_ite.mpr ⟨fun _ => failed (by decide), fun _ => ?_⟩⟩
      exact answerAuthentication_seals

end Server

namespace Client
open Sealing
variable {host : Endian} {s : Session octets} {r : Record}

/-- The client seals its signature. -/
def Discloses (_aad plaintext : Bytes) : Prop := plaintext.length = ENCRYPTED_SIGNATURE_LEN

theorem finishAuthentication_seals (drawn : r.drawn = true) (sent : r.unsent = false) :
    (finishAuthentication (P := octets)).wp (monitor Discloses) Resets s r := by
  apply wp_call
  rintro ⟨result, message⟩ -
  refine ⟨trivial, wp_ite.mpr ⟨fun _ => failed (by decide), fun _ => ?_⟩⟩
  refine wp_bind.mpr (wp_get.mpr ?_)
  apply wp_call
  intro opened _
  refine ⟨trivial, ?_⟩
  cases opened with
  | none => exact failed (by decide)
  | some plaintext =>
  apply wp_seq counterDiffers_seals
  rintro _ s _ ⟨rfl, rfl⟩
  refine wp_ite.mpr ⟨fun _ => wp_throw.mpr trivial, fun _ => ?_⟩
  refine wp_ite.mpr ⟨fun _ => failed (by decide), fun _ => ?_⟩
  exact wp_bind.mpr (wp_modify.mpr ((wp_pure _).mpr fun _ => ⟨rfl, drawn, sent⟩))

theorem answerAuthentication_seals (drawn : r.drawn = true) {exponent client_key_text : Bytes}
    {offer : AuthenticationM3 octets} :
    (answerAuthentication (P := octets) host exponent client_key_text offer).wp (monitor Discloses)
      Resets s r := by
  refine wp_bind.mpr (wp_modify.mpr (wp_seq counterDiffers_seals ?_))
  rintro _ s _ ⟨rfl, rfl⟩
  refine wp_ite.mpr ⟨fun _ => failed (by decide), fun _ => ?_⟩
  refine wp_bind.mpr (wp_modify.mpr (wp_seq keyText_seals ?_))
  rintro text s _ ⟨rfl, rfl⟩
  cases text with
  | none => exact failed (by decide)
  | some server_key_text =>
  apply wp_call
  intro element _
  refine ⟨trivial, ?_⟩
  cases element with
  | none => exact failed (by decide)
  | some server_ephemeral_key =>
  apply wp_call
  intro secret _
  refine ⟨trivial, ?_⟩
  cases secret with
  | none => exact failed (by decide)
  | some shared_secret =>
  apply wp_call
  intro session_key _
  refine ⟨trivial, wp_bind.mpr (wp_modify.mpr ?_)⟩
  apply wp_call
  intro opened _
  refine ⟨trivial, ?_⟩
  cases opened with
  | none => exact failed (by decide)
  | some decrypted_signature =>
  apply wp_call
  intro digital_signature fits
  refine ⟨trivial, wp_seq certificateText_seals ?_⟩
  rintro certificate_text s _ ⟨rfl, rfl⟩
  apply wp_call
  intro parsed _
  refine ⟨trivial, ?_⟩
  cases parsed with
  | none => exact failed (by decide)
  | some server_certificate =>
  apply wp_call
  intro trusted _
  refine ⟨trivial, wp_ite.mpr ⟨fun _ => failed (by decide), fun _ => ?_⟩⟩
  apply wp_call
  intro server_public_key _
  refine ⟨trivial, ?_⟩
  apply wp_call
  intro verified _
  refine ⟨trivial, wp_ite.mpr ⟨fun _ => failed (by decide), fun _ => ?_⟩⟩
  refine wp_bind.mpr (wp_get.mpr ?_)
  apply wp_call
  intro closed _
  refine ⟨⟨drawn, fits⟩, ?_⟩
  cases closed with
  | none => exact failed (by decide)
  | some ciphertext =>
  apply wp_call
  intro sent _
  refine ⟨trivial, wp_ite.mpr ⟨fun _ => failed (by decide), fun _ => ?_⟩⟩
  exact wp_bind.mpr (wp_modify.mpr (finishAuthentication_seals drawn rfl))

theorem authenticationRequest_seals :
    (authenticationRequest (P := octets) host).wp (monitor Discloses) Resets s r := by
  apply wp_call
  intro exponent _
  refine ⟨trivial, ?_⟩
  apply wp_call
  intro text _
  refine ⟨trivial, ?_⟩
  cases text with
  | none => exact failed (by decide)
  | some client_key_text =>
  refine wp_bind.mpr (wp_get.mpr ?_)
  apply wp_call
  intro sent _
  refine ⟨trivial, wp_ite.mpr ⟨fun _ => failed (by decide), fun _ => ?_⟩⟩
  apply wp_call
  rintro ⟨result, simpleMessage⟩ -
  refine ⟨trivial, wp_ite.mpr ⟨fun _ => failed (by decide), fun _ => ?_⟩⟩
  refine wp_ite.mpr ⟨fun _ => failed (by decide), fun _ => ?_⟩
  apply wp_call
  rintro ⟨result, offer⟩ -
  refine ⟨trivial, wp_ite.mpr ⟨fun _ => failed (by decide), fun _ => ?_⟩⟩
  exact answerAuthentication_seals rfl

end Client
end CloudStorage
