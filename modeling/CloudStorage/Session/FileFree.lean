import CloudStorage.Client
import CloudStorage.Interaction.Thrown
import CloudStorage.Server.Steps

/-! The steps of a session that leave the files alone: sealing and opening messages, and
advancing the counter, with a new negotiation where it wraps. -/
namespace CloudStorage
open Interaction Code Method

/-- Calls that touch no file and start no request. -/
def FileFree : Op → Prop
  | .file _ => False
  | .note (.started _) => False
  | _ => True

theorem handshake_fileFree (op : Op) (isHandshake : Handshake op) : FileFree op := by
  cases isHandshake with
  | _ => trivial

namespace Method
variable {α : Type}

theorem confined_onWire {c : Auth octets α} : (Auth.onWire c).Confined FileFree :=
  Confined.mono handshake_fileFree fun _ => translate_handshake _

theorem confined_sendGeneric {plaintext : Bytes} : (sendGeneric plaintext).Confined FileFree :=
  (Server.sendGeneric_keeps plaintext).confined.mono handshake_fileFree

theorem confined_sendSimple {message_code : UInt8} : (sendSimple message_code).Confined FileFree := by
  apply confined_invoke trivial
  intro filler
  exact confined_sendGeneric

theorem confined_cString {array : NameField} {memory : Bytes} :
    (cString array memory).Confined FileFree := by
  apply confined_ite confined_pure
  apply confined_invoke trivial
  intro beyond
  exact confined_pure

theorem confined_openGeneric {frame : Generic} : (openGeneric frame).Confined FileFree := by
  apply confined_get
  intro s
  apply confined_invoke trivial
  intro decrypted
  cases decrypted with
  | none => exact confined_pure
  | some plaintext =>
      apply confined_invoke trivial
      intro _
      apply confined_ite confined_pure
      apply confined_invoke trivial
      intro _
      exact confined_pure

theorem confined_receiveGeneric {plaintext_len : Nat} :
    (receiveGeneric plaintext_len).Confined FileFree := by
  apply confined_invoke trivial
  rintro ⟨result, buffer⟩
  exact confined_ite confined_pure confined_openGeneric

end Method

namespace Server
variable {host : Endian}

theorem confined_authenticate : (authenticate host).Confined FileFree := by
  apply confined_seq confined_onWire
  intro result
  apply confined_ite confined_pure
  apply confined_get
  intro s
  apply confined_invoke trivial
  intro _
  exact confined_pure

theorem confined_incrementCounter : (incrementCounter host).Confined FileFree := by
  apply confined_get
  intro s
  apply confined_ite
  · apply confined_seq confined_authenticate
    intro result
    exact confined_ite confined_throw confined_pure
  · exact confined_modify

theorem confined_awaitCommand : awaitCommand.Confined FileFree := by
  apply confined_invoke trivial
  rintro ⟨result, buffer⟩
  apply confined_ite confined_pure
  apply confined_ite confined_pure
  apply confined_seq confined_openGeneric
  intro received
  cases received with
  | error code => exact confined_ite confined_throw confined_pure
  | ok plaintext => exact confined_pure

theorem confined_dismiss {plaintext : Bytes} : (dismiss plaintext).Confined FileFree := by
  apply confined_seq ((encryptGeneric_keeps plaintext).confined.mono handshake_fileFree)
  intro message
  cases message with
  | none => exact confined_pure
  | some message =>
      apply confined_seq confined_modify
      intro _
      apply confined_invoke trivial
      intro _
      apply confined_invoke trivial
      intro sent
      exact confined_ite confined_pure confined_pure

end Server

namespace Client
variable {host : Endian}

theorem confined_authenticate : (authenticate host).Confined FileFree := by
  apply confined_seq confined_onWire
  intro result
  apply confined_ite confined_pure
  apply confined_get
  intro s
  apply confined_invoke trivial
  intro _
  exact confined_pure

theorem confined_incrementCounter : (incrementCounter host).Confined FileFree := by
  apply confined_get
  intro s
  apply confined_ite
  · apply confined_seq confined_authenticate
    intro result
    exact confined_ite confined_throw confined_pure
  · exact confined_modify

end Client
end CloudStorage
