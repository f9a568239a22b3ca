import CloudStorage.Authentication.Negotiation
import CloudStorage.Interaction.Returns

/-! What a negotiation that ends in success has done: its events, in order. -/
namespace CloudStorage
open Interaction Code Negotiation

namespace Negotiation
variable {P : Primitives} {s t : Session P} {trace : List (Event (AuthOp P) AuthOp.Ans)}

/-- Reading the username calls at most for bytes behind the array. -/
theorem usernameText_returns {m_username username : Bytes}
    (run : (usernameText m_username : Auth P Bytes).Returns s trace username t) :
    t = s ∧ (trace = [] ∨ ∃ beyond, trace = [⟨.stray, beyond⟩]) := by
  simp only [usernameText] at run
  split at run
  · obtain ⟨rfl, -, rfl⟩ := returns_pure.mp run
    exact ⟨rfl, .inl rfl⟩
  · obtain ⟨beyond, rest, rfl, next⟩ := returns_invoke_bind.mp run
    obtain ⟨rfl, -, rfl⟩ := returns_pure.mp next
    exact ⟨rfl, .inr ⟨beyond, rfl⟩⟩

/-- So does reading a key. -/
theorem keyText_returns {array : List P.Symbol} {length : UInt32} {text : Option (List P.Symbol)}
    (run : (keyText array length).Returns s trace text t) :
    t = s ∧ (trace = [] ∨ ∃ size beyond, trace = [⟨.overread size, beyond⟩]) := by
  simp only [keyText] at run
  split at run
  · obtain ⟨rfl, -, rfl⟩ := returns_pure.mp run
    exact ⟨rfl, .inl rfl⟩
  · split at run
    · obtain ⟨rfl, -, rfl⟩ := returns_pure.mp run
      exact ⟨rfl, .inl rfl⟩
    · obtain ⟨beyond, rest, rfl, next⟩ := returns_invoke_bind.mp run
      obtain ⟨rfl, -, rfl⟩ := returns_pure.mp next
      exact ⟨rfl, .inr ⟨_, beyond, rfl⟩⟩

theorem counterDiffers_returns {received : UInt32} {differs : Bool}
    (run : (counterDiffers received : Auth P Bool).Returns s trace differs t) :
    trace = [⟨.checked s.m_counter received, ()⟩] ∧ differs = decide (received ≠ s.m_counter) ∧
      t = s := by
  obtain ⟨_, rest, rfl, next⟩ := returns_invoke_bind.mp (returns_get_bind.mp run)
  obtain ⟨rfl, rfl, rfl⟩ := returns_pure.mp next
  exact ⟨rfl, rfl, rfl⟩

end Negotiation

namespace Server
variable {P : Primitives} {host : Endian} {s t : Session P}
  {trace : List (Event (AuthOp P) AuthOp.Ans)}

/-- M4 and M5: the proof of the client and the answer to it. -/
structure Closing (P : Primitives) where
  response : AuthenticationM4 P
  client_signature : P.Data
  filler : Bytes
  sealed_outcome : P.Sealed
  sent : Int

def Closing.events (host : Endian) (d : Closing P) (client_public_key : P.PublicKey)
    (buffer : List P.Symbol) (s : Session P) : List (Event (AuthOp P) AuthOp.Ans) :=
  [⟨.receiveM4, (0, d.response)⟩,
    ⟨.checked s.m_counter (host.value d.response.m_aad), ()⟩,
    ⟨.ssl (.decrypt s.m_session_key d.response.m_aad d.response.m_sealed),
      some d.client_signature⟩,
    ⟨.ssl (.isDSverified buffer d.client_signature client_public_key), true⟩,
    ⟨.random (Config.MAX_PACKET_SIZE - 1), d.filler⟩,
    ⟨.ssl (.encrypt s.m_session_key (networkBytes (s.m_counter + 1))
      (P.ofBytes (Result.ACK.byte :: d.filler))), some d.sealed_outcome⟩,
    ⟨.sendM5 ⟨networkBytes (s.m_counter + 1), d.sealed_outcome⟩, d.sent⟩]

/-- The key agreement up to M3. -/
structure Agreement (P : Primitives) where
  exponent : P.Exponent
  client_key_text : List P.Symbol
  client_ephemeral_key : P.Element
  shared_secret : P.Secret
  session_key : P.Key
  server_key_text : List P.Symbol
  digital_signature : P.Data
  sealed_signature : P.Sealed
  certificate : List P.Symbol

/-- Both ephemeral keys, as they are signed. -/
def Agreement.buffer (d : Agreement P) : List P.Symbol := d.client_key_text ++ d.server_key_text

/-- `read` are calls for bytes behind the array of the client's key. -/
def Agreement.events (host : Endian) (d : Agreement P)
    (read : List (Event (AuthOp P) AuthOp.Ans)) : List (Event (AuthOp P) AuthOp.Ans) :=
  ⟨.ssl .generateEphemeralKey, d.exponent⟩ :: read ++
  [⟨.ssl (.deserializeEphemeralKey d.client_key_text), some d.client_ephemeral_key⟩,
    ⟨.ssl (.deriveSharedSecret d.exponent d.client_ephemeral_key), some d.shared_secret⟩,
    ⟨.ssl (.generateSHA256 d.shared_secret), d.session_key⟩,
    ⟨.ssl (.serializeEphemeralKey d.exponent), some d.server_key_text⟩,
    ⟨.ssl .readPrivateKey, true⟩,
    ⟨.ssl (.generateDS d.buffer), d.digital_signature⟩,
    ⟨.ssl (.encrypt d.session_key (host.bytes 0) d.digital_signature),
      some d.sealed_signature⟩,
    ⟨.ssl .loadCertificate, d.certificate⟩,
    ⟨.sendM3 (.ofParts d.server_key_text (host.bytes 0) d.sealed_signature d.certificate), 0⟩]

/-- A negotiation of the server that ended in success. -/
structure Transcript (P : Primitives) extends Agreement P, Closing P where
  request : AuthenticationM1 P
  username : Bytes
  client_public_key : P.PublicKey
  acknowledged : Int

/-- `named` are calls for bytes behind the username. -/
def Transcript.events (host : Endian) (d : Transcript P)
    (named read : List (Event (AuthOp P) AuthOp.Ans)) : List (Event (AuthOp P) AuthOp.Ans) :=
  ⟨.receiveM1, (0, d.request)⟩ :: named ++
    [⟨.ssl (.readPublicKey (publicKeyFile d.username)), .key d.client_public_key⟩,
      ⟨.sendM2 Result.ACK.byte, d.acknowledged⟩] ++
    d.toAgreement.events host read ++
    d.toClosing.events host d.client_public_key d.buffer ⟨d.username, 1, d.session_key⟩

theorem finishAuthentication_success {pk : P.PublicKey} {buffer : List P.Symbol}
    (run : (finishAuthentication host pk buffer).Returns s trace
      Return.AUTHENTICATION_SUCCESS.val t) :
    ∃ d : Closing P, trace = d.events host pk buffer s ∧
      host.value d.response.m_aad = s.m_counter ∧ t = { s with m_counter := 0 } := by
  replace run := returns_invoke_bind.mp run
  obtain ⟨⟨result, response⟩, trace, rfl, run⟩ := run
  rcases returns_ite.mp run with ⟨-, failed⟩ | ⟨received, next⟩
  · exact absurd (returns_pure.mp failed).2.1 (by decide)
  obtain rfl : result = 0 := not_not.mp received
  replace run := returns_bind.mp next
  obtain ⟨_, differs, s, trace, rfl, checked, run⟩ := run
  obtain ⟨rfl, rfl, rfl⟩ := counterDiffers_returns checked
  rcases returns_ite.mp run with ⟨-, failed⟩ | ⟨counters, next⟩
  · exact absurd (returns_pure.mp failed).2.1 (by decide)
  replace run := returns_invoke_bind.mp (returns_get_bind.mp (returns_modify_bind.mp next))
  obtain ⟨opened, trace, rfl, run⟩ := run
  cases opened with
  | none => exact absurd (returns_pure.mp run).2.1 (by decide)
  | some client_signature =>
  replace run := returns_invoke_bind.mp run
  obtain ⟨verified, trace, rfl, run⟩ := run
  replace run := returns_invoke_bind.mp run
  obtain ⟨filler, trace, rfl, run⟩ := run
  replace run := returns_invoke_bind.mp (returns_get_bind.mp run)
  obtain ⟨closed, trace, rfl, run⟩ := run
  cases closed with
  | none => exact absurd (returns_pure.mp run).2.1 (by decide)
  | some sealed_outcome =>
  replace run := returns_invoke_bind.mp run
  obtain ⟨sent, trace, rfl, run⟩ := run
  rcases returns_ite.mp run with ⟨-, failed⟩ | ⟨-, next⟩
  · exact absurd (returns_pure.mp failed).2.1 (by decide)
  replace run := returns_modify_bind.mp next
  rcases returns_ite.mp run with ⟨rfl, next⟩ | ⟨-, failed⟩
  · obtain ⟨rfl, -, rfl⟩ := returns_pure.mp next
    refine ⟨⟨response, client_signature, filler, sealed_outcome, sent⟩, rfl, ?_, rfl⟩
    simpa using counters
  · exact absurd (returns_pure.mp failed).2.1 (by decide)

theorem answerAuthentication_success {request : AuthenticationM1 P} {pk : P.PublicKey}
    (run : (answerAuthentication host request pk).Returns s trace
      Return.AUTHENTICATION_SUCCESS.val t) :
    ∃ (d : Agreement P) (c : Closing P) (read : List (Event (AuthOp P) AuthOp.Ans)),
      trace = d.events host read ++ c.events host pk d.buffer ⟨s.m_username, 1, d.session_key⟩ ∧
      (keyText request.m_ephemeral_key request.m_ephemeral_key_len).Returns s read
        (some d.client_key_text) s ∧
      host.value c.response.m_aad = 1 ∧ t = ⟨s.m_username, 0, d.session_key⟩ := by
  replace run := returns_invoke_bind.mp run
  obtain ⟨exponent, trace, rfl, run⟩ := run
  replace run := returns_bind.mp run
  obtain ⟨read, text, s, trace, rfl, reading, run⟩ := run
  obtain ⟨rfl, -⟩ := keyText_returns reading
  cases text with
  | none => exact absurd (returns_pure.mp run).2.1 (by decide)
  | some client_key_text =>
  replace run := returns_invoke_bind.mp run
  obtain ⟨element, trace, rfl, run⟩ := run
  cases element with
  | none => exact absurd (returns_pure.mp run).2.1 (by decide)
  | some client_ephemeral_key =>
  replace run := returns_invoke_bind.mp run
  obtain ⟨secret, trace, rfl, run⟩ := run
  cases secret with
  | none => exact absurd (returns_pure.mp run).2.1 (by decide)
  | some shared_secret =>
  replace run := returns_invoke_bind.mp run
  obtain ⟨session_key, trace, rfl, run⟩ := run
  replace run := returns_invoke_bind.mp (returns_modify_bind.mp run)
  obtain ⟨text, trace, rfl, run⟩ := run
  cases text with
  | none => exact absurd (returns_pure.mp run).2.1 (by decide)
  | some server_key_text =>
  replace run := returns_invoke_bind.mp run
  obtain ⟨loaded, trace, rfl, run⟩ := run
  rcases returns_ite.mp run with ⟨-, failed⟩ | ⟨loads, next⟩
  · exact absurd (returns_pure.mp failed).2.1 (by decide)
  obtain rfl : loaded = true := not_not.mp loads
  replace run := returns_invoke_bind.mp next
  obtain ⟨digital_signature, trace, rfl, run⟩ := run
  replace run := returns_invoke_bind.mp (returns_modify_bind.mp run)
  obtain ⟨closed, trace, rfl, run⟩ := run
  cases closed with
  | none => exact absurd (returns_pure.mp run).2.1 (by decide)
  | some sealed_signature =>
  replace run := returns_invoke_bind.mp run
  obtain ⟨certificate, trace, rfl, run⟩ := run
  replace run := returns_invoke_bind.mp run
  obtain ⟨sent, trace, rfl, run⟩ := run
  rcases returns_ite.mp run with ⟨-, failed⟩ | ⟨whole, last⟩
  · exact absurd (returns_pure.mp failed).2.1 (by decide)
  obtain rfl : sent = 0 := not_not.mp whole
  replace run := returns_modify_bind.mp last
  obtain ⟨closing, rfl, counter, rfl⟩ := finishAuthentication_success run
  refine ⟨⟨exponent, client_key_text, client_ephemeral_key, shared_secret, session_key,
    server_key_text, digital_signature, sealed_signature, certificate⟩, closing, read, ?_, reading,
    counter, rfl⟩
  simp only [Agreement.events, List.cons_append, List.append_assoc, List.nil_append]
  rfl

/-- A success has this transcript, and the session it leaves holds the username of M1
and the new key. -/
theorem authenticationRequest_success
    (run : (authenticationRequest host).Returns s trace Return.AUTHENTICATION_SUCCESS.val t) :
    ∃ (d : Transcript P) (named read : List (Event (AuthOp P) AuthOp.Ans)),
      trace = d.events host named read ∧
      (usernameText d.request.m_username).Returns s named d.username s ∧
      (keyText d.request.m_ephemeral_key d.request.m_ephemeral_key_len).Returns
        { s with m_username := d.username } read (some d.client_key_text)
        { s with m_username := d.username } ∧
      host.value d.response.m_aad = 1 ∧ t = ⟨d.username, 0, d.session_key⟩ := by
  replace run := returns_invoke_bind.mp run
  obtain ⟨⟨result, request⟩, trace, rfl, run⟩ := run
  rcases returns_ite.mp run with ⟨-, failed⟩ | ⟨received, next⟩
  · exact absurd (returns_pure.mp failed).2.1 (by decide)
  obtain rfl : result = 0 := not_not.mp received
  replace run := returns_bind.mp next
  obtain ⟨named, username, s, trace, rfl, naming, run⟩ := run
  obtain ⟨rfl, -⟩ := usernameText_returns naming
  replace run := returns_invoke_bind.mp run
  obtain ⟨file, trace, rfl, run⟩ := run
  cases file with
  | missing => exact absurd (returns_pure.mp run).2.1 (by decide)
  | unreadable =>
      replace run := returns_invoke_bind.mp (returns_modify_bind.mp run)
      obtain ⟨sent, trace, rfl, run⟩ := run
      rcases returns_ite.mp run with ⟨-, failed⟩ | ⟨-, failed⟩
      · exact absurd (returns_pure.mp failed).2.1 (by decide)
      · exact absurd (returns_pure.mp failed).2.1 (by decide)
  | key client_public_key =>
      replace run := returns_invoke_bind.mp (returns_modify_bind.mp run)
      obtain ⟨sent, trace, rfl, run⟩ := run
      rcases returns_ite.mp run with ⟨-, failed⟩ | ⟨-, next⟩
      · exact absurd (returns_pure.mp failed).2.1 (by decide)
      obtain ⟨agreement, closing, read, rfl, reading, counter, rfl⟩ :=
        answerAuthentication_success next
      refine ⟨⟨agreement, closing, request, username, client_public_key, sent⟩, named, read, ?_,
        naming, reading, counter, rfl⟩
      simp only [Transcript.events, List.cons_append, List.append_assoc, List.nil_append]

end Server
end CloudStorage
