import CloudStorage.Authentication.Adversary

/-! What an honest end has done before it sends: the reasons for its messages, read off
every run of its program, finished or not. -/
namespace CloudStorage
namespace Symbolic
open Interaction Code Negotiation

/-- The symbols that a declared length takes out of an array, and what lies behind it. -/
def Takes (array : List Symbol) (length : UInt32) (symbols : List Symbol) : Prop :=
  ∃ beyond, symbols = array.take length.toNat ++ beyond ∧
    (length.toNat ≤ array.length → beyond = [])

/-- Both ephemeral keys of an exchange under one of them: the own exponent, the text of
the other key and what is read from it. -/
structure Exchange where
  own : Exponent
  received : List Symbol
  peer : Element

namespace Exchange

def sessionKey (x : Exchange) : Key := .digest (x.own ::ₘ x.peer)

/-- Client and server sign the key of the client first. -/
def clientText (x : Exchange) : List Symbol := publicText {x.own} ++ x.received

def serverText (x : Exchange) : List Symbol := x.received ++ publicText {x.own}

/-- It has been gone through, up to the signature over the text. -/
structure Signed (x : Exchange) (signed : List Symbol) (past : List Occurrence) : Prop where
  drawn : ⟨.ssl .generateEphemeralKey, x.own⟩ ∈ past
  received : ⟨.ssl (.deserializeEphemeralKey x.received), some x.peer⟩ ∈ past
  read : readKey x.received = some x.peer
  derived : ⟨.ssl (.generateSHA256 (x.own ::ₘ x.peer)), x.sessionKey⟩ ∈ past
  signed : ∃ signature, ⟨.ssl (.generateDS signed), signature⟩ ∈ past

theorem Signed.mono {x : Exchange} {signed : List Symbol} {past later : List Occurrence}
    (h : x.Signed signed past) (grows : past ⊆ later) : x.Signed signed later := by
  obtain ⟨signature, signs⟩ := h.signed
  exact ⟨grows h.drawn, grows h.received, h.read, grows h.derived, ⟨signature, grows signs⟩⟩

/-- M3. -/
def offer (x : Exchange) : AuthenticationM3 symbolic :=
  .ofParts (publicText {x.own}) (networkBytes 0)
    (.box x.sessionKey (networkBytes 0) (.signature .server x.serverText))
    (certificateText ⟨true, .server⟩)

/-- M4. -/
def response (x : Exchange) (host : Endian) (name : Bytes) : AuthenticationM4 symbolic :=
  ⟨host.bytes 1, .box x.sessionKey (host.bytes 1) (.signature (.user name) x.clientText)⟩

end Exchange

/-- The text of a certificate with this declared length. A negative length makes the array
a C string. -/
def TakesCertificate (array : List Symbol) (length : UInt32) (symbols : List Symbol) : Prop :=
  (length.toNat < 2 ^ 31 ∧ Takes array length symbols) ∨
    (2 ^ 31 ≤ length.toNat ∧
      ∃ beyond, symbols = (array ++ beyond).takeWhile (!symbolic.terminates ·))

/-- What a client has found right before it answers M3: the message, the exchange and the
certificate that it read from the message. -/
structure Accepted (host : Endian) (message : AuthenticationM3 symbolic) (x : Exchange)
    (certificate : Certificate) (past : List Occurrence) : Prop where
  received : ⟨.receiveM3, (0, message)⟩ ∈ past
  taken : Takes message.m_ephemeral_key message.m_ephemeral_key_len x.received
  signed : x.Signed x.clientText past
  counter : host.value message.m_aad = 0
  opened : message.m_sealed =
    .box x.sessionKey message.m_aad (.signature certificate.subject x.clientText)
  presented : ∃ symbols, TakesCertificate message.m_serialized_certificate
    message.m_serialized_certificate_len symbols ∧ readCertificate symbols = some certificate
  trusted : certificate.issued = true

theorem Accepted.mono {host : Endian} {message : AuthenticationM3 symbolic} {x : Exchange}
    {certificate : Certificate} {past later : List Occurrence}
    (h : Accepted host message x certificate past) (grows : past ⊆ later) :
    Accepted host message x certificate later :=
  { h with received := grows h.received, signed := h.signed.mono grows }

/-- No M4 has been sent in between. -/
structure Quiet (past later : List Occurrence) : Prop where
  grows : past ⊆ later
  quiet : ∀ message answer, ⟨.sendM4 message, answer⟩ ∈ later →
    (⟨.sendM4 message, answer⟩ : Occurrence) ∈ past

theorem Quiet.refl {past : List Occurrence} : Quiet past past := ⟨fun _ => id, fun _ _ => id⟩

theorem Quiet.cons {past later : List Occurrence} (h : Quiet past later) {e : Occurrence}
    (other : ∀ message answer, e ≠ ⟨.sendM4 message, answer⟩) : Quiet past (e :: later) where
  grows := fun _ member => List.mem_cons_of_mem _ (h.grows member)
  quiet := by
    intro message answer member
    rcases List.mem_cons.mp member with same | before
    · exact absurd same.symm (other message answer)
    · exact h.quiet message answer before

/-- Why a participant makes a call. -/
def Participant.Because (p : Participant) (past : List Occurrence) :
    (op : AuthOp symbolic) → op.Ans → Prop
  | .ssl (.generateSHA256 secret), _ =>
      ∃ own peer, ⟨.ssl .generateEphemeralKey, own⟩ ∈ past ∧ secret = own ::ₘ peer
  | .sendM1 message, _ => ∃ own name, ⟨.ssl .generateEphemeralKey, own⟩ ∈ past ∧
      p.agent = .user name ∧ message = .ofKey (publicText {own}) name
  | .sendM3 message, _ => ∃ x : Exchange, p.agent = .server ∧ x.Signed x.serverText past ∧
      message = x.offer
  | .sendM4 message, _ => ∃ (offer : AuthenticationM3 symbolic) (x : Exchange)
      (certificate : Certificate) (name : Bytes), p.agent = .user name ∧
      Accepted p.host offer x certificate past ∧ message = x.response p.host name ∧
      ∀ other answer, (⟨.sendM4 other, answer⟩ : Occurrence) ∉ past
  | .sendM5 message, _ => ∃ secret key plaintext, ⟨.ssl (.generateSHA256 secret), key⟩ ∈ past ∧
      message.m_sealed = .box key message.m_aad (.bytes plaintext)
  | _, _ => True

section Reading
variable {w : Setting} {p : Participant} {past : List Occurrence}

abbrev reasons (w : Setting) (p : Participant) : Monitor (AuthOp symbolic) AuthOp.Ans :=
  .history (w.Ideal p.agent) p.Because

theorem wp_keyText {array : List Symbol} {length : UInt32} {s : Session symbolic} :
    (Negotiation.keyText (P := symbolic) array length).wp (reasons w p)
      (fun text t later => t = s ∧ Quiet past later ∧
        ∀ symbols ∈ text, Takes array length symbols) s past := by
  rw [Negotiation.keyText]
  refine wp_ite.mpr ⟨fun _ => (wp_pure _).mpr ⟨rfl, .refl, nofun⟩, fun _ => ?_⟩
  refine wp_ite.mpr ⟨fun fits => (wp_pure _).mpr ⟨rfl, .refl, ?_⟩, fun short => ?_⟩
  · intro symbols taken
    obtain rfl := Option.some.inj taken
    exact ⟨[], (List.append_nil _).symm, fun _ => rfl⟩
  · apply wp_history_call
    intro beyond legal
    refine ⟨trivial, (wp_pure _).mpr ⟨rfl, Quiet.refl.cons nofun, ?_⟩⟩
    intro symbols taken
    obtain rfl := Option.some.inj taken
    refine ⟨beyond, ?_, fun fits => absurd fits short⟩
    rw [List.take_of_length_le (by omega)]

theorem wp_usernameText {m_username : Bytes} {s : Session symbolic} :
    (usernameText m_username : Auth symbolic Bytes).wp (reasons w p) (fun _ _ _ => True)
      s past := by
  refine wp_ite.mpr ⟨fun _ => (wp_pure _).mpr trivial, fun _ => ?_⟩
  apply wp_history_call
  intro beyond _
  exact ⟨trivial, (wp_pure _).mpr trivial⟩

theorem wp_counterDiffers {received : UInt32} {s : Session symbolic} :
    (counterDiffers received : Auth symbolic Bool).wp (reasons w p)
      (fun differs t later => t = s ∧ Quiet past later ∧ differs = decide (received ≠ s.m_counter))
      s past := by
  refine wp_bind.mpr (wp_get.mpr ?_)
  apply wp_history_call
  intro answer legal
  exact ⟨trivial, (wp_pure _).mpr ⟨rfl, Quiet.refl.cons nofun, rfl⟩⟩

end Reading

theorem bytes_zero (host : Endian) : host.bytes 0 = networkBytes 0 := by
  cases host <;> rfl

section Server
variable {w : Setting} {p : Participant} {past : List Occurrence}

/-- After M3: the outcome is sealed under the key of the exchange. -/
theorem finishAuthentication_reasons {pk : Agent} {buffer : List Symbol} {s : Session symbolic}
    (secret : Element) (derived : ⟨.ssl (.generateSHA256 secret), s.m_session_key⟩ ∈ past) :
    (Server.finishAuthentication (P := symbolic) p.host pk buffer).wp (reasons w p)
      (fun _ _ _ => True) s past := by
  apply wp_history_call
  rintro ⟨result, response⟩ -
  refine ⟨trivial, wp_ite.mpr ⟨fun _ => (wp_pure _).mpr trivial, fun _ => ?_⟩⟩
  apply wp_seq wp_counterDiffers
  rintro _ s later ⟨rfl, grows, rfl⟩
  change List Occurrence at later
  refine wp_ite.mpr ⟨fun _ => (wp_pure _).mpr trivial, fun _ => ?_⟩
  refine wp_bind.mpr (wp_modify.mpr (wp_bind.mpr (wp_get.mpr ?_)))
  apply wp_history_call
  intro opened _
  refine ⟨trivial, ?_⟩
  cases opened with
  | none => exact (wp_pure _).mpr trivial
  | some client_signature =>
  apply wp_history_call
  intro verified _
  refine ⟨trivial, ?_⟩
  apply wp_history_call
  intro filler _
  refine ⟨trivial, wp_bind.mpr (wp_get.mpr ?_)⟩
  apply wp_history_call
  intro closed seals
  refine ⟨trivial, ?_⟩
  cases closed with
  | none => exact (wp_pure _).mpr trivial
  | some ciphertext =>
  apply wp_history_call
  intro sent _
  constructor
  · refine ⟨secret, s.m_session_key, _, ?_, seals _ rfl⟩
    simp [grows.grows (List.mem_cons_of_mem _ derived)]
  · refine wp_ite.mpr ⟨fun _ => (wp_pure _).mpr trivial, fun _ => ?_⟩
    refine wp_bind.mpr (wp_modify.mpr (wp_ite.mpr ?_))
    exact ⟨fun _ => (wp_pure _).mpr trivial, fun _ => (wp_pure _).mpr trivial⟩

/-- M3 itself. -/
theorem answerAuthentication_reasons (isServer : p.agent = .server)
    {request : AuthenticationM1 symbolic} {pk : Agent} {s : Session symbolic} :
    (Server.answerAuthentication (P := symbolic) p.host request pk).wp (reasons w p)
      (fun _ _ _ => True) s past := by
  apply wp_history_call
  intro own _
  refine ⟨trivial, ?_⟩
  apply wp_seq wp_keyText
  rintro text s later ⟨rfl, grows, -⟩
  change List Occurrence at later
  cases text with
  | none => exact (wp_pure _).mpr trivial
  | some received =>
  apply wp_history_call
  intro element reads
  refine ⟨trivial, ?_⟩
  cases element with
  | none => exact (wp_pure _).mpr trivial
  | some peer =>
  apply wp_history_call
  intro secret agrees
  refine ⟨trivial, ?_⟩
  cases secret with
  | none => exact (wp_pure _).mpr trivial
  | some secret =>
  obtain rfl : secret = own ::ₘ peer := agrees _ rfl
  apply wp_history_call
  intro session_key digest
  obtain rfl : session_key = .digest (own ::ₘ peer) := digest
  refine ⟨⟨own, peer, ?_, rfl⟩, wp_bind.mpr (wp_modify.mpr ?_)⟩
  · simp [grows.grows (List.mem_cons_self ..)]
  apply wp_history_call
  intro text writes
  refine ⟨trivial, ?_⟩
  cases text with
  | none => exact (wp_pure _).mpr trivial
  | some server_key_text =>
  obtain rfl : server_key_text = publicText {own} := writes _ rfl
  apply wp_history_call
  intro loaded _
  refine ⟨trivial, wp_ite.mpr ⟨fun _ => (wp_pure _).mpr trivial, fun _ => ?_⟩⟩
  apply wp_history_call
  intro digital_signature signs
  obtain rfl : digital_signature = .signature p.agent (received ++ publicText {own}) := signs
  refine ⟨trivial, wp_bind.mpr (wp_modify.mpr ?_)⟩
  apply wp_history_call
  intro closed seals
  refine ⟨trivial, ?_⟩
  cases closed with
  | none => exact (wp_pure _).mpr trivial
  | some ciphertext =>
  apply wp_history_call
  intro certificate loads
  obtain rfl : certificate = certificateText ⟨true, .server⟩ := loads
  refine ⟨trivial, ?_⟩
  apply wp_history_call
  intro sent _
  constructor
  · refine ⟨⟨own, received, peer⟩, isServer, ⟨?_, ?_, reads _ rfl, ?_,
      ⟨.signature p.agent (received ++ publicText {own}), ?_⟩⟩, ?_⟩
    · simp [grows.grows (List.mem_cons_self ..)]
    · simp
    · simp [Exchange.sessionKey]
    · simp [Exchange.serverText]
    · obtain rfl := seals _ rfl
      rw [bytes_zero, isServer]
      rfl
  · refine wp_ite.mpr ⟨fun _ => (wp_pure _).mpr trivial, fun _ => ?_⟩
    refine wp_bind.mpr (wp_modify.mpr ?_)
    apply finishAuthentication_reasons (own ::ₘ peer)
    simp

theorem server_reasons (isServer : p.agent = .server) {s : Session symbolic} :
    (Server.authenticationRequest (P := symbolic) p.host).wp (reasons w p)
      (fun _ _ _ => True) s [] := by
  apply wp_history_call
  rintro ⟨result, request⟩ -
  refine ⟨trivial, wp_ite.mpr ⟨fun _ => (wp_pure _).mpr trivial, fun _ => ?_⟩⟩
  apply wp_seq wp_usernameText
  rintro username s later ⟨⟩
  apply wp_history_call
  intro file _
  refine ⟨trivial, ?_⟩
  cases file with
  | missing => exact (wp_pure _).mpr trivial
  | unreadable =>
      refine wp_bind.mpr (wp_modify.mpr ?_)
      apply wp_history_call
      intro sent _
      refine ⟨trivial, wp_ite.mpr ?_⟩
      exact ⟨fun _ => (wp_pure _).mpr trivial, fun _ => (wp_pure _).mpr trivial⟩
  | key client_public_key =>
      refine wp_bind.mpr (wp_modify.mpr ?_)
      apply wp_history_call
      intro sent _
      refine ⟨trivial, wp_ite.mpr ⟨fun _ => (wp_pure _).mpr trivial, fun _ => ?_⟩⟩
      exact answerAuthentication_reasons isServer

end Server

section Client
variable {w : Setting} {p : Participant} {past : List Occurrence}

theorem wp_certificateText {array : List Symbol} {length : UInt32} {s : Session symbolic} :
    (Negotiation.certificateText (P := symbolic) array length).wp (reasons w p)
      (fun symbols t later => t = s ∧ Quiet past later ∧ TakesCertificate array length symbols)
      s past := by
  rw [Negotiation.certificateText]
  refine wp_ite.mpr ⟨fun positive => ?_, fun negative => ?_⟩
  · refine wp_ite.mpr ⟨fun fits => (wp_pure _).mpr ⟨rfl, .refl, .inl ⟨positive, ?_⟩⟩, fun short => ?_⟩
    · exact ⟨[], (List.append_nil _).symm, fun _ => rfl⟩
    · apply wp_history_call
      intro ends _
      refine ⟨trivial, wp_ite.mpr ⟨fun _ => (wp_pure _).mpr ?_, fun _ => ?_⟩⟩
      · refine ⟨rfl, Quiet.refl.cons nofun, .inl ⟨positive, [], ?_, fun _ => rfl⟩⟩
        rw [List.take_of_length_le (by omega), List.append_nil]
      · apply wp_history_call
        intro beyond _
        refine ⟨trivial, (wp_pure _).mpr ⟨rfl, ?_, .inl ⟨positive, beyond, ?_, ?_⟩⟩⟩
        · refine Quiet.cons (Quiet.cons .refl ?_) nofun
          exact nofun
        · rw [List.take_of_length_le (by omega)]
        · exact fun fits => absurd fits short
  · have large : 2 ^ 31 ≤ length.toNat := Nat.le_of_not_lt negative
    refine wp_ite.mpr ⟨fun ended => (wp_pure _).mpr ⟨rfl, .refl, .inr ⟨large, [], ?_⟩⟩, fun open_ => ?_⟩
    · rw [List.append_nil]
    · apply wp_history_call
      intro beyond _
      refine ⟨trivial, (wp_pure _).mpr ⟨rfl, Quiet.refl.cons nofun, .inr ⟨large, beyond, ?_⟩⟩⟩
      rw [List.takeWhile_append_of_pos]
      intro symbol member
      have none_ := List.any_eq_true.not.mp open_
      simp only [not_exists, not_and] at none_
      simp [none_ symbol member]

/-- After M4 nothing changes the key. -/
theorem Client.finishAuthentication_reasons {s : Session symbolic} :
    (Client.finishAuthentication (P := symbolic)).wp (reasons w p)
      (fun _ t later => t.m_session_key = s.m_session_key ∧ past ⊆ later) s past := by
  have two : ∀ first second : Occurrence, past ⊆ second :: first :: past := fun _ _ _ member =>
    List.mem_cons_of_mem _ (List.mem_cons_of_mem _ member)
  apply wp_history_call
  rintro ⟨result, message⟩ -
  refine ⟨trivial, wp_ite.mpr ⟨fun _ => (wp_pure _).mpr ?_, fun _ => ?_⟩⟩
  · exact ⟨rfl, List.subset_cons_self ..⟩
  refine wp_bind.mpr (wp_get.mpr ?_)
  apply wp_history_call
  intro opened _
  refine ⟨trivial, ?_⟩
  cases opened with
  | none => exact (wp_pure _).mpr ⟨rfl, two _ _⟩
  | some plaintext =>
  apply wp_seq wp_counterDiffers
  rintro _ s later ⟨rfl, quiet, rfl⟩
  change List Occurrence at later
  have grows : past ⊆ later := fun _ member => quiet.grows (two _ _ member)
  refine wp_ite.mpr ⟨fun _ => wp_throw.mpr trivial, fun _ => ?_⟩
  refine wp_ite.mpr ⟨fun _ => (wp_pure _).mpr ⟨rfl, grows⟩, fun _ => ?_⟩
  exact wp_bind.mpr (wp_modify.mpr ((wp_pure _).mpr ⟨rfl, grows⟩))

/-- What the client has accepted when it succeeds. -/
def AcceptedKey (host : Endian) (t : Session symbolic) (later : List Occurrence) : Prop :=
  ∃ message x certificate, Accepted host message x certificate later ∧
    t.m_session_key = x.sessionKey

/-- M4 and what follows it. -/
theorem Client.respond_reasons {name : Bytes} (isUser : p.agent = .user name) {x : Exchange}
    {message : AuthenticationM3 symbolic} {certificate : Certificate} {s : Session symbolic}
    {response : AuthenticationM4 symbolic} (same : response = x.response p.host name)
    (accepted : Accepted p.host message x certificate past)
    (first : ∀ other answer, (⟨.sendM4 other, answer⟩ : Occurrence) ∉ past)
    (key : s.m_session_key = x.sessionKey) :
    (do
      let sent ← Negotiation.ask (P := symbolic) (.sendM4 response)
      if sent = -1 then return Return.SEND_FAILURE.val
      Negotiation.advance
      Client.finishAuthentication).wp (reasons w p)
      (fun code t later => code = Return.AUTHENTICATION_SUCCESS.val → AcceptedKey p.host t later)
      s past := by
  apply wp_history_call
  intro sent _
  refine ⟨⟨message, x, certificate, name, isUser, accepted, same, first⟩, ?_⟩
  refine wp_ite.mpr ⟨fun _ => (wp_pure _).mpr nofun, fun _ => ?_⟩
  refine wp_bind.mpr (wp_modify.mpr (wp_mono ?_ Client.finishAuthentication_reasons))
  rintro code t later ⟨kept, grows⟩ -
  refine ⟨message, x, certificate, accepted.mono ?_, kept.trans key⟩
  exact fun _ member => grows (List.mem_cons_of_mem _ member)

theorem Client.answerAuthentication_reasons {name : Bytes} (isUser : p.agent = .user name)
    {own : Exponent} {message : AuthenticationM3 symbolic} {s : Session symbolic}
    (drawn : ⟨.ssl .generateEphemeralKey, own⟩ ∈ past)
    (received : ⟨.receiveM3, (0, message)⟩ ∈ past)
    (first : ∀ other answer, (⟨.sendM4 other, answer⟩ : Occurrence) ∉ past) :
    (Client.answerAuthentication (P := symbolic) p.host own (publicText {own}) message).wp
      (reasons w p)
      (fun code t later => code = Return.AUTHENTICATION_SUCCESS.val → AcceptedKey p.host t later)
      s past := by
  refine wp_bind.mpr (wp_modify.mpr ?_)
  apply wp_seq wp_counterDiffers
  rintro _ s later ⟨rfl, quiet, rfl⟩
  change List Occurrence at later
  refine wp_ite.mpr ⟨fun _ => (wp_pure _).mpr nofun, fun counters => ?_⟩
  have counter : p.host.value message.m_aad = 0 := by simpa using counters
  refine wp_bind.mpr (wp_modify.mpr ?_)
  apply wp_seq wp_keyText
  rintro text s read ⟨rfl, quiet', takes⟩
  change List Occurrence at read
  cases text with
  | none => exact (wp_pure _).mpr nofun
  | some server_key_text =>
  apply wp_history_call
  intro element reads
  refine ⟨trivial, ?_⟩
  cases element with
  | none => exact (wp_pure _).mpr nofun
  | some peer =>
  apply wp_history_call
  intro secret agrees
  refine ⟨trivial, ?_⟩
  cases secret with
  | none => exact (wp_pure _).mpr nofun
  | some secret =>
  obtain rfl : secret = own ::ₘ peer := agrees _ rfl
  apply wp_history_call
  intro session_key digest
  obtain rfl : session_key = .digest (own ::ₘ peer) := digest
  have drawn' := quiet'.grows (quiet.grows drawn)
  refine ⟨⟨own, peer, by simp [drawn'], rfl⟩, wp_bind.mpr (wp_modify.mpr ?_)⟩
  apply wp_history_call
  intro opened opens
  refine ⟨trivial, ?_⟩
  cases opened with
  | none => exact (wp_pure _).mpr nofun
  | some decrypted_signature =>
  apply wp_history_call
  intro digital_signature signs
  obtain rfl : digital_signature = .signature p.agent (publicText {own} ++ server_key_text) := signs
  refine ⟨trivial, ?_⟩
  apply wp_seq wp_certificateText
  rintro symbols s shown ⟨rfl, quiet'', presents⟩
  change List Occurrence at shown
  apply wp_history_call
  intro parsed reads'
  refine ⟨trivial, ?_⟩
  cases parsed with
  | none => exact (wp_pure _).mpr nofun
  | some certificate =>
  apply wp_history_call
  intro trusted issued
  obtain rfl : trusted = certificate.issued := issued
  refine ⟨trivial, wp_ite.mpr ⟨fun _ => (wp_pure _).mpr nofun, fun trusts => ?_⟩⟩
  apply wp_history_call
  intro server_public_key extracts
  obtain rfl : server_public_key = certificate.subject := extracts
  refine ⟨trivial, ?_⟩
  apply wp_history_call
  intro verified verifies
  refine ⟨trivial, wp_ite.mpr ⟨fun _ => (wp_pure _).mpr nofun, fun signed => ?_⟩⟩
  refine wp_bind.mpr (wp_get.mpr ?_)
  apply wp_history_call
  intro closed seals
  refine ⟨trivial, ?_⟩
  cases closed with
  | none => exact (wp_pure _).mpr nofun
  | some ciphertext =>
  have kept : past ⊆ shown := by
    intro e member
    apply quiet''.grows
    simp [quiet'.grows (quiet.grows member)]
  have accepted : Accepted p.host message ⟨own, server_key_text, peer⟩ certificate shown := by
    constructor
    · exact kept received
    · exact takes _ rfl
    · constructor
      · exact kept drawn
      · apply quiet''.grows
        simp
      · exact reads _ rfl
      · apply quiet''.grows
        simp [Exchange.sessionKey]
      · refine ⟨.signature p.agent (publicText {own} ++ server_key_text), quiet''.grows ?_⟩
        simp [Exchange.clientText]
    · exact counter
    · have verdict : verified = decide (decrypted_signature =
          .signature certificate.subject (publicText {own} ++ server_key_text)) := verifies
      have same : decrypted_signature =
          .signature certificate.subject (publicText {own} ++ server_key_text) := by
        simpa [verdict] using signed
      rw [opens _ rfl, same]
      rfl
    · exact ⟨symbols, presents, reads' _ rfl⟩
    · simpa using trusts
  have none_ : ∀ other answer, (⟨.sendM4 other, answer⟩ : Occurrence) ∉ shown := by
    intro other answer member
    have before := quiet''.quiet other answer member
    exact first other answer (quiet.quiet _ _ (quiet'.quiet _ _ (by simpa using before)))
  obtain rfl := seals _ rfl
  apply Client.respond_reasons (x := ⟨own, server_key_text, peer⟩) isUser
  · rw [isUser]
    rfl
  · apply accepted.mono
    intro e member
    simp [member]
  · intro other answer member
    exact none_ other answer (by simpa using member)
  · rfl

theorem client_reasons {name : Bytes} (isUser : p.agent = .user name) {s : Session symbolic}
    (named : s.m_username = name) :
    (Client.authenticationRequest (P := symbolic) p.host).wp (reasons w p)
      (fun code t later => code = Return.AUTHENTICATION_SUCCESS.val → AcceptedKey p.host t later)
      s [] := by
  apply wp_history_call
  intro own _
  refine ⟨trivial, ?_⟩
  apply wp_history_call
  intro text writes
  refine ⟨trivial, ?_⟩
  cases text with
  | none => exact (wp_pure _).mpr nofun
  | some client_key_text =>
  obtain rfl : client_key_text = publicText {own} := writes _ rfl
  refine wp_bind.mpr (wp_get.mpr ?_)
  apply wp_history_call
  intro sent _
  refine ⟨⟨own, name, by simp, isUser, by rw [named]⟩, ?_⟩
  refine wp_ite.mpr ⟨fun _ => (wp_pure _).mpr nofun, fun _ => ?_⟩
  apply wp_history_call
  rintro ⟨result, simpleMessage⟩ -
  refine ⟨trivial, wp_ite.mpr ⟨fun _ => (wp_pure _).mpr nofun, fun _ => ?_⟩⟩
  refine wp_ite.mpr ⟨fun _ => (wp_pure _).mpr nofun, fun _ => ?_⟩
  apply wp_history_call
  rintro ⟨result', authenticationM3⟩ -
  refine ⟨trivial, wp_ite.mpr ⟨fun _ => (wp_pure _).mpr nofun, fun received => ?_⟩⟩
  obtain rfl : result' = 0 := Decidable.not_not.mp received
  apply Client.answerAuthentication_reasons isUser
  · simp
  · simp
  · simp

end Client
end Symbolic
end CloudStorage
