import CloudStorage.Authentication.Knowledge
import CloudStorage.Authentication.Transcript

/-! Logs that exist: a handshake of an honest client with the server, and one with an
adversary who holds the certificate of another user. -/
namespace CloudStorage
open Interaction Code Negotiation

theorem Negotiation.returns_of_pure {P : Primitives} {α β : Type} {c : Auth P α} {value : α}
    {f : α → Auth P β} {s t : Session P} {trace : List (Event (AuthOp P) AuthOp.Ans)} {result : β}
    (same : c = pure value) (rest : (f value).Returns s trace result t) :
    (c >>= f).Returns s trace result t := by
  rw [same]
  exact rest

theorem Negotiation.counterDiffers_same {P : Primitives} {received : UInt32} {s : Session P}
    (same : received = s.m_counter) :
    (counterDiffers received : Auth P Bool).Returns s [⟨.checked s.m_counter received, ()⟩]
      false s := by
  have equal : decide (received ≠ s.m_counter) = false := by simp [same]
  rw [← equal]
  exact .call _ (.done _)

namespace Client
variable {P : Primitives}

/-- A negotiation of the client that ends in success. -/
structure Transcript (P : Primitives) where
  exponent : P.Exponent
  client_key_text : List P.Symbol
  offer : AuthenticationM3 P
  server_key_text : List P.Symbol
  server_ephemeral_key : P.Element
  shared_secret : P.Secret
  session_key : P.Key
  server_signature : P.Data
  digital_signature : P.Data
  certificate_text : List P.Symbol
  certificate : P.Certificate
  server_public_key : P.PublicKey
  sealed_signature : P.Sealed
  outcome : AuthenticationM4 P
  plaintext : P.Data

namespace Transcript

def request (d : Transcript P) (name : Bytes) : List (Event (AuthOp P) AuthOp.Ans) :=
  [⟨.ssl (.serializeEphemeralKey d.exponent), some d.client_key_text⟩,
    ⟨.sendM1 (.ofKey d.client_key_text name), 0⟩,
    ⟨.receiveM2, (0, Result.ACK.byte)⟩]

def answer (d : Transcript P) (host : Endian) : List (Event (AuthOp P) AuthOp.Ans) :=
  [⟨.checked 0 (host.value d.offer.m_aad), ()⟩,
    ⟨.ssl (.deserializeEphemeralKey d.server_key_text), some d.server_ephemeral_key⟩,
    ⟨.ssl (.deriveSharedSecret d.exponent d.server_ephemeral_key), some d.shared_secret⟩,
    ⟨.ssl (.generateSHA256 d.shared_secret), d.session_key⟩,
    ⟨.ssl (.decrypt d.session_key d.offer.m_aad d.offer.m_sealed), some d.server_signature⟩,
    ⟨.ssl (.generateDS (d.client_key_text ++ d.server_key_text)), d.digital_signature⟩,
    ⟨.ssl (.deserializeCertificate d.certificate_text), some d.certificate⟩,
    ⟨.ssl (.verifyCertificate d.certificate), true⟩,
    ⟨.ssl (.getPublicKey d.certificate), d.server_public_key⟩,
    ⟨.ssl (.isDSverified (d.client_key_text ++ d.server_key_text) d.server_signature
      d.server_public_key), true⟩,
    ⟨.ssl (.encrypt d.session_key (host.bytes 1) d.digital_signature), some d.sealed_signature⟩,
    ⟨.sendM4 ⟨host.bytes 1, d.sealed_signature⟩, 0⟩]

def closing (d : Transcript P) : List (Event (AuthOp P) AuthOp.Ans) :=
  [⟨.ssl (.decrypt d.session_key d.outcome.m_aad d.outcome.m_sealed), some d.plaintext⟩,
    ⟨.checked 2 (networkValue d.outcome.m_aad), ()⟩]

def events (d : Transcript P) (host : Endian) (name : Bytes) :
    List (Event (AuthOp P) AuthOp.Ans) :=
  ⟨.ssl .generateEphemeralKey, d.exponent⟩ :: d.request name ++
    ⟨.receiveM3, (0, d.offer)⟩ :: d.answer host ++ ⟨.receiveM5, (0, d.outcome)⟩ :: d.closing

/-- What makes the client go through with it. -/
structure Accepts (d : Transcript P) (host : Endian) : Prop where
  counter : host.value d.offer.m_aad = 0
  key : (keyText d.offer.m_ephemeral_key d.offer.m_ephemeral_key_len : Auth P _) =
    pure (some d.server_key_text)
  certificate : (certificateText d.offer.m_serialized_certificate
    d.offer.m_serialized_certificate_len : Auth P _) = pure d.certificate_text
  outcome : networkValue d.outcome.m_aad = 2
  accepted : P.head d.plaintext = Result.ACK.byte

variable {d : Transcript P} {host : Endian}

theorem Accepts.finish (accepts : d.Accepts host) {s : Session P} (key : s.m_session_key = d.session_key)
    (counter : s.m_counter = 2) :
    (finishAuthentication (P := P)).Returns s (⟨.receiveM5, (0, d.outcome)⟩ :: d.closing)
      Return.AUTHENTICATION_SUCCESS.val { s with m_counter := 0 } := by
  obtain ⟨m_username, m_counter, m_session_key⟩ := s
  dsimp only at key counter
  subst key counter
  refine .call _ (.call _ ?_)
  apply returns_bind.mpr
  refine ⟨_, false, _, [], rfl, counterDiffers_same accepts.outcome, ?_⟩
  refine returns_ite.mpr (.inr ⟨nofun, ?_⟩)
  refine returns_ite.mpr (.inr ⟨fun other => other accepts.accepted, ?_⟩)
  exact .done _

theorem Accepts.answer (accepts : d.Accepts host) {s : Session P} :
    (answerAuthentication host d.exponent d.client_key_text d.offer).Returns s
      (d.answer host ++ ⟨.receiveM5, (0, d.outcome)⟩ :: d.closing)
      Return.AUTHENTICATION_SUCCESS.val ⟨s.m_username, 0, d.session_key⟩ := by
  refine returns_modify_bind.mpr (returns_bind.mpr ?_)
  refine ⟨[_], false, _, _, rfl, counterDiffers_same accepts.counter, ?_⟩
  refine returns_ite.mpr (.inr ⟨nofun, ?_⟩)
  refine returns_modify_bind.mpr (returns_of_pure accepts.key ?_)
  refine .call _ (.call _ (.call _ (.call _ (.call _ ?_))))
  apply returns_of_pure accepts.certificate
  refine .call _ (.call _ (.call _ (.call _ (.call _ (.call _ ?_)))))
  exact accepts.finish rfl rfl

theorem Accepts.returns (accepts : d.Accepts host) (s : Session P) :
    (authenticationRequest host).Returns s (d.events host s.m_username)
      Return.AUTHENTICATION_SUCCESS.val ⟨s.m_username, 0, d.session_key⟩ :=
  .call _ (.call _ (.call _ (.call _ (.call _ accepts.answer))))

end Transcript
end Client
namespace Server
variable {P : Primitives}

/-- What makes the server go through with it. -/
structure Transcript.Accepts (d : Transcript P) (host : Endian) : Prop where
  name : (usernameText d.request.m_username : Auth P _) = pure d.username
  key : (keyText d.request.m_ephemeral_key d.request.m_ephemeral_key_len : Auth P _) =
    pure (some d.client_key_text)
  counter : host.value d.response.m_aad = 1
  acknowledged : d.acknowledged = 0
  sent : d.sent = 0

variable {d : Transcript P} {host : Endian}

theorem Transcript.Accepts.finish (accepts : d.Accepts host) :
    (finishAuthentication host d.client_public_key d.buffer).Returns ⟨d.username, 1, d.session_key⟩
      (d.toClosing.events host d.client_public_key d.buffer ⟨d.username, 1, d.session_key⟩)
      Return.AUTHENTICATION_SUCCESS.val ⟨d.username, 0, d.session_key⟩ := by
  refine .call _ (returns_bind.mpr ?_)
  refine ⟨[_], false, _, _, rfl, counterDiffers_same accepts.counter, ?_⟩
  refine returns_ite.mpr (.inr ⟨nofun, ?_⟩)
  refine .call _ (.call _ (.call _ (.call _ (.call _ ?_))))
  rw [accepts.sent]
  exact .done _

theorem Transcript.Accepts.answer (accepts : d.Accepts host) {s : Session P}
    (named : s.m_username = d.username) :
    (answerAuthentication host d.request d.client_public_key).Returns s
      (d.toAgreement.events host [] ++
        d.toClosing.events host d.client_public_key d.buffer ⟨d.username, 1, d.session_key⟩)
      Return.AUTHENTICATION_SUCCESS.val ⟨d.username, 0, d.session_key⟩ := by
  obtain ⟨m_username, m_counter, m_session_key⟩ := s
  dsimp only at named
  subst named
  refine .call _ (returns_of_pure accepts.key ?_)
  refine .call _ (.call _ (.call _ (.call _ (.call _ (.call _ (.call _ (.call _ (.call _ ?_))))))))
  exact accepts.finish

theorem Transcript.Accepts.returns (accepts : d.Accepts host) (s : Session P) :
    (authenticationRequest host).Returns s (d.events host [] [])
      Return.AUTHENTICATION_SUCCESS.val ⟨d.username, 0, d.session_key⟩ := by
  refine .call _ (returns_of_pure accepts.name (.call _ (.call _ ?_)))
  rw [accepts.acknowledged]
  exact accepts.answer rfl

end Server
namespace Symbolic
variable {w : Setting} {log : Log Nat (AuthOp symbolic) AuthOp.Ans} {id : Nat}

theorem publicText_length (element : Element) : (publicText element).length = 54 := rfl
theorem certificateText_length (certificate : Certificate) :
    (certificateText certificate).length = 56 := rfl

theorem readKey_whole (element : Element) : readKey (publicText element) = some element := by
  have read := readKey_publicText element []
  rwa [List.append_nil] at read

theorem readCertificate_certificateText (certificate : Certificate) :
    readCertificate (certificateText certificate) = some certificate := by
  have read := readBlock_block (by decide : opening "CERTIFICATE" ≠ [])
    (.certificate certificate) []
  rw [List.append_nil] at read
  rw [readCertificate, certificateText, read]

theorem keyText_padded {text : List Symbol} {width : Nat} (fits : text.length ≤ width)
    (narrow : width < 2 ^ 31) :
    (keyText (padded (P := symbolic) text width) text.length.toUInt32 : Auth symbolic _) =
      pure (some text) := by
  have size : text.length.toUInt32.toNat = text.length :=
    UInt32.toNat_ofNat_of_lt' (by change text.length < 2 ^ 32; omega)
  have inside : text.length ≤ (padded (P := symbolic) text width).length := by
    simp [padded]
  rw [keyText, size, if_neg (by omega), if_pos inside, padded, List.take_left]

theorem ofKey_declared {text : List Symbol} {name : Bytes} (fits : text.length ≤ EPHEMERAL_KEY_LEN) :
    (AuthenticationM1.ofKey (P := symbolic) text name).m_ephemeral_key_len.toNat ≤
      (AuthenticationM1.ofKey (P := symbolic) text name).m_ephemeral_key.length := by
  have narrow : EPHEMERAL_KEY_LEN < 2 ^ 32 := by decide
  have size : text.length.toUInt32.toNat = text.length :=
    UInt32.toNat_ofNat_of_lt' (by change text.length < 2 ^ 32; omega)
  simp only [AuthenticationM1.ofKey, padded, size, List.length_append]
  exact Nat.le_add_right ..

theorem certificateText_padded {text : List Symbol} {width : Nat} (fits : text.length ≤ width)
    (narrow : width < 2 ^ 31) :
    (Negotiation.certificateText (padded (P := symbolic) text width) text.length.toUInt32 :
      Auth symbolic _) = pure text := by
  have size : text.length.toUInt32.toNat = text.length :=
    UInt32.toNat_ofNat_of_lt' (by change text.length < 2 ^ 32; omega)
  have inside : text.length ≤ (padded (P := symbolic) text width).length := by
    simp [padded]
  rw [Negotiation.certificateText, size, if_pos (by omega), if_pos inside, padded, List.take_left]

theorem usernameText_strncpy {name : Bytes} (clean : (0 : UInt8) ∉ name)
    (fits : name.length < Config.USERNAME_LEN) :
    (usernameText (strncpy name Config.USERNAME_LEN) : Auth symbolic _) = pure name := by
  rw [usernameText, if_pos (mem_strncpy fits), cPrefix_strncpy clean fits]

/-- It takes nothing from the network and draws no key. -/
def Plain (e : Occurrence) : Prop :=
  delivered e = [] ∧ ∀ exponent, e ≠ ⟨.ssl .generateEphemeralKey, exponent⟩

theorem lawful_plain {block : List Occurrence} (lawful : Lawful w.Allowed log)
    (plain : ∀ e ∈ block, Plain e ∧ w.Ideal (w.cast id).agent e.op e.answer) :
    Lawful w.Allowed (log ++ Log.turn id block) := by
  induction block generalizing log with
  | nil => rwa [Log.turn, List.map_nil, List.append_nil]
  | cons e block ih =>
      obtain ⟨⟨quiet, old⟩, ideal⟩ := plain e (List.mem_cons_self ..)
      have next : Lawful w.Allowed (log ++ [(id, e)]) := by
        apply lawful.snoc
        constructor
        · exact ideal
        · exact fun exponent same => absurd same (old exponent)
        · intro item delivers
          rw [quiet] at delivers
          cases delivers
      have rest := ih next fun e member => plain e (List.mem_cons_of_mem _ member)
      rwa [List.append_assoc] at rest

theorem lawful_draw {number : Nat} (lawful : Lawful w.Allowed log)
    (new : ∀ other, (other, (⟨.ssl .generateEphemeralKey, Exponent.drawn number⟩ : Occurrence)) ∉ log) :
    Lawful w.Allowed
      (log ++ Log.turn id [⟨.ssl .generateEphemeralKey, Exponent.drawn number⟩]) := by
  apply lawful.snoc
  constructor
  · trivial
  · rintro exponent ⟨⟩
    exact ⟨⟨number, rfl⟩, new⟩
  · nofun

/-- A receive of what the adversary can make. -/
theorem lawful_receive {e : Occurrence} (lawful : Lawful w.Allowed log)
    (ideal : w.Ideal (w.cast id).agent e.op e.answer)
    (old : ∀ exponent, e ≠ ⟨.ssl .generateEphemeralKey, exponent⟩)
    (known : ∀ item ∈ delivered e, Knows w log item) : Lawful w.Allowed (log ++ Log.turn id [e]) :=
  lawful.snoc ⟨ideal, fun exponent same => absurd same (old exponent), known⟩

/-- The run of a client for a user over an exchange, when it is shown a certificate of this
subject. -/
def clientTranscript (x : Exchange) (host : Endian) (name : Bytes) (subject : Agent) :
    Client.Transcript symbolic where
  exponent := x.own
  client_key_text := publicText {x.own}
  offer := .ofParts x.received (networkBytes 0)
    (.box x.sessionKey (networkBytes 0) (.signature subject x.clientText))
    (certificateText ⟨true, subject⟩)
  server_key_text := x.received
  server_ephemeral_key := x.peer
  shared_secret := x.own ::ₘ x.peer
  session_key := x.sessionKey
  server_signature := .signature subject x.clientText
  digital_signature := .signature (.user name) x.clientText
  certificate_text := certificateText ⟨true, subject⟩
  certificate := ⟨true, subject⟩
  server_public_key := subject
  sealed_signature := .box x.sessionKey (host.bytes 1) (.signature (.user name) x.clientText)
  outcome := ⟨networkBytes 2, .box x.sessionKey (networkBytes 2) (.bytes [Result.ACK.byte])⟩
  plaintext := .bytes [Result.ACK.byte]

section Client
variable {x : Exchange} {host : Endian} {name : Bytes} {subject : Agent}

theorem clientTranscript_accepts (fits : x.received.length ≤ EPHEMERAL_KEY_LEN) :
    (clientTranscript x host name subject).Accepts host where
  counter := by
    change host.value (networkBytes 0) = 0
    rw [← bytes_zero host, Endian.value_bytes]
  key := keyText_padded fits (by decide)
  certificate := certificateText_padded (by rw [certificateText_length]; decide) (by decide)
  outcome := rfl
  accepted := rfl

theorem clientTranscript_request {e : Occurrence} (member : e ∈ (clientTranscript x host name subject).request name) :
    Plain e ∧ w.Ideal (w.cast id).agent e.op e.answer := by
  simp only [Client.Transcript.request, List.mem_cons, List.not_mem_nil, or_false] at member
  rcases member with rfl | rfl | rfl
  · refine ⟨⟨rfl, nofun⟩, ?_⟩
    rintro symbols ⟨⟩
    rfl
  · exact ⟨⟨rfl, nofun⟩, trivial⟩
  · exact ⟨⟨rfl, nofun⟩, trivial⟩

theorem clientTranscript_answer (agent : (w.cast id).agent = .user name)
    (read : readKey x.received = some x.peer)
    {e : Occurrence} (member : e ∈ (clientTranscript x host name subject).answer host) :
    Plain e ∧ w.Ideal (w.cast id).agent e.op e.answer := by
  simp only [Client.Transcript.answer, List.mem_cons, List.not_mem_nil, or_false] at member
  rcases member with rfl | rfl | rfl | rfl | rfl | rfl | rfl | rfl | rfl | rfl | rfl | rfl
  · exact ⟨⟨rfl, nofun⟩, trivial⟩
  · refine ⟨⟨rfl, nofun⟩, ?_⟩
    rintro element ⟨⟩
    exact read
  · refine ⟨⟨rfl, nofun⟩, ?_⟩
    rintro secret ⟨⟩
    rfl
  · exact ⟨⟨rfl, nofun⟩, rfl⟩
  · refine ⟨⟨rfl, nofun⟩, ?_⟩
    rintro plaintext ⟨⟩
    rfl
  · refine ⟨⟨rfl, nofun⟩, ?_⟩
    change Data.signature (.user name) x.clientText = .signature (w.cast id).agent x.clientText
    rw [agent]
  · refine ⟨⟨rfl, nofun⟩, ?_⟩
    rintro certificate ⟨⟩
    exact readCertificate_certificateText _
  · exact ⟨⟨rfl, nofun⟩, rfl⟩
  · exact ⟨⟨rfl, nofun⟩, rfl⟩
  · refine ⟨⟨rfl, nofun⟩, ?_⟩
    exact (decide_eq_true rfl).symm
  · refine ⟨⟨rfl, nofun⟩, ?_⟩
    rintro box ⟨⟩
    rfl
  · exact ⟨⟨rfl, nofun⟩, trivial⟩

theorem clientTranscript_closing
    {e : Occurrence} (member : e ∈ (clientTranscript x host name subject).closing) :
    Plain e ∧ w.Ideal (w.cast id).agent e.op e.answer := by
  simp only [Client.Transcript.closing, List.mem_cons, List.not_mem_nil, or_false] at member
  rcases member with rfl | rfl
  · refine ⟨⟨rfl, nofun⟩, ?_⟩
    rintro plaintext ⟨⟩
    rfl
  · exact ⟨⟨rfl, nofun⟩, trivial⟩

end Client

/-- The run of a server over an exchange with a client that gives this answer. -/
def serverTranscript (x : Exchange) (name : Bytes) (response : AuthenticationM4 symbolic) :
    Server.Transcript symbolic where
  exponent := x.own
  client_key_text := x.received
  client_ephemeral_key := x.peer
  shared_secret := x.own ::ₘ x.peer
  session_key := x.sessionKey
  server_key_text := publicText {x.own}
  digital_signature := .signature .server x.serverText
  sealed_signature := .box x.sessionKey (networkBytes 0) (.signature .server x.serverText)
  certificate := certificateText ⟨true, .server⟩
  response := response
  client_signature := .signature (.user name) x.serverText
  filler := []
  sealed_outcome := .box x.sessionKey (networkBytes 2) (.bytes [Result.ACK.byte])
  sent := 0
  request := .ofKey x.received name
  username := name
  client_public_key := .user name
  acknowledged := 0

section Server
variable {x : Exchange} {host : Endian} {name : Bytes} {response : AuthenticationM4 symbolic}

theorem serverTranscript_accepts (fits : x.received.length ≤ EPHEMERAL_KEY_LEN)
    (clean : (0 : UInt8) ∉ name) (short : name.length < Config.USERNAME_LEN)
    (counter : host.value response.m_aad = 1) :
    (serverTranscript x name response).Accepts host where
  name := usernameText_strncpy clean short
  key := keyText_padded fits (by decide)
  counter := counter
  acknowledged := rfl
  sent := rfl

/-- From M1 to M2, behind the receive. -/
def acknowledgement (name : Bytes) : List Occurrence :=
  [⟨.ssl (.readPublicKey (publicKeyFile name)), .key (.user name)⟩, ⟨.sendM2 Result.ACK.byte, 0⟩]

/-- From the own ephemeral key to M3. -/
def agreement (x : Exchange) : List Occurrence :=
  [⟨.ssl (.deserializeEphemeralKey x.received), some x.peer⟩,
    ⟨.ssl (.deriveSharedSecret x.own x.peer), some (x.own ::ₘ x.peer)⟩,
    ⟨.ssl (.generateSHA256 (x.own ::ₘ x.peer)), x.sessionKey⟩,
    ⟨.ssl (.serializeEphemeralKey x.own), some (publicText {x.own})⟩,
    ⟨.ssl .readPrivateKey, true⟩,
    ⟨.ssl (.generateDS x.serverText), .signature .server x.serverText⟩,
    ⟨.ssl (.encrypt x.sessionKey (networkBytes 0) (.signature .server x.serverText)),
      some (.box x.sessionKey (networkBytes 0) (.signature .server x.serverText))⟩,
    ⟨.ssl .loadCertificate, certificateText ⟨true, .server⟩⟩,
    ⟨.sendM3 x.offer, 0⟩]

/-- From M4 to M5, behind the receive. -/
def outcome (x : Exchange) (host : Endian) (name : Bytes) (response : AuthenticationM4 symbolic) :
    List Occurrence :=
  [⟨.checked 1 (host.value response.m_aad), ()⟩,
    ⟨.ssl (.decrypt x.sessionKey response.m_aad response.m_sealed),
      some (.signature (.user name) x.serverText)⟩,
    ⟨.ssl (.isDSverified x.serverText (.signature (.user name) x.serverText) (.user name)), true⟩,
    ⟨.random (Config.MAX_PACKET_SIZE - 1), []⟩,
    ⟨.ssl (.encrypt x.sessionKey (networkBytes 2) (.bytes [Result.ACK.byte])),
      some (.box x.sessionKey (networkBytes 2) (.bytes [Result.ACK.byte]))⟩,
    ⟨.sendM5 ⟨networkBytes 2, .box x.sessionKey (networkBytes 2) (.bytes [Result.ACK.byte])⟩, 0⟩]

theorem serverTranscript_events :
    (serverTranscript x name response).events host [] [] =
      ⟨.receiveM1, (0, .ofKey x.received name)⟩ :: acknowledgement name ++
        ⟨.ssl .generateEphemeralKey, x.own⟩ :: agreement x ++
        ⟨.receiveM4, (0, response)⟩ :: outcome x host name response := by
  cases host <;> rfl

theorem acknowledgement_plain (others : ∀ other ∈ w.honest, publicKeyFile name = publicKeyFile other →
    name = other) {e : Occurrence} (member : e ∈ acknowledgement name) :
    Plain e ∧ w.Ideal (w.cast id).agent e.op e.answer := by
  simp only [acknowledgement, List.mem_cons, List.not_mem_nil, or_false] at member
  rcases member with rfl | rfl
  · refine ⟨⟨rfl, nofun⟩, ?_⟩
    rintro other honest same key ⟨⟩
    rw [others other honest same]
  · exact ⟨⟨rfl, nofun⟩, trivial⟩

theorem agreement_plain (agent : (w.cast id).agent = .server)
    (read : readKey x.received = some x.peer) {e : Occurrence} (member : e ∈ agreement x) :
    Plain e ∧ w.Ideal (w.cast id).agent e.op e.answer := by
  simp only [agreement, List.mem_cons, List.not_mem_nil, or_false] at member
  rcases member with rfl | rfl | rfl | rfl | rfl | rfl | rfl | rfl | rfl
  · refine ⟨⟨rfl, nofun⟩, ?_⟩
    rintro element ⟨⟩
    exact read
  · refine ⟨⟨rfl, nofun⟩, ?_⟩
    rintro secret ⟨⟩
    rfl
  · exact ⟨⟨rfl, nofun⟩, rfl⟩
  · refine ⟨⟨rfl, nofun⟩, ?_⟩
    rintro symbols ⟨⟩
    rfl
  · exact ⟨⟨rfl, nofun⟩, trivial⟩
  · refine ⟨⟨rfl, nofun⟩, ?_⟩
    change Data.signature .server x.serverText = .signature (w.cast id).agent x.serverText
    rw [agent]
  · refine ⟨⟨rfl, nofun⟩, ?_⟩
    rintro box ⟨⟩
    rfl
  · exact ⟨⟨rfl, nofun⟩, rfl⟩
  · exact ⟨⟨rfl, nofun⟩, trivial⟩

theorem outcome_plain
    (opens : response.m_sealed =
      .box x.sessionKey response.m_aad (.signature (.user name) x.serverText))
    {e : Occurrence} (member : e ∈ outcome x host name response) :
    Plain e ∧ w.Ideal (w.cast id).agent e.op e.answer := by
  simp only [outcome, List.mem_cons, List.not_mem_nil, or_false] at member
  rcases member with rfl | rfl | rfl | rfl | rfl | rfl
  · exact ⟨⟨rfl, nofun⟩, trivial⟩
  · refine ⟨⟨rfl, nofun⟩, ?_⟩
    rintro plaintext ⟨⟩
    exact opens
  · refine ⟨⟨rfl, nofun⟩, ?_⟩
    exact (decide_eq_true rfl).symm
  · exact ⟨⟨rfl, nofun⟩, trivial⟩
  · refine ⟨⟨rfl, nofun⟩, ?_⟩
    rintro box ⟨⟩
    rfl
  · exact ⟨⟨rfl, nofun⟩, trivial⟩

end Server

section Attack

def luca : Bytes := ascii "luca"

def mallory : Bytes := ascii "mallory"

def start : Session symbolic := ⟨[], 0, .octets []⟩

/-- One client, and no server. -/
def alone : Setting where
  honest := {luca}
  cast _ := ⟨.user luca, .little, start⟩

/-- The exchange of the client with an adversary. -/
def intercepted : Exchange := ⟨.drawn 0, publicText {.picked 0}, {.picked 0}⟩

def interception : Client.Transcript symbolic :=
  clientTranscript intercepted .little luca (.user mallory)

def attack : Log Nat (AuthOp symbolic) AuthOp.Ans :=
  Log.turn 0 [⟨.ssl .generateEphemeralKey, Exponent.drawn 0⟩] ++
    Log.turn 0 (interception.request luca) ++
    Log.turn 0 [⟨.receiveM3, (0, interception.offer)⟩] ++
    Log.turn 0 (interception.answer .little) ++
    Log.turn 0 [⟨.receiveM5, (0, interception.outcome)⟩] ++
    Log.turn 0 interception.closing

/-- The adversary makes the key from its own exponent and what it has heard. -/
theorem intercepted_known
    (sent : (0, (⟨.sendM1 (.ofKey (publicText {.drawn 0}) luca), (0 : Int)⟩ : Occurrence)) ∈ log) :
    Knows w log (.element {.drawn 0}) ∧ Knows w log (.key intercepted.sessionKey) := by
  have heard : Knows w log (.element {.drawn 0}) := by
    apply Knows.heard sent
    apply mem_carried.mpr
    exact ⟨{.drawn 0}, List.mem_append_left _ (by simp [publicText, block]), rfl⟩
  apply And.intro heard
  have made := Knows.digest (Knows.power (Knows.exponent 0) heard)
  rw [← Multiset.cons_zero, Multiset.cons_swap, Multiset.cons_zero] at made
  exact made

/-- Everything in the forged M3 is of the adversary's making. -/
theorem interception_known
    (sent : (0, (⟨.sendM1 (.ofKey (publicText {.drawn 0}) luca), (0 : Int)⟩ : Occurrence)) ∈ log) :
    ∀ item ∈ delivered ⟨.receiveM3, (0, interception.offer)⟩, Knows alone log item := by
  obtain ⟨heard, key⟩ := intercepted_known (w := alone) sent
  have own : Knows alone log (.element {.picked 0}) := .power (.exponent 0) .generator
  have signed : Knows alone log
      (.data (.signature (.user mallory) intercepted.clientText)) := by
    apply Knows.sign
    · intro same
      exact absurd (show mallory = luca from same) (by decide)
    · intro item member
      obtain ⟨element, found, rfl⟩ := mem_carried.mp member
      rcases List.mem_append.mp found with first | second
      · rwa [mem_publicText first]
      · rwa [mem_publicText second]
  intro item delivers
  rcases List.mem_cons.mp delivers with rfl | parts
  · exact .encrypt _ key signed
  · rcases List.mem_append.mp parts with keys | certificates
    · rwa [carried_padded keys]
    · exact absurd certificates carried_certificate

theorem attack_lawful : Lawful alone.Allowed attack := by
  have requested : (0, (⟨.sendM1 (.ofKey (publicText {.drawn 0}) luca), (0 : Int)⟩ :
      Occurrence)) ∈ Log.turn 0 (interception.request luca) := Log.mem_turn (by
    simp [Client.Transcript.request, interception, clientTranscript, intercepted])
  unfold attack
  refine lawful_plain ?_ (fun e member => clientTranscript_closing member)
  refine lawful_receive ?_ ?_ ?_ ?_
  · refine lawful_plain ?_
      (fun e member => clientTranscript_answer rfl (readKey_whole {.picked 0}) member)
    refine lawful_receive ?_ ?_ ?_ ?_
    · refine lawful_plain ?_ (fun e member => clientTranscript_request member)
      change Lawful _ ([] ++ Log.turn 0 [_])
      exact lawful_draw .nil nofun
    · trivial
    · exact fun _ => nofun
    · apply interception_known
      exact List.mem_append_right _ requested
  · trivial
  · exact fun _ => nofun
  · intro item delivers
    obtain rfl := List.mem_singleton.mp delivers
    apply Knows.encrypt _ _ (.bytes _)
    apply And.right (intercepted_known ?_)
    simp [requested]

theorem attack_own : Log.own attack 0 = interception.events .little luca := by
  simp only [attack, Log.own_append, Log.own_turn_self]
  rfl

/-- The client ends in success. -/
theorem attack_run : Runs (alone.cast 0).program (Log.own attack 0)
    (some (.ok Return.AUTHENTICATION_SUCCESS.val, ⟨luca, 0, intercepted.sessionKey⟩)) := by
  rw [attack_own]
  exact (clientTranscript_accepts (by decide)).returns _

theorem attack_possible : alone.Possible attack where
  lawful := attack_lawful
  runs := by
    intro id
    by_cases client : 0 = id
    · subst client
      exact ⟨_, attack_run⟩
    · refine ⟨none, ?_⟩
      have nothing : Log.own attack id = [] := by
        simp only [attack, Log.own_append, Log.own_turn_other client, List.append_nil]
      rw [nothing]
      exact .cut _

end Attack

section Honest

/-- One client, and servers. -/
def together : Setting where
  honest := {luca}
  cast
    | 0 => ⟨.user luca, .little, start⟩
    | _ => ⟨.server, .little, start⟩

/-- The exchange at the end of the client. -/
def ours : Exchange := ⟨.drawn 0, publicText {.drawn 1}, {.drawn 1}⟩

/-- The same exchange at the end of the server. -/
def theirs : Exchange := ⟨.drawn 1, publicText {.drawn 0}, {.drawn 0}⟩

theorem sessionKey_eq : ours.sessionKey = theirs.sessionKey := by
  apply congrArg Key.digest
  change Exponent.drawn 0 ::ₘ {.drawn 1} = .drawn 1 ::ₘ {.drawn 0}
  rw [← Multiset.cons_zero, Multiset.cons_swap, Multiset.cons_zero]

def client : Client.Transcript symbolic := clientTranscript ours .little luca .server

def server : Server.Transcript symbolic :=
  serverTranscript theirs luca (ours.response .little luca)

/-- The adversary only carries the messages. -/
def handshake : Log Nat (AuthOp symbolic) AuthOp.Ans :=
  Log.turn 0 [⟨.ssl .generateEphemeralKey, Exponent.drawn 0⟩] ++ Log.turn 0 (client.request luca) ++
    Log.turn 1 [⟨.receiveM1, (0, .ofKey (publicText {.drawn 0}) luca)⟩] ++
    Log.turn 1 (acknowledgement luca) ++
    Log.turn 1 [⟨.ssl .generateEphemeralKey, Exponent.drawn 1⟩] ++ Log.turn 1 (agreement theirs) ++
    Log.turn 0 [⟨.receiveM3, (0, client.offer)⟩] ++ Log.turn 0 (client.answer .little) ++
    Log.turn 1 [⟨.receiveM4, (0, ours.response .little luca)⟩] ++
    Log.turn 1 (outcome theirs .little luca (ours.response .little luca)) ++
    Log.turn 0 [⟨.receiveM5, (0, client.outcome)⟩] ++ Log.turn 0 client.closing

theorem offer_eq : client.offer = theirs.offer := by
  change AuthenticationM3.ofParts (P := symbolic) (publicText {.drawn 1}) (networkBytes 0)
    (Sealed.box ours.sessionKey (networkBytes 0) (.signature .server ours.clientText))
    (certificateText ⟨true, .server⟩) = theirs.offer
  rw [sessionKey_eq]
  rfl

/-- What has been sent can be delivered. -/
theorem relayed {op : AuthOp symbolic} {answer : op.Ans} {e : Occurrence}
    (sent : (id, (⟨op, answer⟩ : Occurrence)) ∈ log) (same : delivered e = emitted op) :
    ∀ item ∈ delivered e, Knows w log item := by
  rw [same]
  exact fun item shows => .heard sent shows

theorem handshake_lawful : Lawful together.Allowed handshake := by
  have requests : (0, (⟨.sendM1 (.ofKey (publicText {.drawn 0}) luca), (0 : Int)⟩ :
      Occurrence)) ∈ Log.turn 0 (client.request luca) := Log.mem_turn (by
    simp [Client.Transcript.request, client, clientTranscript, ours])
  have offers : (1, (⟨.sendM3 theirs.offer, (0 : Int)⟩ : Occurrence)) ∈
      Log.turn 1 (agreement theirs) := Log.mem_turn (by simp [agreement])
  have answers : (0, (⟨.sendM4 (ours.response .little luca), (0 : Int)⟩ : Occurrence)) ∈
      Log.turn 0 (client.answer .little) := Log.mem_turn (by
    simp [Client.Transcript.answer, client, clientTranscript, Exchange.response])
  have outcomes : (1, (⟨.sendM5 client.outcome, (0 : Int)⟩ : Occurrence)) ∈
      Log.turn 1 (outcome theirs .little luca (ours.response .little luca)) := by
    apply Log.mem_turn
    simp [outcome, client, clientTranscript, sessionKey_eq]
  unfold handshake
  refine lawful_plain ?_ (fun e member => clientTranscript_closing member)
  refine lawful_receive ?_ trivial (fun _ => nofun) ?_
  · refine lawful_plain ?_ (fun e member => outcome_plain ?_ member)
    · refine lawful_receive ?_ trivial (fun _ => nofun) ?_
      · refine lawful_plain ?_
          (fun e member => clientTranscript_answer rfl (readKey_whole {.drawn 1}) member)
        refine lawful_receive ?_ trivial (fun _ => nofun) ?_
        · refine lawful_plain ?_
            (fun e member => agreement_plain rfl (readKey_whole {.drawn 0}) member)
          refine lawful_draw ?_ ?_
          · refine lawful_plain ?_ (fun e member => acknowledgement_plain ?_ member)
            · refine lawful_receive ?_ trivial (fun _ => nofun) ?_
              · refine lawful_plain ?_ (fun e member => clientTranscript_request member)
                change Lawful _ ([] ++ Log.turn 0 [_])
                exact lawful_draw .nil nofun
              · exact relayed (List.mem_append_right _ requests) rfl
            · rintro other rfl -
              rfl
          · intro other member
            simp [Log.turn, Client.Transcript.request, client, clientTranscript, ours,
              acknowledgement] at member
            exact absurd member.2 (by decide)
        · rw [offer_eq]
          exact relayed (List.mem_append_right _ offers) rfl
      · exact relayed (List.mem_append_right _ answers) rfl
    · change Sealed.box ours.sessionKey _ _ = Sealed.box theirs.sessionKey _ _
      rw [sessionKey_eq]
      rfl
  · exact relayed (List.mem_append_right _ outcomes) rfl

theorem handshake_client : Runs (together.cast 0).program (Log.own handshake 0)
    (some (.ok Return.AUTHENTICATION_SUCCESS.val, ⟨luca, 0, ours.sessionKey⟩)) := by
  have events : Log.own handshake 0 = client.events .little luca := by
    simp only [handshake, Log.own_append, Log.own_turn_self, Log.own_turn_other Nat.one_ne_zero,
      List.append_nil]
    rfl
  rw [events]
  exact (clientTranscript_accepts (by decide)).returns _

theorem handshake_own_server : Log.own handshake 1 = server.events .little [] [] := by
  simp only [handshake, Log.own_append, Log.own_turn_self, Log.own_turn_other Nat.zero_ne_one,
    List.append_nil, List.nil_append]
  rfl

/-- The server ends in success. -/
theorem handshake_server : Runs (together.cast 1).program (Log.own handshake 1)
    (some (.ok Return.AUTHENTICATION_SUCCESS.val, ⟨luca, 0, theirs.sessionKey⟩)) := by
  rw [handshake_own_server]
  exact (serverTranscript_accepts (by decide) (by decide) (by decide) rfl).returns _

theorem handshake_possible : together.Possible handshake where
  lawful := handshake_lawful
  runs
    | 0 => ⟨_, handshake_client⟩
    | 1 => ⟨_, handshake_server⟩
    | id + 2 => by
        refine ⟨none, ?_⟩
        have nothing : Log.own handshake (id + 2) = [] := by
          simp only [handshake, Log.own_append, Log.own_turn_other (Nat.zero_ne_add_one _),
            Log.own_turn_other (by omega : 1 ≠ id + 2), List.append_nil]
        rw [nothing]
        exact .cut _

end Honest

end Symbolic
end CloudStorage
