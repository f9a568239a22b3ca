import CloudStorage.Authentication.Handshake

/-! What a success of one end says about the other end. -/
namespace CloudStorage

namespace Negotiation
variable {P : Primitives}

/-- A declared length inside the array takes exactly these characters. -/
theorem keyText_inside {array text : List P.Symbol} {length : UInt32} {s t : Session P}
    {trace : List (Interaction.Event (AuthOp P) AuthOp.Ans)}
    (fits : length.toNat ≤ array.length)
    (run : (keyText array length).Returns s trace (some text) t) :
    text = array.take length.toNat := by
  simp only [keyText, if_pos fits] at run
  split at run
  · cases (Interaction.Code.returns_pure.mp run).2.1
  · exact Option.some.inj (Interaction.Code.returns_pure.mp run).2.1

end Negotiation

namespace Symbolic
open Interaction Code Negotiation

variable {w : Setting} {log : Log Nat (AuthOp symbolic) AuthOp.Ans} {id : Nat}

namespace Exchange

theorem own_of_clientText {x y : Exchange} (same : x.clientText = y.clientText) :
    x.own = y.own := by
  have read := readKey_publicText {x.own} x.received
  have read' := readKey_publicText {y.own} y.received
  have texts : publicText {x.own} ++ x.received = publicText {y.own} ++ y.received := same
  rw [texts, read'] at read
  exact (Multiset.singleton_inj.mp (Option.some.inj read)).symm

/-- A server that has signed the text of a client has read the key of that client,
wherever the text was cut. -/
theorem peer_of_text {client server : Exchange} (read : readKey server.received = some server.peer)
    (same : client.clientText = server.serverText) : server.peer = {client.own} :=
  (readKey_cut same read).1

theorem agreed {client server : Exchange} (peer : server.peer = {client.own})
    (key : client.sessionKey = server.sessionKey) : client.peer = {server.own} := by
  have secrets : client.own ::ₘ client.peer = server.own ::ₘ server.peer := Key.digest.inj key
  rw [peer, ← Multiset.cons_zero, Multiset.cons_swap, Multiset.cons_inj_right,
    Multiset.cons_zero] at secrets
  exact secrets

end Exchange

/-- A server run that has ended in success. -/
structure Setting.Served (w : Setting) (log : Log Nat (AuthOp symbolic) AuthOp.Ans) (id : Nat)
    (t : Session symbolic) : Prop where
  agent : (w.cast id).agent = .server
  run : Runs (w.cast id).program (log.own id) (some (.ok Return.AUTHENTICATION_SUCCESS.val, t))

section
variable (possible : w.Possible log)
include possible

/-- Two drawn exponents make a key that the adversary does not know. -/
theorem secret {x : Exchange} {own : Exponent} {other : Nat}
    (here : ⟨.ssl .generateEphemeralKey, x.own⟩ ∈ log.own id)
    (there : ⟨.ssl .generateEphemeralKey, own⟩ ∈ log.own other) (peer : x.peer = {own}) :
    ¬Knows w log (.key x.sessionKey) := by
  intro known
  obtain ⟨number, drawn⟩ := possible.drawn here
  obtain ⟨number', rfl⟩ := possible.drawn there
  have bound := known.key_open possible
  rw [drawnCount_cons, peer, drawnCount_singleton, drawn] at bound
  simp [Exponent.isDrawn] at bound

/-- What a successful server knows of M1 and M4. -/
theorem Setting.Served.exchange {t : Session symbolic} (served : w.Served log id t)
    (honest : t.m_username ∈ w.honest) :
    ∃ (x : Exchange) (request : AuthenticationM1 symbolic) (aad : Bytes),
      ⟨.receiveM1, (0, request)⟩ ∈ log.own id ∧
      (request.m_ephemeral_key_len.toNat ≤ request.m_ephemeral_key.length →
        x.received = request.m_ephemeral_key.take request.m_ephemeral_key_len.toNat) ∧
      ⟨.ssl .generateEphemeralKey, x.own⟩ ∈ log.own id ∧
      readKey x.received = some x.peer ∧ t.m_session_key = x.sessionKey ∧
      Knows w log (.box (.box x.sessionKey aad (.signature (.user t.m_username) x.serverText))) := by
  have run := served.run
  rw [Participant.program_server served.agent] at run
  obtain ⟨d, named, read, trace, -, reading, -, rfl⟩ := Server.authenticationRequest_success run
  have occurs : ∀ e ∈ d.events (w.cast id).host named read, e ∈ log.own id := by
    intro e member
    rwa [trace]
  have ideal : ∀ e ∈ d.events (w.cast id).host named read, w.Ideal (w.cast id).agent e.op e.answer :=
    fun e member => possible.ideal e (occurs e member)
  have client : d.client_public_key = .user d.username :=
    ideal ⟨.ssl (.readPublicKey (publicKeyFile d.username)), .key d.client_public_key⟩
      (by simp [Server.Transcript.events]) d.username honest rfl _ rfl
  have reads : readKey d.client_key_text = some d.client_ephemeral_key :=
    ideal ⟨.ssl (.deserializeEphemeralKey d.client_key_text), some d.client_ephemeral_key⟩
      (by simp [Server.Transcript.events, Server.Agreement.events]) _ rfl
  have agrees : d.shared_secret = d.exponent ::ₘ d.client_ephemeral_key :=
    ideal ⟨.ssl (.deriveSharedSecret d.exponent d.client_ephemeral_key), some d.shared_secret⟩
      (by simp [Server.Transcript.events, Server.Agreement.events]) _ rfl
  have digest : d.session_key = .digest d.shared_secret :=
    ideal ⟨.ssl (.generateSHA256 d.shared_secret), d.session_key⟩
      (by simp [Server.Transcript.events, Server.Agreement.events])
  have writes : d.server_key_text = publicText {d.exponent} :=
    ideal ⟨.ssl (.serializeEphemeralKey d.exponent), some d.server_key_text⟩
      (by simp [Server.Transcript.events, Server.Agreement.events]) _ rfl
  have opens : d.response.m_sealed = .box d.session_key d.response.m_aad d.client_signature :=
    ideal ⟨.ssl (.decrypt d.session_key d.response.m_aad d.response.m_sealed),
      some d.client_signature⟩ (by simp [Server.Transcript.events, Server.Closing.events]) _ rfl
  have verdict : true = decide (d.client_signature = .signature d.client_public_key d.buffer) :=
    ideal ⟨.ssl (.isDSverified d.buffer d.client_signature d.client_public_key), true⟩
      (by simp [Server.Transcript.events, Server.Closing.events])
  have signature : d.client_signature = .signature d.client_public_key d.buffer :=
    of_decide_eq_true verdict.symm
  refine ⟨⟨d.exponent, d.client_key_text, d.client_ephemeral_key⟩, d.request, d.response.m_aad,
    ?_, ?_, ?_, reads, ?_, ?_⟩
  · exact occurs _ (by simp [Server.Transcript.events])
  · exact fun fits => keyText_inside fits reading
  · exact occurs _ (by simp [Server.Transcript.events, Server.Agreement.events])
  · exact digest.trans (congrArg Key.digest agrees)
  · have sealed : d.response.m_sealed = .box (.digest (d.exponent ::ₘ d.client_ephemeral_key))
        d.response.m_aad (.signature (.user d.username) (d.client_key_text ++ publicText {d.exponent})) := by
      rw [opens, signature, client, digest, agrees, Server.Agreement.buffer, writes]
    have delivers : ⟨.receiveM4, (0, d.response)⟩ ∈ log.own id :=
      occurs _ (by simp [Server.Transcript.events, Server.Closing.events])
    have known := possible.known delivers (List.mem_singleton_self (Item.box d.response.m_sealed))
    rw [sealed] at known
    exact known

/-- Whoever has made the box that a successful server opens: a client of that user, after it
has accepted the key of this very server run. -/
theorem confirmation {x : Exchange} {name : Bytes} {aad : Bytes} (honest : name ∈ w.honest)
    (drawn : ⟨.ssl .generateEphemeralKey, x.own⟩ ∈ log.own id)
    (read : readKey x.received = some x.peer)
    (known : Knows w log (.box (.box x.sessionKey aad (.signature (.user name) x.serverText)))) :
    ∃ (client : Nat) (y : Exchange) (offer : AuthenticationM3 symbolic)
      (certificate : Certificate) (answer : Int), (w.cast client).agent = .user name ∧
      Accepted (w.cast client).host offer y certificate (log.own client) ∧
      (client, (⟨.sendM4 (y.response (w.cast client).host name), answer⟩ : Occurrence)) ∈ log ∧
      y.clientText = x.serverText ∧ y.peer = {x.own} ∧ y.sessionKey = x.sessionKey := by
  have traced := known.traced possible
  rcases traced with ⟨open_, corrupt | ⟨key, aad', -, boxed⟩⟩ | boxed
  · obtain ⟨other, same, dishonest⟩ := corrupt
    cases same
    exact absurd honest dishonest
  · generalize text : x.serverText = signed at boxed
    generalize user : Agent.user name = agent at boxed
    cases boxed with
    | server => cases user
    | @client session name' y offer certificate answer isUser accepted sent =>
        have peer := Exchange.peer_of_text read text.symm
        exact absurd open_ (secret possible drawn accepted.signed.drawn peer)
  · generalize text : x.serverText = signed at boxed
    generalize user : Agent.user name = agent at boxed
    generalize secrets : x.sessionKey = key at boxed
    cases boxed with
    | server => cases user
    | @client session name' y offer certificate answer isUser accepted sent =>
        cases user
        have peer := Exchange.peer_of_text read text.symm
        exact ⟨session, y, offer, certificate, answer, isUser, accepted, sent, rfl,
          Exchange.agreed peer secrets.symm, rfl⟩

end

/-- The client run behind a success of the server: a run for the user of the session, which
has signed the key bytes of M1 followed by the key of this server run, has accepted that key
and has derived the key of the session. -/
structure Setting.Corresponds (w : Setting) (log : Log Nat (AuthOp symbolic) AuthOp.Ans)
    (server client : Nat) (t : Session symbolic) (x : Exchange) (own : Exponent)
    (request : AuthenticationM1 symbolic) : Prop where
  requested : ⟨.receiveM1, (0, request)⟩ ∈ log.own server
  drawn : ⟨.ssl .generateEphemeralKey, own⟩ ∈ log.own server
  agent : (w.cast client).agent = .user t.m_username
  accepted : ∃ offer certificate,
    Accepted (w.cast client).host offer x certificate (log.own client)
  answered : ∃ answer : Int, (client,
    (⟨.sendM4 (x.response (w.cast client).host t.m_username), answer⟩ : Occurrence)) ∈ log
  signed : x.clientText =
    request.m_ephemeral_key.take request.m_ephemeral_key_len.toNat ++ publicText {own}
  peer : x.peer = {own}
  key : x.sessionKey = t.m_session_key

/-- A client run belongs to one server run. -/
theorem Setting.Corresponds.unique (possible : w.Possible log) {server other client : Nat}
    {t t' : Session symbolic} {x y : Exchange} {own own' : Exponent}
    {request request' : AuthenticationM1 symbolic}
    (first : w.Corresponds log server client t x own request)
    (second : w.Corresponds log other client t' y own' request') : server = other := by
  obtain ⟨answer, sent⟩ := first.answered
  obtain ⟨answer', sent'⟩ := second.answered
  have same := possible.answers_once sent sent'
  have boxes : Sealed.box x.sessionKey ((w.cast client).host.bytes 1)
      (.signature (.user t.m_username) x.clientText) =
      .box y.sessionKey ((w.cast client).host.bytes 1)
        (.signature (.user t'.m_username) y.clientText) :=
    congrArg AuthenticationM4.m_sealed same
  injection boxes with keys _ plaintexts
  injection plaintexts with _ texts
  have owns := Exchange.own_of_clientText texts
  have secrets : x.own ::ₘ x.peer = y.own ::ₘ y.peer := Key.digest.inj keys
  rw [owns, Multiset.cons_inj_right, first.peer, second.peer, Multiset.singleton_inj] at secrets
  have drawn := second.drawn
  rw [← secrets] at drawn
  exact possible.owner first.drawn drawn

/-- The server authenticates the user. -/
theorem server_authenticates (possible : w.Possible log) {server : Nat} {t : Session symbolic}
    (served : w.Served log server t) (honest : t.m_username ∈ w.honest)
    (declared : ∀ request : AuthenticationM1 symbolic, ⟨.receiveM1, (0, request)⟩ ∈ log.own server →
      request.m_ephemeral_key_len.toNat ≤ request.m_ephemeral_key.length) :
    ∃ client x own request, w.Corresponds log server client t x own request ∧
      ∀ other t' y own' request', w.Corresponds log other client t' y own' request' →
        other = server := by
  obtain ⟨x, request, aad, requested, inside, drawn, read, key, known⟩ :=
    served.exchange possible honest
  obtain ⟨client, y, offer, certificate, answer, agent, accepted, sent, text, peer, keys⟩ :=
    confirmation possible honest drawn read known
  have corresponds : w.Corresponds log server client t y x.own request := by
    constructor
    · exact requested
    · exact drawn
    · exact agent
    · exact ⟨offer, certificate, accepted⟩
    · exact ⟨answer, sent⟩
    · rw [text, Exchange.serverText, inside (declared request requested)]
    · exact peer
    · exact keys.trans key.symm
  refine ⟨client, y, x.own, request, corresponds, ?_⟩
  intro other t' z own' request' second
  exact second.unique possible corresponds

theorem handshake_authenticates_user : ∃ client x own request,
    together.Corresponds handshake 1 client ⟨luca, 0, theirs.sessionKey⟩ x own request ∧
      ∀ other t' y own' request',
        together.Corresponds handshake other client t' y own' request' → other = 1 := by
  apply server_authenticates handshake_possible ⟨rfl, handshake_server⟩
  · exact rfl
  · intro request received
    rw [handshake_own_server, server, serverTranscript_events] at received
    have only : request = .ofKey (publicText {.drawn 0}) luca := by
      simpa [acknowledgement, agreement, outcome, theirs] using received
    rw [only]
    exact ofKey_declared (by rw [publicText_length]; decide)

/-- A server run has signed both keys of the client's exchange, and nobody but the two of
them has the session key. -/
def ServerAuthenticated (w : Setting) (log : Log Nat (AuthOp symbolic) AuthOp.Ans) (client : Nat)
    (x : Exchange) : Prop :=
  ∃ server, (w.cast server).agent = .server ∧
    (∃ signature, ⟨.ssl (.generateDS x.clientText), signature⟩ ∈ log.own server) ∧
    ¬Knows w log (.key x.sessionKey) ∧
    ∀ other secret, (other, (⟨.ssl (.generateSHA256 secret), x.sessionKey⟩ : Occurrence)) ∈ log →
      other = client ∨ other = server

section
variable (possible : w.Possible log)
include possible

/-- Who derives a key has drawn one of its exponents. -/
theorem derived_own {secret : Element} {key : Key}
    (member : (id, (⟨.ssl (.generateSHA256 secret), key⟩ : Occurrence)) ∈ log) :
    key = .digest secret ∧
      ∃ own ∈ secret, ⟨.ssl .generateEphemeralKey, own⟩ ∈ log.own id := by
  obtain ⟨first, rest, -, within, own, peer, drawn, rfl⟩ := possible.reason member
  exact ⟨possible.ideal _ (Log.mem_own.mpr member), own, Multiset.mem_cons_self .., within drawn⟩

/-- A box with the signature of the server over the client's text is the server's answer to
this client. -/
theorem server_of_signature {x : Exchange} {aad : Bytes}
    (drawn : ⟨.ssl .generateEphemeralKey, x.own⟩ ∈ log.own id)
    (known : Knows w log (.box (.box x.sessionKey aad (.signature .server x.clientText)))) :
    ServerAuthenticated w log id x := by
  have traced := known.traced possible
  rcases traced with ⟨open_, corrupt | ⟨key, aad', known', boxed⟩⟩ | boxed
  · obtain ⟨other, same, -⟩ := corrupt
    cases same
  · generalize text : x.clientText = signed at boxed
    generalize owner : Agent.server = agent at boxed
    cases boxed with
    | client => cases owner
    | @server session y isServer signed =>
        have peer := Exchange.peer_of_text signed.read text
        exact absurd known' (secret possible signed.drawn drawn peer)
  · generalize text : x.clientText = signed at boxed
    generalize owner : Agent.server = agent at boxed
    generalize secrets : x.sessionKey = key at boxed
    cases boxed with
    | client => cases owner
    | @server session y isServer signed =>
        have peer := Exchange.peer_of_text signed.read text
        have agreed := Exchange.agreed peer secrets
        refine ⟨session, isServer, ?_, secret possible drawn signed.drawn agreed, ?_⟩
        · rw [text]
          exact signed.signed
        · intro other shared member
          obtain ⟨same, own, part, draws⟩ := derived_own possible member
          obtain rfl : x.own ::ₘ x.peer = shared := Key.digest.inj same
          rw [agreed, Multiset.mem_cons, Multiset.mem_singleton] at part
          rcases part with rfl | rfl
          · exact .inl (possible.owner draws drawn)
          · exact .inr (possible.owner draws signed.drawn)

/-- Only M4 of this client itself could be taken for a signed M3 of a user, and its counter
is another one: the adversary has made the box, so it knows the key. -/
theorem known_of_user {x : Exchange} {aad name : Bytes}
    (drawn : ⟨.ssl .generateEphemeralKey, x.own⟩ ∈ log.own id)
    (counter : (w.cast id).host.value aad = 0)
    (known : Knows w log (.box (.box x.sessionKey aad (.signature (.user name) x.clientText)))) :
    Knows w log (.key x.sessionKey) := by
  have traced := known.traced possible
  rcases traced with ⟨open_, -⟩ | boxed
  · exact open_
  · generalize text : x.clientText = signed at boxed
    generalize user : Agent.user name = agent at boxed
    generalize secrets : x.sessionKey = key at boxed
    generalize bytes : aad = stamp at boxed
    cases boxed with
    | server => cases user
    | @client session name' y offer certificate answer isUser accepted sent =>
        have own := Exchange.own_of_clientText text
        rw [own] at drawn
        obtain rfl := possible.owner drawn accepted.signed.drawn
        rw [bytes, Endian.value_bytes] at counter
        exact absurd counter (by decide)

/-- The client authenticates the server exactly when the certificate that it was shown is the
server's: the name in a certificate of the CA is not compared with anything. -/
theorem client_authenticates_iff {name : Bytes} {t : Session symbolic}
    (agent : (w.cast id).agent = .user name)
    (run : Runs (w.cast id).program (log.own id)
      (some (.ok Return.AUTHENTICATION_SUCCESS.val, t))) :
    ∃ offer x certificate, Accepted (w.cast id).host offer x certificate (log.own id) ∧
      t.m_session_key = x.sessionKey ∧
      (ServerAuthenticated w log id x ↔ certificate.subject = .server) := by
  obtain ⟨offer, x, certificate, accepted, key⟩ := possible.acceptedKey agent run
  refine ⟨offer, x, certificate, accepted, key, ?_⟩
  have known := possible.known accepted.received
    (List.mem_cons_self .. : Item.box offer.m_sealed ∈ delivered ⟨.receiveM3, (0, offer)⟩)
  rw [accepted.opened] at known
  constructor
  · rintro ⟨server, -, -, secret, -⟩
    cases subject : certificate.subject with
    | server => rfl
    | user other =>
        rw [subject] at known
        exact absurd (known_of_user possible accepted.signed.drawn accepted.counter known) secret
  · intro subject
    rw [subject] at known
    exact server_of_signature possible accepted.signed.drawn known

end

theorem handshake_authenticates_server : ∃ offer x certificate,
    Accepted .little offer x certificate (Log.own handshake 0) ∧ ours.sessionKey = x.sessionKey ∧
      (ServerAuthenticated together handshake 0 x ↔ certificate.subject = .server) :=
  client_authenticates_iff handshake_possible rfl handshake_client

/-- A client that is shown the certificate of another user takes the adversary for the server:
no server takes part, and the adversary knows the key of the session. -/
theorem client_impersonated : luca ∈ alone.honest ∧ mallory ∉ alone.honest ∧
    alone.Possible attack ∧ (alone.cast 0).agent = .user luca ∧
    Runs (alone.cast 0).program (Log.own attack 0)
      (some (.ok Return.AUTHENTICATION_SUCCESS.val, ⟨luca, 0, intercepted.sessionKey⟩)) ∧
    Knows alone attack (.key intercepted.sessionKey) ∧
    ∀ x, ¬ServerAuthenticated alone attack 0 x := by
  refine ⟨rfl, ?_, attack_possible, rfl, attack_run, ?_, ?_⟩
  · intro same
    exact absurd (show mallory = luca from same) (by decide)
  · apply And.right (intercepted_known ?_)
    apply Log.mem_own.mp
    rw [attack_own]
    simp [Client.Transcript.events, Client.Transcript.request, interception, clientTranscript,
      intercepted]
  · rintro x ⟨server, isServer, -⟩
    cases isServer

end Symbolic
end CloudStorage
