import CloudStorage.Interaction.Points
import CloudStorage.Server
import CloudStorage.Client

/-! What follows a receive that failed: whether the method ends at once with a failure,
or goes on with a buffer that nothing was written to. -/
namespace CloudStorage
open Interaction Code Program

namespace Client

/-- `authenticationRequest` from the receive of M2 on. -/
def awaitM2 {P : Primitives} (host : Endian) (client_ephemeral_key : P.Exponent)
    (client_key_text : List P.Symbol) : Auth P Nat := do
  let (result, simpleMessage) ← Negotiation.ask .receiveM2
  if result = -1 then return Return.RECEIVE_FAILURE.val
  if simpleMessage ≠ Result.ACK.byte then return Error.USERNAME_NOT_FOUND.val
  let (result, authenticationM3) ← Negotiation.ask .receiveM3
  if result ≠ 0 then return Return.RECEIVE_FAILURE.val
  answerAuthentication host client_ephemeral_key client_key_text authenticationM3

end Client

namespace Method
variable {α β : Type}

/-- The method threw, or returned one of these values. -/
def Failed (Fails : α → Prop) (ending : Except Thrown α × Session octets) : Prop :=
  ∀ value, ending.1 = .ok value → Fails value

/-- With this outcome of a receive the method ends at once and fails, in the same way for
any two contents of the buffer. -/
def Heeds {Op : Type} {Ans : Op → Type} {Buffer : Type} (Fails : α → Prop)
    (next : Int × Buffer → Program Op Ans (Except Thrown α × Session octets)) (outcome : Int) :
    Prop :=
  ∃ ending, Failed Fails ending ∧ ∀ buffer, next (outcome, buffer) = .done ending

/-- The method is at a receive of which only -1 is tested: of a message of the session,
or of M2 at the client. -/
def TestsErrorOnly (p : Program Op Op.Ans (Except Thrown α × Session octets)) : Prop :=
  (∃ plaintext_len s, ∃ f : Except Return Bytes → Method α,
    p = (receiveGeneric plaintext_len >>= f) s) ∨
  ∃ host client_ephemeral_key client_key_text s, ∃ f : Nat → Method α,
    p = (Auth.onWire (Client.awaitM2 host client_ephemeral_key client_key_text) >>= f) s

/-- What holds at each receive. -/
def Attentive (Fails : α → Prop) :
    (op : Op) → (op.Ans → Program Op Op.Ans (Except Thrown α × Session octets)) → Prop
  | .receive size, next => Heeds Fails next (-1) ∧
      (Heeds Fails next (-2) ∨ TestsErrorOnly (.call (.receive size) next))
  | _, _ => True

/-- Every receive of the method is followed in this way. -/
def Minds (Fails : α → Prop) (c : Method α) : Prop := ∀ s, (c s).Everywhere (Attentive Fails)

/-- The method fails without another call. -/
def Stops (Fails : α → Prop) (c : Method α) : Prop :=
  ∀ s, ∃ ending, Failed Fails ending ∧ c s = .done ending

theorem stops_pure {Fails : α → Prop} {value : α} (fails : Fails value) :
    Stops Fails (pure value) := by
  intro s
  refine ⟨(.ok value, s), ?_, rfl⟩
  rintro _ ⟨⟩
  exact fails

theorem stops_throw {Fails : α → Prop} {e : Thrown} : Stops Fails (throw e) := by
  intro s
  refine ⟨(.error e, s), ?_, rfl⟩
  rintro _ ⟨⟩

/-- What a method does after its first part has ended. -/
def resume (g : α → Method β) :
    Except Thrown α × Session octets → Program Op Op.Ans (Except Thrown β × Session octets)
  | (.ok value, t) => g value t
  | (.error e, t) => .done (.error e, t)

theorem run_resume {c : Method α} {g : α → Method β} {s : Session octets} :
    (c >>= g) s = (c s).bind (resume g) := by
  rw [Code.run_bind]
  congr
  funext ⟨result, t⟩
  cases result with
  | error e => rfl
  | ok value => rfl

theorem TestsErrorOnly.bind {p : Program Op Op.Ans (Except Thrown α × Session octets)}
    {g : α → Method β} (tests : TestsErrorOnly p) : TestsErrorOnly (p.bind (resume g)) := by
  obtain ⟨size, s, f, rfl⟩ | ⟨host, key, text, s, f, rfl⟩ := tests
  · refine .inl ⟨size, s, fun opened => f opened >>= g, ?_⟩
    rw [← Code.bind_assoc]
    exact run_resume.symm
  · refine .inr ⟨host, key, text, s, fun result => f result >>= g, ?_⟩
    rw [← Code.bind_assoc]
    exact run_resume.symm

theorem Heeds.bind {FailsA : α → Prop} {FailsB : β → Prop} {g : α → Method β} {outcome : Int}
    {next : Int × Bytes → Program Op Op.Ans (Except Thrown α × Session octets)}
    (stops : ∀ value, FailsA value → Stops FailsB (g value)) (heeds : Heeds FailsA next outcome) :
    Heeds FailsB (fun answer => (next answer).bind (resume g)) outcome := by
  obtain ⟨⟨result, t⟩, failed, ends⟩ := heeds
  cases result with
  | error e =>
      refine ⟨(.error e, t), nofun, ?_⟩
      intro buffer
      dsimp only
      rw [ends buffer]
      rfl
  | ok value =>
      obtain ⟨ending, failed, stopped⟩ := stops value (failed value rfl) t
      refine ⟨ending, failed, ?_⟩
      intro buffer
      dsimp only
      rw [ends buffer]
      exact stopped

/-- Sequencing: what the first part fails with makes the second stop. -/
theorem minds_seq {FailsA : α → Prop} {FailsB : β → Prop} {c : Method α} {f : α → Method β}
    (first : Minds FailsA c) (stops : ∀ value, FailsA value → Stops FailsB (f value))
    (rest : ∀ value, Minds FailsB (f value)) : Minds FailsB (c >>= f) := by
  intro s
  rw [run_resume]
  refine Everywhere.bind ?_ (first s) ?_
  · intro op next attentive
    cases op with
    | receive size =>
        obtain ⟨error, closed⟩ := attentive
        refine ⟨error.bind stops, ?_⟩
        cases closed with
        | inl heeds => exact .inl (heeds.bind stops)
        | inr tests => exact .inr tests.bind
    | _ => trivial
  · rintro ⟨result, t⟩
    cases result with
    | error e => trivial
    | ok value => exact rest value t

/-- Code of which no receive can fail with a value. -/
abbrev Quiet (c : Method α) : Prop := Minds (fun _ => False) c

section Rules
variable {Fails : α → Prop} {FailsB : β → Prop}

theorem minds_then {c : Method α} {f : α → Method β} (first : Quiet c)
    (rest : ∀ value, Minds FailsB (f value)) : Minds FailsB (c >>= f) :=
  minds_seq first (fun _ none => none.elim) rest

theorem minds_pure {value : α} : Minds Fails (pure value) := fun _ => trivial

theorem minds_throw {e : Thrown} : Minds Fails (throw e : Method α) := fun _ => trivial

theorem minds_get {f : Session octets → Method α} (rest : ∀ s, Minds Fails (f s)) :
    Minds Fails (get >>= f) := fun s => rest s s

theorem quiet_modify {update : Session octets → Session octets} :
    Quiet (modify update : Method Unit) := fun _ => trivial

theorem minds_ite {condition : Prop} [Decidable condition] {yes no : Method α}
    (first : Minds Fails yes) (second : Minds Fails no) :
    Minds Fails (if condition then yes else no) := by
  by_cases h : condition
  · rw [if_pos h]
    exact first
  · rw [if_neg h]
    exact second

def Listens : Op → Prop
  | .receive _ => True
  | _ => False

/-- A call other than a receive. -/
theorem minds_ask {op : Op} {f : op.Ans → Method β} (speaks : ¬Listens op)
    (rest : ∀ answer, Minds FailsB (f answer)) : Minds FailsB (ask op >>= f) := by
  intro s
  cases op with
  | receive size => exact absurd trivial speaks
  | _ => exact ⟨trivial, fun answer => rest answer s⟩

end Rules

section Exchange
variable {plaintext : Bytes}

theorem quiet_encryptGeneric : Quiet (encryptGeneric plaintext) := by
  apply minds_ite
  · exact minds_pure
  · apply minds_get
    intro s
    apply minds_ask id
    intro ciphertext
    cases ciphertext with
    | none => exact minds_pure
    | some ciphertext => exact minds_pure

theorem quiet_sendGeneric : Quiet (sendGeneric plaintext) := by
  apply minds_then quiet_encryptGeneric
  intro message
  cases message with
  | none => exact minds_pure
  | some message =>
      apply minds_ask id
      intro sent
      exact minds_ite minds_pure minds_pure

theorem quiet_sendSimple {message_code : UInt8} : Quiet (sendSimple message_code) := by
  apply minds_ask id
  intro filler
  exact quiet_sendGeneric

theorem quiet_openGeneric {frame : Generic} {Fails : Except Return Bytes → Prop} :
    Minds Fails (openGeneric frame) := by
  apply minds_get
  intro s
  apply minds_ask id
  intro decrypted
  cases decrypted with
  | none => exact minds_pure
  | some plaintext =>
      apply minds_ask id
      intro _
      apply minds_ite
      · exact minds_pure
      · apply minds_ask id
        intro _
        exact minds_pure

/-- Here only -1 leads to a failure. -/
theorem minds_receiveGeneric {plaintext_len : Nat} :
    Minds (· = .error .RECEIVE_FAILURE) (receiveGeneric plaintext_len) := by
  intro s
  constructor
  · constructor
    · refine ⟨(.ok (.error .RECEIVE_FAILURE), s), ?_, ?_⟩
      · rintro _ ⟨⟩
        rfl
      · intro buffer
        rfl
    · exact .inr (.inl ⟨plaintext_len, s, pure, congrFun (Code.bind_pure (receiveGeneric plaintext_len)).symm s⟩)
  · rintro ⟨result, buffer⟩
    have goes : Minds (· = .error .RECEIVE_FAILURE) (if result = -1 then
        pure (.error .RECEIVE_FAILURE) else
          openGeneric (Generic.deserialize buffer plaintext_len)) :=
      minds_ite minds_pure quiet_openGeneric
    exact goes s

end Exchange
end Method

namespace Negotiation
open Method

/-- What holds at each receive of the negotiation: only M2 is used after a result of -2. -/
def Attentive (host : Endian) : (op : AuthOp octets) →
    (op.Ans → Program (AuthOp octets) AuthOp.Ans (Except Thrown Nat × Session octets)) → Prop
  | .receiveM1, next => Heeds (· = Return.RECEIVE_FAILURE.val) next (-1) ∧
      Heeds (· = Return.RECEIVE_FAILURE.val) next (-2)
  | .receiveM2, next => Heeds (· = Return.RECEIVE_FAILURE.val) next (-1) ∧
      ∃ client_ephemeral_key client_key_text s, .call .receiveM2 next =
        Client.awaitM2 host client_ephemeral_key client_key_text s
  | .receiveM3, next => Heeds (· = Return.RECEIVE_FAILURE.val) next (-1) ∧
      Heeds (· = Return.RECEIVE_FAILURE.val) next (-2)
  | .receiveM4, next => Heeds (· = Return.RECEIVE_FAILURE.val) next (-1) ∧
      Heeds (· = Return.RECEIVE_FAILURE.val) next (-2)
  | .receiveM5, next => Heeds (· = Return.RECEIVE_FAILURE.val) next (-1) ∧
      Heeds (· = Return.RECEIVE_FAILURE.val) next (-2)
  | _, _ => True

def Minds (host : Endian) (c : Auth octets Nat) : Prop :=
  ∀ s, (c s).Everywhere (Attentive host)

def Listens : AuthOp octets → Prop
  | .receiveM1 | .receiveM2 | .receiveM3 | .receiveM4 | .receiveM5 => True
  | _ => False

/-- Code that receives nothing. -/
def Silent {α : Type} (c : Auth octets α) : Prop :=
  ∀ s, (c s).Everywhere fun op _ => ¬Listens op

section Rules
variable {host : Endian} {α : Type}

theorem silent_pure {value : α} : Silent (pure value) := fun _ => trivial

theorem silent_ask {op : AuthOp octets} {f : op.Ans → Auth octets α} (silent : ¬Listens op)
    (rest : ∀ answer, Silent (f answer)) : Silent (ask op >>= f) :=
  fun s => ⟨silent, fun answer => rest answer s⟩

theorem silent_ite {condition : Prop} [Decidable condition] {yes no : Auth octets α}
    (first : Silent yes) (second : Silent no) : Silent (if condition then yes else no) := by
  by_cases h : condition
  · rw [if_pos h]
    exact first
  · rw [if_neg h]
    exact second

theorem silent_keyText {array : Bytes} {length : UInt32} :
    Silent (keyText (P := octets) array length) := by
  apply silent_ite silent_pure
  apply silent_ite silent_pure
  apply silent_ask id
  intro beyond
  exact silent_pure

theorem silent_certificateText {array : Bytes} {length : UInt32} :
    Silent (certificateText (P := octets) array length) := by
  apply silent_ite
  · apply silent_ite silent_pure
    apply silent_ask id
    intro ends
    apply silent_ite silent_pure
    apply silent_ask id
    intro beyond
    exact silent_pure
  · apply silent_ite silent_pure
    apply silent_ask id
    intro beyond
    exact silent_pure

theorem silent_usernameText {m_username : Bytes} :
    Silent (usernameText (P := octets) m_username) := by
  apply silent_ite silent_pure
  apply silent_ask id
  intro beyond
  exact silent_pure

theorem silent_counterDiffers {received : UInt32} :
    Silent (counterDiffers (P := octets) received) := by
  intro s
  exact ⟨id, fun _ => trivial⟩

theorem minds_silent {c : Auth octets α} {f : α → Auth octets Nat} (silent : Silent c)
    (rest : ∀ value, Minds host (f value)) : Minds host (c >>= f) := by
  intro s
  refine Everywhere.bind ?_ (silent s) ?_
  · intro op next quiet
    cases op with
    | receiveM1 => exact absurd trivial quiet
    | receiveM2 => exact absurd trivial quiet
    | receiveM3 => exact absurd trivial quiet
    | receiveM4 => exact absurd trivial quiet
    | receiveM5 => exact absurd trivial quiet
    | _ => trivial
  · rintro ⟨result, t⟩
    cases result with
    | error e => trivial
    | ok value => exact rest value t

theorem minds_ask {op : AuthOp octets} {f : op.Ans → Auth octets Nat} (silent : ¬Listens op)
    (rest : ∀ answer, Minds host (f answer)) : Minds host (ask op >>= f) :=
  minds_silent (fun _ => ⟨silent, fun _ => trivial⟩) rest

theorem minds_pure {value : Nat} : Minds host (pure value) := fun _ => trivial

theorem minds_ite {condition : Prop} [Decidable condition] {yes no : Auth octets Nat}
    (first : Minds host yes) (second : Minds host no) :
    Minds host (if condition then yes else no) := by
  by_cases h : condition
  · rw [if_pos h]
    exact first
  · rw [if_neg h]
    exact second

theorem minds_modify {update : Session octets → Session octets} {f : Unit → Auth octets Nat}
    (rest : Minds host (f ())) : Minds host (modify update >>= f) := fun s => rest (update s)

theorem minds_get {f : Session octets → Auth octets Nat} (rest : ∀ s, Minds host (f s)) :
    Minds host (get >>= f) := fun s => rest s s

/-- A method that returns its receive failure without a look at the buffer. -/
theorem heeds_return {Buffer : Type} {outcome : Int} {s : Session octets}
    {next : Int × Buffer → Program (AuthOp octets) AuthOp.Ans (Except Thrown Nat × Session octets)}
    (ends : ∀ buffer, next (outcome, buffer) = .done (.ok Return.RECEIVE_FAILURE.val, s)) :
    Heeds (· = Return.RECEIVE_FAILURE.val) next outcome := by
  refine ⟨_, ?_, ends⟩
  rintro _ ⟨⟩
  rfl

theorem minds_receive {op : AuthOp octets} {f : op.Ans → Auth octets Nat}
    (attentive : ∀ s, Attentive host op fun answer => f answer s)
    (rest : ∀ answer, Minds host (f answer)) : Minds host (ask op >>= f) :=
  fun s => ⟨attentive s, fun answer => rest answer s⟩

end Rules
end Negotiation

namespace Server
open Negotiation
variable {host : Endian}

theorem minds_finishAuthentication {client_public_key ephemeral_key_buffer : Bytes} :
    Negotiation.Minds host
      (finishAuthentication (P := octets) host client_public_key ephemeral_key_buffer) := by
  refine minds_receive ?_ ?_
  · exact fun s => ⟨heeds_return fun _ => rfl, heeds_return fun _ => rfl⟩
  rintro ⟨result, authenticationM4⟩
  apply minds_ite minds_pure
  apply minds_silent silent_counterDiffers
  intro differs
  apply minds_ite minds_pure
  apply minds_modify
  apply minds_get
  intro s
  apply minds_ask id
  intro decrypted
  cases decrypted with
  | none => exact minds_pure
  | some decrypted_signature =>
  apply minds_ask id
  intro isSignatureVerified
  apply minds_ask id
  intro filler
  apply minds_get
  intro s
  apply minds_ask id
  intro ciphertext
  cases ciphertext with
  | none => exact minds_pure
  | some ciphertext =>
  apply minds_ask id
  intro sent
  apply minds_ite minds_pure
  apply minds_modify
  exact minds_ite minds_pure minds_pure

theorem minds_answerAuthentication {authenticationM1 : AuthenticationM1 octets}
    {client_public_key : Bytes} : Negotiation.Minds host
      (answerAuthentication (P := octets) host authenticationM1 client_public_key) := by
  apply minds_ask id
  intro server_ephemeral_key
  apply minds_silent silent_keyText
  intro text
  cases text with
  | none => exact minds_pure
  | some client_key_text =>
  apply minds_ask id
  intro peer
  cases peer with
  | none => exact minds_pure
  | some client_ephemeral_key =>
  apply minds_ask id
  intro secret
  cases secret with
  | none => exact minds_pure
  | some shared_secret =>
  apply minds_ask id
  intro session_key
  apply minds_modify
  apply minds_ask id
  intro serialized
  cases serialized with
  | none => exact minds_pure
  | some server_key_text =>
  apply minds_ask id
  intro loaded
  apply minds_ite minds_pure
  apply minds_ask id
  intro digital_signature
  apply minds_modify
  apply minds_ask id
  intro ciphertext
  cases ciphertext with
  | none => exact minds_pure
  | some ciphertext =>
  apply minds_ask id
  intro serialized_certificate
  apply minds_ask id
  intro sent
  apply minds_ite minds_pure
  apply minds_modify
  exact minds_finishAuthentication

theorem minds_authenticationRequest :
    Negotiation.Minds host (authenticationRequest (P := octets) host) := by
  refine minds_receive ?_ ?_
  · exact fun s => ⟨heeds_return fun _ => rfl, heeds_return fun _ => rfl⟩
  rintro ⟨result, authenticationM1⟩
  apply minds_ite minds_pure
  apply minds_silent silent_usernameText
  intro username
  apply minds_ask id
  intro file
  cases file with
  | missing => exact minds_pure
  | unreadable =>
      apply minds_modify
      apply minds_ask id
      intro sent
      exact minds_ite minds_pure minds_pure
  | key client_public_key =>
      apply minds_modify
      apply minds_ask id
      intro sent
      exact minds_ite minds_pure minds_answerAuthentication

end Server

namespace Client
open Negotiation
variable {host : Endian}

theorem minds_finishAuthentication :
    Negotiation.Minds host (finishAuthentication (P := octets)) := by
  refine minds_receive ?_ ?_
  · exact fun s => ⟨heeds_return fun _ => rfl, heeds_return fun _ => rfl⟩
  rintro ⟨result, generic_message⟩
  apply minds_ite minds_pure
  apply minds_get
  intro s
  apply minds_ask id
  intro plaintext
  cases plaintext with
  | none => exact minds_pure
  | some plaintext =>
  apply minds_silent silent_counterDiffers
  intro differs
  cases differs with
  | true => exact fun _ => trivial
  | false =>
  apply minds_ite minds_pure
  apply minds_modify
  exact minds_pure

theorem minds_answerAuthentication {client_ephemeral_key client_key_text : Bytes}
    {authenticationM3 : AuthenticationM3 octets} : Negotiation.Minds host
      (answerAuthentication (P := octets) host client_ephemeral_key client_key_text
        authenticationM3) := by
  apply minds_modify
  apply minds_silent silent_counterDiffers
  intro differs
  apply minds_ite minds_pure
  apply minds_modify
  apply minds_silent silent_keyText
  intro text
  cases text with
  | none => exact minds_pure
  | some server_key_text =>
  apply minds_ask id
  intro peer
  cases peer with
  | none => exact minds_pure
  | some server_ephemeral_key =>
  apply minds_ask id
  intro secret
  cases secret with
  | none => exact minds_pure
  | some shared_secret =>
  apply minds_ask id
  intro session_key
  apply minds_modify
  apply minds_ask id
  intro decrypted
  cases decrypted with
  | none => exact minds_pure
  | some decrypted_signature =>
  apply minds_ask id
  intro digital_signature
  apply minds_silent silent_certificateText
  intro certificate_text
  apply minds_ask id
  intro server_certificate
  cases server_certificate with
  | none => exact minds_pure
  | some server_certificate =>
  apply minds_ask id
  intro trusted
  apply minds_ite minds_pure
  apply minds_ask id
  intro server_public_key
  apply minds_ask id
  intro isSignatureVerified
  apply minds_ite minds_pure
  apply minds_get
  intro s
  apply minds_ask id
  intro ciphertext
  cases ciphertext with
  | none => exact minds_pure
  | some ciphertext =>
  apply minds_ask id
  intro sent
  apply minds_ite minds_pure
  apply minds_modify
  exact minds_finishAuthentication

/-- After M2 a result of -2 is not noticed. -/
theorem minds_awaitM2 {client_ephemeral_key client_key_text : Bytes} : Negotiation.Minds host
    (awaitM2 (P := octets) host client_ephemeral_key client_key_text) := by
  refine minds_receive ?_ ?_
  · exact fun s => ⟨heeds_return fun _ => rfl, _, _, s, rfl⟩
  rintro ⟨result, simpleMessage⟩
  apply minds_ite minds_pure
  apply minds_ite minds_pure
  refine minds_receive ?_ ?_
  · exact fun s => ⟨heeds_return fun _ => rfl, heeds_return fun _ => rfl⟩
  rintro ⟨result, authenticationM3⟩
  exact minds_ite minds_pure minds_answerAuthentication

theorem minds_authenticationRequest :
    Negotiation.Minds host (authenticationRequest (P := octets) host) := by
  apply minds_ask id
  intro client_ephemeral_key
  apply minds_ask id
  intro serialized
  cases serialized with
  | none => exact minds_pure
  | some client_key_text =>
  apply minds_get
  intro s
  apply minds_ask id
  intro sent
  exact minds_ite minds_pure minds_awaitM2

end Client

namespace Method
open Negotiation

/-- The negotiation on the wire. -/
theorem Heeds.onWire {Message : Type} (read : Bytes → Message) {outcome : Int}
    {next : Int × Message → Program (AuthOp octets) AuthOp.Ans
      (Except Thrown Nat × Session octets)}
    (heeds : Heeds (· = Return.RECEIVE_FAILURE.val) next outcome) :
    Heeds (· = Return.RECEIVE_FAILURE.val) (fun answer : Int × Bytes =>
      (next (answer.1, read answer.2)).translate AuthOp.onWire) outcome := by
  obtain ⟨ending, failed, ends⟩ := heeds
  refine ⟨ending, failed, ?_⟩
  intro buffer
  dsimp only
  rw [ends]
  rfl

theorem minds_onWire {host : Endian} {c : Auth octets Nat} (minds : Negotiation.Minds host c) :
    Method.Minds (· = Return.RECEIVE_FAILURE.val) (Auth.onWire c) := by
  intro s
  refine Everywhere.translate ?_ (minds s)
  intro op next attentive rest
  cases op with
  | receiveM1 =>
      refine ⟨⟨attentive.1.onWire AuthenticationM1.deserialize, .inl (attentive.2.onWire AuthenticationM1.deserialize)⟩, ?_⟩
      intro answer
      exact rest _
  | receiveM2 =>
      obtain ⟨error, key, text, t, here⟩ := attentive
      refine ⟨⟨error.onWire fun buffer => (SimpleMessage.deserialize buffer).m_message_code,
        .inr (.inr ⟨host, key, text, t, pure, ?_⟩)⟩, ?_⟩
      · rw [Code.bind_pure, Auth.onWire, ← here]
        rfl
      · intro answer
        exact rest _
  | receiveM3 =>
      refine ⟨⟨attentive.1.onWire AuthenticationM3.deserialize, .inl (attentive.2.onWire AuthenticationM3.deserialize)⟩, ?_⟩
      intro answer
      exact rest _
  | receiveM4 =>
      refine ⟨⟨attentive.1.onWire (AuthenticationM4.deserialize · ENCRYPTED_SIGNATURE_LEN), .inl (attentive.2.onWire (AuthenticationM4.deserialize · ENCRYPTED_SIGNATURE_LEN))⟩, ?_⟩
      intro answer
      exact rest _
  | receiveM5 =>
      refine ⟨⟨attentive.1.onWire (AuthenticationM4.deserialize · Config.MAX_PACKET_SIZE), .inl (attentive.2.onWire (AuthenticationM4.deserialize · Config.MAX_PACKET_SIZE))⟩, ?_⟩
      intro answer
      exact rest _
  | sendM2 message_code => exact ⟨trivial, fun _ => ⟨trivial, rest⟩⟩
  | _ => exact ⟨trivial, rest⟩

end Method
end CloudStorage
