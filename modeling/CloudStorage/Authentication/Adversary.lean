import CloudStorage.Authentication.Symbolic
import CloudStorage.Interaction.Sessions

/-! Any number of negotiations under an adversary who is the network. It hears what is
sent, delivers what it can make, and holds the long-term keys of all users but the
honest ones. -/
namespace CloudStorage
namespace Symbolic
open Interaction

abbrev Occurrence := Event (AuthOp symbolic) AuthOp.Ans

/-- What the adversary can come to know. A shared secret is an element. -/
inductive Item where
  | exponent (exponent : Exponent)
  | element (element : Element)
  | key (key : Key)
  | data (data : Data)
  | box (box : Sealed)

/-- Characters and certificates are public. -/
def carried (symbols : List Symbol) : List Item :=
  symbols.filterMap fun
    | .key element => some (.element element)
    | _ => none

@[simp] theorem mem_carried {item : Item} {symbols : List Symbol} :
    item ∈ carried symbols ↔ ∃ element, .key element ∈ symbols ∧ item = .element element := by
  rw [carried, List.mem_filterMap]
  constructor
  · rintro ⟨symbol, member, kept⟩
    cases symbol with
    | char byte => cases kept
    | certificate certificate => cases kept
    | key element => exact ⟨element, member, (Option.some.inj kept).symm⟩
  · rintro ⟨element, member, rfl⟩
    exact ⟨_, member, rfl⟩

/-- What a call puts on the network. -/
def emitted : AuthOp symbolic → List Item
  | .sendM1 message => carried message.m_ephemeral_key
  | .sendM3 message => .box message.m_sealed ::
      (carried message.m_ephemeral_key ++ carried message.m_serialized_certificate)
  | .sendM4 message | .sendM5 message => [.box message.m_sealed]
  | _ => []

/-- What a call took from the network. -/
def delivered : Occurrence → List Item
  | ⟨.receiveM1, (result, message)⟩ =>
      if result = 0 then carried message.m_ephemeral_key else []
  | ⟨.receiveM3, (result, message)⟩ =>
      if result = 0 then .box message.m_sealed ::
        (carried message.m_ephemeral_key ++ carried message.m_serialized_certificate) else []
  | ⟨.receiveM4, (result, message)⟩ | ⟨.receiveM5, (result, message)⟩ =>
      if result = 0 then [.box message.m_sealed] else []
  | _ => []

/-- One negotiation: at which end, on which machine, and the session it starts in. -/
structure Participant where
  agent : Agent
  host : Endian
  start : Session symbolic

/-- A client negotiates for the user of its session. -/
def Participant.program (p : Participant) :
    Program (AuthOp symbolic) AuthOp.Ans (Except Thrown Nat × Session symbolic) :=
  match p.agent with
  | .server => Server.authenticationRequest p.host p.start
  | .user name => Client.authenticationRequest p.host { p.start with m_username := name }

structure Setting where
  honest : Set Bytes
  cast : Nat → Participant

variable {w : Setting} {log later : Log Nat (AuthOp symbolic) AuthOp.Ans}

/-- The adversary computes with what it has heard and with its own exponents and
long-term keys. Besides the handshake it hears the frames of the operations: any bytes
under the key a session has derived. -/
inductive Knows (w : Setting) (log : Log Nat (AuthOp symbolic) AuthOp.Ans) : Item → Prop where
  | heard {id op answer item} : (id, ⟨op, answer⟩) ∈ log → item ∈ emitted op → Knows w log item
  | frame {id secret key} (aad plaintext : Bytes) :
      (id, ⟨.ssl (.generateSHA256 secret), key⟩) ∈ log →
      Knows w log (.box (.box key aad (.bytes plaintext)))
  | exponent (number : Nat) : Knows w log (.exponent (.picked number))
  | generator : Knows w log (.element 0)
  | power {exponent element} : Knows w log (.exponent exponent) → Knows w log (.element element) →
      Knows w log (.element (exponent ::ₘ element))
  | digest {element} : Knows w log (.element element) → Knows w log (.key (.digest element))
  | octets (bytes : Bytes) : Knows w log (.key (.octets bytes))
  | bytes (bytes : Bytes) : Knows w log (.data (.bytes bytes))
  | sign {name input} : name ∉ w.honest → (∀ item ∈ carried input, Knows w log item) →
      Knows w log (.data (.signature (.user name) input))
  | encrypt {key plaintext} (aad : Bytes) : Knows w log (.key key) →
      Knows w log (.data plaintext) → Knows w log (.box (.box key aad plaintext))
  | decrypt {key aad plaintext} : Knows w log (.box (.box key aad plaintext)) →
      Knows w log (.key key) → Knows w log (.data plaintext)
  | junk (number : Nat) : Knows w log (.box (.junk number))

/-- Nothing is forgotten. -/
theorem Knows.mono {item : Item} (knows : Knows w log item) (grows : log ⊆ later) :
    Knows w later item := by
  induction knows with
  | heard member shows => exact .heard (grows member) shows
  | frame aad plaintext member => exact .frame aad plaintext (grows member)
  | exponent number => exact .exponent number
  | generator => exact .generator
  | power _ _ exponent element => exact .power exponent element
  | digest _ element => exact .digest element
  | octets bytes => exact .octets bytes
  | bytes bytes => exact .bytes bytes
  | sign corrupt _ parts => exact .sign corrupt parts
  | encrypt aad _ _ key plaintext => exact .encrypt aad key plaintext
  | decrypt _ _ box key => exact .decrypt box key
  | junk number => exact .junk number

/-- What the calls to OpenSSL and to the files of the machine answer to an agent. The
public key file of an honest user holds that user's key. -/
def Setting.Ideal (w : Setting) (me : Agent) : (op : AuthOp symbolic) → op.Ans → Prop
  | .ssl (.serializeEphemeralKey exponent), answer =>
      ∀ symbols ∈ answer, symbols = publicText {exponent}
  | .ssl (.deserializeEphemeralKey symbols), answer =>
      ∀ element ∈ answer, readKey symbols = some element
  | .ssl (.deriveSharedSecret own peer), answer => ∀ secret ∈ answer, secret = own ::ₘ peer
  | .ssl (.generateSHA256 secret), answer => answer = .digest secret
  | .ssl (.generateDS input), answer => answer = .signature me input
  | .ssl (.isDSverified input signature key), answer =>
      answer = decide (signature = .signature key input)
  | .ssl (.readPublicKey file), answer =>
      ∀ name ∈ w.honest, file = publicKeyFile name → ∀ key, answer = .key key → key = .user name
  | .ssl .loadCertificate, answer => answer = certificateText ⟨true, .server⟩
  | .ssl (.deserializeCertificate symbols), answer =>
      ∀ certificate ∈ answer, readCertificate symbols = some certificate
  | .ssl (.verifyCertificate certificate), answer => answer = certificate.issued
  | .ssl (.getPublicKey certificate), answer => answer = certificate.subject
  | .ssl (.encrypt key aad plaintext), answer => ∀ box ∈ answer, box = .box key aad plaintext
  | .ssl (.decrypt key aad ciphertext), answer =>
      ∀ plaintext ∈ answer, ciphertext = .box key aad plaintext
  | .overread size, answer => answer.length = size
  | _, _ => True

/-- What may happen next: ephemeral keys are new, and messages are of the adversary's
making. -/
structure Setting.Allowed (w : Setting) (log : Log Nat (AuthOp symbolic) AuthOp.Ans) (id : Nat)
    (e : Occurrence) : Prop where
  ideal : w.Ideal (w.cast id).agent e.op e.answer
  fresh : ∀ exponent : Exponent, e = ⟨.ssl .generateEphemeralKey, exponent⟩ →
    (∃ number, exponent = .drawn number) ∧ ∀ other, (other, e) ∉ log
  known : ∀ item ∈ delivered e, Knows w log item

/-- A log of the setting: every session runs its program as far as it has got. -/
structure Setting.Possible (w : Setting) (log : Log Nat (AuthOp symbolic) AuthOp.Ans) : Prop where
  lawful : Lawful w.Allowed log
  runs : ∀ id, ∃ result, Runs (w.cast id).program (log.own id) result

namespace Setting.Possible

theorem ideal (possible : w.Possible log) {id : Nat} :
    ∀ e ∈ log.own id, w.Ideal (w.cast id).agent e.op e.answer := by
  intro e member
  obtain ⟨earlier, _, allows⟩ := possible.lawful.allowed (Log.mem_own.mp member)
  exact allows.ideal

theorem known (possible : w.Possible log) {id : Nat} {e : Occurrence} (member : e ∈ log.own id)
    {item : Item} (delivers : item ∈ delivered e) : Knows w log item := by
  obtain ⟨earlier, within, allows⟩ := possible.lawful.allowed (Log.mem_own.mp member)
  exact (allows.known item delivers).mono within

theorem drawn (possible : w.Possible log) {id : Nat} {exponent : Exponent}
    (member : ⟨.ssl .generateEphemeralKey, exponent⟩ ∈ log.own id) :
    ∃ number, exponent = .drawn number := by
  obtain ⟨earlier, _, allows⟩ := possible.lawful.allowed (Log.mem_own.mp member)
  exact (allows.fresh exponent rfl).1

/-- An ephemeral key belongs to one session. -/
theorem owner (possible : w.Possible log) {id other : Nat} {exponent : Exponent}
    (first : ⟨.ssl .generateEphemeralKey, exponent⟩ ∈ log.own id)
    (second : ⟨.ssl .generateEphemeralKey, exponent⟩ ∈ log.own other) : id = other := by
  apply possible.lawful.unique (fun e => ∃ x, e = ⟨.ssl .generateEphemeralKey, x⟩) ?_
    ⟨exponent, rfl⟩ (Log.mem_own.mp first) (Log.mem_own.mp second)
  intro earlier id e allows generated
  obtain ⟨x, rfl⟩ := generated
  exact (allows.fresh x rfl).2

end Setting.Possible
end Symbolic
end CloudStorage
