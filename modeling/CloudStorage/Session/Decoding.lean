import CloudStorage.Server.Upkeep
import CloudStorage.Interaction.Returns

/-! Which bytes the code reads because a decoded length, terminator or key makes it. -/
namespace CloudStorage
open Interaction Code

namespace DiffieHellman

/-- The variables that `authenticationRequest` hands to `deriveSharedSecret`: a pointer
that starts as `nullptr` and a length that starts without a value. -/
structure Locals where
  shared_secret : Option Bytes
  shared_secret_length : Option Nat

/-- Calls of OpenSSL in a key derivation and after its failure. -/
inductive DeriveOp where
  | EVP_PKEY_CTX_new
  | EVP_PKEY_derive_init
  | EVP_PKEY_derive_set_peer (peer : Option Bytes)
  | EVP_PKEY_derive_size
  | EVP_PKEY_derive (size : Option Nat)
  | OPENSSL_cleanse (locals : Locals)

@[reducible] def DeriveOp.Ans : DeriveOp → Type
  | .EVP_PKEY_CTX_new => Bool
  | .EVP_PKEY_derive_init | .EVP_PKEY_derive_set_peer _ => Int
  | .EVP_PKEY_derive_size => Option Nat
  | .EVP_PKEY_derive _ => Int × Bytes
  | .OPENSSL_cleanse _ => Unit

abbrev Derivation := Code DeriveOp DeriveOp.Ans Locals Thrown

def call (op : DeriveOp) : Derivation op.Ans := invoke op

/-- Only the last two calls assign the variables. -/
def deriveSharedSecret (peer_ephemeral_key : Option Bytes) : Derivation Int := do
  let derive_ctx ← call .EVP_PKEY_CTX_new
  if ¬ derive_ctx then return -1
  let started ← call .EVP_PKEY_derive_init
  if started ≤ 0 then return -1
  let peer_set ← call (.EVP_PKEY_derive_set_peer peer_ephemeral_key)
  if peer_set ≤ 0 then return -1
  let size ← call .EVP_PKEY_derive_size
  modify fun locals => { locals with shared_secret_length := size }
  let (derived, secret) ← call (.EVP_PKEY_derive size)
  modify fun locals => { locals with shared_secret := some secret }
  if derived ≤ 0 then return -1
  return 0

/-- The derivation as both negotiations make it. -/
def deriveKey (peer_ephemeral_key : Option Bytes) : Derivation Nat := do
  let result ← deriveSharedSecret peer_ephemeral_key
  if result ≠ 0 then
    let locals ← get
    call (.OPENSSL_cleanse locals)
    return Return.AUTHENTICATION_FAILURE.val
  return 0

/-- There is no peer without a key, and what is cleansed has been assigned. -/
@[reducible] def monitor : Monitor DeriveOp DeriveOp.Ans where
  State := Unit
  Legal
    | _, .EVP_PKEY_derive_set_peer none, answer => answer ≤ 0
    | _, _, _ => True
  Safe
    | _, .OPENSSL_cleanse locals, _ =>
        locals.shared_secret.isSome ∧ locals.shared_secret_length.isSome
    | _, _, _ => True
  step := fun _ _ _ => ()

/-- The failure path uses only what was assigned. -/
def UsesAssigned (peer_ephemeral_key : Option Bytes) : Prop :=
  ∀ trace result, Runs (deriveKey peer_ephemeral_key ⟨none, none⟩) trace result →
    monitor.LegalTrace () trace → monitor.SafeTrace () trace

/-- It does not if the received key was not parsed. -/
theorem not_usesAssigned : ¬UsesAssigned none := by
  intro uses
  have derives : (deriveSharedSecret none).Returns ⟨none, none⟩
      [⟨.EVP_PKEY_CTX_new, true⟩, ⟨.EVP_PKEY_derive_init, (1 : Int)⟩,
        ⟨.EVP_PKEY_derive_set_peer none, (-1 : Int)⟩] (-1 : Int) ⟨none, none⟩ := by
    refine returns_invoke_bind.mpr ⟨true, _, rfl, ?_⟩
    refine returns_invoke_bind.mpr ⟨(1 : Int), _, rfl, ?_⟩
    refine returns_invoke_bind.mpr ⟨(-1 : Int), _, rfl, ?_⟩
    exact returns_pure.mpr ⟨rfl, rfl, rfl⟩
  have cleanses : (deriveKey none).Returns ⟨none, none⟩
      ([⟨.EVP_PKEY_CTX_new, true⟩, ⟨.EVP_PKEY_derive_init, (1 : Int)⟩,
        ⟨.EVP_PKEY_derive_set_peer none, (-1 : Int)⟩] ++ [⟨.OPENSSL_cleanse ⟨none, none⟩, ()⟩])
      Return.AUTHENTICATION_FAILURE.val ⟨none, none⟩ := by
    refine returns_bind.mpr ⟨_, _, _, _, rfl, derives, ?_⟩
    exact returns_invoke_bind.mpr ⟨(), [], rfl, returns_pure.mpr ⟨rfl, rfl, rfl⟩⟩
  have safe := uses _ _ cleanses ⟨trivial, trivial, by decide, trivial, trivial⟩
  exact absurd safe.2.2.2.1.1 (by decide)

end DiffieHellman

namespace Negotiation

/-- The PEM reader of OpenSSL: the public key that it makes of a text, and whether it comes to
the end of a certificate within a text, so that it reads no further. -/
structure Pem where
  publicKey : Bytes → Option Bytes
  certificateEnds : Bytes → Bool

/-- Reads behind the end of a decoded array. -/
def Outside : AuthOp octets → Prop
  | .overread _ | .stray | .strayText => True
  | _ => False

/-- OpenSSL reads PEM texts as given, and the message that is received is the given one. -/
def Answers (pem : Pem)
    (delivers : (op : AuthOp octets) → op.Ans → Prop) : (op : AuthOp octets) → op.Ans → Prop
  | .ssl (.deserializeEphemeralKey text), answer => answer = pem.publicKey text
  | .ssl (.certificateEnds text), answer => answer = pem.certificateEnds text
  | op, answer => delivers op answer

@[reducible] def decoding (pem : Pem)
    (delivers : (op : AuthOp octets) → op.Ans → Prop) : Monitor (AuthOp octets) AuthOp.Ans where
  State := Unit
  Legal := fun _ op answer => Answers pem delivers op answer
  Safe := fun _ op _ => ¬Outside op
  step := fun _ _ _ => ()

variable {pem : Pem} {delivers : (op : AuthOp octets) → op.Ans → Prop}
  {α : Type} {s : Session octets}

/-- No run reads outside. -/
abbrev Inside (pem : Pem) (delivers : (op : AuthOp octets) → op.Ans → Prop)
    (c : Auth octets α) (s : Session octets) : Prop :=
  c.wp (decoding pem delivers) (fun _ _ _ => True) s ()

theorem inside_pure {value : α} : Inside pem delivers (pure value) s := (wp_pure _).mpr trivial

theorem inside_call {op : AuthOp octets} {f : op.Ans → Auth octets α} (inside : ¬Outside op)
    (next : ∀ answer, Answers pem delivers op answer → Inside pem delivers (f answer) s) :
    Inside pem delivers (ask op >>= f) s :=
  wp_bind.mpr (wp_invoke.mpr fun _ _ answer legal => ⟨inside, next answer legal⟩)

theorem inside_ite {condition : Prop} [Decidable condition] {yes no : Auth octets α}
    (first : condition → Inside pem delivers yes s)
    (second : ¬condition → Inside pem delivers no s) :
    Inside pem delivers (if condition then yes else no) s :=
  wp_ite.mpr ⟨first, second⟩

theorem inside_counter {received : UInt32} {f : Bool → Auth octets α}
    (next : ∀ differs, (differs = false → received = s.m_counter) →
      Inside pem delivers (f differs) s) :
    Inside pem delivers (counterDiffers received >>= f) s := by
  refine wp_bind.mpr (wp_bind.mpr (wp_get.mpr (wp_bind.mpr (wp_invoke.mpr fun _ _ _ _ => ?_))))
  refine ⟨id, (wp_pure _).mpr (next _ ?_)⟩
  intro same
  simpa only [ne_eq, decide_not, Bool.not_eq_false', decide_eq_true_eq] using same

theorem inside_seq {β : Type} {c : Auth octets β} {f : β → Auth octets α}
    (first : Inside pem delivers c s) (next : ∀ value t, Inside pem delivers (f value) t) :
    Inside pem delivers (c >>= f) s := wp_seq first fun value t _ _ => next value t

theorem inside_modify {update : Session octets → Session octets} {f : Unit → Auth octets α}
    (next : Inside pem delivers (f ()) (update s)) :
    Inside pem delivers (modify update >>= f) s :=
  wp_bind.mpr (wp_modify.mpr next)

theorem inside_get {f : Session octets → Auth octets α} (next : Inside pem delivers (f s) s) :
    Inside pem delivers (get >>= f) s :=
  wp_bind.mpr (wp_get.mpr next)

theorem keyText_short {array : Bytes} (length : UInt32) (fits : length.toNat ≤ array.length)
    (width : array.length ≤ MAX_SERIALIZED_CERTIFICATE_LEN) :
    keyText (P := octets) array length = pure (some (array.take length.toNat)) := by
  have small : array.length ≤ 1500 := width
  rw [keyText, if_neg (by omega), if_pos fits]

/-- A run that has come to a call and is cut after it. -/
theorem runs_ask {op : AuthOp octets} {f : op.Ans → Auth octets α} {answer : op.Ans}
    {trace : List (Event (AuthOp octets) AuthOp.Ans)} (rest : Runs (f answer s) trace none) :
    Runs ((ask op >>= f) s) (⟨op, answer⟩ :: trace) none := .call answer rest

theorem runs_get {f : Session octets → Auth octets α}
    {trace : List (Event (AuthOp octets) AuthOp.Ans)} (rest : Runs (f s s) trace none) :
    Runs ((get >>= f) s) trace none := rest

theorem runs_modify {update : Session octets → Session octets} {f : Unit → Auth octets α}
    {trace : List (Event (AuthOp octets) AuthOp.Ans)} (rest : Runs (f () (update s)) trace none) :
    Runs ((modify update >>= f) s) trace none := rest

theorem runs_counter {received : UInt32} {f : Bool → Auth octets α}
    {trace : List (Event (AuthOp octets) AuthOp.Ans)} (same : received = s.m_counter)
    (rest : Runs (f false s) trace none) :
    Runs ((counterDiffers received >>= f) s)
      (⟨.checked s.m_counter received, ()⟩ :: trace) none := by
  have equal : decide (received ≠ s.m_counter) = false := by simp [same]
  rw [counterDiffers, Code.bind_assoc]
  apply runs_get
  rw [Code.bind_assoc]
  apply runs_ask
  rw [Code.pure_bind, equal]
  exact rest

end Negotiation

namespace Server
open Negotiation
variable {pem : Pem} {delivers : (op : AuthOp octets) → op.Ans → Prop}
  {s : Session octets} {host : Endian}

/-- M4 and M5 have no lengths. -/
theorem finishAuthentication_inside {client_public_key ephemeral_key_buffer : Bytes} :
    Inside pem delivers
      (finishAuthentication (P := octets) host client_public_key ephemeral_key_buffer) s := by
  apply inside_call id
  rintro ⟨result, authenticationM4⟩ -
  refine inside_ite (fun _ => inside_pure) fun _ => inside_counter fun differs _ => ?_
  refine inside_ite (fun _ => inside_pure) fun _ => inside_modify (inside_get ?_)
  apply inside_call id
  intro decrypted _
  cases decrypted with
  | none => exact inside_pure
  | some decrypted_signature =>
      apply inside_call id
      intro isSignatureVerified _
      apply inside_call id
      intro filler _
      apply inside_get
      apply inside_call id
      intro ciphertext _
      cases ciphertext with
      | none => exact inside_pure
      | some ciphertext =>
          apply inside_call id
          intro sent _
          refine inside_ite (fun _ => inside_pure) fun _ => inside_modify ?_
          exact inside_ite (fun _ => inside_pure) fun _ => inside_pure

/-- A key that stays in its array and is parsed, or is refused, leads to no read behind it. -/
theorem answerAuthentication_inside {authenticationM1 : AuthenticationM1 octets}
    {client_public_key : Bytes} {text : Option Bytes}
    (taken : keyText authenticationM1.m_ephemeral_key authenticationM1.m_ephemeral_key_len =
      (pure text : Auth octets (Option Bytes))) :
    Inside pem delivers (answerAuthentication host authenticationM1 client_public_key) s := by
  apply inside_call id
  intro server_ephemeral_key _
  rw [taken, Code.pure_bind]
  cases text with
  | none => exact inside_pure
  | some client_key_text =>
  apply inside_call id
  intro peer _
  cases peer with
  | none => exact inside_pure
  | some client_ephemeral_key =>
  apply inside_call id
  intro secret _
  cases secret with
  | none => exact inside_pure
  | some shared_secret =>
  apply inside_call id
  intro session_key _
  apply inside_modify
  apply inside_call id
  intro serialized _
  cases serialized with
  | none => exact inside_pure
  | some server_key_text =>
  apply inside_call id
  intro loaded _
  refine inside_ite (fun _ => inside_pure) fun _ => ?_
  apply inside_call id
  intro digital_signature _
  apply inside_modify
  apply inside_call id
  intro ciphertext _
  cases ciphertext with
  | none => exact inside_pure
  | some ciphertext =>
  apply inside_call id
  intro serialized_certificate _
  apply inside_call id
  intro sent _
  exact inside_ite (fun _ => inside_pure) fun _ => inside_modify finishAuthentication_inside

theorem authenticationRequest_inside {authenticationM1 : AuthenticationM1 octets}
    {text : Option Bytes}
    (received : ∀ answer, delivers .receiveM1 answer → answer = (0, authenticationM1))
    (terminated : 0 ∈ authenticationM1.m_username)
    (taken : keyText authenticationM1.m_ephemeral_key authenticationM1.m_ephemeral_key_len =
      (pure text : Auth octets (Option Bytes))) :
    Inside pem delivers (authenticationRequest host) s := by
  apply inside_call id
  intro answer legal
  obtain rfl := received answer legal
  refine inside_ite (fun _ => inside_pure) fun _ => ?_
  have named : usernameText authenticationM1.m_username =
      (pure (cPrefix authenticationM1.m_username) : Auth octets Bytes) := if_pos terminated
  dsimp only
  rw [named, Code.pure_bind]
  apply inside_call id
  intro file _
  cases file with
  | missing => exact inside_pure
  | unreadable =>
      apply inside_modify
      apply inside_call id
      intro sent _
      exact inside_ite (fun _ => inside_pure) fun _ => inside_pure
  | key client_public_key =>
      apply inside_modify
      apply inside_call id
      intro sent _
      exact inside_ite (fun _ => inside_pure) fun _ => answerAuthentication_inside taken

end Server

namespace Client
open Negotiation
variable {pem : Pem} {delivers : (op : AuthOp octets) → op.Ans → Prop}
  {s : Session octets}

/-- Neither has M5. -/
theorem finishAuthentication_inside :
    Inside pem delivers (finishAuthentication (P := octets)) s := by
  apply inside_call id
  rintro ⟨result, generic_message⟩ -
  refine inside_ite (fun _ => inside_pure) fun _ => inside_get ?_
  apply inside_call id
  intro plaintext _
  cases plaintext with
  | none => exact inside_pure
  | some plaintext =>
      refine inside_counter fun differs _ => ?_
      refine inside_ite (fun _ => wp_bind.mpr (wp_throw.mpr trivial)) fun _ => ?_
      refine inside_ite (fun _ => inside_pure) fun _ => inside_modify inside_pure

variable {host : Endian} {client_ephemeral_key client_key_text : Bytes}
  {authenticationM3 : AuthenticationM3 octets}

/-- An M3 with a wrong counter is not read at all; otherwise key and certificate are. -/
theorem answerAuthentication_inside {text : Option Bytes}
    (taken : host.value authenticationM3.m_aad = 0 →
      keyText authenticationM3.m_ephemeral_key authenticationM3.m_ephemeral_key_len =
        (pure text : Auth octets (Option Bytes)))
    (presented : host.value authenticationM3.m_aad = 0 → ∀ t, Inside pem delivers
      (certificateText authenticationM3.m_serialized_certificate
        authenticationM3.m_serialized_certificate_len) t) :
    Inside pem delivers
      (answerAuthentication host client_ephemeral_key client_key_text authenticationM3) s := by
  refine inside_modify (inside_counter fun differs same => ?_)
  refine inside_ite (fun _ => inside_pure) fun equal => ?_
  have zero : host.value authenticationM3.m_aad = 0 := same (Bool.not_eq_true _ ▸ equal)
  apply inside_modify
  rw [taken zero, Code.pure_bind]
  cases text with
  | none => exact inside_pure
  | some server_key_text =>
  apply inside_call id
  intro peer _
  cases peer with
  | none => exact inside_pure
  | some server_ephemeral_key =>
  apply inside_call id
  intro secret _
  cases secret with
  | none => exact inside_pure
  | some shared_secret =>
  apply inside_call id
  intro session_key _
  apply inside_modify
  apply inside_call id
  intro decrypted _
  cases decrypted with
  | none => exact inside_pure
  | some decrypted_signature =>
  apply inside_call id
  intro digital_signature _
  refine inside_seq (presented zero _) fun certificate_text _ => ?_
  apply inside_call id
  intro server_certificate _
  cases server_certificate with
  | none => exact inside_pure
  | some server_certificate =>
  apply inside_call id
  intro trusted _
  refine inside_ite (fun _ => inside_pure) fun _ => ?_
  apply inside_call id
  intro server_public_key _
  apply inside_call id
  intro isSignatureVerified _
  refine inside_ite (fun _ => inside_pure) fun _ => inside_get ?_
  apply inside_call id
  intro ciphertext _
  cases ciphertext with
  | none => exact inside_pure
  | some ciphertext =>
  apply inside_call id
  intro sent _
  exact inside_ite (fun _ => inside_pure) fun _ => inside_modify finishAuthentication_inside

theorem authenticationRequest_inside
    (received : ∀ answer, delivers .receiveM3 answer → answer = (0, authenticationM3))
    (answers : ∀ client_ephemeral_key client_key_text s, Inside pem delivers
      (answerAuthentication host client_ephemeral_key client_key_text authenticationM3) s) :
    Inside pem delivers (authenticationRequest host) s := by
  apply inside_call id
  intro client_ephemeral_key _
  apply inside_call id
  intro serialized _
  cases serialized with
  | none => exact inside_pure
  | some client_key_text =>
  apply inside_get
  apply inside_call id
  intro sent _
  refine inside_ite (fun _ => inside_pure) fun _ => ?_
  apply inside_call id
  rintro ⟨result, simpleMessage⟩ -
  refine inside_ite (fun _ => inside_pure) fun _ => inside_ite (fun _ => inside_pure) fun _ => ?_
  apply inside_call id
  intro answer legal
  obtain rfl := received answer legal
  exact inside_ite (fun _ => inside_pure) fun _ => answers _ _ _

end Client

/-- What a decoder is given before it is known from whom. -/
inductive Encoded where
  | authenticationM1 (buffer : Bytes)
  | authenticationM3 (buffer : Bytes)
  | request (plaintext : Bytes)

namespace Encoded
open Negotiation

def ProperLength : Encoded → Prop
  | .authenticationM1 buffer => buffer.length = AuthenticationM1.getMessageSize
  | .authenticationM3 buffer => buffer.length = AuthenticationM3.getMessageSize
  | .request plaintext => plaintext.length = Config.MAX_PACKET_SIZE

/-- The key that is read from an array and from what lies behind it. -/
def peerKey (pem : Pem) (array : Bytes) (length : UInt32) (beyond : Bytes) :
    Option Bytes :=
  if 2 ^ 31 ≤ length.toNat then none else pem.publicKey ((array ++ beyond).take length.toNat)

def deliversM1 (message : AuthenticationM1 octets) : (op : AuthOp octets) → op.Ans → Prop
  | .receiveM1, answer => answer = (0, message)
  | _, _ => True

def deliversM3 (message : AuthenticationM3 octets) : (op : AuthOp octets) → op.Ans → Prop
  | .receiveM3, answer => answer = (0, message)
  | _, _ => True

/-- No run of a negotiation reads outside. -/
def Never (pem : Pem) (delivers : (op : AuthOp octets) → op.Ans → Prop)
    (negotiation : Auth octets Nat) : Prop :=
  ∀ s trace result, Runs (negotiation s) trace result →
    (decoding pem delivers).LegalTrace () trace → (decoding pem delivers).SafeTrace () trace

/-- Whatever is read because of what was decoded lies in its field, and what the failure of
a key derivation uses has been assigned. -/
def StaysInside (host : Endian) (pem : Pem) : Encoded → Prop
  | .authenticationM1 buffer =>
      let message := AuthenticationM1.deserialize buffer
      Never pem (deliversM1 message) (Server.authenticationRequest host) ∧
        ∀ beyond, peerKey pem message.m_ephemeral_key message.m_ephemeral_key_len beyond = none →
          DiffieHellman.UsesAssigned none
  | .authenticationM3 buffer =>
      let message := AuthenticationM3.deserialize buffer
      Never pem (deliversM3 message) (Client.authenticationRequest host) ∧
        (host.value message.m_aad = 0 → ∀ beyond,
          peerKey pem message.m_ephemeral_key message.m_ephemeral_key_len beyond = none →
            DiffieHellman.UsesAssigned none)
  | .request plaintext =>
      ∀ array memory, (array, memory) ∈ Server.nameFields host plaintext → ∀ s trace name t,
        (Method.cString array memory).Returns s trace name t →
          name.length + 1 ≤ Config.FILE_NAME_LEN

/-- The declared length lies in the array and the key there can be parsed. -/
def KeyFits (pem : Pem) (array : Bytes) (length : UInt32) : Prop :=
  length.toNat ≤ EPHEMERAL_KEY_LEN ∧ (pem.publicKey (array.take length.toNat)).isSome

/-- The declared length lies in the array, or the certificate ends there before the length
does; a length that is negative as an `int` needs a terminator. -/
def CertificateFits (pem : Pem) (array : Bytes) (length : UInt32) : Prop :=
  length.toNat ≤ MAX_SERIALIZED_CERTIFICATE_LEN ∨
    length.toNat < 2 ^ 31 ∧ pem.certificateEnds array = true ∨
      2 ^ 31 ≤ length.toNat ∧ 0 ∈ array

def Bounded (host : Endian) (pem : Pem) : Encoded → Prop
  | .authenticationM1 buffer =>
      let message := AuthenticationM1.deserialize buffer
      KeyFits pem message.m_ephemeral_key message.m_ephemeral_key_len ∧ 0 ∈ message.m_username
  | .authenticationM3 buffer =>
      let message := AuthenticationM3.deserialize buffer
      host.value message.m_aad = 0 →
        KeyFits pem message.m_ephemeral_key message.m_ephemeral_key_len ∧
          CertificateFits pem message.m_serialized_certificate message.m_serialized_certificate_len
  | .request plaintext => ∀ array memory, (array, memory) ∈ Server.nameFields host plaintext →
      0 ∈ memory.take Config.FILE_NAME_LEN

variable {pem : Pem} {delivers : (op : AuthOp octets) → op.Ans → Prop}

theorem never_of_inside {negotiation : Auth octets Nat}
    (inside : ∀ s, Inside pem delivers negotiation s) : Never pem delivers negotiation := by
  intro s trace result run legal
  exact (Program.wp_sound (fun _ => rfl) (inside s) run legal).1

/-- A run that may happen does not end with a read outside. -/
theorem Never.last {negotiation : Auth octets Nat} {s : Session octets} {op : AuthOp octets}
    {answer : op.Ans} {trace : List (Event (AuthOp octets) AuthOp.Ans)}
    (never : Never pem delivers negotiation)
    (run : Runs (negotiation s) (trace ++ [⟨op, answer⟩]) none)
    (legal : (decoding pem delivers).LegalTrace () (trace ++ [⟨op, answer⟩])) : ¬Outside op :=
  (never s _ none run legal).at

section Keys
variable {array beyond : Bytes} {length : UInt32}

theorem peerKey_fits (fits : length.toNat ≤ array.length) (small : array.length < 2 ^ 31) :
    peerKey pem array length beyond = pem.publicKey (array.take length.toNat) := by
  rw [peerKey, if_neg (by omega), List.take_append_of_le_length fits]

theorem peerKey_some (width : array.length = EPHEMERAL_KEY_LEN)
    (fits : KeyFits pem array length) : peerKey pem array length beyond ≠ none := by
  obtain ⟨short, parsed⟩ := fits
  have narrow : EPHEMERAL_KEY_LEN = 1024 := rfl
  rw [peerKey_fits (by omega) (by omega)]
  exact Option.isSome_iff_ne_none.mp parsed

/-- A key that leads to no overread but does not fit is not parsed. -/
theorem keyFits_of_parsed (width : array.length = EPHEMERAL_KEY_LEN)
    (parsed : ∀ beyond, peerKey pem array length beyond ≠ none)
    (short : length.toNat < 2 ^ 31 → length.toNat ≤ EPHEMERAL_KEY_LEN) :
    KeyFits pem array length := by
  have narrow : EPHEMERAL_KEY_LEN = 1024 := rfl
  have positive : length.toNat < 2 ^ 31 := by
    by_contra long
    exact parsed [] (if_pos (Nat.not_lt.mp long))
  refine ⟨short positive, ?_⟩
  have found := parsed []
  rw [peerKey_fits (by have := short positive; omega) (by omega)] at found
  exact Option.isSome_iff_ne_none.mpr found

theorem keyText_over {array : Bytes} (long : array.length < length.toNat)
    (positive : length.toNat < 2 ^ 31) :
    (keyText (P := octets) array length : Auth octets (Option Bytes)) =
      ask (.overread (length.toNat - array.length)) >>= fun beyond : Bytes =>
        pure (some (array ++ beyond)) := by
  rw [keyText, if_neg (Nat.not_le.mpr positive), if_neg (Nat.not_le.mpr long)]

end Keys

section AuthenticationM1
variable {host : Endian} {message : AuthenticationM1 octets}

theorem m1_terminated
    (never : Never pem (deliversM1 message) (Server.authenticationRequest host)) :
    0 ∈ message.m_username := by
  by_contra open_
  have named : usernameText message.m_username = (ask .stray >>= fun beyond =>
      pure (message.m_username ++ cPrefix beyond) : Auth octets Bytes) := if_neg open_
  have run : Runs (Server.authenticationRequest host ⟨[], 0, []⟩)
      ([⟨.receiveM1, (0, message)⟩] ++ [⟨.stray, []⟩]) none := by
    refine runs_ask ?_
    dsimp only
    rw [if_neg (by decide), named, Code.bind_assoc]
    exact runs_ask (.cut _)
  exact never.last run ⟨rfl, trivial, trivial⟩ trivial

theorem m1_short (width : message.m_ephemeral_key.length = EPHEMERAL_KEY_LEN)
    (never : Never pem (deliversM1 message) (Server.authenticationRequest host))
    (positive : message.m_ephemeral_key_len.toNat < 2 ^ 31) :
    message.m_ephemeral_key_len.toNat ≤ EPHEMERAL_KEY_LEN := by
  have terminated := m1_terminated never
  by_contra long
  have named : usernameText message.m_username =
      (pure (cPrefix message.m_username) : Auth octets Bytes) := if_pos terminated
  have longer := keyText_over (width ▸ Nat.not_le.mp long) positive
  have run : Runs (Server.authenticationRequest host ⟨[], 0, []⟩)
      ([⟨.receiveM1, (0, message)⟩,
        ⟨.ssl (.readPublicKey (publicKeyFile (cPrefix message.m_username))), .key []⟩,
        ⟨.sendM2 Result.ACK.byte, (0 : Int)⟩, ⟨.ssl .generateEphemeralKey, ([] : Bytes)⟩] ++
        [⟨.overread (message.m_ephemeral_key_len.toNat - message.m_ephemeral_key.length),
          ([] : Bytes)⟩]) none := by
    refine runs_ask ?_
    dsimp only
    rw [if_neg (by decide), named, Code.pure_bind]
    refine runs_ask (runs_ask ?_)
    rw [if_neg (by decide)]
    refine runs_ask ?_
    rw [longer, Code.bind_assoc]
    exact runs_ask (.cut _)
  exact never.last run ⟨rfl, trivial, trivial, trivial, trivial, trivial⟩ trivial

/-- M1: exactly if its username ends in its field and its key fits. -/
theorem m1_iff (width : message.m_ephemeral_key.length = EPHEMERAL_KEY_LEN) :
    (Never pem (deliversM1 message) (Server.authenticationRequest host) ∧
      ∀ beyond, peerKey pem message.m_ephemeral_key message.m_ephemeral_key_len beyond = none →
        DiffieHellman.UsesAssigned none) ↔
    KeyFits pem message.m_ephemeral_key message.m_ephemeral_key_len ∧ 0 ∈ message.m_username := by
  constructor
  · rintro ⟨never, assigned⟩
    refine ⟨keyFits_of_parsed width ?_ (m1_short width never), m1_terminated never⟩
    intro beyond unparsed
    exact DiffieHellman.not_usesAssigned (assigned beyond unparsed)
  · rintro ⟨fits, terminated⟩
    have narrow : EPHEMERAL_KEY_LEN = 1024 := rfl
    constructor
    · have taken := keyText_short message.m_ephemeral_key_len (width ▸ fits.1)
        (by rw [width]; decide)
      refine never_of_inside fun s => ?_
      exact Server.authenticationRequest_inside (fun _ received => received) terminated taken
    · intro beyond unparsed
      exact absurd unparsed (peerKey_some width fits)

end AuthenticationM1

section AuthenticationM3
variable {host : Endian} {message : AuthenticationM3 octets}

/-- A run of the client up to the check of the counter in M3. -/
theorem runs_toM3 {trace : List (Event (AuthOp octets) AuthOp.Ans)}
    (rest : Runs (Client.answerAuthentication (P := octets) host [] [] message ⟨[], 0, []⟩)
      trace none) :
    Runs (Client.authenticationRequest (P := octets) host ⟨[], 0, []⟩)
      ([⟨.ssl .generateEphemeralKey, ([] : Bytes)⟩,
        ⟨.ssl (.serializeEphemeralKey ([] : Bytes)), some ([] : Bytes)⟩,
        ⟨.sendM1 (.ofKey ([] : Bytes) []), (0 : Int)⟩, ⟨.receiveM2, (0, Result.ACK.byte)⟩,
        ⟨.receiveM3, (0, message)⟩] ++ trace) none := by
  apply runs_ask
  apply runs_ask
  dsimp only
  apply runs_get
  apply runs_ask
  rw [if_neg (by decide)]
  apply runs_ask
  dsimp only
  rw [if_neg (by decide), if_neg (by decide)]
  apply runs_ask
  dsimp only
  rw [if_neg (by decide)]
  exact rest

/-- The key is read behind its array. -/
theorem runs_overKey (zero : host.value message.m_aad = 0)
    (long : message.m_ephemeral_key.length < message.m_ephemeral_key_len.toNat)
    (positive : message.m_ephemeral_key_len.toNat < 2 ^ 31) :
    Runs (Client.answerAuthentication (P := octets) host [] [] message ⟨[], 0, []⟩)
      ([⟨.checked 0 (host.value message.m_aad), ()⟩] ++
        [⟨.overread (message.m_ephemeral_key_len.toNat - message.m_ephemeral_key.length),
          ([] : Bytes)⟩]) none := by
  apply runs_modify
  apply runs_counter zero
  rw [if_neg (by decide)]
  apply runs_modify
  rw [keyText_over long positive, Code.bind_assoc]
  exact runs_ask (.cut _)

/-- A certificate that does not fit makes the code read behind its array. -/
theorem certificate_outside (message : AuthenticationM3 octets) {array : Bytes} {length : UInt32}
    (width : array.length = MAX_SERIALIZED_CERTIFICATE_LEN)
    (unfit : ¬CertificateFits pem array length) :
    ∃ (trace : List (Event (AuthOp octets) AuthOp.Ans)) (op : AuthOp octets) (answer : op.Ans),
      Outside op ∧
        (decoding pem (deliversM3 message)).LegalTrace () (trace ++ [⟨op, answer⟩]) ∧
        ∀ (f : Bytes → Auth octets Nat) s,
          Runs ((certificateText array length >>= f) s) (trace ++ [⟨op, answer⟩]) none := by
  simp only [CertificateFits, not_or, not_and, ← width, Nat.not_le] at unfit
  obtain ⟨long, endless, closed⟩ := unfit
  by_cases positive : length.toNat < 2 ^ 31
  · have onward : ¬pem.certificateEnds array = true := endless positive
    refine ⟨[⟨.ssl (.certificateEnds array), false⟩],
      .overread (length.toNat - array.length), ([] : Bytes), trivial, ⟨?_, trivial, trivial⟩, ?_⟩
    · exact (Bool.eq_false_iff.mpr onward).symm
    · intro f s
      rw [certificateText, if_pos positive, if_neg (Nat.not_le.mpr long), Code.bind_assoc]
      apply runs_ask
      rw [if_neg Bool.false_ne_true, Code.bind_assoc]
      exact runs_ask (.cut _)
  · have open_ : ¬array.any octets.terminates = true := by
      simpa using closed (Nat.not_lt.mp positive)
    refine ⟨[], .strayText, ([] : Bytes), trivial, ⟨trivial, trivial⟩, ?_⟩
    intro f s
    rw [certificateText, if_neg positive, if_neg open_, Code.bind_assoc]
    exact runs_ask (.cut _)

/-- A run of the client up to the certificate, after a key that could be used. -/
theorem runs_toCertificate (peer : Bytes) {key : Bytes}
    {trace : List (Event (AuthOp octets) AuthOp.Ans)} (zero : host.value message.m_aad = 0)
    (taken : (keyText message.m_ephemeral_key message.m_ephemeral_key_len :
      Auth octets (Option Bytes)) = pure (some key))
    (rest : ∀ (f : Bytes → Auth octets Nat) s, Runs ((certificateText
      message.m_serialized_certificate message.m_serialized_certificate_len >>= f) s) trace none) :
    Runs (Client.answerAuthentication (P := octets) host [] [] message ⟨[], 0, []⟩)
      ([⟨.checked 0 (host.value message.m_aad), ()⟩,
        ⟨.ssl (.deserializeEphemeralKey key), some peer⟩,
        ⟨.ssl (.deriveSharedSecret ([] : Bytes) peer), some ([] : Bytes)⟩,
        ⟨.ssl (.generateSHA256 ([] : Bytes)), ([] : Bytes)⟩,
        ⟨.ssl (.decrypt ([] : Bytes) message.m_aad message.m_sealed), some ([] : Bytes)⟩,
        ⟨.ssl (.generateDS ([] ++ key)), ([] : Bytes)⟩] ++ trace) none := by
  apply runs_modify
  apply runs_counter zero
  rw [if_neg (by decide)]
  apply runs_modify
  rw [taken, Code.pure_bind]
  apply runs_ask
  apply runs_ask
  apply runs_ask
  apply runs_modify
  apply runs_ask
  apply runs_ask
  exact rest _ _

theorem m3_short (zero : host.value message.m_aad = 0)
    (width : message.m_ephemeral_key.length = EPHEMERAL_KEY_LEN)
    (never : Never pem (deliversM3 message) (Client.authenticationRequest host))
    (positive : message.m_ephemeral_key_len.toNat < 2 ^ 31) :
    message.m_ephemeral_key_len.toNat ≤ EPHEMERAL_KEY_LEN := by
  by_contra long
  have run := runs_toM3 (runs_overKey zero (width ▸ Nat.not_le.mp long) positive)
  rw [← List.append_assoc] at run
  refine never.last run ?_ trivial
  exact ⟨trivial, trivial, trivial, trivial, rfl, trivial, trivial, trivial⟩

theorem m3_certificate (zero : host.value message.m_aad = 0)
    (width : message.m_serialized_certificate.length = MAX_SERIALIZED_CERTIFICATE_LEN)
    (keyWidth : message.m_ephemeral_key.length = EPHEMERAL_KEY_LEN)
    (fits : KeyFits pem message.m_ephemeral_key message.m_ephemeral_key_len)
    (never : Never pem (deliversM3 message) (Client.authenticationRequest host)) :
    CertificateFits pem message.m_serialized_certificate message.m_serialized_certificate_len := by
  by_contra unfit
  obtain ⟨short, parsed⟩ := fits
  obtain ⟨peer, found⟩ := Option.isSome_iff_exists.mp parsed
  have taken := keyText_short _ (keyWidth ▸ short) (by rw [keyWidth]; decide)
  obtain ⟨trace, op, answer, outside, legal, reads⟩ :=
    certificate_outside message width unfit
  have run := runs_toM3 (runs_toCertificate peer zero taken reads)
  rw [← List.append_assoc, ← List.append_assoc] at run
  refine never.last run ?_ outside
  rw [List.append_assoc]
  exact Monitor.LegalTrace.append.mpr ⟨⟨trivial, trivial, trivial, trivial, rfl, trivial,
    found.symm, trivial, trivial, trivial, trivial, trivial⟩, legal⟩

/-- Sufficient is also a certificate that ends in its array. -/
theorem certificate_inside {array : Bytes} {length : UInt32} {s : Session octets}
    (width : array.length = MAX_SERIALIZED_CERTIFICATE_LEN)
    (fits : CertificateFits pem array length) :
    Inside pem delivers (certificateText array length) s := by
  have wide : MAX_SERIALIZED_CERTIFICATE_LEN = 1500 := rfl
  refine inside_ite (fun positive => ?_) fun negative => ?_
  · refine inside_ite (fun _ => inside_pure) fun long => ?_
    have ends : pem.certificateEnds array = true := by
      rcases fits with short | ⟨-, ends⟩ | ⟨above, -⟩
      · exact absurd (width ▸ short) long
      · exact ends
      · omega
    apply inside_call id
    rintro _ rfl
    exact inside_ite (fun _ => inside_pure) fun onward => absurd ends onward
  · have terminated : 0 ∈ array := by
      rcases fits with short | ⟨below, -⟩ | ⟨-, terminated⟩
      · omega
      · omega
      · exact terminated
    have ends : array.any octets.terminates = true := by simpa using terminated
    exact inside_ite (fun _ => inside_pure) fun open_ => absurd ends open_

/-- M3: exactly if its counter is wrong or its key and its certificate fit. -/
theorem m3_iff (keyWidth : message.m_ephemeral_key.length = EPHEMERAL_KEY_LEN)
    (width : message.m_serialized_certificate.length = MAX_SERIALIZED_CERTIFICATE_LEN) :
    (Never pem (deliversM3 message) (Client.authenticationRequest host) ∧
      (host.value message.m_aad = 0 → ∀ beyond,
        peerKey pem message.m_ephemeral_key message.m_ephemeral_key_len beyond = none →
          DiffieHellman.UsesAssigned none)) ↔
    (host.value message.m_aad = 0 →
      KeyFits pem message.m_ephemeral_key message.m_ephemeral_key_len ∧
        CertificateFits pem message.m_serialized_certificate message.m_serialized_certificate_len) := by
  constructor
  · rintro ⟨never, assigned⟩ zero
    have fits : KeyFits pem message.m_ephemeral_key message.m_ephemeral_key_len := by
      apply keyFits_of_parsed keyWidth
      · intro beyond unparsed
        exact DiffieHellman.not_usesAssigned (assigned zero beyond unparsed)
      · exact m3_short zero keyWidth never
    exact ⟨fits, m3_certificate zero width keyWidth fits never⟩
  · intro fits
    constructor
    · apply never_of_inside
      intro s
      refine Client.authenticationRequest_inside (fun _ received => received) fun _ _ _ => ?_
      apply Client.answerAuthentication_inside
      · intro zero
        exact keyText_short _ (keyWidth ▸ (fits zero).1.1) (by rw [keyWidth]; decide)
      · intro zero _
        exact certificate_inside width (fits zero).2
    · intro zero beyond unparsed
      exact absurd unparsed (peerKey_some keyWidth (fits zero).1)

end AuthenticationM3

section Requests
variable {host : Endian} {plaintext memory : Bytes} {array : NameField}

/-- The arrays of file names lie in the plaintext. -/
theorem nameFields_length (width : plaintext.length = Config.MAX_PACKET_SIZE)
    (member : (array, memory) ∈ Server.nameFields host plaintext) :
    Config.FILE_NAME_LEN ≤ memory.length := by
  have single : (NameRequest.deserialize plaintext).m_filename.length = Config.FILE_NAME_LEN :=
    field_length (width ▸ by decide)
  have upload : (UploadM1.deserialize host plaintext).m_filename.length = Config.FILE_NAME_LEN :=
    field_length (width ▸ by decide)
  have old : (Rename.deserialize plaintext).m_old_filename.length = Config.FILE_NAME_LEN :=
    field_length (width ▸ by decide)
  have new : (Rename.deserialize plaintext).m_new_filename.length = Config.FILE_NAME_LEN :=
    field_length (width ▸ by decide)
  simp only [Server.nameFields] at member
  split at member
  · obtain ⟨rfl, rfl⟩ := Prod.mk.inj (List.mem_singleton.mp member)
    exact single.ge
  split at member
  · obtain ⟨rfl, rfl⟩ := Prod.mk.inj (List.mem_singleton.mp member)
    rw [List.length_append]
    omega
  split at member
  · obtain same | member := List.mem_cons.mp member
    · obtain ⟨rfl, rfl⟩ := Prod.mk.inj same
      rw [List.length_append]
      omega
    · obtain ⟨rfl, rfl⟩ := Prod.mk.inj (List.mem_singleton.mp member)
      exact new.ge
  split at member
  · obtain ⟨rfl, rfl⟩ := Prod.mk.inj (List.mem_singleton.mp member)
    exact single.ge
  · cases member

/-- The first terminator ends the name. -/
theorem cPrefix_length_lt_iff {buffer : Bytes} {size : Nat} (terminated : 0 ∈ buffer) :
    (cPrefix buffer).length + 1 ≤ size ↔ 0 ∈ buffer.take size := by
  obtain ⟨name, rest, rfl, clean⟩ := List.eq_append_cons_of_mem terminated
  rw [cPrefix_terminated clean, List.take_append, List.mem_append]
  have absent : ¬0 ∈ name.take size := fun member => clean (List.mem_of_mem_take member)
  cases room : size - name.length with
  | zero =>
      rw [List.take_zero]
      constructor
      · intro short
        omega
      · rintro (member | member)
        · exact absurd member absent
        · cases member
  | succ left =>
      rw [List.take_succ_cons]
      constructor
      · intro _
        exact .inr List.mem_cons_self
      · intro _
        omega

theorem cString_inside_iff (width : Config.FILE_NAME_LEN ≤ memory.length) :
    (∀ s trace name t, (Method.cString array memory).Returns s trace name t →
      name.length + 1 ≤ Config.FILE_NAME_LEN) ↔ 0 ∈ memory.take Config.FILE_NAME_LEN := by
  constructor
  · intro inside
    by_contra open_
    by_cases terminated : 0 ∈ memory
    · have named : (Method.cString array memory).Returns ⟨[], 0, []⟩ [] (cPrefix memory)
          ⟨[], 0, []⟩ := by
        rw [Method.cString, if_pos terminated]
        exact returns_pure.mpr ⟨rfl, rfl, rfl⟩
      have short := inside _ _ _ _ named
      exact open_ ((cPrefix_length_lt_iff terminated).mp short)
    · have named : (Method.cString array memory).Returns ⟨[], 0, []⟩ [⟨.stray array, ([] : Bytes)⟩]
          (memory ++ cPrefix []) ⟨[], 0, []⟩ := by
        rw [Method.cString, if_neg terminated]
        exact returns_invoke_bind.mpr ⟨([] : Bytes), [], rfl, returns_pure.mpr ⟨rfl, rfl, rfl⟩⟩
      have short := inside _ _ _ _ named
      rw [List.length_append] at short
      omega
  · intro ends s trace name t run
    have terminated : 0 ∈ memory := List.mem_of_mem_take ends
    rw [Method.cString, if_pos terminated] at run
    obtain ⟨-, rfl, -⟩ := returns_pure.mp run
    exact (cPrefix_length_lt_iff terminated).mpr ends

end Requests

/-- What is decoded is read inside its fields exactly under these bounds. -/
theorem staysInside_iff (host : Endian) (pem : Pem) (input : Encoded)
    (proper : input.ProperLength) : input.StaysInside host pem ↔ input.Bounded host pem := by
  cases input with
  | authenticationM1 buffer =>
      refine m1_iff (field_length ?_)
      exact proper ▸ by decide
  | authenticationM3 buffer =>
      refine m3_iff (field_length ?_) (field_length ?_)
      · exact proper ▸ by decide
      · exact proper ▸ by decide
  | request plaintext =>
      constructor
      · intro stays array memory member
        exact (cString_inside_iff (nameFields_length proper member)).mp (stays array memory member)
      · intro bounded array memory member
        exact (cString_inside_iff (nameFields_length proper member)).mpr
          (bounded array memory member)

def contains (line : Bytes) : Bytes → Bool
  | [] => line.isEmpty
  | byte :: text => line.isPrefixOf (byte :: text) || contains line text

/-- A reader that looks for the last line of a block. -/
def linePem : Pem where
  publicKey text := if contains (ascii "-----END PUBLIC KEY-----\n") text then some text else none
  certificateEnds := contains (ascii "-----END CERTIFICATE-----\n")

/-- The request for a file whose name is one letter. -/
def sampleRequest : Bytes :=
  Message.DOWNLOAD_REQUEST.byte :: 97 :: List.replicate (Config.MAX_PACKET_SIZE - 2) 0

def sampleKeyText : Bytes := ascii ("-----BEGIN PUBLIC KEY-----\n" ++
  "MCowBQYDK2VuAyEAGb9ECWmEzf6FQbrBZ9w7lshQhqowtrbLDFw4rXAxZuE=\n" ++
  "-----END PUBLIC KEY-----\n")

def sampleCertificateText : Bytes := ascii
  "-----BEGIN CERTIFICATE-----\nMIIB\n-----END CERTIFICATE-----\n"

/-- Its certificate lies in the array, but its length is declared as 2000. -/
def overstatedM3 : AuthenticationM3 octets where
  m_ephemeral_key := padded (P := octets) sampleKeyText EPHEMERAL_KEY_LEN
  m_ephemeral_key_len := sampleKeyText.length.toUInt32
  m_aad := Endian.little.bytes 0
  m_sealed := ⟨List.replicate Config.IV_LEN 0, List.replicate Config.AES_TAG_LEN 0,
    List.replicate ENCRYPTED_SIGNATURE_LEN 0⟩
  m_serialized_certificate := padded (P := octets) sampleCertificateText
    MAX_SERIALIZED_CERTIFICATE_LEN
  m_serialized_certificate_len := 2000

theorem overstatedM3_formed : overstatedM3.WellFormed where
  key := by decide +kernel
  iv := List.length_replicate
  aad := by decide
  tag := List.length_replicate
  signature := List.length_replicate
  certificate := by decide +kernel

theorem samples_inside : (request sampleRequest).StaysInside .little linePem ∧
    (authenticationM3 overstatedM3.serialize).StaysInside .little linePem := by
  constructor
  · refine (staysInside_iff .little linePem (request sampleRequest) rfl).mpr ?_
    intro array memory member
    have entry : (array, memory) = (.m_filename, 97 :: List.replicate 34 0) :=
      List.mem_singleton.mp member
    obtain ⟨-, rfl⟩ := Prod.mk.inj entry
    decide
  · refine (staysInside_iff .little linePem (authenticationM3 overstatedM3.serialize)
      overstatedM3_formed.serialize_length).mpr ?_
    simp only [Bounded, overstatedM3_formed.deserialize_serialize]
    intro _
    refine ⟨⟨by decide +kernel, ?_⟩, .inr (.inl ⟨by decide, ?_⟩)⟩
    · decide +kernel
    · decide +kernel

/-- An M1 that declares a key of more than sixteen million bytes. -/
def overlongM1 : Bytes := List.replicate AuthenticationM1.getMessageSize 1

theorem overlongM1_reads_outside :
    (authenticationM1 overlongM1).ProperLength ∧
      ¬(authenticationM1 overlongM1).StaysInside .little linePem := by
  have length : (AuthenticationM1.deserialize overlongM1).m_ephemeral_key_len = 16843009 := by
    simp only [AuthenticationM1.deserialize, overlongM1, field, List.drop_replicate,
      List.take_replicate]
    decide
  refine ⟨List.length_replicate, ?_⟩
  intro stays
  have width : AuthenticationM1.getMessageSize = overlongM1.length := List.length_replicate.symm
  have fits := ((m1_iff (field_length (width ▸ by decide))).mp stays).1.1
  rw [length] at fits
  exact absurd fits (by decide)

end Encoded

end CloudStorage