import CloudStorage.Interaction.Program
import CloudStorage.Wire.Bytes

/-! The calls that the key negotiation makes to code outside the repository, over
abstract kinds of OpenSSL object. The negotiation is written once against these
kinds; bytes and symbolic terms are two instances of them. -/
namespace CloudStorage
open Interaction

/-- Kinds of value that OpenSSL hands out. `Symbol` is one character of a PEM text,
`Data` what AES-GCM encrypts, `Sealed` an IV with tag and ciphertext. `terminates` is the
character that ends a C string. -/
structure Primitives where
  Symbol : Type
  Exponent : Type
  Element : Type
  Secret : Type
  Key : Type
  Data : Type
  Sealed : Type
  PublicKey : Type
  Certificate : Type
  blank : Symbol
  terminates : Symbol → Bool
  ofBytes : Bytes → Data
  head : Data → UInt8

/-- `BIO_new_file` followed by `PEM_read_bio_PUBKEY`. -/
inductive KeyFile (K : Type) where
  | missing
  | unreadable
  | key (public_key : K)

/-- Calls answered by OpenSSL and by the key files. The own long-term key of
`generateDS` is the one the program loaded. `certificateEnds` is no call of its own: it
says whether `PEM_read_bio_X509`, which reads line by line, is done within the text. -/
inductive Ssl (P : Primitives) where
  | generateEphemeralKey
  | serializeEphemeralKey (key : P.Exponent)
  | deserializeEphemeralKey (text : List P.Symbol)
  | deriveSharedSecret (own : P.Exponent) (peer : P.Element)
  | generateSHA256 (shared_secret : P.Secret)
  | generateDS (input : List P.Symbol)
  | isDSverified (input : List P.Symbol) (signature : P.Data) (key : P.PublicKey)
  | readPublicKey (file : Bytes)
  | readPrivateKey
  | loadCertificate
  | certificateEnds (text : List P.Symbol)
  | deserializeCertificate (text : List P.Symbol)
  | verifyCertificate (certificate : P.Certificate)
  | getPublicKey (certificate : P.Certificate)
  | encrypt (key : P.Key) (aad : Bytes) (plaintext : P.Data)
  | decrypt (key : P.Key) (aad : Bytes) (ciphertext : P.Sealed)

/-- `none` is the failure code of the call; the digest is cut to the key length. -/
@[reducible] def Ssl.Ans {P : Primitives} : Ssl P → Type
  | .generateEphemeralKey => P.Exponent
  | .serializeEphemeralKey _ => Option (List P.Symbol)
  | .deserializeEphemeralKey _ => Option P.Element
  | .deriveSharedSecret _ _ => Option P.Secret
  | .generateSHA256 _ => P.Key
  | .generateDS _ => P.Data
  | .isDSverified _ _ _ => Bool
  | .readPublicKey _ => KeyFile P.PublicKey
  | .readPrivateKey => Bool
  | .loadCertificate => List P.Symbol
  | .certificateEnds _ => Bool
  | .deserializeCertificate _ => Option P.Certificate
  | .verifyCertificate _ => Bool
  | .getPublicKey _ => P.PublicKey
  | .encrypt _ _ _ => Option P.Sealed
  | .decrypt _ _ _ => Option P.Data

structure AuthenticationM1 (P : Primitives) where
  m_ephemeral_key : List P.Symbol
  m_ephemeral_key_len : UInt32
  m_username : Bytes

structure AuthenticationM3 (P : Primitives) where
  m_ephemeral_key : List P.Symbol
  m_ephemeral_key_len : UInt32
  m_aad : Bytes
  m_sealed : P.Sealed
  m_serialized_certificate : List P.Symbol
  m_serialized_certificate_len : UInt32

structure AuthenticationM4 (P : Primitives) where
  m_aad : Bytes
  m_sealed : P.Sealed

/-- A text copied into a zeroed array of `width` characters. -/
def padded {P : Primitives} (text : List P.Symbol) (width : Nat) : List P.Symbol :=
  text ++ List.replicate (width - text.length) P.blank

def AuthenticationM1.ofKey {P : Primitives} (ephemeral_key : List P.Symbol) (username : Bytes) :
    AuthenticationM1 P where
  m_ephemeral_key := padded ephemeral_key EPHEMERAL_KEY_LEN
  m_ephemeral_key_len := ephemeral_key.length.toUInt32
  m_username := strncpy username Config.USERNAME_LEN

def AuthenticationM3.ofParts {P : Primitives} (ephemeral_key : List P.Symbol) (aad : Bytes)
    (ciphertext : P.Sealed) (serialized_certificate : List P.Symbol) : AuthenticationM3 P where
  m_ephemeral_key := padded ephemeral_key EPHEMERAL_KEY_LEN
  m_ephemeral_key_len := ephemeral_key.length.toUInt32
  m_aad := aad
  m_sealed := ciphertext
  m_serialized_certificate := padded serialized_certificate MAX_SERIALIZED_CERTIFICATE_LEN
  m_serialized_certificate_len := serialized_certificate.length.toUInt32

/-- Calls of the negotiation. A receive answers with the result of
`SocketManager::receive` and the buffer, whose content is arbitrary unless the
result is 0. `overread`, `stray` and `strayText` are the bytes behind a field that a length
or a missing terminator makes the code read. `checked` is no call: it marks a comparison
of the own counter with a received one. -/
inductive AuthOp (P : Primitives) where
  | ssl (call : Ssl P)
  | random (size : Nat)
  | overread (size : Nat)
  | stray
  | strayText
  | checked (m_counter received : UInt32)
  | sendM1 (message : AuthenticationM1 P)
  | receiveM1
  | sendM2 (message_code : UInt8)
  | receiveM2
  | sendM3 (message : AuthenticationM3 P)
  | receiveM3
  | sendM4 (message : AuthenticationM4 P)
  | receiveM4
  | sendM5 (message : AuthenticationM4 P)
  | receiveM5

@[reducible] def AuthOp.Ans {P : Primitives} : AuthOp P → Type
  | .ssl call => call.Ans
  | .random _ => Bytes
  | .overread _ | .strayText => List P.Symbol
  | .stray => Bytes
  | .checked _ _ => Unit
  | .sendM1 _ | .sendM2 _ | .sendM3 _ | .sendM4 _ | .sendM5 _ => Int
  | .receiveM1 => Int × AuthenticationM1 P
  | .receiveM2 => Int × UInt8
  | .receiveM3 => Int × AuthenticationM3 P
  | .receiveM4 | .receiveM5 => Int × AuthenticationM4 P

/-- The fields of `Server` and `Client` that the negotiation and the operations use. -/
structure Session (P : Primitives) where
  m_username : Bytes
  m_counter : UInt32
  m_session_key : P.Key

/-- What leaves a method by `throw`: an `int` of the program or a standard exception. -/
inductive Thrown where
  | code (value : Nat)
  | exception
  deriving DecidableEq, Repr

abbrev Auth (P : Primitives) := Code (AuthOp P) AuthOp.Ans (Session P) Thrown

end CloudStorage
