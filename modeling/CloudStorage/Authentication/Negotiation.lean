import CloudStorage.Authentication.Operations

/-! `Server::authenticationRequest` and `Client::authenticationRequest`. Inside
them `m_counter` is 0, 1 or 2, so their calls of `incrementCounter` only add one. -/
namespace CloudStorage
open Interaction Code

namespace Negotiation
variable {P : Primitives}

def ask (op : AuthOp P) : Auth P op.Ans := invoke op

def ssl (call : Ssl P) : Auth P call.Ans := ask (.ssl call)

/-- The test `counter != m_counter` on a received frame. -/
def counterDiffers (received : UInt32) : Auth P Bool := do
  let s ← get
  ask (.checked s.m_counter received)
  return received ≠ s.m_counter

/-- `incrementCounter` away from `MAX_COUNTER_VALUE`. -/
def advance : Auth P Unit := modify fun s => { s with m_counter := s.m_counter + 1 }

/-- The first `length` characters of a key array. A length that is negative as an
`int` makes `BIO_write` refuse the buffer before anything is read. -/
def keyText (array : List P.Symbol) (length : UInt32) : Auth P (Option (List P.Symbol)) := do
  if 2 ^ 31 ≤ length.toNat then return none
  if length.toNat ≤ array.length then return some (array.take length.toNat)
  let beyond ← ask (.overread (length.toNat - array.length))
  return some (array ++ beyond)

/-- What `PEM_read_bio_X509` reads of a certificate array. `BIO_new_mem_buf` copies nothing:
a length beyond the array leads out of it only if the reader is not done before its end. A
length that is negative as an `int` makes it measure the array with `strlen`. -/
def certificateText (array : List P.Symbol) (length : UInt32) : Auth P (List P.Symbol) := do
  if length.toNat < 2 ^ 31 then
    if length.toNat ≤ array.length then return array.take length.toNat
    if ← ssl (.certificateEnds array) then return array
    let beyond ← ask (.overread (length.toNat - array.length))
    return array ++ beyond
  if array.any P.terminates then return array.takeWhile (!P.terminates ·)
  let beyond ← ask .strayText
  return array ++ beyond.takeWhile (!P.terminates ·)

/-- `(string)message.getMUsername()`: up to the first terminator, wherever it is. -/
def usernameText (m_username : Bytes) : Auth P Bytes := do
  if 0 ∈ m_username then return cPrefix m_username
  let beyond ← ask .stray
  return m_username ++ cPrefix beyond

end Negotiation

open Negotiation

/-- "../resources/public_keys/" + username + "_key.pem" -/
def publicKeyFile (username : Bytes) : Bytes :=
  ascii "../resources/public_keys/" ++ username ++ ascii "_key.pem"

namespace Server
variable {P : Primitives}

/-- M4 and M5: checks the signature of the client over both ephemeral keys and
tells it the outcome. -/
def finishAuthentication (host : Endian) (client_public_key : P.PublicKey)
    (ephemeral_key_buffer : List P.Symbol) : Auth P Nat := do
  let (result, authenticationM4) ← ask .receiveM4
  if result ≠ 0 then return Return.RECEIVE_FAILURE.val
  if ← counterDiffers (host.value authenticationM4.m_aad) then return Return.WRONG_COUNTER.val
  advance
  let s ← get
  let some decrypted_signature ← ssl (.decrypt s.m_session_key authenticationM4.m_aad
    authenticationM4.m_sealed) | return Return.DECRYPTION_FAILURE.val
  let isSignatureVerified ← ssl (.isDSverified ephemeral_key_buffer decrypted_signature
    client_public_key)
  let outcome := if isSignatureVerified then Result.ACK else Result.NACK
  let filler ← ask (.random (Config.MAX_PACKET_SIZE - 1))
  let s ← get
  let aad := networkBytes s.m_counter
  let some ciphertext ← ssl (.encrypt s.m_session_key aad (P.ofBytes (outcome.byte :: filler)))
    | return Return.ENCRYPTION_FAILURE.val
  let sent ← ask (.sendM5 ⟨aad, ciphertext⟩)
  if sent = -1 then return Return.SEND_FAILURE.val
  modify fun s => { s with m_counter := 0 }
  if isSignatureVerified then return Return.AUTHENTICATION_SUCCESS.val
  return Return.AUTHENTICATION_FAILURE.val

/-- M3: negotiates the session key and proves the identity of the server. The key
is installed before the client has proved anything. -/
def answerAuthentication (host : Endian) (authenticationM1 : AuthenticationM1 P)
    (client_public_key : P.PublicKey) : Auth P Nat := do
  let server_ephemeral_key ← ssl .generateEphemeralKey
  let some client_key_text ← keyText authenticationM1.m_ephemeral_key
    authenticationM1.m_ephemeral_key_len | return Return.AUTHENTICATION_FAILURE.val
  let some client_ephemeral_key ← ssl (.deserializeEphemeralKey client_key_text)
    | return Return.AUTHENTICATION_FAILURE.val
  let some shared_secret ← ssl (.deriveSharedSecret server_ephemeral_key client_ephemeral_key)
    | return Return.AUTHENTICATION_FAILURE.val
  let session_key ← ssl (.generateSHA256 shared_secret)
  modify fun s => { s with m_session_key := session_key }
  let some server_key_text ← ssl (.serializeEphemeralKey server_ephemeral_key)
    | return Return.AUTHENTICATION_FAILURE.val
  let ephemeral_key_buffer := client_key_text ++ server_key_text
  let loaded ← ssl .readPrivateKey
  if ¬ loaded then return Return.AUTHENTICATION_FAILURE.val
  let digital_signature ← ssl (.generateDS ephemeral_key_buffer)
  modify fun s => { s with m_counter := 0 }
  let aad := host.bytes 0
  let some ciphertext ← ssl (.encrypt session_key aad digital_signature)
    | return Return.ENCRYPTION_FAILURE.val
  let serialized_certificate ← ssl .loadCertificate
  let sent ← ask (.sendM3 (.ofParts server_key_text aad ciphertext serialized_certificate))
  if sent ≠ 0 then return Return.SEND_FAILURE.val
  advance
  finishAuthentication host client_public_key ephemeral_key_buffer

/-- `Server::authenticationRequest`. `m_username` is set from M1, before anything
about the client is known. -/
def authenticationRequest (host : Endian) : Auth P Nat := do
  let (result, authenticationM1) ← ask .receiveM1
  if result ≠ 0 then return Return.RECEIVE_FAILURE.val
  let username ← usernameText authenticationM1.m_username
  let file ← ssl (.readPublicKey (publicKeyFile username))
  match file with
  | .missing => return Return.AUTHENTICATION_FAILURE.val
  | .unreadable =>
      modify fun s => { s with m_username := username }
      let sent ← ask (.sendM2 Result.NACK.byte)
      if sent = -1 then return Return.SEND_FAILURE.val
      return Error.USERNAME_NOT_FOUND.val
  | .key client_public_key =>
      modify fun s => { s with m_username := username }
      let sent ← ask (.sendM2 Result.ACK.byte)
      if sent = -1 then return Return.SEND_FAILURE.val
      answerAuthentication host authenticationM1 client_public_key

end Server

namespace Client
variable {P : Primitives}

/-- M5: the outcome at the server. A counter mismatch is thrown, not returned. -/
def finishAuthentication : Auth P Nat := do
  let (result, generic_message) ← ask .receiveM5
  if result ≠ 0 then return Return.RECEIVE_FAILURE.val
  let s ← get
  let some plaintext ← ssl (.decrypt s.m_session_key generic_message.m_aad
    generic_message.m_sealed) | return Return.DECRYPTION_FAILURE.val
  if ← counterDiffers (networkValue generic_message.m_aad) then
    throw (.code Return.WRONG_COUNTER.val)
  if P.head plaintext ≠ Result.ACK.byte then return Return.AUTHENTICATION_FAILURE.val
  modify fun s => { s with m_counter := 0 }
  return Return.AUTHENTICATION_SUCCESS.val

/-- M3 and M4. The own signature is made before the server's is verified, but is
sent only afterwards. -/
def answerAuthentication (host : Endian) (client_ephemeral_key : P.Exponent)
    (client_key_text : List P.Symbol) (authenticationM3 : AuthenticationM3 P) :
    Auth P Nat := do
  modify fun s => { s with m_counter := 0 }
  if ← counterDiffers (host.value authenticationM3.m_aad) then return Return.WRONG_COUNTER.val
  advance
  let some server_key_text ← keyText authenticationM3.m_ephemeral_key
    authenticationM3.m_ephemeral_key_len | return Return.AUTHENTICATION_FAILURE.val
  let some server_ephemeral_key ← ssl (.deserializeEphemeralKey server_key_text)
    | return Return.AUTHENTICATION_FAILURE.val
  let some shared_secret ← ssl (.deriveSharedSecret client_ephemeral_key server_ephemeral_key)
    | return Return.AUTHENTICATION_FAILURE.val
  let session_key ← ssl (.generateSHA256 shared_secret)
  modify fun s => { s with m_session_key := session_key }
  let some decrypted_signature ← ssl (.decrypt session_key authenticationM3.m_aad
    authenticationM3.m_sealed) | return Return.DECRYPTION_FAILURE.val
  let ephemeral_key_buffer := client_key_text ++ server_key_text
  let digital_signature ← ssl (.generateDS ephemeral_key_buffer)
  let certificate_text ← certificateText authenticationM3.m_serialized_certificate
    authenticationM3.m_serialized_certificate_len
  let some server_certificate ← ssl (.deserializeCertificate certificate_text)
    | return Return.AUTHENTICATION_FAILURE.val
  let trusted ← ssl (.verifyCertificate server_certificate)
  if ¬ trusted then return Return.AUTHENTICATION_FAILURE.val
  let server_public_key ← ssl (.getPublicKey server_certificate)
  let isSignatureVerified ← ssl (.isDSverified ephemeral_key_buffer decrypted_signature
    server_public_key)
  if ¬ isSignatureVerified then return Return.AUTHENTICATION_FAILURE.val
  let s ← get
  let aad := host.bytes s.m_counter
  let some ciphertext ← ssl (.encrypt session_key aad digital_signature)
    | return Return.ENCRYPTION_FAILURE.val
  let sent ← ask (.sendM4 ⟨aad, ciphertext⟩)
  if sent = -1 then return Return.SEND_FAILURE.val
  advance
  finishAuthentication

/-- `Client::authenticationRequest`. Of the result of the receive of M2 only -1 is
tested. -/
def authenticationRequest (host : Endian) : Auth P Nat := do
  let client_ephemeral_key ← ssl .generateEphemeralKey
  let some client_key_text ← ssl (.serializeEphemeralKey client_ephemeral_key)
    | return Return.AUTHENTICATION_FAILURE.val
  let s ← get
  let sent ← ask (.sendM1 (.ofKey client_key_text s.m_username))
  if sent = -1 then return Return.SEND_FAILURE.val
  let (result, simpleMessage) ← ask .receiveM2
  if result = -1 then return Return.RECEIVE_FAILURE.val
  if simpleMessage ≠ Result.ACK.byte then return Error.USERNAME_NOT_FOUND.val
  let (result, authenticationM3) ← ask .receiveM3
  if result ≠ 0 then return Return.RECEIVE_FAILURE.val
  answerAuthentication host client_ephemeral_key client_key_text authenticationM3

end Client
end CloudStorage
