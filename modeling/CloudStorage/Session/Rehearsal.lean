import CloudStorage.Session.Exchange

/-! A plain environment in which every key agreement succeeds, for trying the programs
on given frames. A box opens under exactly the key that closed it. -/
namespace CloudStorage
open Interaction

namespace Rehearsal

def boxOf (key plaintext : Bytes) : SealedBytes := ⟨List.replicate Config.IV_LEN 0, key, plaintext⟩

def boxContent (key : Bytes) (box : SealedBytes) : Option Bytes :=
  if box.m_tag = key then some box.m_ciphertext else none

@[simp] theorem boxContent_boxOf (key plaintext : Bytes) :
    boxContent key (boxOf key plaintext) = some plaintext := if_pos rfl

/-- What will still arrive, the session keys that will be agreed on, and the paths of the
files. -/
structure Scene where
  inbox : List Bytes
  keys : List Bytes
  present : List Bytes

def Scene.file (scene : Scene) : (call : FileCall) → call.Ans
  | .ifstream_open path => path ∈ scene.present
  | .ofstream_open _ => true
  | .seek_end _ => some 0
  | .read _ _ _ => []
  | .write _ _ => ()
  | .exists_ _ => some true
  | .directory_iterator path =>
      some ((scene.present.filter (path.isPrefixOf ·)).map (·.drop (path.length + 1)))
  | .is_regular_file _ => some true
  | .is_symlink _ => some false
  | .rename _ _ => 0
  | .remove _ => 0

def Scene.ssl (scene : Scene) : (call : Ssl octets) → call.Ans × Scene
  | .generateEphemeralKey => ([], scene)
  | .serializeEphemeralKey _ => (some [], scene)
  | .deserializeEphemeralKey _ => (some [], scene)
  | .deriveSharedSecret _ _ => (some [], scene)
  | .generateSHA256 _ => (scene.keys.headD [], { scene with keys := scene.keys.tail })
  | .generateDS _ => (List.replicate ENCRYPTED_SIGNATURE_LEN 0, scene)
  | .isDSverified _ _ _ => (true, scene)
  | .readPublicKey _ => (.key [], scene)
  | .readPrivateKey => (true, scene)
  | .loadCertificate => ([], scene)
  | .certificateEnds _ => (true, scene)
  | .deserializeCertificate _ => (some [], scene)
  | .verifyCertificate _ => (true, scene)
  | .getPublicKey _ => ([], scene)
  | .encrypt key _ plaintext => (some (boxOf key plaintext), scene)
  | .decrypt key _ box => (boxContent key box, scene)

def Scene.respond (scene : Scene) : (op : Op) → op.Ans × Scene
  | .ssl call => scene.ssl call
  | .random size => (List.replicate size 0, scene)
  | .memory size => (List.replicate size 0, scene)
  | .stray _ => ([], scene)
  | .send _ => (0, scene)
  | .receive _ =>
      match scene.inbox with
      | [] => ((-2, []), scene)
      | frame :: rest => ((0, frame), { scene with inbox := rest })
  | .file call => (scene.file call, scene)
  | .unlock _ _ => (.key (), scene)
  | .connect => (true, scene)
  | .getline => ([], scene)
  | .getValidCode lowerBound _ => (lowerBound, scene)
  | .note _ => ((), scene)

/-- A session frame with the given counter. -/
def frame (key : Bytes) (counter : UInt32) (plaintext : Bytes) : Bytes :=
  Generic.serialize ⟨Generic.aad counter, boxOf key plaintext⟩

theorem deserialize_frame {key plaintext : Bytes} (width : key.length = Config.AES_TAG_LEN)
    (counter : UInt32) :
    Generic.deserialize (frame key counter plaintext) plaintext.length =
      ⟨Generic.aad counter, boxOf key plaintext⟩ := by
  have formed : Generic.WellFormed ⟨Generic.aad counter, boxOf key plaintext⟩ :=
    ⟨List.length_replicate, networkBytes_length counter, width⟩
  exact formed.deserialize_serialize

/-- A packet of 71 bytes that starts as given. -/
def packet (start : Bytes) : Bytes := start ++ List.replicate (fillerSize start.length) 0

/-- The frames of a login: M1 and M4. -/
def login (host : Endian) (username key : Bytes) : List Bytes :=
  [AuthenticationM1.serialize (.ofKey [] username),
    Generic.serialize ⟨host.bytes 1, boxOf key (List.replicate ENCRYPTED_SIGNATURE_LEN 0)⟩]

instance : DecidableEq (Session octets) := fun s t =>
  decidable_of_iff (s.m_username = t.m_username ∧ s.m_counter = t.m_counter ∧
    s.m_session_key = t.m_session_key) (by cases s; cases t; simp)

/-- The server before a login. -/
def newcomer : Session octets := ⟨[], 0, []⟩

def sampleKey : Bytes := List.replicate Config.AES_KEY_LEN 5

/-- Luca logs in and these packets follow under the session key. -/
def sessionOf (host : Endian) (packets : List (UInt32 × Bytes)) : Scene where
  inbox := login host (ascii "Luca") sampleKey ++
    packets.map fun (counter, plaintext) => frame sampleKey counter plaintext
  keys := [sampleKey]
  present := []

/-- A user at a client: the lines and choices to come, and what every local file holds. -/
structure Desk where
  scene : Scene
  lines : List Bytes
  choices : List Nat
  content : Bytes

def Desk.respond (desk : Desk) : (op : Op) → op.Ans × Desk
  | .getline => (desk.lines.headD [], { desk with lines := desk.lines.tail })
  | .getValidCode _ _ => (desk.choices.headD 0, { desk with choices := desk.choices.tail })
  | .file (.seek_end _) => (some desk.content.length, desk)
  | .file (.read _ position size) => ((desk.content.drop position).take size, desk)
  | op => ((desk.scene.respond op).1, { desk with scene := (desk.scene.respond op).2 })

end Rehearsal
end CloudStorage
