import CloudStorage.Interaction.Link
import CloudStorage.Client

/-! An environment in which nothing goes wrong: keys that agree, signatures that verify,
ciphertexts that open, file systems that answer, and a channel between two machines of
the same byte order that delivers every byte in order. -/
namespace CloudStorage
open Interaction Code Method

/-- OpenSSL as it works for honest parties. What is random is only known to fit. -/
structure Crypto where
  publicText : Bytes → Bytes
  element : Bytes → Bytes
  readText : Bytes → Option Bytes
  agree : Bytes → Bytes → Bytes
  digest : Bytes → Bytes
  publicKey : Role → Bytes
  verify : Bytes → Bytes → Bytes → Bool
  certificateText : Bytes
  certificate : Bytes
  readCertificate : Bytes → Option Bytes
  trusted : Bytes → Bool
  certificateKey : Bytes → Bytes
  contentOf : Bytes → Bytes → SealedBytes → Option Bytes
  text_fits : ∀ exponent, (publicText exponent).length ≤ EPHEMERAL_KEY_LEN
  text_read : ∀ exponent, readText (publicText exponent) = some (element exponent)
  agree_comm : ∀ x y, agree x (element y) = agree y (element x)
  signs : ∀ role input, ∃ signature : Bytes, signature.length = ENCRYPTED_SIGNATURE_LEN ∧
    verify (publicKey role) input signature = true
  certificate_fits : certificateText.length ≤ MAX_SERIALIZED_CERTIFICATE_LEN
  certificate_read : readCertificate certificateText = some certificate
  certificate_trusted : trusted certificate = true
  certificate_key : certificateKey certificate = publicKey .server
  seals : ∀ key aad plaintext, ∃ box : SealedBytes, box.m_iv.length = Config.IV_LEN ∧
    box.m_tag.length = Config.AES_TAG_LEN ∧ box.m_ciphertext.length = plaintext.length ∧
    contentOf key aad box = some plaintext

namespace Crypto

/-- A result of sealing the plaintext. -/
structure Seals (C : Crypto) (key aad plaintext : Bytes) (box : SealedBytes) : Prop where
  iv : box.m_iv.length = Config.IV_LEN
  tag : box.m_tag.length = Config.AES_TAG_LEN
  ciphertext : box.m_ciphertext.length = plaintext.length
  opens : C.contentOf key aad box = some plaintext

/-- A signature of the role on the input. -/
structure Signs (C : Crypto) (role : Role) (input signature : Bytes) : Prop where
  length : signature.length = ENCRYPTED_SIGNATURE_LEN
  verified : C.verify (C.publicKey role) input signature = true

/-- `readPublicKey` finds the key of the one user. -/
def Answers (C : Crypto) (role : Role) : (call : Ssl octets) → call.Ans → Prop
  | .generateEphemeralKey, _ => True
  | .serializeEphemeralKey key, answer => answer = some (C.publicText key)
  | .deserializeEphemeralKey text, answer => answer = C.readText text
  | .deriveSharedSecret own peer, answer => answer = some (C.agree own peer)
  | .generateSHA256 secret, answer => answer = C.digest secret
  | .generateDS input, answer => C.Signs role input answer
  | .isDSverified input signature key, answer => answer = C.verify key input signature
  | .readPublicKey _, answer => answer = .key (C.publicKey .client)
  | .readPrivateKey, answer => answer = true
  | .loadCertificate, answer => answer = C.certificateText
  | .certificateEnds _, _ => True
  | .deserializeCertificate text, answer => answer = C.readCertificate text
  | .verifyCertificate certificate, answer => answer = C.trusted certificate
  | .getPublicKey certificate, answer => answer = C.certificateKey certificate
  | .encrypt key aad plaintext, answer => ∃ box, answer = some box ∧ C.Seals key aad plaintext box
  | .decrypt key aad box, answer => answer = C.contentOf key aad box

theorem answered (C : Crypto) (role : Role) (call : Ssl octets) :
    ∃ answer, C.Answers role call answer := by
  cases call with
  | generateEphemeralKey => exact ⟨[], trivial⟩
  | certificateEnds _ => exact ⟨true, trivial⟩
  | generateDS input =>
      obtain ⟨signature, length, verified⟩ := C.signs role input
      exact ⟨signature, length, verified⟩
  | encrypt key aad plaintext =>
      obtain ⟨box, iv, tag, ciphertext, opens⟩ := C.seals key aad plaintext
      exact ⟨some box, box, rfl, iv, tag, ciphertext, opens⟩
  | _ => exact ⟨_, rfl⟩

end Crypto

/-- Calls that only look at files. -/
def FileCall.Looks : FileCall → Prop
  | .ofstream_open _ | .write _ _ | .rename _ _ | .remove _ => False
  | _ => True

/-- What the file calls of one machine read and change. -/
structure FileStore where
  State : Type
  respond : State → (call : FileCall) → call.Ans × State

namespace FileStore
variable (S : FileStore)

def after (state : S.State) (call : FileCall) : S.State := (S.respond state call).2

def size (state : S.State) (path : Bytes) : Option Nat := (S.respond state (.seek_end path)).1

/-- There is a regular file of this length. -/
def Holds (state : S.State) (length : Nat) : Prop :=
  ∃ path, (S.respond state (.is_regular_file path)).1 = some true ∧ S.size state path = some length

end FileStore

/-- A file system. Looking changes nothing, a read inside a file is whole, the kind
of a file can be told, and a file grows only by what is written to it. -/
structure FileSystem extends FileStore where
  looks : ∀ state call, call.Looks → (respond state call).2 = state
  whole : ∀ state path length position count, toFileStore.size state path = some length →
    position + count ≤ length → (respond state (.read path position count)).1.length = count
  regular : ∀ state path, (respond state (.is_regular_file path)).1.isSome
  symlink : ∀ state path, (respond state (.is_symlink path)).1.isSome
  emptied : ∀ state path length, (respond state (.ofstream_open path)).1 = true →
    toFileStore.size (toFileStore.after state (.ofstream_open path)) path = some length →
      length = 0
  opened : ∀ state path length,
    toFileStore.Holds (toFileStore.after state (.ofstream_open path)) length →
      length = 0 ∨ toFileStore.Holds state length
  extended : ∀ state path chunk length,
    toFileStore.size (toFileStore.after state (.write path chunk)) path = some length →
      ∃ before, toFileStore.size state path = some before ∧ length ≤ before + chunk.length
  written : ∀ state path chunk length,
    toFileStore.Holds (toFileStore.after state (.write path chunk)) length →
      toFileStore.Holds state length ∨
        ∃ before, toFileStore.size state path = some before ∧ length ≤ before + chunk.length
  renamed : ∀ state old new length,
    toFileStore.Holds (toFileStore.after state (.rename old new)) length →
      toFileStore.Holds state length
  removed : ∀ state path length,
    toFileStore.Holds (toFileStore.after state (.remove path)) length →
      toFileStore.Holds state length

/-- A machine with a user in front of it, who answers within the bounds asked for. -/
structure Computer extends FileSystem where
  chooses : Nat → Nat → Nat → Prop
  bounded : ∀ lowerBound upperBound choice, chooses lowerBound upperBound choice →
    lowerBound ≤ upperBound → lowerBound ≤ choice ∧ choice ≤ upperBound
  decided : ∀ lowerBound upperBound, ∃ choice, chooses lowerBound upperBound choice

/-- One party at work: its files, whether all received counters were the expected ones,
the key and counter while it waits at the top of its loop, and the choice just made. -/
structure Machine (F : Computer) where
  files : F.State
  sound : Bool
  idle : Option (Bytes × UInt32)
  choice : Option Nat

namespace Machine
variable {F : Computer}

/-- Nothing has gone wrong and the party is not at the top of its loop. -/
structure AtWork (m : Machine F) : Prop where
  sound : m.sound = true
  awake : m.idle = none

theorem AtWork.stays {m : Machine F} (work : m.AtWork) {P : Prop} (resting : m.idle.isSome = true) :
    P := by
  rw [work.awake] at resting
  exact nomatch resting

/-- The user may upload any file but one of exactly `MAX_FILE_SIZE` bytes: that is the
one size the client lets through and `UploadM1` does not carry. -/
def Types (m : Machine F) (name : Bytes) : Prop :=
  m.choice = some 3 → FileManager.isStringValid name = true →
    F.size m.files (Client.localPath name) ≠ some Config.MAX_FILE_SIZE

def Answers (C : Crypto) (role : Role) (m : Machine F) : (op : Op) → Bytes → op.Ans → Prop
  | .ssl call, _, answer => C.Answers role call answer
  | .random size, _, answer | .memory size, _, answer => answer.length = size
  | .send _, _, answer => answer = 0
  | .receive _, arrived, answer => answer = (0, arrived)
  | .file call, _, answer => answer = (F.respond m.files call).1
  | .getValidCode lowerBound upperBound, _, answer => F.chooses lowerBound upperBound answer
  | .getline, _, answer => m.Types answer
  | .stray _, _, _ | .unlock _ _, _, _ | .connect, _, _ | .note _, _, _ => True

def next (m : Machine F) : (op : Op) → op.Ans → Machine F
  | .file call, _ => ⟨(F.respond m.files call).2, m.sound, none, none⟩
  | .note (.checked m_counter received), _ =>
      ⟨m.files, m.sound && m_counter == received, none, none⟩
  | .note (.idle key m_counter), _ => ⟨m.files, m.sound, some (key, m_counter), none⟩
  | .getValidCode _ _, answer => ⟨m.files, m.sound, none, some answer⟩
  | _, _ => ⟨m.files, m.sound, none, none⟩

theorem answered (C : Crypto) (role : Role) (m : Machine F) (op : Op) (arrived : Bytes) :
    ∃ answer, m.Answers C role op arrived answer := by
  cases op with
  | ssl call => exact C.answered role call
  | random size => exact ⟨List.replicate size 0, List.length_replicate⟩
  | memory size => exact ⟨List.replicate size 0, List.length_replicate⟩
  | getValidCode lowerBound upperBound => exact F.decided lowerBound upperBound
  | stray _ => exact ⟨[], trivial⟩
  | unlock _ _ => exact ⟨.missing, trivial⟩
  | connect => exact ⟨true, trivial⟩
  | getline => exact ⟨[], fun _ valid => absurd valid (by decide)⟩
  | note _ => exact ⟨(), trivial⟩
  | _ => exact ⟨_, rfl⟩

end Machine

/-- The end of the channel at which a party sits. -/
@[reducible] def port (C : Crypto) (F : Computer) (role : Role) : Port Op Op.Ans UInt8 where
  World := Machine F
  takes
    | .receive size => size
    | _ => 0
  puts
    | .send frame => frame
    | _ => []
  Answers := Machine.Answers C role
  next := Machine.next
  answered := Machine.answered C role
  Rests := fun m => m.idle.isSome = true

end CloudStorage
