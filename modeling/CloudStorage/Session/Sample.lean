import CloudStorage.Interaction.Schedule
import CloudStorage.Session.Honest

/-! Two small machines and a small cryptography that satisfy all that is asked of an
environment in which nothing goes wrong. -/
namespace CloudStorage
open Interaction

namespace Sample

/-- Exponents are added, a signature names its key, and a tag its key and counter. -/
def crypto : Crypto where
  publicText exponent := exponent.take EPHEMERAL_KEY_LEN
  element exponent := exponent.take EPHEMERAL_KEY_LEN
  readText := some
  agree own peer := List.zipWith (· + ·) (own.take EPHEMERAL_KEY_LEN) peer
  digest secret := strncpy secret Config.AES_KEY_LEN
  publicKey
    | .client => [1]
    | .server => [2]
  verify key input signature := signature == strncpy (key ++ input) ENCRYPTED_SIGNATURE_LEN
  certificateText := [2]
  certificate := [2]
  readCertificate := some
  trusted certificate := certificate == [2]
  certificateKey certificate := certificate
  contentOf key aad box :=
    if box.m_tag = strncpy (aad ++ key) Config.AES_TAG_LEN then some box.m_ciphertext else none
  text_fits exponent := List.length_take_le _ _
  text_read _ := rfl
  agree_comm x y := by
    exact List.zipWith_comm_of_comm UInt8.add_comm
  signs role input := ⟨_, strncpy_length _ _, beq_self_eq_true _⟩
  certificate_fits := by decide
  certificate_read := rfl
  certificate_trusted := by decide
  certificate_key := rfl
  seals key aad plaintext := ⟨⟨List.replicate Config.IV_LEN 0,
    strncpy (aad ++ key) Config.AES_TAG_LEN, plaintext⟩, List.length_replicate,
    strncpy_length _ _, rfl, if_pos rfl⟩

/-- Paths and what the files there hold. -/
abbrev Disk := List (Bytes × Bytes)

namespace Disk

def drop (disk : Disk) (path : Bytes) : Disk := disk.filter fun file => file.1 ≠ path

def put (disk : Disk) (path content : Bytes) : Disk := (path, content) :: drop disk path

theorem lookup_drop (disk : Disk) (path other : Bytes) :
    (drop disk path).lookup other = if other = path then none else disk.lookup other := by
  induction disk with
  | nil => simp [drop]
  | cons file disk ih =>
      obtain ⟨place, content⟩ := file
      simp only [drop] at ih ⊢
      by_cases same : place = path
      · rw [List.filter_cons_of_neg (by simpa using same), ih]
        by_cases asked : other = path
        · simp only [asked, if_true]
        · have differs : (other == place) = false :=
            beq_eq_false_iff_ne.mpr (same ▸ asked)
          simp only [asked, if_false, List.lookup_cons, differs]
      · rw [List.filter_cons_of_pos (by simpa using same)]
        simp only [List.lookup_cons, ih]
        by_cases asked : other = path
        · have differs : (path == place) = false :=
            beq_eq_false_iff_ne.mpr fun equal => same equal.symm
          simp only [asked, if_true, differs]
        · simp only [asked, if_false]

theorem lookup_put (disk : Disk) (path content other : Bytes) :
    (put disk path content).lookup other =
      if other = path then some content else disk.lookup other := by
  rw [put, List.lookup_cons, lookup_drop]
  by_cases same : other = path
  · simp [same]
  · simp [same, beq_eq_false_iff_ne.mpr same]

def names (disk : Disk) (path : Bytes) : List Bytes :=
  disk.filterMap fun file =>
    if (path ++ ascii "/").isPrefixOf file.1 then some (file.1.drop (path.length + 1)) else none

def respond (disk : Disk) : (call : FileCall) → call.Ans × Disk
  | .ifstream_open path => ((disk.lookup path).isSome, disk)
  | .ofstream_open path => (true, put disk path [])
  | .seek_end path => ((disk.lookup path).map List.length, disk)
  | .read path position size => ((((disk.lookup path).getD []).drop position).take size, disk)
  | .write path chunk =>
      match disk.lookup path with
      | some content => ((), put disk path (content ++ chunk))
      | none => ((), disk)
  | .exists_ _ => (some true, disk)
  | .directory_iterator path => (some (names disk path), disk)
  | .is_regular_file path => (some (disk.lookup path).isSome, disk)
  | .is_symlink _ => (some false, disk)
  | .rename old_path new_path =>
      match disk.lookup old_path with
      | some content => (0, put (drop disk old_path) new_path content)
      | none => (-1, disk)
  | .remove path => if (disk.lookup path).isSome then (0, drop disk path) else (-1, disk)

end Disk

abbrev store : FileStore := ⟨Disk, Disk.respond⟩

theorem holds_iff (disk : Disk) (length : Nat) :
    store.Holds disk length ↔ ∃ path content, disk.lookup path = some content ∧
      content.length = length := by
  constructor
  · rintro ⟨path, -, size⟩
    obtain ⟨content, found, rfl⟩ := Option.map_eq_some_iff.mp size
    exact ⟨path, content, found, rfl⟩
  · rintro ⟨path, content, found, rfl⟩
    refine ⟨path, ?_, ?_⟩
    · exact congrArg (fun file => some file.isSome) found
    · exact congrArg (Option.map List.length) found

theorem written_lookup (disk : Disk) (path chunk other content : Bytes)
    (found : (Disk.respond disk (.write path chunk)).2.lookup other = some content) :
    disk.lookup other = some content ∨ other = path ∧
      ∃ before, disk.lookup path = some before ∧ content = before ++ chunk := by
  simp only [Disk.respond] at found
  split at found
  · rename_i before there
    rw [Disk.lookup_put] at found
    split_ifs at found with same
    · exact .inr ⟨same, before, there, (Option.some.inj found).symm⟩
    · exact .inl found
  · exact .inl found

/-- A file system on the disk. -/
def files : FileSystem where
  toFileStore := store
  looks disk call looks := by
    cases call with
    | ofstream_open => exact looks.elim
    | write => exact looks.elim
    | rename => exact looks.elim
    | remove => exact looks.elim
    | _ => rfl
  whole disk path length position count found inside := by
    obtain ⟨content, known, rfl⟩ := Option.map_eq_some_iff.mp found
    have answer : (Disk.respond disk (.read path position count)).1 =
        (content.drop position).take count := by
      simp only [Disk.respond, known, Option.getD_some]
    refine (congrArg List.length answer).trans ?_
    rw [List.length_take, List.length_drop]
    omega
  regular _ _ := rfl
  symlink _ _ := rfl
  emptied disk path length _ found := by
    obtain ⟨content, known, rfl⟩ := Option.map_eq_some_iff.mp found
    have placed := (Disk.lookup_put disk path [] path).symm.trans known
    rw [if_pos rfl] at placed
    rw [← Option.some.inj placed]
    rfl
  opened disk path length holds := by
    obtain ⟨other, content, known, rfl⟩ := (holds_iff _ _).mp holds
    have placed := (Disk.lookup_put disk path [] other).symm.trans known
    split_ifs at placed with same
    · rw [← Option.some.inj placed]
      exact .inl rfl
    · exact .inr ((holds_iff _ _).mpr ⟨other, content, placed, rfl⟩)
  extended disk path chunk length found := by
    obtain ⟨content, known, rfl⟩ := Option.map_eq_some_iff.mp found
    rcases written_lookup disk path chunk path content known with kept | ⟨-, before, there, rfl⟩
    · exact ⟨_, congrArg (Option.map List.length) kept, Nat.le_add_right _ _⟩
    · exact ⟨_, congrArg (Option.map List.length) there, Nat.le_of_eq List.length_append⟩
  written disk path chunk length holds := by
    obtain ⟨other, content, known, rfl⟩ := (holds_iff _ _).mp holds
    rcases written_lookup disk path chunk other content known with kept | ⟨-, before, there, rfl⟩
    · exact .inl ((holds_iff _ _).mpr ⟨other, content, kept, rfl⟩)
    · exact .inr ⟨_, congrArg (Option.map List.length) there, Nat.le_of_eq List.length_append⟩
  renamed disk old new length holds := by
    obtain ⟨other, content, known, rfl⟩ := (holds_iff _ _).mp holds
    have placed : (Disk.respond disk (.rename old new)).2.lookup other = some content := known
    simp only [Disk.respond] at placed
    split at placed
    · rename_i moved there
      rw [Disk.lookup_put, Disk.lookup_drop] at placed
      split_ifs at placed
      · rw [← Option.some.inj placed]
        exact (holds_iff _ _).mpr ⟨old, moved, there, rfl⟩
      · exact (holds_iff _ _).mpr ⟨other, content, placed, rfl⟩
    · exact (holds_iff _ _).mpr ⟨other, content, placed, rfl⟩
  removed disk path length holds := by
    obtain ⟨other, content, known, rfl⟩ := (holds_iff _ _).mp holds
    have placed : (Disk.respond disk (.remove path)).2.lookup other = some content := known
    simp only [Disk.respond] at placed
    split at placed
    · rw [Disk.lookup_drop] at placed
      split_ifs at placed
      exact (holds_iff _ _).mpr ⟨other, content, placed, rfl⟩
    · exact (holds_iff _ _).mpr ⟨other, content, placed, rfl⟩

/-- A machine whose user always takes the first choice. -/
def computer : Computer where
  toFileSystem := files
  chooses lowerBound _ choice := choice = lowerBound
  bounded lowerBound upperBound choice := by
    rintro rfl ordered
    exact ⟨Nat.le_refl _, ordered⟩
  decided lowerBound _ := ⟨lowerBound, rfl⟩

def empty : computer.State := ([] : Disk)

/-- A disk with one short file. -/
def single (path : Bytes) : computer.State := ([(path, [1, 2])] : Disk)

theorem single_holds {path : Bytes} {length : Nat} (holds : computer.Holds (single path) length) :
    length < 2 ^ 32 := by
  obtain ⟨other, content, found, rfl⟩ := (holds_iff _ _).mp holds
  have placed : ([(path, [1, 2])] : Disk).lookup other = some content := found
  rw [List.lookup_cons] at placed
  split at placed
  · rw [← Option.some.inj placed]
    decide
  · exact nomatch placed

/-- What OpenSSL answers here. -/
def ssl (role : Role) : (call : Ssl octets) → call.Ans
  | .generateEphemeralKey => []
  | .serializeEphemeralKey key => some (crypto.publicText key)
  | .deserializeEphemeralKey text => crypto.readText text
  | .deriveSharedSecret own peer => some (crypto.agree own peer)
  | .generateSHA256 secret => crypto.digest secret
  | .generateDS input => strncpy (crypto.publicKey role ++ input) ENCRYPTED_SIGNATURE_LEN
  | .isDSverified input signature key => crypto.verify key input signature
  | .readPublicKey _ => .key (crypto.publicKey .client)
  | .readPrivateKey => true
  | .loadCertificate => crypto.certificateText
  | .certificateEnds _ => true
  | .deserializeCertificate text => crypto.readCertificate text
  | .verifyCertificate certificate => crypto.trusted certificate
  | .getPublicKey certificate => crypto.certificateKey certificate
  | .encrypt key aad plaintext => some ⟨List.replicate Config.IV_LEN 0,
      strncpy (aad ++ key) Config.AES_TAG_LEN, plaintext⟩
  | .decrypt key aad box => crypto.contentOf key aad box

theorem ssl_answers (role : Role) (call : Ssl octets) : crypto.Answers role call (ssl role call) := by
  cases call with
  | generateEphemeralKey => trivial
  | certificateEnds text => trivial
  | generateDS input => exact ⟨strncpy_length _ _, beq_self_eq_true _⟩
  | encrypt key aad plaintext =>
      exact ⟨_, rfl, List.length_replicate, strncpy_length _ _, rfl, if_pos rfl⟩
  | _ => rfl

/-- What a machine answers whose user types this line and takes every first choice. -/
def reply (role : Role) (line : Bytes) (files : (call : FileCall) → call.Ans) :
    (op : Op) → Bytes → op.Ans
  | .ssl call, _ => ssl role call
  | .random size, _ | .memory size, _ => List.replicate size 0
  | .stray _, _ => []
  | .send _, _ => 0
  | .receive _, arrived => (0, arrived)
  | .file call, _ => files call
  | .unlock _ _, _ => .key ()
  | .connect, _ => true
  | .getline, _ => line
  | .getValidCode lowerBound _, _ => lowerBound
  | .note _, _ => ()

theorem reply_answers {F : Computer} {m : Machine F} (line : Bytes)
    (chooses : ∀ lowerBound upperBound, F.chooses lowerBound upperBound lowerBound)
    (types : m.Types line) (role : Role) (op : Op) (arrived : Bytes) :
    m.Answers crypto role op arrived
      (reply role line (fun call => (F.respond m.files call).1) op arrived) := by
  cases op with
  | ssl call => exact ssl_answers role call
  | random size => exact List.length_replicate
  | memory size => exact List.length_replicate
  | getValidCode lowerBound upperBound => exact chooses lowerBound upperBound
  | getline => exact types
  | stray _ | unlock _ _ | connect | note _ => trivial
  | _ => rfl

/-- Luca at the sample computer, who names no file to upload. -/
def clerk (role : Role) : (port crypto computer role).Clerk where
  reply m := reply role (if m.choice = some 3 then [] else ascii "luca")
    fun call => (computer.respond m.files call).1
  answers m op arrived := by
    refine reply_answers _ (fun _ _ => rfl) (fun chosen valid => ?_) role op arrived
    rw [if_pos chosen] at valid
    exact absurd valid (by decide)

end Sample
end CloudStorage
