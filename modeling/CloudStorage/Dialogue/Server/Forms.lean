import CloudStorage.Dialogue.Chunks
import CloudStorage.Dialogue.Counting
import CloudStorage.Session.Listing

/-! What a server says and does for a request, and what it owes of its ledger. -/
namespace CloudStorage
open Interaction Code Method Dialogue

/-- What a terminated field holds. -/
def Named (memory name : Bytes) : Prop := 0 ∈ memory → name = cPrefix memory

theorem named_terminated (memory : Bytes) : Named memory (cPrefix memory) := fun _ => rfl

namespace Server

/-- The list that is sent for a listed directory, with its terminator. -/
def sentList (names : List Bytes) : Bytes := FileManager.joinedNames names ++ [0]

/-- The size that is announced for it, in 32 bits. -/
def sentSize (names : List Bytes) : UInt32 :=
  if (FileManager.joinedNames names).length.toUInt32 ≠ 0 then
    (FileManager.joinedNames names).length.toUInt32 + 1
  else 0

/-- The directory of the user has been listed. -/
def Listed (user : Bytes) (deeds : Deeds) (names : List Bytes) : Prop :=
  deeds.listing = some (storageDirectory user, names)

structure Lists (host : Endian) (user : Bytes) (talk : Talk) (deeds : Deeds) : Prop where
  spoken : Spoken .server Message.LIST_REQUEST.byte 0 talk
  unchanged : deeds.changes = []
  announced : talk.Says 1 fun e => ∃ names, Listed user deeds names ∧
    e.plaintext = (ListM2.ofSize (sentSize names)).serialize host
  listed : talk.Says 2 fun e => ∃ names, Listed user deeds names ∧
    e.plaintext = (ListM3.ofList ((sentList names).take (sentSize names).toNat)).serialize

/-- A download of the file of a name. -/
structure Downloads (host : Endian) (user name : Bytes) (talk : Talk) (deeds : Deeds) : Prop where
  asked : talk.Says 0 fun e => Named (NameRequest.deserialize e.plaintext).m_filename name
  spoken : Spoken .server Message.DOWNLOAD_REQUEST.byte (chunksOf (deeds.size.getD 0)) talk
  unchanged : deeds.changes = []
  announced : talk.Says 1 fun e => e.code = Message.DOWNLOAD_ACK.byte →
    e.plaintext = (DownloadM2.ofSize Message.DOWNLOAD_ACK.byte (deeds.size.getD 0)).serialize host
  feeds : Feeds .server Message.DOWNLOAD_CHUNK.byte (storagePath user name) (deeds.size.getD 0)
    talk deeds

/-- An upload of a file whose size was announced. -/
structure Uploads (host : Endian) (user : Bytes) (size : Nat) (talk : Talk)
    (deeds : Deeds) : Prop where
  asked : talk.Says 0 fun e => (UploadM1.deserialize host e.plaintext).m_file_size.toNat = size
  spoken : Spoken .server Message.UPLOAD_REQUEST.byte (chunksOf size) talk
  created : deeds.changes = [] ∨ ∃ name, talk.Says 0 (fun e =>
    Named ((UploadM1.deserialize host e.plaintext).m_filename ++
      host.bytes (UploadM1.deserialize host e.plaintext).m_file_size) name) ∧
    deeds.changes = [.ofstream_open (storagePath user name)]
  took : deeds.effects = [] ∨ deeds.effects = deeds.changes
  stores : Stores .client talk deeds
  complete : talk.Says (chunksOf size + 2) fun _ =>
    deeds.effects ≠ [] → deeds.written.length = chunksOf size

structure Renames (user : Bytes) (talk : Talk) (deeds : Deeds) : Prop where
  spoken : Spoken .server Message.RENAME_REQUEST.byte 0 talk
  renamed : deeds.changes = [] ∨ ∃ old new, talk.Says 0 (fun e =>
    Named ((Rename.deserialize e.plaintext).m_old_filename ++
      (Rename.deserialize e.plaintext).m_new_filename) old ∧
    Named (Rename.deserialize e.plaintext).m_new_filename new) ∧
    deeds.changes = [.rename (storagePath user old) (storagePath user new)]
  took : deeds.effects = [] ∨ deeds.effects = deeds.changes
  acknowledged : talk.Says 1 fun e => e.code = Result.ACK.byte → deeds.effects ≠ []

/-- A removal, which is confirmed before it is tried. -/
structure Deletes (user : Bytes) (talk : Talk) (deeds : Deeds) : Prop where
  spoken : Spoken .server Message.DELETE_REQUEST.byte 0 talk
  short : talk.Says 2 (·.size ≤ Config.MAX_PACKET_SIZE)
  removed : deeds.changes = [] ∨ (2 < talk.length ∧ talk.Says 2 (·.code = Message.DELETE_CONFIRM.byte) ∧
    ∃ name, talk.Says 0 (fun e => Named (NameRequest.deserialize e.plaintext).m_filename name) ∧
      deeds.changes = [.remove (storagePath user name)])
  took : deeds.effects = [] ∨ deeds.effects = deeds.changes
  acknowledged : talk.Says 3 fun _ => deeds.effects ≠ []

structure LogsOut (talk : Talk) (deeds : Deeds) : Prop where
  spoken : Spoken .server Message.LOGOUT_REQUEST.byte 0 talk
  unchanged : deeds.changes = []

/-- What is said and done for a command. -/
inductive Answers (host : Endian) (user : Bytes) (command : UInt8) (talk : Talk)
    (deeds : Deeds) : Prop where
  | list : command = Message.LIST_REQUEST.byte → Lists host user talk deeds →
      Answers host user command talk deeds
  | download (name : Bytes) : command = Message.DOWNLOAD_REQUEST.byte →
      Downloads host user name talk deeds → Answers host user command talk deeds
  | upload (size : Nat) : command = Message.UPLOAD_REQUEST.byte →
      Uploads host user size talk deeds → Answers host user command talk deeds
  | rename : command = Message.RENAME_REQUEST.byte → Renames user talk deeds →
      Answers host user command talk deeds
  | delete : command = Message.DELETE_REQUEST.byte → Deletes user talk deeds →
      Answers host user command talk deeds
  | logout : command = Message.LOGOUT_REQUEST.byte → LogsOut talk deeds →
      Answers host user command talk deeds

/-- A request begins with its command. -/
structure Formed (host : Endian) (user : Bytes) (entry : Entry) : Prop where
  begun : entry.talk ≠ []
  request : entry.talk.Says 0 fun e => e.code = entry.command ∧ e.size ≤ Config.MAX_PACKET_SIZE
  serves : Answers host user entry.command entry.talk entry.deeds

variable {host : Endian} {key : Bytes} {known : Emission → Prop} {user : Bytes} {entry : Entry}

namespace Formed

theorem spoken (formed : Formed host user entry) :
    entry.command ∈ commandCodes ∧ ∃ chunks, Spoken .server entry.command chunks entry.talk := by
  rcases formed.serves with ⟨command, facts⟩ | ⟨_, command, facts⟩ | ⟨_, command, facts⟩ |
    ⟨command, facts⟩ | ⟨command, facts⟩ | ⟨command, facts⟩
  all_goals exact ⟨command ▸ (by decide), _, command ▸ facts.spoken⟩

theorem lists (formed : Formed host user entry) (list : entry.command = Message.LIST_REQUEST.byte) :
    Lists host user entry.talk entry.deeds := by
  cases formed.serves with
  | list _ facts => exact facts
  | download _ other | upload _ other | rename other | delete other | logout other =>
      exact absurd (list.symm.trans other) (by decide)

theorem downloads (formed : Formed host user entry)
    (download : entry.command = Message.DOWNLOAD_REQUEST.byte) :
    ∃ name, Downloads host user name entry.talk entry.deeds := by
  cases formed.serves with
  | download name _ facts => exact ⟨name, facts⟩
  | list other | upload _ other | rename other | delete other | logout other =>
      exact absurd (download.symm.trans other) (by decide)

theorem uploads (formed : Formed host user entry)
    (upload : entry.command = Message.UPLOAD_REQUEST.byte) :
    ∃ size, Uploads host user size entry.talk entry.deeds := by
  cases formed.serves with
  | upload size _ facts => exact ⟨size, facts⟩
  | list other | download _ other | rename other | delete other | logout other =>
      exact absurd (upload.symm.trans other) (by decide)

theorem renames (formed : Formed host user entry)
    (rename : entry.command = Message.RENAME_REQUEST.byte) : Renames user entry.talk entry.deeds := by
  cases formed.serves with
  | rename _ facts => exact facts
  | list other | download _ other | upload _ other | delete other | logout other =>
      exact absurd (rename.symm.trans other) (by decide)

theorem deletes (formed : Formed host user entry)
    (delete : entry.command = Message.DELETE_REQUEST.byte) : Deletes user entry.talk entry.deeds := by
  cases formed.serves with
  | delete _ facts => exact facts
  | list other | download _ other | upload _ other | rename other | logout other =>
      exact absurd (delete.symm.trans other) (by decide)

end Formed

theorem Formed.say {turn : Turn} (formed : Formed host user entry)
    (serves : Answers host user (entry.say turn).command (entry.say turn).talk (entry.say turn).deeds) :
    Formed host user (entry.say turn) where
  begun := List.append_ne_nil_of_left_ne_nil formed.begun _
  request := formed.request.later (List.length_pos_iff.mpr formed.begun)
  serves := serves

theorem Formed.act {call : FileCall} {answer : call.Ans} (formed : Formed host user entry)
    (serves : Answers host user (entry.act call answer).command (entry.act call answer).talk
      (entry.act call answer).deeds) : Formed host user (entry.act call answer) :=
  ⟨formed.begun, formed.request, serves⟩

/-- Only what was said and done counts. -/
theorem Formed.finish (formed : Formed host user entry) (code : Nat) :
    Formed host user (entry.finish code) :=
  ⟨formed.begun, formed.request, formed.serves⟩

/-- What a server owes of its ledger. The erased key can be negotiated, or come back. -/
def charter (host : Endian) (key : Bytes) (known : Emission → Prop) : Charter where
  role := .server
  key := key
  Known := known
  Formed := Formed host
  Outer := fun e => e.code ∈ answerCodes ∨ (e.size = ENCRYPTED_SIGNATURE_LEN ∧ e.counter = 0)
  Left := fun _ => True
  again := True

theorem negotiates :
    Negotiates (charter host key known) (Discloses host) (authenticationRequest host) where
  seals _ := authenticationRequest_seals
  outer := by
    rintro aad plaintext box (⟨rfl, length⟩ | ack | nack) kept
    · refine .inr ⟨kept.trans length, ?_⟩
      cases host <;> rfl
    · refine .inl ?_
      rw [Emission.code, ack]
      decide
    · refine .inl ?_
      rw [Emission.code, nack]
      decide

end Server
end CloudStorage
