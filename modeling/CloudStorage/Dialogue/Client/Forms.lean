import CloudStorage.Client
import CloudStorage.Dialogue.Chunks
import CloudStorage.Dialogue.Counting

/-! What a client says and does for a request, and what it owes of its ledger. -/
namespace CloudStorage
open Interaction Code Method Dialogue
namespace Client

/-- A list. -/
structure Lists (host : Endian) (talk : Talk) (result : Option Nat) : Prop where
  spoken : Spoken .client Message.LIST_REQUEST.byte 0 talk
  goesOn : 2 < talk.length → talk.Says 1 (·.code = Message.LIST_ACK.byte)
  success : result = some Return.SUCCESS.val →
    (talk.length = 2 ∧ talk.Says 1 fun e => e.code = Message.LIST_ACK.byte ∧
      (ListM2.deserialize host e.plaintext).m_list_size = 0) ∨
    (talk.length = 3 ∧ talk.Says 2 (·.code = Message.LIST_RESPONSE.byte))

/-- A download of a file whose size was announced. -/
structure Downloads (host : Endian) (name : Bytes) (size : Nat) (talk : Talk) (deeds : Deeds)
    (result : Option Nat) : Prop where
  spoken : Spoken .client Message.DOWNLOAD_REQUEST.byte (chunksOf size) talk
  asks : talk.Says 0 fun e => ∃ filler, e.plaintext = (DownloadM1.ofName name).serialize filler
  announced : talk.Says 1 fun e => (DownloadM2.deserialize host e.plaintext).m_file_size.toNat = size
  goesOn : 2 < talk.length → talk.Says 1 (·.code = Message.DOWNLOAD_ACK.byte)
  created : deeds.changes = [] ∨ deeds.changes = [.ofstream_open (localPath name)]
  stores : Stores .server talk deeds
  success : result = some Return.SUCCESS.val → talk.length = chunksOf size + 2 ∧
    talk.Says 1 (·.code = Message.DOWNLOAD_ACK.byte) ∧
    (deeds.effects ≠ [] → deeds.written.length = chunksOf size)

/-- An upload of a file whose size was found. -/
structure Uploads (host : Endian) (name : Bytes) (size : Nat) (talk : Talk) (deeds : Deeds)
    (result : Option Nat) : Prop where
  spoken : Spoken .client Message.UPLOAD_REQUEST.byte (chunksOf size) talk
  asks : talk.Says 0 fun e => ∃ filler,
    e.plaintext = (UploadM1.ofFile name size).serialize host filler
  measured : talk ≠ [] → deeds.size = some size ∧ size ≠ 0 ∧ size ≤ Config.MAX_FILE_SIZE
  goesOn : 2 < talk.length → talk.Says 1 (·.code = Result.ACK.byte)
  feeds : Feeds .client Message.UPLOAD_CHUNK.byte (localPath name) size talk deeds
  success : result = some Return.SUCCESS.val → talk.length = chunksOf size + 3 ∧
    talk.Says (chunksOf size + 2) (·.code = Result.ACK.byte)

/-- The answers that a client takes for a refusal. -/
def refusals : List UInt8 :=
  [Return.FILE_NOT_FOUND.byte, Return.FILE_ALREADY_EXISTS.byte, Result.NACK.byte]

structure Renames (old new : Bytes) (talk : Talk) (result : Option Nat) : Prop where
  spoken : Spoken .client Message.RENAME_REQUEST.byte 0 talk
  asks : talk.Says 0 (·.plaintext = (Rename.ofNames old new).serialize)
  success : result = some Return.SUCCESS.val → talk.length = 2 ∧ talk.Says 1 (·.code ∉ refusals)

/-- A removal, which the user has confirmed or not. -/
structure Deletes (name : Bytes) (confirmed : Bool) (talk : Talk) (result : Option Nat) : Prop where
  spoken : Spoken .client Message.DELETE_REQUEST.byte 0 talk
  asks : talk.Says 0 fun e => ∃ filler, e.plaintext = (Delete.ofName name).serialize filler
  goesOn : 2 < talk.length → talk.Says 1 (·.code = Message.DELETE_ASK.byte)
  confirms : talk.Says 2 fun e => e.code = Message.DELETE_CONFIRM.byte → confirmed = true
  success : result = some Return.SUCCESS.val → talk.length = 4 ∧
    talk.Says 3 (·.code = Result.ACK.byte)

structure LogsOut (talk : Talk) (result : Option Nat) : Prop where
  spoken : Spoken .client Message.LOGOUT_REQUEST.byte 0 talk
  success : result = some Return.SUCCESS.val → talk.length = 2 ∧ talk.Says 1 (·.code = Result.ACK.byte)

/-- A request, with names that the console has let through. -/
inductive Formed (host : Endian) (entry : Entry) : Prop where
  | list : entry.command = Message.LIST_REQUEST.byte → entry.names = [] →
      Lists host entry.talk entry.result → Formed host entry
  | download (name : Bytes) (size : Nat) : entry.command = Message.DOWNLOAD_REQUEST.byte →
      entry.names = [name] → FileManager.isStringValid name = true →
      Downloads host name size entry.talk entry.deeds entry.result → Formed host entry
  | upload (name : Bytes) (size : Nat) : entry.command = Message.UPLOAD_REQUEST.byte →
      entry.names = [name] → FileManager.isStringValid name = true →
      Uploads host name size entry.talk entry.deeds entry.result → Formed host entry
  | rename (old new : Bytes) : entry.command = Message.RENAME_REQUEST.byte →
      entry.names = [old, new] → FileManager.isStringValid old = true →
      FileManager.isStringValid new = true → Renames old new entry.talk entry.result →
      Formed host entry
  | delete (name : Bytes) : entry.command = Message.DELETE_REQUEST.byte → entry.names = [name] →
      FileManager.isStringValid name = true →
      Deletes name entry.confirmed entry.talk entry.result → Formed host entry
  | logout : entry.command = Message.LOGOUT_REQUEST.byte → entry.names = [] →
      LogsOut entry.talk entry.result → Formed host entry

variable {host : Endian} {key : Bytes} {known : Emission → Prop}

/-- A download writes to one file only. -/
theorem Downloads.target {name : Bytes} {size : Nat} {talk : Talk} {deeds : Deeds}
    {result : Option Nat} (received : Downloads host name size talk deeds result) :
    ∀ path, .ofstream_open path ∈ deeds.changes → path = localPath name := by
  intro path opened
  rcases received.created with none_ | one
  · rw [none_] at opened
    cases opened
  · rw [one, List.mem_singleton] at opened
    exact FileCall.ofstream_open.inj opened

namespace Formed
variable {entry : Entry}

theorem spoken (formed : Formed host entry) :
    entry.command ∈ commandCodes ∧ ∃ chunks, Spoken .client entry.command chunks entry.talk := by
  rcases formed with ⟨command, _, facts⟩ | ⟨_, _, command, _, _, facts⟩ | ⟨_, _, command, _, _, facts⟩ |
    ⟨_, _, command, _, _, _, facts⟩ | ⟨_, command, _, _, facts⟩ | ⟨command, _, facts⟩
  all_goals exact ⟨command ▸ (by decide), _, command ▸ facts.spoken⟩

theorem lists (formed : Formed host entry) (list : entry.command = Message.LIST_REQUEST.byte) :
    Lists host entry.talk entry.result := by
  cases formed with
  | list _ _ facts => exact facts
  | download _ _ other | upload _ _ other | rename _ _ other | delete _ other | logout other =>
      exact absurd (list.symm.trans other) (by decide)

theorem downloads (formed : Formed host entry)
    (download : entry.command = Message.DOWNLOAD_REQUEST.byte) : ∃ name size, entry.names = [name] ∧
      FileManager.isStringValid name = true ∧
        Downloads host name size entry.talk entry.deeds entry.result := by
  cases formed with
  | download name size _ names valid facts => exact ⟨name, size, names, valid, facts⟩
  | list other | upload _ _ other | rename _ _ other | delete _ other | logout other =>
      exact absurd (download.symm.trans other) (by decide)

theorem uploads (formed : Formed host entry) (upload : entry.command = Message.UPLOAD_REQUEST.byte) :
    ∃ name size, entry.names = [name] ∧ FileManager.isStringValid name = true ∧
      Uploads host name size entry.talk entry.deeds entry.result := by
  cases formed with
  | upload name size _ names valid facts => exact ⟨name, size, names, valid, facts⟩
  | list other | download _ _ other | rename _ _ other | delete _ other | logout other =>
      exact absurd (upload.symm.trans other) (by decide)

theorem renames (formed : Formed host entry) (rename : entry.command = Message.RENAME_REQUEST.byte) :
    ∃ old new, entry.names = [old, new] ∧ FileManager.isStringValid old = true ∧
      FileManager.isStringValid new = true ∧ Renames old new entry.talk entry.result := by
  cases formed with
  | rename old new _ names first second facts => exact ⟨old, new, names, first, second, facts⟩
  | list other | download _ _ other | upload _ _ other | delete _ other | logout other =>
      exact absurd (rename.symm.trans other) (by decide)

theorem deletes (formed : Formed host entry) (delete : entry.command = Message.DELETE_REQUEST.byte) :
    ∃ name, entry.names = [name] ∧ FileManager.isStringValid name = true ∧
      Deletes name entry.confirmed entry.talk entry.result := by
  cases formed with
  | delete name _ names valid facts => exact ⟨name, names, valid, facts⟩
  | list other | download _ _ other | upload _ _ other | rename _ _ other | logout other =>
      exact absurd (delete.symm.trans other) (by decide)

end Formed

/-- A failure may be reported at any time. -/
theorem Formed.fails {entry : Entry} {code : Nat} (formed : Formed host entry)
    (failed : code ≠ Return.SUCCESS.val) : Formed host (entry.finish code) := by
  have never : ¬some code = some Return.SUCCESS.val := fun same => failed (Option.some.inj same)
  cases formed with
  | list command names facts =>
      exact .list command names ⟨facts.spoken, facts.goesOn, fun same => absurd same never⟩
  | download name size command names valid facts =>
      exact .download name size command names valid ⟨facts.spoken, facts.asks, facts.announced,
        facts.goesOn, facts.created, facts.stores, fun same => absurd same never⟩
  | upload name size command names valid facts =>
      exact .upload name size command names valid ⟨facts.spoken, facts.asks, facts.measured,
        facts.goesOn, facts.feeds, fun same => absurd same never⟩
  | rename old new command names first second facts =>
      exact .rename old new command names first second
        ⟨facts.spoken, facts.asks, fun same => absurd same never⟩
  | delete name command names valid facts =>
      exact .delete name command names valid ⟨facts.spoken, facts.asks, facts.goesOn,
        facts.confirms, fun same => absurd same never⟩
  | logout command names facts =>
      exact .logout command names ⟨facts.spoken, fun same => absurd same never⟩

/-- What a client owes of its ledger. -/
def charter (host : Endian) (key : Bytes) (known : Emission → Prop) : Charter where
  role := .client
  key := key
  Known := known
  Formed := fun _ => Formed host
  Outer := fun e => e.size = ENCRYPTED_SIGNATURE_LEN
  Left := fun turn => turn.author = .client → turn.message.code ∈ laterCodes
  again := False

theorem negotiates :
    Negotiates (charter host key known) Discloses (authenticationRequest host) where
  seals _ := authenticationRequest_seals
  outer := fun _ _ _ length kept => kept.trans length

end Client
end CloudStorage
