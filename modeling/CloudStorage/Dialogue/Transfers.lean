import CloudStorage.Dialogue.Changes

/-! The chunks of a transfer. Even where a transfer fails, what one side has written are the
chunks that the other has read, from the first one on. -/
namespace CloudStorage
open Interaction
namespace Dialogue

/-- The chunks that were written are parts of the file, in their order. -/
def Partly (path target : Bytes) (size : Nat) (reader writer : Deeds) : Prop :=
  ∀ (place : Nat) written, writer.written[place]? = some written → ∃ content,
    reader.reads[place]? = some ⟨path, place * Config.CHUNK_SIZE, chunkOf size place, content⟩ ∧
      written = (target, content)

/-- A chunk that was sent whole is written whole. -/
theorem chunk_whole {e : Emission} {size : Nat} {code : UInt8} {content : Bytes}
    (whole : e.size = e.plaintext.length) (fits : e.size ≤ 1 + size)
    (text : e.plaintext = code :: content) : field 1 size e.plaintext = content := by
  rw [whole, text, List.length_cons] at fits
  rw [text]
  exact List.take_of_length_le (by simp only [List.drop_succ_cons, List.drop_zero]; omega)

/-- Every chunk that is written was read. -/
theorem arrives {author : Role} {code : UInt8} {path target : Bytes} {size : Nat}
    {talk other : Talk} {reader writer : Deeds} (feeds : Feeds author code path size talk reader)
    (stores : Stores author other writer) (echoes : Echoes author other talk) (whole : reader.Whole)
    (sound : ∀ e, ⟨author, e⟩ ∈ talk → e.size = e.plaintext.length)
    (created : ∀ path, .ofstream_open path ∈ writer.changes → path = target) :
    Partly path target size reader writer := by
  rintro place ⟨to_, chunk⟩ found
  obtain ⟨opened, e, length, spoken, fits, rfl⟩ := stores place to_ chunk found
  have sent := echoes _ e spoken
  obtain ⟨content, read, text⟩ := feeds.fed whole place e sent
  rw [created to_ opened, chunk_whole (sound e (List.mem_of_getElem? sent)) fits text]
  exact ⟨content, read, rfl⟩

namespace Agrees
variable {asked served : Entry} {place earlier : Nat} {e : Emission}

/-- Up to an answer the two have the same messages. -/
theorem same (agrees : Agrees asked served) (found : asked.talk[place]? = some ⟨.server, e⟩)
    (within : earlier ≤ place) : served.talk[earlier]? = asked.talk[earlier]? := by
  have taken := congrArg (fun talk : Talk => talk[earlier]?) (agrees.2 place e found)
  simp only [List.getElem?_take, if_pos (Nat.lt_succ_of_le within)] at taken
  exact taken.symm

theorem echoes (agrees : Agrees asked served) : Echoes .server asked.talk served.talk :=
  fun _ _ found => (agrees.same found (Nat.le_refl _)).trans found

end Agrees

namespace Paired
variable {host : Endian} {key : Bytes} {known : Emission → Prop} {c s : Ledger}
  {asked served : Entry}

/-- The two begin with the same request. -/
theorem opening (paired : Paired host key known c s) (there : asked ∈ c.entries)
    (agrees : Agrees asked served) (long : 1 < asked.talk.length) :
    ∃ e, served.talk[0]? = some ⟨.client, e⟩ ∧ asked.talk[0]? = some ⟨.client, e⟩ := by
  obtain ⟨-, cuts, asks⟩ := Client.Formed.spoken (paired.client.formed asked there)
  obtain ⟨e, starts⟩ := asks.turn .request (by omega)
  obtain ⟨answer, found⟩ := asks.turn .answer long
  exact ⟨e, (agrees.same found (Nat.zero_le _)).trans starts, starts⟩

/-- The one file that is created for an upload. -/
theorem created (paired : Paired host key known c s) (there : asked ∈ c.entries)
    (listed : served ∈ s.entries)
    (same : asked.command = served.command) {e : Emission}
    (opens : served.talk[0]? = some ⟨.client, e⟩)
    (starts : asked.talk[0]? = some ⟨.client, e⟩) {name : Bytes} (names : asked.names = [name])
    (upload : asked.command = Message.UPLOAD_REQUEST.byte) :
    ∀ path, .ofstream_open path ∈ served.deeds.changes → path = storagePath s.user name := by
  intro path opened
  have begun : asked.talk ≠ [] := List.ne_nil_of_mem (List.mem_of_getElem? starts)
  rcases paired.due there listed same opens starts with none_ | ⟨call, one, change⟩
  · rw [none_] at opened
    cases opened
  · obtain rfl := Option.some.inj ((Entry.change_upload begun names upload).symm.trans change)
    rw [one, List.mem_singleton] at opened
    exact FileCall.ofstream_open.inj opened

theorem uploaded_partly (paired : Paired host key known c s) (steady : Steady c s)
    (listed : served ∈ s.entries)
    (upload : served.command = Message.UPLOAD_REQUEST.byte) : ∃ asked ∈ c.entries,
      ∃ name size, asked.command = served.command ∧ asked.names = [name] ∧ asked.deeds.size = some size ∧
        (asked.deeds.Whole →
          Partly (Client.localPath name) (storagePath s.user name) size asked.deeds served.deeds) := by
  obtain ⟨asked, there, same, echoes, -, -⟩ := paired.carried steady listed
  have formed : Server.Formed host s.user served := paired.server.formed served listed
  obtain ⟨-, chunks, spoken⟩ := formed.spoken
  obtain ⟨e, opens, -⟩ := spoken.first formed.begun
  have starts := echoes 0 e opens
  obtain ⟨name, size, names, -, measured, -, sent, took⟩ :=
    paired.uploads there listed upload same opens starts
  refine ⟨asked, there, name, size, same, names, measured, fun whole => ?_⟩
  have sound : ∀ e, ⟨.client, e⟩ ∈ asked.talk → e.size = e.plaintext.length := fun e said =>
    (paired.client.sound _ (Ledger.mem_entry there said)).1 rfl
  exact arrives sent.feeds took.stores echoes whole sound
    (paired.created there listed same opens starts names (same.trans upload))

/-- Both sides mean the same file. -/
theorem downloads (paired : Paired host key known c s) (there : asked ∈ c.entries)
    (listed : served ∈ s.entries) (agrees : Agrees asked served) (long : 1 < asked.talk.length)
    (download : asked.command = Message.DOWNLOAD_REQUEST.byte) : ∃ name size, asked.names = [name] ∧
      Client.Downloads host name size asked.talk asked.deeds asked.result ∧
      Server.Downloads host s.user name served.talk served.deeds := by
  obtain ⟨e, opens, starts⟩ := paired.opening there agrees long
  obtain ⟨name, size, names, valid, received⟩ :=
    Client.Formed.downloads (paired.client.formed asked there) download
  obtain ⟨found, sent⟩ := Server.Formed.downloads (paired.server.formed served listed)
    (agrees.1.symm.trans download)
  obtain ⟨filler, text⟩ := received.asks _ starts
  have named := sent.asked _ opens
  dsimp only at named text
  rw [text, NameRequest.deserialize_serialize (strncpy_length ..)] at named
  obtain rfl : found = name := named_alone valid named
  exact ⟨found, size, names, received, sent⟩

theorem downloaded_partly (paired : Paired host key known c s) (steady : Steady c s)
    (fresh : Fresh c s) (small : Within c) (there : asked ∈ c.entries)
    (download : asked.command = Message.DOWNLOAD_REQUEST.byte) (wrote : asked.deeds.written ≠ []) :
    ∃ served ∈ s.entries, Agrees asked served ∧ ∃ name, asked.names = [name] ∧
      (served.deeds.Whole → Partly (storagePath s.user name) (Client.localPath name)
        (served.deeds.size.getD 0) served.deeds asked.deeds) := by
  obtain ⟨_, _, -, -, received⟩ := Client.Formed.downloads (paired.client.formed asked there) download
  -- a chunk comes after the acknowledgement
  obtain ⟨⟨path, chunk⟩, rest, written⟩ := List.exists_cons_of_ne_nil wrote
  obtain ⟨-, e, -, third, -, -⟩ :=
    received.stores 0 path chunk (by rw [written, List.getElem?_cons_zero])
  have inside := (List.getElem?_eq_some_iff.mp third).1
  obtain ⟨served, listed, agrees, -⟩ := paired.agrees steady fresh small there (by omega)
    ((received.goesOn inside).imp fun e code => by
      rw [code, download]
      decide)
  obtain ⟨name, size, names, received, sent⟩ := paired.downloads there listed agrees (by omega) download
  refine ⟨served, listed, agrees, name, names, fun whole => ?_⟩
  have sound : ∀ e, ⟨.server, e⟩ ∈ served.talk → e.size = e.plaintext.length := fun e said =>
    (paired.server.sound _ (Ledger.mem_entry listed said)).1 rfl
  exact arrives sent.feeds received.stores agrees.echoes whole sound received.target

end Paired

section Runs
variable {host : Endian} {key : Bytes} {rounds turns : Nat} {s t : Session octets}
  {client server : List (Event Op Op.Ans)} {ended : Option (Option Int)} {result : Option Unit}
  (clientRun : Runs (Client.run host rounds s) client ended)
  (serverRun : Runs (Server.run host turns t) server result) (ideal : Ideal key client server)
  (steady : Steady (ledger .client key client) (ledger .server key server))
include clientRun serverRun ideal steady

/-- For every upload, also one that fails, the server has written the first chunks of the file
of one client request, if the client could read them. -/
theorem upload_partly : ∀ served ∈ (ledger .server key server).entries,
    served.command = Message.UPLOAD_REQUEST.byte → ∃ asked ∈ (ledger .client key client).entries,
      ∃ name size, asked.command = served.command ∧ asked.names = [name] ∧ asked.deeds.size = some size ∧
        (asked.deeds.Whole → Partly (Client.localPath name)
          (storagePath (ledger .server key server).user name) size asked.deeds served.deeds) :=
  fun _ listed upload => (ideal.paired clientRun serverRun).uploaded_partly steady listed upload

/-- For every download, also one that fails, the client has written the first chunks of the
file that the server has for its name, if the server could read them. -/
theorem download_partly (fresh : Fresh (ledger .client key client) (ledger .server key server))
    (small : Within (ledger .client key client)) : ∀ asked ∈ (ledger .client key client).entries,
    asked.command = Message.DOWNLOAD_REQUEST.byte → asked.deeds.written ≠ [] →
      ∃ served ∈ (ledger .server key server).entries, Agrees asked served ∧ ∃ name, asked.names = [name] ∧
        (served.deeds.Whole → Partly (storagePath (ledger .server key server).user name)
          (Client.localPath name) (served.deeds.size.getD 0) served.deeds asked.deeds) :=
  fun _ there download wrote =>
    (ideal.paired clientRun serverRun).downloaded_partly steady fresh small there download wrote

end Runs

namespace Meeting
open Rehearsal

def file : Bytes := ascii "a.txt"

def path : Bytes := storagePath (ascii "Luca") file

/-- The names are followed by zeros. -/
def filled (message : NameRequest) : Bytes :=
  message.serialize (List.replicate (fillerSize NameRequest.encodedSize) 0)

/-- Luca downloads the file. -/
def download : Desk := desk [2] [file] [] content
  [(1, (DownloadM2.ofSize Message.DOWNLOAD_ACK.byte 70).serialize host),
    (2, Message.DOWNLOAD_CHUNK.byte :: content)]

def downloaded : Desk := store [path] content [(0, filled (DownloadM1.ofName file))]

theorem download_checks : Checks download downloaded := by decide +kernel

/-- Luca uploads the file and gets no acknowledgement of its chunk. -/
def interrupted : Desk := desk [3] [file] [Client.localPath file] content [(1, acknowledgement)]

theorem interrupted_checks : Checks interrupted (uploaded (4 :: content)) := by decide +kernel

end Meeting

/-- The upload fails for the client, and the server has its chunk. -/
theorem interrupted_written :
    ∃ asked ∈ (ledger .client Meeting.key (Meeting.sender Meeting.interrupted)).entries,
      asked.result ≠ some Return.SUCCESS.val ∧ ∃ served ∈ (ledger .server Meeting.key
        (Meeting.receiver (Meeting.uploaded (4 :: Meeting.content)))).entries,
        served.deeds.written.length = 1 ∧ ∃ name size, asked.names = [name] ∧
          Partly (Client.localPath name) (storagePath (ledger .server Meeting.key
            (Meeting.receiver (Meeting.uploaded (4 :: Meeting.content)))).user name) size
            asked.deeds served.deeds := by
  obtain ⟨served, listed, upload, one⟩ :
      ∃ served ∈ (ledger .server Meeting.key
          (Meeting.receiver (Meeting.uploaded (4 :: Meeting.content)))).entries,
        served.command = Message.UPLOAD_REQUEST.byte ∧ served.deeds.written.length = 1 := by
    decide +kernel
  obtain ⟨asked, there, name, size, -, names, -, partly⟩ := upload_partly
    (Program.execute_runs Rehearsal.Desk.respond _ _) (Program.execute_runs Rehearsal.Desk.respond _ _)
    Meeting.interrupted_checks.ideal Meeting.interrupted_checks.2.2.1
    served listed upload
  have failed : ∀ asked ∈ (ledger .client Meeting.key (Meeting.sender Meeting.interrupted)).entries,
      asked.result ≠ some Return.SUCCESS.val ∧ asked.deeds.Whole := by
    decide +kernel
  exact ⟨asked, there, (failed asked there).1, served, listed, one, name, size, names,
    partly (failed asked there).2⟩

/-- The chunk of the download is that of the server. -/
theorem download_written :
    ∃ asked ∈ (ledger .client Meeting.key (Meeting.sender Meeting.download)).entries,
      ∃ served ∈ (ledger .server Meeting.key (Meeting.receiver Meeting.downloaded)).entries,
        asked.deeds.written.length = 1 ∧ ∃ name, asked.names = [name] ∧
          Partly (storagePath
              (ledger .server Meeting.key (Meeting.receiver Meeting.downloaded)).user name)
            (Client.localPath name) (served.deeds.size.getD 0) served.deeds asked.deeds := by
  obtain ⟨-, -, steady, fresh, small⟩ := Meeting.download_checks
  obtain ⟨asked, there, download, one⟩ :
      ∃ asked ∈ (ledger .client Meeting.key (Meeting.sender Meeting.download)).entries,
        asked.command = Message.DOWNLOAD_REQUEST.byte ∧ asked.deeds.written.length = 1 := by
    decide +kernel
  obtain ⟨served, listed, -, name, names, partly⟩ := download_partly
    (Program.execute_runs Rehearsal.Desk.respond _ _) (Program.execute_runs Rehearsal.Desk.respond _ _)
    Meeting.download_checks.ideal steady fresh small asked there download
    (fun none_ => by rw [none_] at one; cases one)
  have whole : ∀ served ∈ (ledger .server Meeting.key (Meeting.receiver Meeting.downloaded)).entries,
      served.deeds.Whole := by
    decide +kernel
  exact ⟨asked, there, served, listed, one, name, names, partly (whole served listed)⟩

end Dialogue
end CloudStorage
