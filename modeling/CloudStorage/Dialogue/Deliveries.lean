import CloudStorage.Dialogue.Transfers

/-! A transfer that a client reports is complete: every chunk that one side has read is
written by the other. -/
namespace CloudStorage
open Interaction
namespace Dialogue

/-- The file was read from its beginning to its end. -/
structure ReadOut (path : Bytes) (size : Nat) (deeds : Deeds) : Prop where
  all : deeds.reads.length = chunksOf size
  parts : ∀ (place : Nat) reading, deeds.reads[place]? = some reading → reading.path = path ∧
    reading.position = place * Config.CHUNK_SIZE ∧ reading.size = chunkOf size place

/-- What was read is what was written, in the same order. -/
def Copied (target : Bytes) (reader writer : Deeds) : Prop :=
  writer.written = reader.reads.map fun reading => (target, reading.content)

/-- The server has the file of the client. -/
def Stored (user : Bytes) (asked served : Entry) : Prop :=
  ∃ name size, asked.names = [name] ∧ asked.deeds.size = some size ∧
    ReadOut (Client.localPath name) size asked.deeds ∧
    served.deeds.effects = [.ofstream_open (storagePath user name)] ∧
    Copied (storagePath user name) asked.deeds served.deeds

/-- The client has the file of the server. -/
def Delivered (user : Bytes) (asked served : Entry) : Prop :=
  ∃ name, asked.names = [name] ∧
    ReadOut (storagePath user name) (served.deeds.size.getD 0) served.deeds ∧
    Copied (Client.localPath name) served.deeds asked.deeds

/-- Every chunk that was read has arrived. -/
theorem copied {path target : Bytes} {size : Nat} {reader writer : Deeds}
    (partly : Partly path target size reader writer) (bound : reader.reads.length ≤ chunksOf size)
    (count : writer.written.length = chunksOf size) :
    ReadOut path size reader ∧ Copied target reader writer := by
  have all : reader.reads.length = chunksOf size := by
    refine Nat.le_antisymm bound (Nat.not_lt.mp fun short => ?_)
    have inside : reader.reads.length < writer.written.length := count ▸ short
    obtain ⟨content, read, -⟩ := partly _ _ (List.getElem?_eq_getElem inside)
    exact absurd (List.getElem?_eq_some_iff.mp read).1 (Nat.lt_irrefl _)
  have written : ∀ (place : Nat) reading, reader.reads[place]? = some reading → ∃ content,
      reading = ⟨path, place * Config.CHUNK_SIZE, chunkOf size place, content⟩ ∧
        writer.written[place]? = some (target, content) := by
    intro place reading found
    have inside : place < writer.written.length := by
      have bound := (List.getElem?_eq_some_iff.mp found).1
      omega
    have there := List.getElem?_eq_getElem inside
    obtain ⟨content, read, same⟩ := partly place _ there
    rw [found] at read
    exact ⟨content, Option.some.inj read, there.trans (congrArg some same)⟩
  refine ⟨⟨all, fun place reading found => ?_⟩, ?_⟩
  · obtain ⟨content, rfl, -⟩ := written place reading found
    exact ⟨rfl, rfl, rfl⟩
  · refine List.ext_getElem? fun place => ?_
    rw [List.getElem?_map]
    cases found : reader.reads[place]? with
    | none =>
        have outside := List.getElem?_eq_none_iff.mp found
        exact List.getElem?_eq_none (by omega)
    | some reading =>
        obtain ⟨content, rfl, there⟩ := written place reading found
        exact there

namespace Paired
variable {host : Endian} {key : Bytes} {known : Emission → Prop} {c s : Ledger}
  {asked served : Entry}

/-- A request that ends with a success has gone on after its first answer. -/
theorem succeeded (paired : Paired host key known c s) (there : asked ∈ c.entries)
    (success : asked.result = some Return.SUCCESS.val) : 1 < asked.talk.length ∧
      (asked.command ≠ Message.RENAME_REQUEST.byte →
        asked.talk.Says 1 (·.code ∈ firstAnswers asked.command)) := by
  have formed : Client.Formed host asked := paired.client.formed asked there
  cases formed with
  | list command _ facts =>
      rw [command]
      rcases facts.success success with ⟨length, answered⟩ | ⟨length, -⟩
      · refine ⟨by omega, fun _ => answered.imp fun e both => ?_⟩
        rw [both.1]
        decide
      · refine ⟨by omega, fun _ => (facts.goesOn (by omega)).imp fun e code => ?_⟩
        rw [code]
        decide
  | download _ _ command _ _ facts =>
      rw [command]
      obtain ⟨length, answered, -⟩ := facts.success success
      refine ⟨by omega, fun _ => answered.imp fun e code => ?_⟩
      rw [code]
      decide
  | upload _ _ command _ _ facts =>
      rw [command]
      obtain ⟨length, -⟩ := facts.success success
      refine ⟨by omega, fun _ => (facts.goesOn (by omega)).imp fun e code => ?_⟩
      rw [code]
      decide
  | rename _ _ command _ _ _ facts =>
      obtain ⟨length, -⟩ := facts.success success
      exact ⟨by omega, fun other => absurd command other⟩
  | delete _ command _ _ facts =>
      rw [command]
      obtain ⟨length, -⟩ := facts.success success
      refine ⟨by omega, fun _ => (facts.goesOn (by omega)).imp fun e code => ?_⟩
      rw [code]
      decide
  | logout command _ facts =>
      rw [command]
      obtain ⟨length, answered⟩ := facts.success success
      refine ⟨by omega, fun _ => answered.imp fun e code => ?_⟩
      rw [code]
      decide

/-- What has taken effect is what was asked for. -/
theorem effect (paired : Paired host key known c s) (there : asked ∈ c.entries)
    (listed : served ∈ s.entries)
    (agrees : Agrees asked served) (long : 1 < asked.talk.length) {call : FileCall}
    (change : asked.change s.user = some call)
    (took : served.deeds.effects = [] ∨ served.deeds.effects = served.deeds.changes)
    (done : served.deeds.effects ≠ []) :
    served.deeds.effects = [call] ∧ served.deeds.changes = [call] := by
  obtain ⟨e, opens, starts⟩ := paired.opening there agrees long
  have same := took.resolve_left done
  rcases paired.due there listed agrees.1 opens starts with none_ | ⟨_, one, due⟩
  · exact absurd (same.trans none_) done
  · obtain rfl := Option.some.inj (due.symm.trans change)
    exact ⟨same.trans one, one⟩

section Success
variable (paired : Paired host key known c s) (steady : Steady c s) (fresh : Fresh c s)
  (small : Within c) (there : asked ∈ c.entries) (success : asked.result = some Return.SUCCESS.val)
include paired steady fresh small there success

theorem stored (upload : asked.command = Message.UPLOAD_REQUEST.byte) :
    ∃ served ∈ s.entries, Agrees asked served ∧
      (asked.deeds.Whole → served.deeds.effects ≠ [] → Stored s.user asked served) := by
  obtain ⟨long, first⟩ := paired.succeeded there success
  obtain ⟨served, listed, agrees, echoes⟩ := paired.agrees steady fresh small there long
    (first (by rw [upload]; decide))
  refine ⟨served, listed, agrees, fun whole done => ?_⟩
  obtain ⟨e, opens, starts⟩ := paired.opening there agrees long
  obtain ⟨name, size, names, -, measured, -, sent, took⟩ :=
    paired.uploads there listed (agrees.1.symm.trans upload) agrees.1 opens starts
  have begun := List.ne_nil_of_mem (List.mem_of_getElem? starts)
  have bounded := (sent.measured begun).2.2
  have below : size ≠ Config.MAX_FILE_SIZE := fun largest => small asked there (largest ▸ measured)
  rw [if_pos (Nat.lt_of_le_of_ne bounded below)] at took
  obtain ⟨effects, -⟩ := paired.effect there listed agrees long
    (Entry.change_upload begun names upload) took.took done
  obtain ⟨length, -⟩ := sent.success success
  obtain ⟨last, ends⟩ := sent.spoken.turn (.uploaded rfl) (by omega)
  have count := took.complete _ ((agrees.same ends (Nat.le_refl _)).trans ends) done
  have sound : ∀ e, ⟨.client, e⟩ ∈ asked.talk → e.size = e.plaintext.length := fun e said =>
    (paired.client.sound _ (Ledger.mem_entry there said)).1 rfl
  have partly := arrives sent.feeds took.stores echoes whole sound
    (paired.created there listed agrees.1 opens starts names upload)
  obtain ⟨out, copy⟩ := copied partly sent.feeds.bound count
  exact ⟨name, size, names, measured, out, effects, copy⟩

theorem delivered (download : asked.command = Message.DOWNLOAD_REQUEST.byte)
    (opened : asked.deeds.effects ≠ []) : ∃ served ∈ s.entries, Agrees asked served ∧
      (served.deeds.Whole → served.deeds.size.getD 0 < 2 ^ 32 → Delivered s.user asked served) := by
  obtain ⟨long, first⟩ := paired.succeeded there success
  obtain ⟨served, listed, agrees, -⟩ := paired.agrees steady fresh small there long
    (first (by rw [download]; decide))
  refine ⟨served, listed, agrees, fun whole fits => ?_⟩
  obtain ⟨name, size, names, received, sent⟩ := paired.downloads there listed agrees long download
  -- both sides know the same size
  obtain ⟨-, acknowledged, complete⟩ := received.success success
  obtain ⟨answer, answers⟩ := received.spoken.turn .answer long
  have announced := sent.announced _ ((agrees.same answers (Nat.le_refl _)).trans answers)
    (acknowledged _ answers)
  have size_ := received.announced _ answers
  dsimp only at announced size_
  rw [announced] at size_
  obtain rfl : size = served.deeds.size.getD 0 :=
    (size_.symm.trans (DownloadM2.received_eq host _)).trans (Nat.mod_eq_of_lt fits)
  have sound : ∀ e, ⟨.server, e⟩ ∈ served.talk → e.size = e.plaintext.length := fun e said =>
    (paired.server.sound _ (Ledger.mem_entry listed said)).1 rfl
  have partly := arrives sent.feeds received.stores agrees.echoes whole sound received.target
  obtain ⟨out, copy⟩ := copied partly sent.feeds.bound (complete opened)
  exact ⟨name, names, out, copy⟩

end Success

end Paired

section Runs
variable {host : Endian} {key : Bytes} {rounds turns : Nat} {s t : Session octets}
  {client server : List (Event Op Op.Ans)} {ended : Option (Option Int)} {result : Option Unit}
  (clientRun : Runs (Client.run host rounds s) client ended)
  (serverRun : Runs (Server.run host turns t) server result) (ideal : Ideal key client server)
  (steady : Steady (ledger .client key client) (ledger .server key server))
  (fresh : Fresh (ledger .client key client) (ledger .server key server))
  (small : Within (ledger .client key client))
include clientRun serverRun ideal steady fresh small

/-- An upload that ends with a success has left its file at the server, if the server could
create it and the client could read it. -/
theorem upload_stored : ∀ asked ∈ (ledger .client key client).entries,
    asked.command = Message.UPLOAD_REQUEST.byte → asked.result = some Return.SUCCESS.val →
      ∃ served ∈ (ledger .server key server).entries, Agrees asked served ∧
        (asked.deeds.Whole → served.deeds.effects ≠ [] →
          Stored (ledger .server key server).user asked served) :=
  fun _ there upload success =>
    (ideal.paired clientRun serverRun).stored steady fresh small there success upload

/-- A download that ends with a success has brought its file, if the client could create it,
the server could read it, and 32 bits hold its size. -/
theorem download_delivered : ∀ asked ∈ (ledger .client key client).entries,
    asked.command = Message.DOWNLOAD_REQUEST.byte → asked.result = some Return.SUCCESS.val →
      asked.deeds.effects ≠ [] → ∃ served ∈ (ledger .server key server).entries, Agrees asked served ∧
        (served.deeds.Whole → served.deeds.size.getD 0 < 2 ^ 32 →
          Delivered (ledger .server key server).user asked served) :=
  fun _ there download success opened =>
    (ideal.paired clientRun serverRun).delivered steady fresh small there success download opened

end Runs

/-- The uploaded file is at the server. -/
theorem upload_kept :
    ∃ asked ∈ (ledger .client Meeting.key (Meeting.sender Meeting.upload)).entries,
      ∃ served ∈ (ledger .server Meeting.key
        (Meeting.receiver (Meeting.uploaded (4 :: Meeting.content)))).entries,
        Stored (ledger .server Meeting.key
          (Meeting.receiver (Meeting.uploaded (4 :: Meeting.content)))).user asked served := by
  obtain ⟨-, -, steady, fresh, small⟩ := Meeting.upload_checks
  obtain ⟨asked, there, upload, success, whole⟩ :
      ∃ asked ∈ (ledger .client Meeting.key (Meeting.sender Meeting.upload)).entries,
        asked.command = Message.UPLOAD_REQUEST.byte ∧ asked.result = some Return.SUCCESS.val ∧
          asked.deeds.Whole := by
    decide +kernel
  obtain ⟨served, listed, -, stored⟩ := upload_stored (Program.execute_runs Rehearsal.Desk.respond _ _)
    (Program.execute_runs Rehearsal.Desk.respond _ _)
    Meeting.upload_checks.ideal steady fresh small
    asked there upload success
  have opened : ∀ served ∈ (ledger .server Meeting.key
      (Meeting.receiver (Meeting.uploaded (4 :: Meeting.content)))).entries,
      served.deeds.effects ≠ [] := by
    decide +kernel
  exact ⟨asked, there, served, listed, stored whole (opened served listed)⟩

/-- The downloaded file is at the client. -/
theorem download_kept :
    ∃ asked ∈ (ledger .client Meeting.key (Meeting.sender Meeting.download)).entries,
      ∃ served ∈ (ledger .server Meeting.key (Meeting.receiver Meeting.downloaded)).entries,
        Delivered (ledger .server Meeting.key (Meeting.receiver Meeting.downloaded)).user
          asked served := by
  obtain ⟨-, -, steady, fresh, small⟩ := Meeting.download_checks
  obtain ⟨asked, there, download, success, opened⟩ :
      ∃ asked ∈ (ledger .client Meeting.key (Meeting.sender Meeting.download)).entries,
        asked.command = Message.DOWNLOAD_REQUEST.byte ∧ asked.result = some Return.SUCCESS.val ∧
          asked.deeds.effects ≠ [] := by
    decide +kernel
  obtain ⟨served, listed, -, delivered⟩ := download_delivered
    (Program.execute_runs Rehearsal.Desk.respond _ _) (Program.execute_runs Rehearsal.Desk.respond _ _)
    Meeting.download_checks.ideal steady fresh small
    asked there download success opened
  have whole : ∀ served ∈ (ledger .server Meeting.key (Meeting.receiver Meeting.downloaded)).entries,
      served.deeds.Whole ∧ served.deeds.size.getD 0 < 2 ^ 32 := by
    decide +kernel
  exact ⟨asked, there, served, listed, delivered (whole served listed).1 (whole served listed).2⟩

end Dialogue
end CloudStorage
