import CloudStorage.Dialogue.Deliveries

/-! What a client reports of the other requests is true: a file is renamed or gone, and a list
is that of the directory of the user. -/
namespace CloudStorage
open Interaction
namespace Dialogue

namespace Paired
variable {host : Endian} {key : Bytes} {known : Emission → Prop} {c s : Ledger}
  {asked served : Entry}

section Success
variable (paired : Paired host key known c s) (steady : Steady c s) (fresh : Fresh c s)
  (small : Within c) (there : asked ∈ c.entries) (success : asked.result = some Return.SUCCESS.val)
include paired steady fresh small there success

theorem renamed (rename : asked.command = Message.RENAME_REQUEST.byte)
    (code : asked.talk.Says 1 (·.code ∈ Server.renameCodes)) : ∃ served ∈ s.entries, Agrees asked served ∧
      ∃ old new, asked.names = [old, new] ∧
        served.deeds.effects = [.rename (storagePath s.user old) (storagePath s.user new)] := by
  obtain ⟨long, -⟩ := paired.succeeded there success
  obtain ⟨served, listed, agrees, -⟩ := paired.agrees steady fresh small there long (by
    rw [rename]
    exact code)
  obtain ⟨old, new, names, -, -, sent⟩ :=
    Client.Formed.renames (paired.client.formed asked there) rename
  have took := Server.Formed.renames (paired.server.formed served listed) (agrees.1.symm.trans rename)
  obtain ⟨answer, answers⟩ := sent.spoken.turn .answer long
  have acknowledged : answer.code = Result.ACK.byte := by
    have member : answer.code ∈ Server.renameCodes := code _ answers
    have accepted : answer.code ∉ Client.refusals := (sent.success success).2 _ answers
    have rest : ∀ code ∈ Server.renameCodes, code ∉ Client.refusals → code = Result.ACK.byte := by
      decide +kernel
    exact rest _ member accepted
  have done := took.acknowledged _ ((agrees.same answers (Nat.le_refl _)).trans answers) acknowledged
  have begun : asked.talk ≠ [] := List.ne_nil_of_mem (List.mem_of_getElem? answers)
  exact ⟨served, listed, agrees, old, new, names, (paired.effect there listed agrees long
    (Entry.change_rename begun names rename) took.took done).1⟩

theorem removed (delete : asked.command = Message.DELETE_REQUEST.byte) :
    ∃ served ∈ s.entries, Agrees asked served ∧ ∃ name, asked.names = [name] ∧ asked.confirmed = true ∧
      served.deeds.effects = [.remove (storagePath s.user name)] := by
  obtain ⟨long, first⟩ := paired.succeeded there success
  obtain ⟨served, listed, agrees, -⟩ := paired.agrees steady fresh small there long
    (first (by rw [delete]; decide))
  obtain ⟨name, names, -, sent⟩ := Client.Formed.deletes (paired.client.formed asked there) delete
  have took := Server.Formed.deletes (paired.server.formed served listed) (agrees.1.symm.trans delete)
  obtain ⟨length, -⟩ := sent.success success
  obtain ⟨answer, answers⟩ := sent.spoken.turn (.removal rfl) (by omega)
  have done := took.acknowledged _ ((agrees.same answers (Nat.le_refl _)).trans answers)
  obtain ⟨e, opens, starts⟩ := paired.opening there agrees long
  have begun : asked.talk ≠ [] := List.ne_nil_of_mem (List.mem_of_getElem? answers)
  have yes : asked.confirmed = true := by
    rcases paired.due there listed agrees.1 opens starts with none_ | ⟨call, -, change⟩
    · exact absurd ((took.took.resolve_left done).trans none_) done
    · exact Entry.confirmed_of_change names delete change
  exact ⟨served, listed, agrees, name, names, yes, (paired.effect there listed agrees long
    (Entry.change_delete begun names delete yes) took.took done).1⟩

theorem listed (list : asked.command = Message.LIST_REQUEST.byte) :
    ∃ served ∈ s.entries, Agrees asked served ∧
      ((asked.talk.length = 2 ∧ ∃ names, Server.Listed s.user served.deeds names ∧
          Server.sentSize names = 0) ∨
        (asked.talk.length = 3 ∧ asked.talk.Says 2 fun e => ∃ names,
          Server.Listed s.user served.deeds names ∧ e.plaintext = (ListM3.ofList
            ((Server.sentList names).take (Server.sentSize names).toNat)).serialize)) := by
  obtain ⟨long, first⟩ := paired.succeeded there success
  obtain ⟨served, listed, agrees, -⟩ := paired.agrees steady fresh small there long
    (first (by rw [list]; decide))
  have asks := Client.Formed.lists (paired.client.formed asked there) list
  have took := Server.Formed.lists (paired.server.formed served listed) (agrees.1.symm.trans list)
  refine ⟨served, listed, agrees, (asks.success success).imp ?_ ?_⟩
  · rintro ⟨length, answered⟩
    obtain ⟨answer, answers⟩ := asks.spoken.turn .answer long
    obtain ⟨names, listing, text⟩ :=
      took.announced _ ((agrees.same answers (Nat.le_refl _)).trans answers)
    have size := (answered _ answers).2
    dsimp only at text size
    rw [text, ListM2.deserialize_serialize] at size
    exact ⟨length, names, listing, size⟩
  · rintro ⟨length, -⟩
    obtain ⟨answer, answers⟩ := asks.spoken.turn (.listing rfl) (by omega)
    refine ⟨length, fun turn found => ?_⟩
    obtain rfl := Option.some.inj (answers.symm.trans found)
    exact took.listed _ ((agrees.same answers (Nat.le_refl _)).trans answers)

end Success

end Paired

section Runs
variable {host : Endian} {key : Bytes} {rounds turns : Nat} {s t : Session octets}
  {client server : List (Event Op Op.Ans)} {ended : Option (Option Int)} {result : Option Unit}
  (clientRun : Runs (Client.run host rounds s) client ended)
  (serverRun : Runs (Server.run host turns t) server result) (ideal : Ideal key client server)
  (steady : Steady (ledger .client key client) (ledger .server key server))
  (fresh : Fresh (ledger .client key client) (ledger .server key server))
  (small : Within (ledger .client key client))
include clientRun serverRun ideal steady fresh small

/-- A file is renamed where a client reports it, if the answer is one to a renaming: the client
takes any code for a success that it does not know. -/
theorem rename_done : ∀ asked ∈ (ledger .client key client).entries,
    asked.command = Message.RENAME_REQUEST.byte → asked.result = some Return.SUCCESS.val →
      asked.talk.Says 1 (·.code ∈ Server.renameCodes) →
      ∃ served ∈ (ledger .server key server).entries, Agrees asked served ∧
        ∃ old new, asked.names = [old, new] ∧
          served.deeds.effects = [.rename (storagePath (ledger .server key server).user old)
            (storagePath (ledger .server key server).user new)] :=
  fun _ there rename success code =>
    (ideal.paired clientRun serverRun).renamed steady fresh small there success rename code

/-- A file is removed where a client reports it, and its user has said Yes. -/
theorem removal_done : ∀ asked ∈ (ledger .client key client).entries,
    asked.command = Message.DELETE_REQUEST.byte → asked.result = some Return.SUCCESS.val →
      ∃ served ∈ (ledger .server key server).entries, Agrees asked served ∧
        ∃ name, asked.names = [name] ∧ asked.confirmed = true ∧
          served.deeds.effects = [.remove (storagePath (ledger .server key server).user name)] :=
  fun _ there delete success =>
    (ideal.paired clientRun serverRun).removed steady fresh small there success delete

/-- A list that is reported is that of the directory of the user. -/
theorem list_true : ∀ asked ∈ (ledger .client key client).entries,
    asked.command = Message.LIST_REQUEST.byte → asked.result = some Return.SUCCESS.val →
      ∃ served ∈ (ledger .server key server).entries, Agrees asked served ∧
        ((asked.talk.length = 2 ∧ ∃ names,
            Server.Listed (ledger .server key server).user served.deeds names ∧
              Server.sentSize names = 0) ∨
          (asked.talk.length = 3 ∧ asked.talk.Says 2 fun e => ∃ names,
            Server.Listed (ledger .server key server).user served.deeds names ∧
              e.plaintext = (ListM3.ofList
                ((Server.sentList names).take (Server.sentSize names).toNat)).serialize)) :=
  fun _ there list success =>
    (ideal.paired clientRun serverRun).listed steady fresh small there success list

end Runs

namespace Meeting
open Rehearsal

/-- Luca renames the file. -/
def rename : Desk := desk [4] [file, ascii "b.txt"] [] [] [(1, acknowledgement)]

def renamed : Desk := store [path] [] [(0, (Rename.ofNames file (ascii "b.txt")).serialize)]

theorem rename_checks : Checks rename renamed := by decide +kernel

/-- Luca deletes the file and confirms it. -/
def delete : Desk := desk [5, 1] [file] [path] []
  [(1, packet [Message.DELETE_ASK.byte]), (3, acknowledgement)]

def deleted : Desk := store [path] []
  [(0, filled (Delete.ofName file)), (2, packet [Message.DELETE_CONFIRM.byte])]

theorem delete_checks : Checks delete deleted := by decide +kernel

/-- Two files with a comma between them. -/
def names : Bytes := ascii "a.txt,b.txt"

/-- Luca looks at a directory of two files. -/
def list : Desk := desk [1] [] [] []
  [(1, (ListM2.ofSize 12).serialize host), (2, (ListM3.ofList (names ++ [0])).serialize)]

def listed : Desk := store [path, storagePath (ascii "Luca") (ascii "b.txt")] []
  [(0, packet [Message.LIST_REQUEST.byte])]

theorem list_checks : Checks list listed := by decide +kernel

end Meeting

/-- The file has its new name. -/
theorem rename_takes_effect :
    ∃ served ∈ (ledger .server Meeting.key (Meeting.receiver Meeting.renamed)).entries, ∃ old new,
      served.deeds.effects = [.rename
        (storagePath (ledger .server Meeting.key (Meeting.receiver Meeting.renamed)).user old)
        (storagePath (ledger .server Meeting.key (Meeting.receiver Meeting.renamed)).user new)] := by
  obtain ⟨-, -, steady, fresh, small⟩ := Meeting.rename_checks
  obtain ⟨asked, there, rename, success, code⟩ :
      ∃ asked ∈ (ledger .client Meeting.key (Meeting.sender Meeting.rename)).entries,
        asked.command = Message.RENAME_REQUEST.byte ∧ asked.result = some Return.SUCCESS.val ∧
          asked.talk.Says 1 (·.code ∈ Server.renameCodes) := by
    decide +kernel
  obtain ⟨served, listed, -, old, new, -, effects⟩ := rename_done
    (Program.execute_runs Rehearsal.Desk.respond _ _)
    (Program.execute_runs Rehearsal.Desk.respond _ Meeting.renamed)
    Meeting.rename_checks.ideal steady fresh small
    asked there rename success code
  exact ⟨served, listed, old, new, effects⟩

/-- The file is gone. -/
theorem removal_takes_effect :
    ∃ served ∈ (ledger .server Meeting.key (Meeting.receiver Meeting.deleted)).entries, ∃ name,
      served.deeds.effects = [.remove
        (storagePath (ledger .server Meeting.key (Meeting.receiver Meeting.deleted)).user name)] := by
  obtain ⟨-, -, steady, fresh, small⟩ := Meeting.delete_checks
  obtain ⟨asked, there, delete, success⟩ :
      ∃ asked ∈ (ledger .client Meeting.key (Meeting.sender Meeting.delete)).entries,
        asked.command = Message.DELETE_REQUEST.byte ∧ asked.result = some Return.SUCCESS.val := by
    decide +kernel
  obtain ⟨served, listed, -, name, -, -, effects⟩ := removal_done
    (Program.execute_runs Rehearsal.Desk.respond _ _)
    (Program.execute_runs Rehearsal.Desk.respond _ Meeting.deleted)
    Meeting.delete_checks.ideal steady fresh small
    asked there delete success
  exact ⟨served, listed, name, effects⟩

/-- The third message is the list of the two files. -/
theorem list_arrives :
    ∃ asked ∈ (ledger .client Meeting.key (Meeting.sender Meeting.list)).entries,
      ∃ served ∈ (ledger .server Meeting.key (Meeting.receiver Meeting.listed)).entries,
        served.deeds.listing = some (storageDirectory (ascii "Luca"), [ascii "a.txt", ascii "b.txt"]) ∧
          asked.talk.Says 2 fun e => ∃ names,
            Server.Listed (ledger .server Meeting.key (Meeting.receiver Meeting.listed)).user
              served.deeds names ∧ e.plaintext = (ListM3.ofList
                ((Server.sentList names).take (Server.sentSize names).toNat)).serialize := by
  obtain ⟨-, -, steady, fresh, small⟩ := Meeting.list_checks
  obtain ⟨asked, there, list, success, length⟩ :
      ∃ asked ∈ (ledger .client Meeting.key (Meeting.sender Meeting.list)).entries,
        asked.command = Message.LIST_REQUEST.byte ∧ asked.result = some Return.SUCCESS.val ∧
          asked.talk.length = 3 := by
    decide +kernel
  have listing : ∀ served ∈ (ledger .server Meeting.key (Meeting.receiver Meeting.listed)).entries,
      served.deeds.listing = some (storageDirectory (ascii "Luca"), [ascii "a.txt", ascii "b.txt"]) := by
    decide +kernel
  obtain ⟨served, listed, -, ⟨other, -⟩ | ⟨-, third⟩⟩ := list_true
    (Program.execute_runs Rehearsal.Desk.respond _ _)
    (Program.execute_runs Rehearsal.Desk.respond _ Meeting.listed)
    Meeting.list_checks.ideal steady fresh small
    asked there list success
  · omega
  · exact ⟨asked, there, served, listed, listing served listed, third⟩

end Dialogue
end CloudStorage
