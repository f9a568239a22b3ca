import CloudStorage.Dialogue.Matching

/-! Whatever a server removes, renames or creates in an epoch, its client has asked for,
once for every time. -/
namespace CloudStorage
open Interaction
namespace Dialogue

/-- What a request that was sent asks the server to change. -/
def Entry.change (user : Bytes) (asked : Entry) : Option FileCall :=
  match asked.talk, asked.names with
  | [], _ => none
  | _, [name] =>
      if asked.command = Message.UPLOAD_REQUEST.byte then some (.ofstream_open (storagePath user name))
      else if asked.command = Message.DELETE_REQUEST.byte ∧ asked.confirmed = true then
        some (.remove (storagePath user name))
      else none
  | _, [old, new] =>
      if asked.command = Message.RENAME_REQUEST.byte then
        some (.rename (storagePath user old) (storagePath user new))
      else none
  | _, _ => none

namespace Ledger

/-- All that the requests of the epoch ask for, in order. -/
def asksFor (user : Bytes) (g : Ledger) : List FileCall :=
  g.entries.reverse.filterMap (Entry.change user)

/-- All that was tried to change in the epoch, in order. -/
def changes (g : Ledger) : List FileCall :=
  g.leftover.deeds.changes ++ g.entries.reverse.flatMap (·.deeds.changes)

end Ledger

/-- A field holds a name that the console has let through. -/
theorem named_field {name found rest : Bytes} (valid : FileManager.isStringValid name = true)
    (named : Named (strncpy name Config.FILE_NAME_LEN ++ rest) found) : found = name := by
  obtain ⟨clean, fits⟩ := FileManager.clean_of_valid valid
  have held : strncpy name Config.FILE_NAME_LEN ++ rest =
      name ++ 0 :: (List.replicate (Config.FILE_NAME_LEN - name.length - 1) 0 ++ rest) := by
    rw [strncpy_eq fits, List.append_assoc, List.cons_append]
  have inside : (0 : UInt8) ∈ strncpy name Config.FILE_NAME_LEN ++ rest :=
    List.mem_append_left _ (mem_strncpy fits)
  rw [named inside, held, cPrefix_terminated clean]

/-- A field with nothing behind it. -/
theorem named_alone {name found : Bytes} (valid : FileManager.isStringValid name = true)
    (named : Named (strncpy name Config.FILE_NAME_LEN) found) : found = name := by
  rw [← List.append_nil (strncpy name Config.FILE_NAME_LEN)] at named
  exact named_field valid named

namespace Entry
variable {user : Bytes} {asked served : Entry} {call : FileCall}

/-- With the counter of its first message. -/
def asks (user : Bytes) (asked : Entry) : Option (Nat × FileCall) :=
  (asked.change user).map fun call => (asked.talk.start, call)

def tried (served : Entry) : List (Nat × FileCall) :=
  served.deeds.changes.map fun call => (served.talk.start, call)

theorem begun_of_change (same : asked.change user = some call) : asked.talk ≠ [] := by
  intro none_
  simp [change, none_] at same

theorem change_upload {name : Bytes} (begun : asked.talk ≠ []) (names : asked.names = [name])
    (upload : asked.command = Message.UPLOAD_REQUEST.byte) :
    asked.change user = some (.ofstream_open (storagePath user name)) := by
  obtain ⟨first, rest, talk⟩ := List.exists_cons_of_ne_nil begun
  simp only [change, talk, names, if_pos upload]

theorem change_rename {old new : Bytes} (begun : asked.talk ≠ []) (names : asked.names = [old, new])
    (rename : asked.command = Message.RENAME_REQUEST.byte) :
    asked.change user = some (.rename (storagePath user old) (storagePath user new)) := by
  obtain ⟨first, rest, talk⟩ := List.exists_cons_of_ne_nil begun
  simp only [change, talk, names, if_pos rename]

theorem change_delete {name : Bytes} (begun : asked.talk ≠ []) (names : asked.names = [name])
    (delete : asked.command = Message.DELETE_REQUEST.byte) (yes : asked.confirmed = true) :
    asked.change user = some (.remove (storagePath user name)) := by
  obtain ⟨first, rest, talk⟩ := List.exists_cons_of_ne_nil begun
  have other : asked.command ≠ Message.UPLOAD_REQUEST.byte := by
    rw [delete]
    decide
  simp only [change, talk, names, if_neg other, if_pos (And.intro delete yes)]

/-- Only a confirmed removal asks for one. -/
theorem confirmed_of_change {name : Bytes} (names : asked.names = [name])
    (delete : asked.command = Message.DELETE_REQUEST.byte) (same : asked.change user = some call) :
    asked.confirmed = true := by
  obtain ⟨first, rest, talk⟩ := List.exists_cons_of_ne_nil (begun_of_change same)
  have other : asked.command ≠ Message.UPLOAD_REQUEST.byte := by
    rw [delete]
    decide
  simp only [change, talk, names, if_neg other] at same
  split_ifs at same with asks
  exact asks.2

end Entry

theorem Talk.start_lt {talk other : Talk} (before : Increasing.Before Turn.counter talk other)
    (begun : talk ≠ []) (begins : other ≠ []) : talk.start < other.start := by
  obtain ⟨turn, rest, rfl⟩ := List.exists_cons_of_ne_nil begun
  obtain ⟨later, more, rfl⟩ := List.exists_cons_of_ne_nil begins
  exact before turn (List.mem_cons_self ..) later (List.mem_cons_self ..)

theorem Ledger.Good.asks_increase {c : Charter} {g : Ledger} (good : g.Good c) (user : Bytes) :
    Increasing Prod.fst (g.entries.reverse.filterMap (Entry.asks user)) := by
  have ordered := good.ordered
  rw [Ledger.talks, Increasing, List.pairwise_append, List.pairwise_flatMap] at ordered
  refine List.pairwise_filterMap.mpr (ordered.2.1.2.imp fun {x y} before a earlier b later => ?_)
  obtain ⟨call, first, rfl⟩ := Option.map_eq_some_iff.mp earlier
  obtain ⟨other, second, rfl⟩ := Option.map_eq_some_iff.mp later
  exact Talk.start_lt before (Entry.begun_of_change first) (Entry.begun_of_change second)

namespace Paired
variable {host : Endian} {key : Bytes} {known : Emission → Prop} {c s : Ledger}
  {asked served : Entry} {call : FileCall}

/-- A confirmation that opens is the answer Yes of the user. -/
theorem confirmed (paired : Paired host key known c s) (there : asked ∈ c.entries)
    (listed : served ∈ s.entries)
    {first e : Emission} (opens : served.talk[0]? = some ⟨.client, first⟩)
    (starts : asked.talk[0]? = some ⟨.client, first⟩) (found : served.talk[2]? = some ⟨.client, e⟩)
    (short : e.size ≤ Config.MAX_PACKET_SIZE) (code : e.code = Message.DELETE_CONFIRM.byte) :
    asked.talk[2]? = some ⟨.client, e⟩ := by
  obtain ⟨-, chunks, spoken⟩ := Server.Formed.spoken (paired.server.formed served listed)
  obtain ⟨-, cuts, asks⟩ := Client.Formed.spoken (paired.client.formed asked there)
  have counter : e.counter = served.talk.start + 2 := spoken.counted 2 _ found
  have opened : first.counter = served.talk.start := spoken.counted 0 _ opens
  have started : first.counter = asked.talk.start := asks.counted 0 _ starts
  have turned : Turn.counter ⟨.client, first⟩ = first.counter := rfl
  have late : e.code ∈ laterCodes := code ▸ (by decide : Message.DELETE_CONFIRM.byte ∈ laterCodes)
  have outer : e ∉ c.outside := by
    intro early
    have size : e.size = ENCRYPTED_SIGNATURE_LEN := paired.client.outside e early
    rw [size] at short
    exact absurd short (by decide)
  have inner : e ∉ s.outside := by
    intro old
    rcases paired.server.outside e old with answer | ⟨-, zero⟩
    · exact later_not_answer _ late answer
    · omega
  have said := paired.of_client (Ledger.mem_entry listed (List.mem_of_getElem? found)) outer inner
  have reached := paired.next there (List.mem_of_getElem? starts) said late (by omega) (by omega)
  exact asks.counted.at_ reached (counter.trans (by omega))

/-- What is changed for a request is what it asks for. -/
theorem due (paired : Paired host key known c s) (there : asked ∈ c.entries)
    (listed : served ∈ s.entries)
    (same : asked.command = served.command) {e : Emission}
    (opens : served.talk[0]? = some ⟨.client, e⟩) (starts : asked.talk[0]? = some ⟨.client, e⟩) :
    served.deeds.changes = [] ∨
      ∃ call, served.deeds.changes = [call] ∧ asked.change s.user = some call := by
  have formed : Server.Formed host s.user served := paired.server.formed served listed
  have asker : Client.Formed host asked := paired.client.formed asked there
  have begun : asked.talk ≠ [] := List.ne_nil_of_mem (List.mem_of_getElem? starts)
  cases formed.serves with
  | list _ facts => exact .inl facts.unchanged
  | download _ _ facts => exact .inl facts.unchanged
  | logout _ facts => exact .inl facts.unchanged
  | upload size upload facts =>
      refine facts.created.imp id ?_
      rintro ⟨found, named, changes⟩
      obtain ⟨name, size, names, valid, sent⟩ := asker.uploads (same.trans upload)
      obtain ⟨filler, text⟩ := sent.asks _ starts
      have named := named _ opens
      dsimp only at named text
      rw [text, UploadM1.deserialize_serialize (strncpy_length ..)] at named
      obtain rfl : found = name := named_field valid named
      exact ⟨_, changes, Entry.change_upload begun names (same.trans upload)⟩
  | rename rename facts =>
      refine facts.renamed.imp id ?_
      rintro ⟨foundOld, foundNew, named, changes⟩
      obtain ⟨old, new, names, first, second, sent⟩ := asker.renames (same.trans rename)
      have text : e.plaintext = _ := sent.asks _ starts
      have named := named _ opens
      dsimp only at named
      rw [text, Rename.deserialize_serialize (strncpy_length ..) (strncpy_length ..)] at named
      obtain rfl : foundOld = old := named_field first named.1
      obtain rfl : foundNew = new := named_alone second named.2
      exact ⟨_, changes, Entry.change_rename begun names (same.trans rename)⟩
  | delete delete facts =>
      refine facts.removed.imp id ?_
      rintro ⟨long, answered, found, named, changes⟩
      obtain ⟨name, names, valid, sent⟩ := asker.deletes (same.trans delete)
      obtain ⟨filler, text⟩ := sent.asks _ starts
      have named := named _ opens
      dsimp only at named text
      rw [text, NameRequest.deserialize_serialize (strncpy_length ..)] at named
      obtain rfl : found = name := named_alone valid named
      obtain ⟨answer, second⟩ := facts.spoken.turn (.confirmation rfl) long
      have yes := paired.confirmed there listed opens starts second (facts.short _ second)
        (answered _ second)
      exact ⟨_, changes, Entry.change_delete begun names (same.trans delete)
        (sent.confirms _ yes (answered _ second))⟩

theorem changed (paired : Paired host key known c s) (listed : served ∈ s.entries) :
    served.deeds.changes = [] ∨ ∃ call, served.deeds.changes = [call] ∧
      ∃ asked ∈ c.entries, asked.asks s.user = some (served.talk.start, call) := by
  obtain ⟨asked, there, same, e, opens, starts⟩ := paired.request listed
  obtain ⟨-, chunks, spoken⟩ := Server.Formed.spoken (paired.server.formed served listed)
  obtain ⟨-, cuts, asks⟩ := Client.Formed.spoken (paired.client.formed asked there)
  have opened : e.counter = served.talk.start := spoken.counted 0 _ opens
  have started : e.counter = asked.talk.start := asks.counted 0 _ starts
  refine (paired.due there listed same opens starts).imp id ?_
  rintro ⟨call, changes, change⟩
  exact ⟨call, changes, asked, there, by rw [Entry.asks, change, Option.map_some, ← started, opened]⟩

theorem tried_increase (paired : Paired host key known c s) :
    Increasing Prod.fst (s.entries.reverse.flatMap Entry.tried) := by
  have ordered := paired.server.ordered
  rw [Ledger.talks, Increasing, List.pairwise_append, List.pairwise_flatMap] at ordered
  refine List.pairwise_flatMap.mpr ⟨fun served listed => ?_, ordered.2.1.2.imp_of_mem ?_⟩
  · rcases paired.changed (List.mem_reverse.mp listed) with none_ | ⟨call, one, -⟩
    · rw [Entry.tried, none_]
      exact .nil
    · rw [Entry.tried, one]
      exact List.pairwise_singleton _ _
  · intro x y first second before a earlier b later
    have begun : ∀ entry ∈ s.entries.reverse, entry.talk ≠ [] := fun entry listed =>
      (paired.server.formed entry (List.mem_reverse.mp listed)).begun
    obtain ⟨call, -, rfl⟩ := List.mem_map.mp earlier
    obtain ⟨other, -, rfl⟩ := List.mem_map.mp later
    exact Talk.start_lt before (begun x first) (begun y second)

theorem changes_sublist (paired : Paired host key known c s) (own : s.leftover.deeds.changes = []) :
    s.changes.Sublist (c.asksFor s.user) := by
  have among : ∀ x ∈ s.entries.reverse.flatMap Entry.tried,
      x ∈ c.entries.reverse.filterMap (Entry.asks s.user) := by
    intro x member
    obtain ⟨served, listed, tried⟩ := List.mem_flatMap.mp member
    obtain ⟨call, changed, rfl⟩ := List.mem_map.mp tried
    rcases paired.changed (List.mem_reverse.mp listed) with none_ | ⟨_, one, asked, there, same⟩
    · rw [none_] at changed
      cases changed
    · rw [one, List.mem_singleton] at changed
      subst changed
      exact List.mem_filterMap.mpr ⟨asked, List.mem_reverse.mpr there, same⟩
  have ordered := paired.tried_increase.sublist (paired.client.asks_increase s.user) among
  have calls : s.changes = (s.entries.reverse.flatMap Entry.tried).map Prod.snd := by
    have untagged : ∀ served : Entry, served.tried.map Prod.snd = served.deeds.changes := by
      intro served
      simp [Entry.tried]
    simp only [Ledger.changes, own, List.nil_append, List.map_flatMap, untagged]
  have asked : c.asksFor s.user =
      (c.entries.reverse.filterMap (Entry.asks s.user)).map Prod.snd := by
    have untagged : ∀ asked : Entry, (asked.asks s.user).map Prod.snd = asked.change s.user := by
      intro asked
      simp [Entry.asks, Function.comp_def]
    simp only [Ledger.asksFor, List.map_filterMap, untagged]
  rw [calls, asked]
  exact ordered.map Prod.snd

end Paired

/-- In every run of the two with a network between them in which no change is tried for a
request from before the epoch. -/
theorem changes_invoked {host : Endian} {key : Bytes} {rounds turns : Nat} {s t : Session octets}
    {client server : List (Event Op Op.Ans)} {ended : Option (Option Int)} {result : Option Unit}
    (clientRun : Runs (Client.run host rounds s) client ended)
    (serverRun : Runs (Server.run host turns t) server result) (ideal : Ideal key client server)
    (own : (ledger .server key server).leftover.deeds.changes = []) :
    (ledger .server key server).changes.Sublist
      ((ledger .client key client).asksFor (ledger .server key server).user) :=
  (ideal.paired clientRun serverRun).changes_sublist own

/-- The one file that is created is the one that was uploaded. -/
theorem upload_invoked :
    (ledger .server Meeting.key (Meeting.receiver (Meeting.uploaded (4 :: Meeting.content)))).changes =
        [.ofstream_open (storagePath (ascii "Luca") (ascii "a.txt"))] ∧
      (ledger .server Meeting.key
          (Meeting.receiver (Meeting.uploaded (4 :: Meeting.content)))).changes.Sublist
        ((ledger .client Meeting.key (Meeting.sender Meeting.upload)).asksFor (ledger .server
          Meeting.key (Meeting.receiver (Meeting.uploaded (4 :: Meeting.content)))).user) :=
  ⟨by decide +kernel, changes_invoked (Program.execute_runs Rehearsal.Desk.respond _ _)
    (Program.execute_runs Rehearsal.Desk.respond _ _) Meeting.upload_checks.ideal (by decide +kernel)⟩

end Dialogue
end CloudStorage
