import CloudStorage.Dialogue.Conduct
import CloudStorage.Dialogue.Origins
import CloudStorage.Session.Sizes

/-! Accepted messages. What a server accepts of its client was sent for the request that it
serves, at the same place of the conversation. -/
namespace CloudStorage
open Interaction

namespace Dialogue

/-- What the side says in the one, it says at the same place of the other. -/
def Echoes (role : Role) (talk other : Talk) : Prop :=
  ∀ (place : Nat) (e : Emission), talk[place]? = some ⟨role, e⟩ → other[place]? = some ⟨role, e⟩

theorem Spoken.first {role : Role} {command : UInt8} {chunks : Nat} {talk : Talk}
    (spoken : Spoken role command chunks talk) (begun : talk ≠ []) :
    ∃ e, talk[0]? = some ⟨.client, e⟩ ∧ e.counter = talk.start := by
  obtain ⟨e, found⟩ := spoken.turn .request (List.length_pos_iff.mpr begun)
  exact ⟨e, found, spoken.counted 0 _ found⟩

namespace Ledger
variable {c : Charter} {g : Ledger} {x y : Entry} {turn later : Turn} {command : UInt8}
  {chunks : Nat}

theorem mem_talks :
    turn ∈ g.talks ↔ turn ∈ g.leftover.talk ∨ ∃ entry ∈ g.entries, turn ∈ entry.talk := by
  simp only [talks, List.mem_append, List.mem_flatMap, List.mem_reverse]

theorem mem_entry (listed : x ∈ g.entries) (said : turn ∈ x.talk) : turn ∈ g.talks :=
  mem_talks.mpr (.inr ⟨x, listed, said⟩)

/-- Requests are dealt with one after the other. -/
theorem Good.apart (good : g.Good c) (first : x ∈ g.entries) (second : y ∈ g.entries)
    (differ : x ≠ y) :
    Increasing.Before Turn.counter x.talk y.talk ∨ Increasing.Before Turn.counter y.talk x.talk := by
  have ordered := good.ordered
  rw [talks, Increasing, List.pairwise_append] at ordered
  exact Increasing.apart ordered.2.1 (List.mem_reverse.mpr first) (List.mem_reverse.mpr second) differ

theorem Good.after_leftover (good : g.Good c) (old : turn ∈ g.leftover.talk)
    (listed : x ∈ g.entries) (said : later ∈ x.talk) : turn.counter < later.counter := by
  have ordered := good.ordered
  rw [talks, Increasing, List.pairwise_append] at ordered
  exact ordered.2.2 turn old later (List.mem_flatMap.mpr ⟨x, List.mem_reverse.mpr listed, said⟩)

/-- The messages of one side, where they are all in the other ledger. -/
theorem Good.said_sublist {d : Charter} {g' : Ledger} {role : Role} (good : g.Good c)
    (other : g'.Good d) (among : ∀ e, ⟨role, e⟩ ∈ g.talks → ⟨role, e⟩ ∈ g'.talks) :
    (g.talks.said role).Sublist (g'.talks.said role) := by
  have increasing : ∀ {talk : Talk}, Increasing Turn.counter talk →
      Increasing Emission.counter (talk.said role) := by
    intro talk ordered
    refine List.pairwise_filterMap.mpr (ordered.imp fun {x y} before a first b second => ?_)
    obtain rfl := Option.some.inj (Option.ite_none_right_eq_some.mp first).2
    obtain rfl := Option.some.inj (Option.ite_none_right_eq_some.mp second).2
    exact before
  refine (increasing good.ordered).sublist (increasing other.ordered) fun e member => ?_
  exact Talk.mem_said.mpr (among e (Talk.mem_said.mp member))

end Ledger

/-- Nothing is accepted for a request from before the epoch, nothing that the client has sent
outside the epoch, and after a request only what may follow it. -/
structure Steady (c s : Ledger) : Prop where
  own : ∀ turn ∈ s.leftover.talk, turn.author ≠ .client
  new : ∀ turn ∈ s.talks, turn.author = .client → turn.message ∉ c.outside
  awaited : ∀ served ∈ s.entries, ∀ turn ∈ served.talk.tail, turn.author = .client →
    turn.message.code ∈ followCodes served.command

/-- The client accepts nothing that was sent outside the epoch, and no answer to a request from
before it. -/
def Fresh (c s : Ledger) : Prop :=
  ∀ turn ∈ c.talks, turn.author = .server →
    turn.message ∉ c.outside ∧ turn.message ∉ s.outside ∧ turn ∉ s.leftover.talk

instance {c s : Ledger} : Decidable (Steady c s) :=
  decidable_of_iff ((∀ turn ∈ s.leftover.talk, turn.author ≠ .client) ∧
    (∀ turn ∈ s.talks, turn.author = .client → turn.message ∉ c.outside) ∧
    ∀ served ∈ s.entries, ∀ turn ∈ served.talk.tail, turn.author = .client →
      turn.message.code ∈ followCodes served.command)
    ⟨fun all => ⟨all.1, all.2.1, all.2.2⟩, fun steady => ⟨steady.own, steady.new, steady.awaited⟩⟩

instance {c s : Ledger} : Decidable (Fresh c s) := inferInstanceAs (Decidable (∀ _ ∈ _, _))

/-- No file has the size that a client announces as 0. -/
def Within (c : Ledger) : Prop := ∀ asked ∈ c.entries, asked.deeds.size ≠ some Config.MAX_FILE_SIZE

instance {c : Ledger} : Decidable (Within c) := inferInstanceAs (Decidable (∀ _ ∈ _, _))

/-- For the requests that are served the messages of the client are accepted in order, each at
most once and for its own request. A frame without a handler belongs to no request. -/
structure Originates (c s : Ledger) : Prop where
  sent : (s.talks.said .client).Sublist (c.talks.said .client)
  carried : ∀ served ∈ s.entries, ∃ asked ∈ c.entries, asked.command = served.command ∧
    Echoes .client served.talk asked.talk

namespace Paired
variable {host : Endian} {key : Bytes} {known : Emission → Prop} {c s : Ledger}
  {asked served : Entry} {e : Emission}

/-- What the client has not said the server hears from outside the epoch. -/
theorem of_client (paired : Paired host key known c s) (said : ⟨.client, e⟩ ∈ s.talks)
    (outer : e ∉ c.outside) (inner : e ∉ s.outside) : ⟨.client, e⟩ ∈ c.talks := by
  have heard := (paired.server.sound _ said).2 rfl
  rcases paired.origin e heard with early | own | old | other
  · exact absurd early outer
  · exact own
  · exact absurd old inner
  · have same := paired.server.ordered.injective said other rfl
    cases same

/-- The request that is served is the first message of one that was asked. -/
theorem request (paired : Paired host key known c s) (listed : served ∈ s.entries) :
    ∃ asked ∈ c.entries, asked.command = served.command ∧
      ∃ e, served.talk[0]? = some ⟨.client, e⟩ ∧ asked.talk[0]? = some ⟨.client, e⟩ := by
  have formed : Server.Formed host s.user served := paired.server.formed served listed
  obtain ⟨command, chunks, spoken⟩ := formed.spoken
  obtain ⟨e, first, -⟩ := spoken.first formed.begun
  obtain ⟨code, short⟩ := formed.request _ first
  have size : e.size ≠ ENCRYPTED_SIGNATURE_LEN := fun same => absurd (same ▸ short) (by decide)
  have heard := Ledger.mem_entry listed (List.mem_of_getElem? first)
  have outer : e ∉ c.outside := fun early => size (paired.client.outside e early)
  have inner : e ∉ s.outside := by
    intro old
    rcases paired.server.outside e old with answer | ⟨signature, -⟩
    · exact command_not_answer _ command (code ▸ answer)
    · exact size signature
  rcases Ledger.mem_talks.mp (paired.of_client heard outer inner) with left_ | ⟨asked, there, said⟩
  · have later : e.code ∈ laterCodes := paired.client.left_ _ left_ rfl
    exact absurd command (later_not_command _ (code ▸ later))
  · obtain ⟨place, found⟩ := List.getElem?_of_mem said
    obtain ⟨-, chunks, asks⟩ := Client.Formed.spoken (paired.client.formed asked there)
    have coded := asks.coded place e found
    cases place with
    | zero => exact ⟨asked, there, (List.mem_singleton.mp coded).symm.trans code, e, first, found⟩
    | succ place => exact absurd command (later_not_command _ (code ▸ later_of_followCodes coded))

/-- A message that follows another one closely belongs to the same request. -/
theorem next (paired : Paired host key known c s) (listed : asked ∈ c.entries) {turn : Turn}
    (before : turn ∈ asked.talk) (said : ⟨.client, e⟩ ∈ c.talks) (late : e.code ∈ laterCodes)
    (behind : turn.counter < e.counter) (near : e.counter ≤ turn.counter + 2) :
    ⟨.client, e⟩ ∈ asked.talk := by
  rcases Ledger.mem_talks.mp said with left_ | ⟨other, there, found⟩
  · have earlier : e.counter < turn.counter := paired.client.after_leftover left_ listed before
    omega
  by_cases same : asked = other
  · exact same ▸ found
  obtain ⟨place, found⟩ := List.getElem?_of_mem found
  obtain ⟨command, chunks, spoken⟩ := Client.Formed.spoken (paired.client.formed other there)
  have counter : e.counter = other.talk.start + place := spoken.counted place _ found
  have begun : other.talk ≠ [] := List.ne_nil_of_mem (List.mem_of_getElem? found)
  obtain ⟨first, starts, start⟩ := spoken.first begun
  -- no message of a client is the second one of its request
  have second : 2 ≤ place := by
    match place with
    | 0 =>
        have coded := spoken.coded 0 e found
        exact absurd command (later_not_command _ (List.mem_singleton.mp coded ▸ late))
    | 1 => nomatch spoken.scripted 1 _ found
    | place + 2 => exact Nat.le_add_left 2 place
  rcases paired.client.apart listed there same with ahead | past
  · have ahead : turn.counter < first.counter := ahead turn before _ (List.mem_of_getElem? starts)
    omega
  · have past : e.counter < turn.counter := past _ (List.mem_of_getElem? found) turn before
    omega

theorem carried (paired : Paired host key known c s) (steady : Steady c s)
    (listed : served ∈ s.entries) :
    ∃ asked ∈ c.entries, asked.command = served.command ∧ Echoes .client served.talk asked.talk ∧
      asked.talk.start = served.talk.start ∧ asked.talk ≠ [] := by
  obtain ⟨asked, there, same, e, first, starts⟩ := paired.request listed
  obtain ⟨-, chunks, spoken⟩ := Server.Formed.spoken (paired.server.formed served listed)
  obtain ⟨-, cuts, asks⟩ := Client.Formed.spoken (paired.client.formed asked there)
  have here : e.counter = served.talk.start := spoken.counted 0 _ first
  have start : e.counter = asked.talk.start := asks.counted 0 _ starts
  refine ⟨asked, there, same, ?_, by omega, List.ne_nil_of_mem (List.mem_of_getElem? starts)⟩
  intro place
  induction place using Nat.strongRecOn with
  | ind place ih =>
      intro later found
      match place with
      | 0 =>
          rw [first] at found
          exact found ▸ starts
      | 1 => nomatch spoken.scripted 1 _ found
      | place + 2 =>
          have heard := Ledger.mem_entry listed (List.mem_of_getElem? found)
          have counter : later.counter = served.talk.start + (place + 2) := spoken.counted _ _ found
          have follows : later.code ∈ followCodes served.command := by
            refine steady.awaited served listed ⟨.client, later⟩ ?_ rfl
            rw [← List.getElem?_tail] at found
            exact List.mem_of_getElem? found
          have late := later_of_followCodes follows
          have inner : later ∉ s.outside := by
            intro old
            rcases paired.server.outside later old with answer | ⟨-, zero⟩
            · exact later_not_answer _ late answer
            · omega
          have said := paired.of_client heard (steady.new _ heard rfl) inner
          -- the message of the client before this one
          obtain ⟨turn, before, behind, near⟩ : ∃ turn ∈ asked.talk, turn.counter < later.counter ∧
              later.counter ≤ turn.counter + 2 := by
            cases place with
            | zero =>
                have starts : Turn.counter ⟨.client, e⟩ = e.counter := rfl
                exact ⟨⟨.client, e⟩, List.mem_of_getElem? ‹_›, by omega, by omega⟩
            | succ place =>
                have speaks := (spoken.scripted _ _ found).before
                have inside := (List.getElem?_eq_some_iff.mp found).1
                obtain ⟨last, placed⟩ := spoken.turn speaks (by omega)
                have counted : last.counter = served.talk.start + (place + 2) := spoken.counted _ _ placed
                have turned : Turn.counter ⟨.client, last⟩ = last.counter := rfl
                exact ⟨⟨.client, last⟩, List.mem_of_getElem? (ih (place + 2) (by omega) last placed),
                  by omega, by omega⟩
          have reached := paired.next there before said late behind near
          exact asks.counted.at_ reached (counter.trans (by omega))

theorem originates (paired : Paired host key known c s) (steady : Steady c s) : Originates c s where
  sent := by
    refine paired.server.said_sublist paired.client fun e said => ?_
    obtain ⟨served, listed, said⟩ : ∃ served ∈ s.entries, ⟨.client, e⟩ ∈ served.talk :=
      (Ledger.mem_talks.mp said).resolve_left fun left_ => steady.own _ left_ rfl
    obtain ⟨place, found⟩ := List.getElem?_of_mem said
    obtain ⟨asked, there, -, echoes, -, -⟩ := paired.carried steady listed
    exact Ledger.mem_entry there (List.mem_of_getElem? (echoes place e found))
  carried := by
    intro served listed
    obtain ⟨asked, there, same, echoes, -, -⟩ := paired.carried steady listed
    exact ⟨asked, there, same, echoes⟩

end Paired

section Runs
variable {host : Endian} {key : Bytes} {rounds turns : Nat} {s t : Session octets}
  {client server : List (Event Op Op.Ans)} {ended : Option (Option Int)} {result : Option Unit}

/-- In every run of the two with a network between them in which every frame that is accepted
for a request carries the code that its step awaits and is not from before the epoch. -/
theorem accepted_frames_sent (clientRun : Runs (Client.run host rounds s) client ended)
    (serverRun : Runs (Server.run host turns t) server result) (ideal : Ideal key client server)
    (steady : Steady (ledger .client key client) (ledger .server key server)) :
    Originates (ledger .client key client) (ledger .server key server) :=
  (ideal.paired clientRun serverRun).originates steady

end Runs

namespace Meeting
open Rehearsal

/-- What a run of the two has to be looked through for. -/
def Checks (desk store : Desk) : Prop :=
  (∀ e ∈ unsealed key (sender desk) ++ unsealed key (receiver store),
      e ∈ emitted (sender desk) ∨ e ∈ emitted (receiver store)) ∧
    (NegotiatedOnce key (sender desk) ∧ NegotiatedOnce key (receiver store)) ∧
    Steady (ledger .client key (sender desk)) (ledger .server key (receiver store)) ∧
    Fresh (ledger .client key (sender desk)) (ledger .server key (receiver store)) ∧
    Within (ledger .client key (sender desk))

instance (desk store : Desk) : Decidable (Checks desk store) := inferInstanceAs (Decidable (_ ∧ _))

theorem ideal {desk store : Desk}
    (authentic : ∀ e ∈ unsealed key (sender desk) ++ unsealed key (receiver store),
      e ∈ emitted (sender desk) ∨ e ∈ emitted (receiver store))
    (once : NegotiatedOnce key (sender desk) ∧ NegotiatedOnce key (receiver store)) :
    Ideal key (sender desk) (receiver store) := by
  refine ⟨fun e member => ?_, authentic, once⟩
  rcases List.mem_append.mp member with sent | received
  · exact Program.execute_answers desk_keepsLength _ _ e sent
  · exact Program.execute_answers desk_keepsLength _ _ e received

theorem Checks.ideal {desk store : Desk} (checks : Checks desk store) :
    Ideal key (sender desk) (receiver store) :=
  Meeting.ideal checks.1 checks.2.1

theorem upload_checks : Checks upload (uploaded (4 :: content)) := by decide +kernel

end Meeting

/-- The chunk of the client is the one that is written. -/
theorem upload_sent :
    (ledger .server Meeting.key (Meeting.receiver (Meeting.uploaded (4 :: Meeting.content)))).entries.map
        (·.deeds.written.map Prod.snd) = [[Meeting.content]] ∧
      Originates (ledger .client Meeting.key (Meeting.sender Meeting.upload))
        (ledger .server Meeting.key (Meeting.receiver (Meeting.uploaded (4 :: Meeting.content)))) :=
  ⟨by decide +kernel, accepted_frames_sent (Program.execute_runs Rehearsal.Desk.respond _ _)
    (Program.execute_runs Rehearsal.Desk.respond _ _) Meeting.upload_checks.ideal
    Meeting.upload_checks.2.2.1⟩

/-- M5 of the handshake has the counter and the length of the first chunk of a small file
and is written in its place. -/
theorem outcome_reflected :
    ¬ ∀ (host : Endian) (key : Bytes) (rounds turns : Nat) (s t : Session octets)
      (client server : List (Event Op Op.Ans)) (ended : Option (Option Int)) (result : Option Unit),
      Runs (Client.run host rounds s) client ended → Runs (Server.run host turns t) server result →
        Ideal key client server →
          Originates (ledger .client key client) (ledger .server key server) := by
  intro claim
  have ideal : Ideal Meeting.key (Meeting.sender Meeting.upload)
      (Meeting.receiver (Meeting.uploaded Meeting.acknowledgement)) :=
    Meeting.ideal (by decide +kernel) (by decide +kernel)
  have originates := claim Meeting.host Meeting.key _ _ _ _ _ _ _ _
    (Program.execute_runs Rehearsal.Desk.respond _ _) (Program.execute_runs Rehearsal.Desk.respond _ _)
    ideal
  exact absurd originates.sent (by decide +kernel)

end Dialogue
end CloudStorage
