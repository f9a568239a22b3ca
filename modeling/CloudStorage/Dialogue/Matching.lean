import CloudStorage.Dialogue.Accepted

/-! Matching conversations. Up to every answer that a client accepts, the two sides have the
same conversation. -/
namespace CloudStorage
open Interaction

namespace Dialogue

/-- Up to every answer that was accepted the two have the same conversation. -/
def Agrees (asked served : Entry) : Prop :=
  asked.command = served.command ∧
    ∀ (place : Nat) (e : Emission), asked.talk[place]? = some ⟨.server, e⟩ →
      asked.talk.take (place + 1) = served.talk.take (place + 1)

namespace Paired
variable {host : Endian} {key : Bytes} {known : Emission → Prop} {c s : Ledger}
  {asked served : Entry} {e : Emission}

theorem of_server (paired : Paired host key known c s) (said : ⟨.server, e⟩ ∈ c.talks)
    (fresh : Fresh c s) : ⟨.server, e⟩ ∈ s.talks := by
  have heard := (paired.client.sound _ said).2 rfl
  rcases paired.origin e heard with early | other | old | own
  · exact absurd early (fresh _ said rfl).1
  · have same := paired.client.ordered.injective said other rfl
    cases same
  · exact absurd old (fresh _ said rfl).2.1
  · exact own

/-- An answer that is accepted was sent for a request of the epoch. -/
theorem of_entry (paired : Paired host key known c s) (fresh : Fresh c s) {place : Nat}
    (there : asked ∈ c.entries) (found : asked.talk[place]? = some ⟨.server, e⟩) :
    ∃ served ∈ s.entries, ⟨.server, e⟩ ∈ served.talk := by
  have said := Ledger.mem_entry there (List.mem_of_getElem? found)
  exact (Ledger.mem_talks.mp (paired.of_server said fresh)).resolve_left (fresh _ said rfl).2.2

/-- The server takes the largest size for 0. -/
theorem uploads (paired : Paired host key known c s) (there : asked ∈ c.entries)
    (listed : served ∈ s.entries)
    (upload : served.command = Message.UPLOAD_REQUEST.byte) (same : asked.command = served.command)
    (first : served.talk[0]? = some ⟨.client, e⟩) (starts : asked.talk[0]? = some ⟨.client, e⟩) :
    ∃ name size, asked.names = [name] ∧ FileManager.isStringValid name = true ∧
      asked.deeds.size = some size ∧ size ≠ 0 ∧
      Client.Uploads host name size asked.talk asked.deeds asked.result ∧
      Server.Uploads host s.user (if size < Config.MAX_FILE_SIZE then size else 0) served.talk
        served.deeds := by
  obtain ⟨name, size, names, valid, sent⟩ :=
    Client.Formed.uploads (paired.client.formed asked there) (same.trans upload)
  obtain ⟨announced, took⟩ := Server.Formed.uploads (paired.server.formed served listed) upload
  obtain ⟨measured, positive, -⟩ := sent.measured (List.ne_nil_of_mem (List.mem_of_getElem? starts))
  obtain ⟨filler, text⟩ := sent.asks _ starts
  have size_ : (UploadM1.deserialize host e.plaintext).m_file_size.toNat = announced := took.asked _ first
  rw [text] at size_
  obtain rfl : (if size < Config.MAX_FILE_SIZE then size else 0) = announced :=
    (UploadM1.received_eq host name filler size).symm.trans size_
  exact ⟨name, size, names, valid, measured, positive, sent, took⟩

/-- No upload is served without a chunk. -/
theorem script (paired : Paired host key known c s)
    (small : Within c) (there : asked ∈ c.entries)
    (listed : served ∈ s.entries) (same : asked.command = served.command)
    (first : served.talk[0]? = some ⟨.client, e⟩) (starts : asked.talk[0]? = some ⟨.client, e⟩) :
    ∃ chunks, Spoken .server served.command chunks served.talk ∧
      (served.command = Message.UPLOAD_REQUEST.byte → chunks ≠ 0) := by
  by_cases upload : served.command = Message.UPLOAD_REQUEST.byte
  · obtain ⟨name, size, -, -, measured, positive, sent, took⟩ :=
      paired.uploads there listed upload same first starts
    have bounded := (sent.measured (List.ne_nil_of_mem (List.mem_of_getElem? starts))).2.2
    have below : size ≠ Config.MAX_FILE_SIZE := fun largest => small asked there (largest ▸ measured)
    rw [if_pos (Nat.lt_of_le_of_ne bounded below)] at took
    exact ⟨_, upload ▸ took.spoken, fun _ => chunksOf_pos positive⟩
  · obtain ⟨-, chunks, spoken⟩ := Server.Formed.spoken (paired.server.formed served listed)
    exact ⟨chunks, spoken, fun same => absurd same upload⟩

/-- The first answer that was accepted comes from the handler of the request. -/
theorem answered (paired : Paired host key known c s) (steady : Steady c s) (fresh : Fresh c s)
    (small : Within c)
    (there : asked ∈ c.entries) (found : asked.talk[1]? = some ⟨.server, e⟩)
    (code : e.code ∈ firstAnswers asked.command) :
    ∃ served ∈ s.entries, asked.command = served.command ∧ Echoes .client served.talk asked.talk ∧
      asked.talk.start = served.talk.start ∧ served.talk[1]? = some ⟨.server, e⟩ := by
  obtain ⟨-, cuts, asks⟩ := Client.Formed.spoken (paired.client.formed asked there)
  have counter : e.counter = asked.talk.start + 1 := asks.counted 1 _ found
  obtain ⟨served, listed, said⟩ := paired.of_entry fresh there found
  obtain ⟨place, placed⟩ := List.getElem?_of_mem said
  obtain ⟨other, elsewhere, same, echoes, start, begun⟩ := paired.carried steady listed
  have formed : Server.Formed host s.user served := paired.server.formed served listed
  obtain ⟨first, opens, -⟩ := formed.spoken.2.choose_spec.first formed.begun
  have starts := echoes 0 first opens
  obtain ⟨chunks, spoken, chunked⟩ := paired.script small elsewhere listed same opens starts
  have counted : e.counter = served.talk.start + place := spoken.counted place _ placed
  have own : first.counter = served.talk.start := spoken.counted 0 _ opens
  by_cases one : other = asked
  · subst one
    obtain rfl : place = 1 := by omega
    exact ⟨served, listed, same, echoes, start, placed⟩
  -- a later answer of an earlier request follows a message of the client
  exfalso
  rcases paired.client.apart elsewhere there one with ahead | past
  · obtain ⟨begin_, begins, opened⟩ := asks.first (List.ne_nil_of_mem (List.mem_of_getElem? found))
    have ahead : ∀ turn ∈ other.talk, turn.counter < asked.talk.start := by
      intro turn member
      have before := ahead turn member _ (List.mem_of_getElem? begins)
      have opened_ : Turn.counter ⟨.client, begin_⟩ = begin_.counter := rfl
      omega
    have lead : first.counter < asked.talk.start := ahead _ (List.mem_of_getElem? starts)
    match place with
    | 0 => omega
    | 1 => omega
    | place + 2 =>
        obtain ⟨list, download⟩ := first_of_later code (spoken.coded _ _ placed)
        obtain ⟨before, rfl, speaks⟩ := (spoken.scripted _ _ placed).acknowledged list download
          chunked
        have inside := (List.getElem?_eq_some_iff.mp placed).1
        obtain ⟨last, near⟩ := spoken.turn speaks (by omega)
        have counts : last.counter = served.talk.start + (before + 2) := spoken.counted _ _ near
        have bound : last.counter < asked.talk.start :=
          ahead _ (List.mem_of_getElem? (echoes _ last near))
        omega
  · have past : e.counter < first.counter :=
      past _ (List.mem_of_getElem? found) _ (List.mem_of_getElem? starts)
    omega

/-- All answers come from there. -/
theorem replies (paired : Paired host key known c s) (steady : Steady c s) (fresh : Fresh c s)
    (there : asked ∈ c.entries) (listed : served ∈ s.entries)
    (start : asked.talk.start = served.talk.start) (opens : served.talk[1]? = some ⟨.server, e⟩) :
    Echoes .server asked.talk served.talk := by
  intro place answer found
  obtain ⟨-, cuts, asks⟩ := Client.Formed.spoken (paired.client.formed asked there)
  obtain ⟨-, chunks, spoken⟩ := Server.Formed.spoken (paired.server.formed served listed)
  have counter : answer.counter = asked.talk.start + place := asks.counted place _ found
  have second : e.counter = served.talk.start + 1 := spoken.counted 1 _ opens
  obtain ⟨other, elsewhere, said⟩ := paired.of_entry fresh there found
  by_cases one : other = served
  · subst one
    exact spoken.counted.at_ said (counter.trans (by omega))
  exfalso
  obtain ⟨origin, back, -, echoes, begins, begun⟩ := paired.carried steady elsewhere
  obtain ⟨-, others, spoke⟩ := Server.Formed.spoken (paired.server.formed other elsewhere)
  obtain ⟨-, pieces, wrote⟩ := Client.Formed.spoken (paired.client.formed origin back)
  obtain ⟨first, starts, own⟩ := spoke.first (List.ne_nil_of_mem said)
  have inside := (spoke.counted.bound said).1
  have answers : Turn.counter ⟨.server, answer⟩ = answer.counter := rfl
  rcases paired.server.apart elsewhere listed one with ahead | past
  · obtain ⟨opening, head, at_⟩ := spoken.first (List.ne_nil_of_mem (List.mem_of_getElem? opens))
    have ahead : answer.counter < opening.counter := ahead _ said _ (List.mem_of_getElem? head)
    omega
  have past : e.counter < first.counter :=
    past _ (List.mem_of_getElem? opens) _ (List.mem_of_getElem? starts)
  have lead := List.mem_of_getElem? (echoes 0 first starts)
  by_cases same : origin = asked
  · subst same
    omega
  rcases paired.client.apart back there same with ahead | behind
  · obtain ⟨opening, head, at_⟩ := asks.first (List.ne_nil_of_mem (List.mem_of_getElem? found))
    have ahead : first.counter < opening.counter := ahead _ lead _ (List.mem_of_getElem? head)
    omega
  · have behind : answer.counter < first.counter := behind _ (List.mem_of_getElem? found) _ lead
    omega

end Paired

/-- Two sides that echo each other say the same up to an answer. -/
theorem agree_up_to {command : UInt8} {cuts chunks place : Nat} {talk other : Talk} {e : Emission}
    (asks : Spoken .client command cuts talk) (spoken : Spoken .server command chunks other)
    (echoes : Echoes .client other talk) (replies : Echoes .server talk other)
    (found : talk[place]? = some ⟨.server, e⟩) : talk.take (place + 1) = other.take (place + 1) := by
  have answered := replies place e found
  have inside := (List.getElem?_eq_some_iff.mp found).1
  have reached := (List.getElem?_eq_some_iff.mp answered).1
  refine List.ext_getElem? fun earlier => ?_
  rw [List.getElem?_take, List.getElem?_take]
  by_cases within : earlier < place + 1
  · rw [if_pos within, if_pos within]
    obtain ⟨⟨author, mine⟩, here⟩ : ∃ turn, talk[earlier]? = some turn :=
      ⟨_, List.getElem?_eq_getElem (by omega)⟩
    obtain ⟨⟨role, theirs⟩, there⟩ : ∃ turn, other[earlier]? = some turn :=
      ⟨_, List.getElem?_eq_getElem (by omega)⟩
    cases role with
    | client => rw [there, echoes earlier theirs there]
    | server =>
        cases author with
        | server => rw [here, replies earlier mine here]
        | client =>
            have client := asks.scripted earlier _ here
            have server := spoken.scripted earlier _ there
            have differ : earlier ≠ place := by
              rintro rfl
              rw [here] at found
              cases found
            exact absurd (spoken.scripted place _ answered) (client.last server (by omega))
  · rw [if_neg within, if_neg within]

namespace Paired
variable {host : Endian} {key : Bytes} {known : Emission → Prop} {c s : Ledger} {asked : Entry}

/-- The conversation of a request whose first answer is one of those to its command. -/
theorem agrees (paired : Paired host key known c s) (steady : Steady c s) (fresh : Fresh c s)
    (small : Within c)
    (there : asked ∈ c.entries) (long : 1 < asked.talk.length)
    (code : asked.talk.Says 1 (·.code ∈ firstAnswers asked.command)) :
    ∃ served ∈ s.entries, Agrees asked served ∧ Echoes .client served.talk asked.talk := by
  obtain ⟨-, cuts, asks⟩ := Client.Formed.spoken (paired.client.formed asked there)
  obtain ⟨e, found⟩ := asks.turn .answer long
  obtain ⟨served, listed, same, echoes, start, opens⟩ :=
    paired.answered steady fresh small there found (code _ found)
  obtain ⟨-, chunks, spoken⟩ := Server.Formed.spoken (paired.server.formed served listed)
  have replies := paired.replies steady fresh there listed start opens
  rw [← same] at spoken
  exact ⟨served, listed, ⟨same, fun place e found =>
    agree_up_to asks spoken echoes replies found⟩, echoes⟩

end Paired

section Runs
variable {host : Endian} {key : Bytes} {rounds turns : Nat} {s t : Session octets}
  {client server : List (Event Op Op.Ans)} {ended : Option (Option Int)} {result : Option Unit}

/-- In every such run in which the client accepts nothing from outside the epoch and no answer
to a request from before it, the answers come in order, each at most once; and the conversation
of every request that was answered as its command wants is one that the server has had. -/
theorem conversations_match (clientRun : Runs (Client.run host rounds s) client ended)
    (serverRun : Runs (Server.run host turns t) server result) (ideal : Ideal key client server)
    (steady : Steady (ledger .client key client) (ledger .server key server))
    (fresh : Fresh (ledger .client key client) (ledger .server key server))
    (small : Within (ledger .client key client)) :
    ((ledger .client key client).talks.said .server).Sublist
        ((ledger .server key server).talks.said .server) ∧
      ∀ asked ∈ (ledger .client key client).entries, 1 < asked.talk.length →
        asked.talk.Says 1 (·.code ∈ firstAnswers asked.command) →
          ∃ served ∈ (ledger .server key server).entries, Agrees asked served := by
  have paired := ideal.paired clientRun serverRun
  refine ⟨paired.client.said_sublist paired.server fun e said => paired.of_server said fresh, ?_⟩
  intro asked there long code
  obtain ⟨served, listed, agrees, -⟩ := paired.agrees steady fresh small there long code
  exact ⟨served, listed, agrees⟩

end Runs

/-- Client and server have the same four messages of the upload. -/
theorem upload_matched :
    ∃ asked ∈ (ledger .client Meeting.key (Meeting.sender Meeting.upload)).entries,
      asked.talk.length = 4 ∧ asked.talk[3]?.map Turn.author = some .server ∧
        ∃ served ∈ (ledger .server Meeting.key
          (Meeting.receiver (Meeting.uploaded (4 :: Meeting.content)))).entries, Agrees asked served := by
  obtain ⟨asked, there, long, last, code⟩ :
      ∃ asked ∈ (ledger .client Meeting.key (Meeting.sender Meeting.upload)).entries,
        asked.talk.length = 4 ∧ asked.talk[3]?.map Turn.author = some .server ∧
          asked.talk.Says 1 (·.code ∈ firstAnswers asked.command) := by
    decide +kernel
  obtain ⟨-, -, steady, fresh, small⟩ := Meeting.upload_checks
  have matched := conversations_match (Program.execute_runs Rehearsal.Desk.respond _ _)
    (Program.execute_runs Rehearsal.Desk.respond _ _) Meeting.upload_checks.ideal steady fresh small
  exact ⟨asked, there, long, last, matched.2 asked there (by omega) code⟩

end Dialogue
end CloudStorage
