import CloudStorage.Dialogue.Script
import CloudStorage.Dialogue.Steps

/-! The chunks of a file: what was read goes out in order, and what comes in is written
in order. Both parties use the same `FileManager`. -/
namespace CloudStorage
open Interaction Code Method
namespace Dialogue

/-- The chunks that a file of this size is cut into. -/
def chunksOf (size : Nat) : Nat := (FileManager.initFileInfo ⟨.READ, none, 0, 0, 0⟩ size).m_chunks_num

/-- The size of a chunk. -/
def chunkOf (size place : Nat) : Nat :=
  if place + 1 = chunksOf size then
    (FileManager.initFileInfo ⟨.READ, none, 0, 0, 0⟩ size).m_last_chunk_size
  else Config.CHUNK_SIZE

theorem chunksOf_pos {size : Nat} (some_ : size ≠ 0) : chunksOf size ≠ 0 := by
  simp only [chunksOf, FileManager.initFileInfo, Config.CHUNK_SIZE, Config.KB_SIZE]
  omega

/-- The manager reads a file of this size. -/
structure Cuts (size : Nat) (manager : FileManager) : Prop where
  reads : manager.m_open_mode = .READ
  last : manager.m_last_chunk_size =
    (FileManager.initFileInfo ⟨.READ, none, 0, 0, 0⟩ size).m_last_chunk_size

/-- The chunk that a loop comes to. -/
theorem Cuts.chunk {manager : FileManager} {size place left : Nat} (cuts : Cuts size manager)
    (turn : place + (left + 1) = chunksOf size) :
    (if left = 0 then manager.m_last_chunk_size else Config.CHUNK_SIZE) = chunkOf size place := by
  unfold chunkOf
  by_cases last : left = 0
  · rw [if_pos last, if_pos (by omega), cuts.last]
  · rw [if_neg last, if_neg (by omega)]

theorem chunkOf_before {size place : Nat} (more : place + 1 < chunksOf size) :
    chunkOf size place = Config.CHUNK_SIZE := if_neg (by omega)

/-- Every chunk that the author sends is the next part of the file, if all parts were read
whole. -/
structure Feeds (author : Role) (code : UInt8) (path : Bytes) (size : Nat) (talk : Talk)
    (deeds : Deeds) : Prop where
  bound : deeds.reads.length ≤ chunksOf size
  fed : deeds.Whole → ∀ place e, talk[place + 2]? = some ⟨author, e⟩ → ∃ content,
    deeds.reads[place]? = some ⟨path, place * Config.CHUNK_SIZE, chunkOf size place, content⟩ ∧
      e.plaintext = code :: content

/-- What is written was sent by the author, in this order, and goes to the file that was
created. -/
def Stores (author : Role) (talk : Talk) (deeds : Deeds) : Prop :=
  ∀ (place : Nat) path chunk, deeds.written[place]? = some (path, chunk) →
    .ofstream_open path ∈ deeds.changes ∧ ∃ e size, talk[place + 2]? = some ⟨author, e⟩ ∧
      e.size ≤ 1 + size ∧ chunk = field 1 size e.plaintext

/-- Before a chunk is read. -/
def Loads (path : Bytes) (size place : Nat) (stream : Option (Bytes × Nat))
    (deeds : Deeds) : Prop :=
  deeds.reads.length ≤ place ∧ (deeds.Whole → deeds.reads.length = place ∧
    (place < chunksOf size → stream = some (path, place * Config.CHUNK_SIZE)))

/-- A chunk has been read into the buffer. -/
def Loaded (path : Bytes) (size place : Nat) (stream : Option (Bytes × Nat)) (buffer : Bytes)
    (deeds : Deeds) : Prop :=
  Loads path size (place + 1) stream deeds ∧ (deeds.Whole → ∃ content, deeds.reads[place]? =
    some ⟨path, place * Config.CHUNK_SIZE, chunkOf size place, content⟩ ∧
      buffer.take (chunkOf size place) = content)

section Talks
variable {author : Role} {code : UInt8} {path : Bytes} {size place : Nat} {talk : Talk}
  {deeds : Deeds} {stream : Option (Bytes × Nat)} {buffer : Bytes} {turn : Turn} {e : Emission}

theorem feeds_none (none_ : deeds.reads = []) (short : talk.length ≤ 2) :
    Feeds author code path size talk deeds := by
  constructor
  · rw [none_]
    exact Nat.zero_le _
  · intro _ place e found
    rw [List.getElem?_eq_none (by omega)] at found
    cases found

theorem stores_none (none_ : deeds.written = []) : Stores author talk deeds := by
  intro place path chunk found
  rw [none_] at found
  cases found

/-- A chunk that was read is sent. -/
theorem Feeds.send (feeds : Feeds author code path size talk deeds) (here : talk.length = place + 2)
    (loaded : Loaded path size place stream buffer deeds)
    (text : e.plaintext = code :: buffer.take (chunkOf size place)) :
    Feeds author code path size (talk ++ [⟨author, e⟩]) deeds := by
  refine ⟨feeds.bound, fun whole place' e' found => ?_⟩
  rcases mem_concat_at found with before | ⟨here', same⟩
  · exact feeds.fed whole place' e' before
  · obtain rfl : place' = place := by omega
    obtain ⟨-, rfl⟩ := Turn.mk.inj same
    obtain ⟨content, read, rfl⟩ := loaded.2 whole
    exact ⟨_, read, text⟩

/-- The other side speaks. -/
theorem Feeds.hear (feeds : Feeds author code path size talk deeds) (other : turn.author ≠ author) :
    Feeds author code path size (talk ++ [turn]) deeds := by
  refine ⟨feeds.bound, fun whole place e found => ?_⟩
  rcases mem_concat_at found with before | ⟨-, rfl⟩
  · exact feeds.fed whole place e before
  · exact absurd rfl other

/-- One more part of a file is read. -/
theorem Feeds.read (feeds : Feeds author code path size talk deeds)
    (more : deeds.reads.length < chunksOf size) (reading : Reading) :
    Feeds author code path size talk { deeds with reads := deeds.reads ++ [reading] } := by
  constructor
  · rw [List.length_append]
    exact more
  · intro whole place e found
    obtain ⟨content, read, text⟩ := feeds.fed (fun r member =>
      whole r (List.mem_append_left _ member)) place e found
    exact ⟨content, at_concat read, text⟩

theorem Stores.say (stores : Stores author talk deeds) : Stores author (talk ++ [turn]) deeds := by
  intro place path chunk found
  obtain ⟨created, e, size, spoken, fits, same⟩ := stores place path chunk found
  exact ⟨created, e, size, at_concat spoken, fits, same⟩

/-- The chunk that came in last is written. -/
theorem Stores.write (stores : Stores author talk deeds)
    (created : .ofstream_open path ∈ deeds.changes)
    (last : talk[deeds.written.length + 2]? = some ⟨author, e⟩) (fits : e.size ≤ 1 + size) :
    Stores author talk
      { deeds with written := deeds.written ++ [(path, field 1 size e.plaintext)] } := by
  intro place path' chunk found
  rcases mem_concat_at found with before | ⟨rfl, same⟩
  · exact stores place path' chunk before
  · obtain ⟨rfl, rfl⟩ := Prod.mk.inj same
    exact ⟨created, e, size, last, fits, rfl⟩

end Talks

variable {c : Charter} {s : Session octets} {g : Ledger} {spent : Bool}
  {kept holds : Bytes → Entry → Prop}

/-- Calls that look at files without reading them. -/
theorem unlisted_look {call : FileCall} (same : ∀ (d : Deeds) answer, d.observe call answer = d) :
    c.Unlisted (.file call) := by
  intro g answer
  have kept : g.extend (·.act call answer) = g := by
    refine Ledger.extend_same fun entry => ?_
    simp only [Entry.act, same]
  simp only [Ledger.observe, kept, ite_self]

theorem isFilePresent_unlisted (path : Bytes) : (FileManager.isFilePresent path).Keeps c.Unlisted :=
  .invoke (unlisted_look fun _ _ => rfl)

/-- A manager reads the next chunk. A stream that has failed reads nothing. -/
theorem readChunk_loads {manager : FileManager} {buffer path : Bytes} {size place : Nat}
    (cuts : Cuts size manager) (more : place < chunksOf size)
    (working : Working c spent (fun user entry =>
      kept user entry ∧ Loads path size place manager.m_stream entry.deeds) s g)
    (keeps : ∀ path position size content entry, c.Formed s.m_username entry →
      kept s.m_username entry → entry.deeds.reads.length ≤ place →
      c.Formed s.m_username (entry.act (.read path position size) content) ∧
        kept s.m_username (entry.act (.read path position size) content)) :
    (manager.readChunk buffer (chunkOf size place)).wp c.monitor (fun result s' g' => s' = s ∧
      Cuts size result.1 ∧
      Working c spent (fun user entry => kept user entry ∧
        Loaded path size place result.1.m_stream result.2.1 entry.deeds) s g') s g := by
  refine wp_ite.mpr ⟨fun other => absurd cuts.reads other, fun _ => ?_⟩
  obtain ⟨mode, stream, fileSize, chunks, last⟩ := manager
  cases stream with
  | none =>
      refine (wp_pure _).mpr ⟨rfl, cuts, working.mono fun entry _ held => ⟨held.1, ?_⟩⟩
      obtain ⟨bound, whole⟩ := held.2
      have closed : ¬entry.deeds.Whole := fun all => by
        have opened := (whole all).2 more
        cases opened
      exact ⟨⟨Nat.le_succ_of_le bound, fun all => absurd all closed⟩, fun all => absurd all closed⟩
  | some stream =>
      obtain ⟨from_, position⟩ := stream
      refine wp_file (fun content user entry => kept user entry ∧
        Loaded path size place
          (if content.length < chunkOf size place then none
            else some (from_, position + chunkOf size place))
          (content ++ buffer.drop content.length) entry.deeds) working ?_ ?_
      · intro content entry formed held
        obtain ⟨bound, whole⟩ := held.2
        obtain ⟨formed, still⟩ := keeps from_ position (chunkOf size place) content entry formed
          held.1 bound
        have all : (entry.act (.read from_ position (chunkOf size place)) content).deeds.Whole →
            entry.deeds.Whole ∧ List.length content = chunkOf size place := fun whole =>
          ⟨fun r member => whole r (List.mem_append_left _ member),
            whole _ (List.mem_append_right _ (List.mem_singleton_self _))⟩
        have length : (entry.act (.read from_ position (chunkOf size place)) content).deeds.reads.length =
            entry.deeds.reads.length + 1 := List.length_append
        refine ⟨formed, still, ⟨?_, fun now => ?_⟩, fun now => ?_⟩
        · rw [length]
          exact Nat.succ_le_succ bound
        · obtain ⟨before, full⟩ := all now
          obtain ⟨count, opened⟩ := whole before
          obtain ⟨rfl, rfl⟩ := Prod.mk.inj (Option.some.inj (opened more))
          refine ⟨by rw [length, count], fun next => ?_⟩
          rw [if_neg (by omega), chunkOf_before next, Nat.succ_mul]
        · obtain ⟨before, full⟩ := all now
          obtain ⟨count, opened⟩ := whole before
          obtain ⟨rfl, rfl⟩ := Prod.mk.inj (Option.some.inj (opened more))
          have last : (entry.deeds.reads ++ [⟨from_, place * Config.CHUNK_SIZE, chunkOf size place,
              content⟩])[entry.deeds.reads.length]? = some ⟨from_, place * Config.CHUNK_SIZE,
                chunkOf size place, content⟩ := List.getElem?_concat_length
          rw [count] at last
          exact ⟨content, last, List.take_left' full⟩
      · intro content g' _ working
        exact (wp_pure _).mpr ⟨rfl, ⟨cuts.reads, cuts.last⟩, working⟩

/-- A manager writes a chunk where the file could be opened. -/
theorem writeChunk_stores {manager : FileManager} {chunk : Bytes} (holds' : Bytes → Entry → Prop)
    (writes : manager.m_open_mode = .WRITE) (working : Working c spent holds s g)
    (closed : manager.m_stream = none → ∀ entry, holds s.m_username entry → holds' s.m_username entry)
    (opened : ∀ path position, manager.m_stream = some (path, position) → ∀ entry,
      c.Formed s.m_username entry → holds s.m_username entry →
      c.Formed s.m_username (entry.act (.write path chunk) ()) ∧
        holds' s.m_username (entry.act (.write path chunk) ())) :
    (manager.writeChunk chunk).wp c.monitor
      (fun _ s' g' => s' = s ∧ Working c spent holds' s g') s g := by
  obtain ⟨mode, stream, fileSize, chunks, last⟩ := manager
  obtain rfl : mode = .WRITE := writes
  refine wp_ite.mpr ⟨fun other => absurd rfl other, fun _ => ?_⟩
  cases stream with
  | none => exact (wp_pure _).mpr ⟨rfl, working.mono fun entry _ held => closed rfl entry held⟩
  | some stream =>
      obtain ⟨path, position⟩ := stream
      refine wp_file (fun _ => holds') working ?_ ?_
      · intro _ entry formed held
        exact opened path position rfl entry formed held
      · intro _ g' _ working
        exact (wp_pure _).mpr ⟨rfl, working⟩

/-- What is known of a new file. -/
def Created (path : Bytes) (stream : Option (Bytes × Nat)) (d : Deeds) : Prop :=
  (stream = none → d.effects = []) ∧
    ∀ path' position, stream = some (path', position) → path' = path ∧ d.changes = [.ofstream_open path]

/-- A file is created if there is none. -/
theorem openWrite_creates {path : Bytes} (holds' : Bytes → Entry → Prop)
    (working : Working c spent holds s g)
    (quiet : ∀ entry, holds s.m_username entry → entry.deeds.changes = [] ∧ entry.deeds.effects = [] ∧
      holds' s.m_username entry)
    (opens : ∀ answer entry, c.Formed s.m_username entry → holds s.m_username entry →
      c.Formed s.m_username (entry.act (.ofstream_open path) answer) ∧
        holds' s.m_username (entry.act (.ofstream_open path) answer)) :
    (FileManager.openWrite path).wp c.monitor (fun manager s' g' => s' = s ∧
      manager.m_open_mode = .WRITE ∧ Working c spent (fun user entry =>
        holds' user entry ∧ Created path manager.m_stream entry.deeds) s g') s g := by
  have none_ : Working c spent (fun user entry => holds' user entry ∧
      Created path none entry.deeds) s g := by
    refine working.mono fun entry _ held => ?_
    obtain ⟨-, effects, kept⟩ := quiet entry held
    exact ⟨kept, fun _ => effects, nofun⟩
  refine wp_unlisted (isFilePresent_unlisted path) working.resting.good fun present _ => ?_
  refine wp_ite.mpr ⟨fun _ => (wp_pure _).mpr ⟨rfl, rfl, none_⟩, fun _ => ?_⟩
  refine wp_file (fun opened user entry => holds' user entry ∧
    Created path (if opened then some (path, 0) else none) entry.deeds) working ?_ ?_
  · intro opened entry formed held
    obtain ⟨changes, effects, -⟩ := quiet entry held
    obtain ⟨formed, kept⟩ := opens opened entry formed held
    have changed : (entry.act (.ofstream_open path) opened).deeds.changes = [.ofstream_open path] := by
      simp only [Entry.act, Deeds.observe, changes, List.nil_append]
    have took : (entry.act (.ofstream_open path) opened).deeds.effects =
        if opened then [.ofstream_open path] else [] := by
      simp only [Entry.act, Deeds.observe, effects, List.nil_append]
    refine ⟨formed, kept, ?_⟩
    cases opened with
    | true =>
        refine ⟨nofun, ?_⟩
        rintro _ _ ⟨⟩
        exact ⟨rfl, changed⟩
    | false => exact ⟨fun _ => took, nofun⟩
  · intro opened g' _ working
    cases opened with
    | true => exact (wp_pure _).mpr ⟨rfl, rfl, working⟩
    | false => exact (wp_pure _).mpr ⟨rfl, rfl, working⟩

/-- What is known of a file that was opened for reading, by what its size was found to be. -/
def OpenedAs (path : Bytes) : Option Nat → FileManager → Prop
  | some size, manager => manager = FileManager.initFileInfo ⟨.READ, some (path, 0), 0, 0, 0⟩ size
  | none, manager => manager.m_file_size = 0

/-- A file is opened and its size is found. -/
theorem openRead_measures {path : Bytes} (holds' : Bytes → Entry → Prop)
    (working : Working c spent holds s g)
    (unknown : ∀ entry, holds s.m_username entry → entry.deeds.size = none ∧ holds' s.m_username entry)
    (keeps : ∀ answer entry, c.Formed s.m_username entry → holds s.m_username entry →
      c.Formed s.m_username (entry.act (.seek_end path) answer) ∧
        holds' s.m_username (entry.act (.seek_end path) answer)) :
    (FileManager.openRead path).wp c.monitor (fun manager s' g' => s' = s ∧
      (g.Present → g'.Present) ∧ ∃ found, OpenedAs path found manager ∧
        Working c spent (fun user entry => holds' user entry ∧ entry.deeds.size = found) s g') s g := by
  have look : c.Unlisted (.file (.ifstream_open path)) := unlisted_look fun _ _ => rfl
  refine wp_unlisted (.invoke look) working.resting.good fun opened _ => ?_
  refine wp_ite.mpr ⟨fun _ => ?_, fun _ => (wp_pure _).mpr ⟨rfl, id, none, rfl,
    working.mono fun entry _ held => (unknown entry held).symm⟩⟩
  refine wp_file (fun found user entry => holds' user entry ∧ entry.deeds.size = found)
    working ?_ ?_
  · intro found entry formed held
    obtain ⟨formed, still⟩ := keeps found entry formed held
    exact ⟨formed, still, rfl⟩
  · intro found g' present working
    cases found with
    | none => exact (wp_pure _).mpr ⟨rfl, present, none, rfl, working⟩
    | some size => exact (wp_pure _).mpr ⟨rfl, present, some size, rfl, working⟩

end Dialogue
end CloudStorage
