import CloudStorage.Interaction.Records
import CloudStorage.Session.Cargo
import CloudStorage.Session.Sample

/-! The chunk loops of uploads and downloads between two parties in one session: both come
to their end, in as many rounds, and what is written is what was read. Counters may wrap
between two rounds. -/
namespace CloudStorage
open Interaction Code Method
open Loose (Habit Bench Entry loose)

abbrev Trace := List (Event Op Op.Ans)

/-- The size that a loop has reckoned for a chunk, and the chunk. -/
structure Round where
  size : Nat
  chunk : Bytes

section Messages
variable {s t : Session octets} {trace : Trace}

theorem encryptGeneric_returns {plaintext : Bytes} {message : Generic}
    (run : (encryptGeneric plaintext).Returns s trace (some message) t) :
    t = s ∧ ∃ box, message = ⟨Generic.aad s.m_counter, box⟩ ∧
      trace = [⟨.ssl (.encrypt s.m_session_key (Generic.aad s.m_counter) plaintext), some box⟩] := by
  rcases returns_ite.mp run with ⟨-, long⟩ | ⟨-, next⟩
  · exact nomatch (returns_pure.mp long).2.1
  replace run := returns_invoke_bind.mp (returns_get_bind.mp next)
  obtain ⟨answer, rest, rfl, run⟩ := run
  cases answer with
  | none => exact nomatch (returns_pure.mp run).2.1
  | some box =>
      obtain ⟨rfl, made, rfl⟩ := returns_pure.mp run
      exact ⟨rfl, box, Option.some.inj made, rfl⟩

theorem sendGeneric_returns {plaintext : Bytes}
    (run : (sendGeneric plaintext).Returns s trace none t) :
    t = s ∧ ∃ box sent, trace =
      [⟨.ssl (.encrypt s.m_session_key (Generic.aad s.m_counter) plaintext), some box⟩,
        ⟨.send (Generic.serialize ⟨Generic.aad s.m_counter, box⟩), sent⟩] := by
  replace run := returns_bind.mp run
  obtain ⟨_, message, mid, rest, rfl, first, run⟩ := run
  cases message with
  | none => exact nomatch (returns_pure.mp run).2.1
  | some message =>
  obtain ⟨rfl, box, rfl, rfl⟩ := encryptGeneric_returns first
  replace run := returns_invoke_bind.mp run
  obtain ⟨sent, rest, rfl, run⟩ := run
  rcases returns_ite.mp run with ⟨-, failed⟩ | ⟨-, done_⟩
  · exact nomatch (returns_pure.mp failed).2.1
  · obtain ⟨rfl, -, rfl⟩ := returns_pure.mp done_
    exact ⟨rfl, box, sent, rfl⟩

/-- What a message that is accepted leaves in the trace. -/
def opened (s : Session octets) (size : Nat) (result : Int) (buffer plaintext : Bytes) : Trace :=
  let frame := Generic.deserialize buffer size
  [⟨.receive (Generic.getMessageSize size), (result, buffer)⟩,
    ⟨.ssl (.decrypt s.m_session_key frame.m_aad frame.m_sealed), some plaintext⟩,
    ⟨.note (.checked s.m_counter frame.getCounter), ()⟩,
    ⟨.note (.accepted s.m_session_key frame plaintext), ()⟩]

theorem receiveGeneric_returns {size : Nat} {plaintext : Bytes}
    (run : (receiveGeneric size).Returns s trace (.ok plaintext) t) :
    t = s ∧ ∃ result buffer, trace = opened s size result buffer plaintext := by
  replace run := returns_invoke_bind.mp run
  obtain ⟨⟨result, buffer⟩, rest, rfl, run⟩ := run
  rcases returns_ite.mp run with ⟨-, failed⟩ | ⟨-, next⟩
  · exact nomatch (returns_pure.mp failed).2.1
  replace run := returns_invoke_bind.mp (returns_get_bind.mp next)
  obtain ⟨answer, rest, rfl, run⟩ := run
  cases answer with
  | none => exact nomatch (returns_pure.mp run).2.1
  | some content =>
  replace run := returns_invoke_bind.mp run
  obtain ⟨_, rest, rfl, run⟩ := run
  rcases returns_ite.mp run with ⟨-, failed⟩ | ⟨-, next⟩
  · exact nomatch (returns_pure.mp failed).2.1
  replace run := returns_invoke_bind.mp next
  obtain ⟨_, rest, rfl, run⟩ := run
  obtain ⟨rfl, same, rfl⟩ := returns_pure.mp run
  obtain rfl := Except.ok.inj same
  exact ⟨rfl, result, buffer, rfl⟩

/-- What goes on after a send has sent. -/
theorem sent_then {f : Option Nat → Method (Option Nat)} {plaintext : Bytes}
    (run : (sendGeneric plaintext >>= f).Returns s trace none t)
    (fails : ∀ code, f (some code) = pure (some code)) :
    ∃ box sent rest, trace =
        ⟨.ssl (.encrypt s.m_session_key (Generic.aad s.m_counter) plaintext), some box⟩ ::
          ⟨.send (Generic.serialize ⟨Generic.aad s.m_counter, box⟩), sent⟩ :: rest ∧
      (f none).Returns s rest none t := by
  replace run := returns_bind.mp run
  obtain ⟨_, failure, mid, rest, rfl, first, run⟩ := run
  cases failure with
  | some code =>
      rw [fails] at run
      cases (returns_pure.mp run).2.1
  | none =>
      obtain ⟨rfl, box, sent, rfl⟩ := sendGeneric_returns first
      exact ⟨box, sent, rest, rfl, run⟩

/-- What goes on after a receive has opened a message. -/
theorem opened_then {f : Except Return Bytes → Method (Option Nat)} {size : Nat}
    (run : (receiveGeneric size >>= f).Returns s trace none t)
    (fails : ∀ code, f (.error code) = pure (some code.val)) :
    ∃ result buffer plaintext rest, trace = opened s size result buffer plaintext ++ rest ∧
      (f (.ok plaintext)).Returns s rest none t := by
  replace run := returns_bind.mp run
  obtain ⟨_, outcome, mid, rest, rfl, first, run⟩ := run
  cases outcome with
  | error code =>
      rw [fails] at run
      cases (returns_pure.mp run).2.1
  | ok plaintext =>
      obtain ⟨rfl, result, buffer, rfl⟩ := receiveGeneric_returns first
      exact ⟨result, buffer, plaintext, rest, rfl, run⟩

end Messages

/-- A finished sending loop: in every round a chunk of the file is read and sealed, a frame
of the reckoned length is sent and the counter goes up, by a new authentication if need be. -/
inductive Sending (increment : Method Unit) (code : UInt8) (path : Bytes) :
    Nat → List Round → Session octets → Trace → Session octets → Prop where
  | finished {position s} : Sending increment code path position [] s [] s
  | round {position size rounds s between t onward u} (chunk : Bytes) (box : SealedBytes)
      (sent : Int) :
      (Generic.serialize ⟨Generic.aad s.m_counter, box⟩).length =
        Generic.getMessageSize (1 + size) →
      increment.Returns s between () t →
      Sending increment code path (position + size) rounds t onward u →
      Sending increment code path position (⟨size, chunk⟩ :: rounds) s
        (⟨.file (.read path position size), chunk⟩ ::
          ⟨.ssl (.encrypt s.m_session_key (Generic.aad s.m_counter)
            (Block.serialize ⟨code, chunk⟩)), some box⟩ ::
          ⟨.send (Generic.serialize ⟨Generic.aad s.m_counter, box⟩), sent⟩ ::
          (between ++ onward)) u

/-- A finished receiving loop: in every round a frame of the reckoned length is awaited,
arrives and is opened, the counter goes up and the chunk in it is written. -/
inductive Receiving (increment : Method Unit) (path : Bytes) :
    List Round → Session octets → Trace → Session octets → Prop where
  | finished {s} : Receiving increment path [] s [] s
  | round {size rounds s between t onward u} (buffer plaintext : Bytes) :
      buffer.length = Generic.getMessageSize (1 + size) →
      increment.Returns s between () t → Receiving increment path rounds t onward u →
      Receiving increment path (⟨size, (Block.deserialize plaintext size).m_content⟩ :: rounds) s
        (opened s (1 + size) 0 buffer plaintext ++ (between ++
          ⟨.file (.write path (Block.deserialize plaintext size).m_content), ()⟩ :: onward)) u

section Plan
open Lockstep Loose

theorem sizes_sum (last left : Nat) : (sizes last left).sum = remaining last left := by
  induction left with
  | zero => rfl
  | succ left ih => rw [sizes, List.sum_cons, ih, remaining_succ]

theorem sizes_bounds {last left : Nat} (positive : 1 ≤ last) (short : last ≤ Config.CHUNK_SIZE) :
    ∀ size ∈ sizes last left, 1 ≤ size ∧ size ≤ Config.CHUNK_SIZE := by
  induction left with
  | zero => exact fun _ member => nomatch member
  | succ left ih =>
      intro size member
      rw [sizes, List.mem_cons] at member
      rcases member with rfl | later
      · constructor
        · unfold chunkSize
          split
          · exact positive
          · decide
        · exact chunkSize_le short left
      · exact ih size later

theorem lastChunk_positive (manager : FileManager) (size : Nat) :
    1 ≤ (manager.initFileInfo size).m_last_chunk_size := by
  simp only [FileManager.initFileInfo]
  split
  · omega
  · decide

/-- The bytes of a content from a position on, in pieces of these sizes. -/
def slices (content : Bytes) : Nat → List Nat → List Bytes
  | _, [] => []
  | position, size :: counts =>
      (content.drop position).take size :: slices content (position + size) counts

theorem slices_flatten (content : Bytes) (position : Nat) (counts : List Nat) :
    (slices content position counts).flatten = (content.drop position).take counts.sum := by
  induction counts generalizing position with
  | nil => rfl
  | cons size counts ih =>
      rw [slices, List.flatten_cons, ih, List.sum_cons, List.take_add, List.drop_drop]

theorem slice_length {content : Bytes} {position size : Nat}
    (inside : position + size ≤ content.length) :
    ((content.drop position).take size).length = size := by
  rw [List.length_take, List.length_drop]
  omega

end Plan

/-- Every read of the file finds its content there. -/
def Loose.Habit.Finds (H : Habit) (path content : Bytes) : Prop :=
  ∀ b position size answer, H.Files b (.read path position size) answer →
    answer = (content.drop position).take size

/-- Every call was answered as it may be at this end. -/
def Usual (C : Crypto) (H : Habit) (role : Role) (trace : Trace) : Prop :=
  ∀ e ∈ trace, ∃ b bytes, bytes.length = (loose C H role).takes e.op ∧
    Loose.Answers C H role b e.op bytes e.answer

section Files
variable {s t : Session octets} {trace : Trace} {C : Crypto} {H : Habit} {role : Role}

theorem Usual.of_append (first : Trace) {rest : Trace} (usual : Usual C H role (first ++ rest)) :
    Usual C H role rest := fun e member => usual e (List.mem_append_right _ member)

theorem Usual.sealed {key aad plaintext : Bytes} {box : SealedBytes}
    (usual : Usual C H role trace)
    (member : ⟨.ssl (.encrypt key aad plaintext), some box⟩ ∈ trace) :
    C.Seals key aad plaintext box := by
  obtain ⟨_, _, -, other, same, seals⟩ := usual _ member
  obtain rfl := Option.some.inj same
  exact seals

theorem Usual.received {size : Nat} {result : Int} {buffer : Bytes}
    (usual : Usual C H role trace) (member : ⟨.receive size, (result, buffer)⟩ ∈ trace) :
    result = 0 ∧ buffer.length = size := by
  obtain ⟨_, _, whole, arrives⟩ := usual _ member
  obtain ⟨rfl, rfl⟩ := Prod.mk.inj arrives
  exact ⟨rfl, whole⟩

theorem Usual.found {path content piece : Bytes} {position size : Nat}
    (finds : H.Finds path content) (usual : Usual C H role trace)
    (member : ⟨.file (.read path position size), piece⟩ ∈ trace) :
    piece = (content.drop position).take size := by
  obtain ⟨b, _, -, answers⟩ := usual _ member
  exact finds b position size piece answers

/-- A sealed plaintext makes a frame of the length that belongs to it. -/
theorem frame_length {key plaintext : Bytes} {counter : UInt32} {box : SealedBytes}
    (seals : C.Seals key (Generic.aad counter) plaintext box) :
    (Generic.serialize ⟨Generic.aad counter, box⟩).length =
      Generic.getMessageSize plaintext.length := by
  have formed : Generic.WellFormed ⟨Generic.aad counter, box⟩ :=
    ⟨seals.iv, networkBytes_length counter, seals.tag⟩
  exact formed.serialize_length.trans (congrArg _ seals.ciphertext)

/-- A manager that reads from a position of a file. -/
structure FileManager.At (manager : FileManager) (path : Bytes) (position : Nat) : Prop where
  mode : manager.m_open_mode = .READ
  stream : manager.m_stream = some (path, position)

theorem readChunk_returns {manager : FileManager} {path buffer : Bytes} {position size : Nat}
    {result : FileManager × Bytes × Int} (at_ : manager.At path position)
    (run : (manager.readChunk buffer size).Returns s trace result t) :
    ∃ piece : Bytes, trace = [⟨.file (.read path position size), piece⟩] ∧ t = s ∧
      result.2 = (piece ++ buffer.drop piece.length, 0) ∧
      result.1.m_last_chunk_size = manager.m_last_chunk_size ∧
      (piece.length = size → result.1.At path (position + size)) := by
  rw [FileManager.readChunk, if_neg (not_not.mpr at_.mode), at_.stream] at run
  replace run := returns_invoke_bind.mp run
  obtain ⟨piece, rest, rfl, run⟩ := run
  obtain ⟨rfl, rfl, rfl⟩ := returns_pure.mp run
  refine ⟨piece, rfl, rfl, rfl, rfl, fun whole => ⟨at_.mode, ?_⟩⟩
  exact if_neg (Nat.not_lt.mpr (Nat.le_of_eq whole.symm))

/-- What goes on after a chunk is written. -/
theorem written_then {manager : FileManager} {path chunk : Bytes} {position : Nat}
    {failure : Option Nat} {onward : Method (Option Nat)} (mode : manager.m_open_mode = .WRITE)
    (stream : manager.m_stream = some (path, position))
    (run : (manager.writeChunk chunk >>= fun result =>
      if result = -1 then pure failure else onward).Returns s trace none t) :
    ∃ rest, trace = ⟨.file (.write path chunk), ()⟩ :: rest ∧ onward.Returns s rest none t := by
  replace run := returns_bind.mp run
  obtain ⟨_, result, mid, rest, rfl, first, run⟩ := run
  rw [FileManager.writeChunk, if_neg (not_not.mpr mode), stream] at first
  replace first := returns_invoke_bind.mp first
  obtain ⟨_, last, rfl, first⟩ := first
  obtain ⟨rfl, rfl, rfl⟩ := returns_pure.mp first
  rw [if_neg (by decide)] at run
  exact ⟨rest, rfl, run⟩

/-- What a buffer holds after a whole read. -/
theorem taken_eq {piece buffer : Bytes} {size : Nat} (whole : piece.length = size) :
    (piece ++ buffer.drop piece.length).take size = piece := by
  rw [List.take_left' whole]

/-- What a finished sending loop has sent of a file that was read as it is. -/
structure Sent (increment : Method Unit) (code : UInt8) (path content : Bytes)
    (position : Nat) (counts : List Nat) (s : Session octets) (trace : Trace)
    (t : Session octets) (rounds : List Round) : Prop where
  sending : Sending increment code path position rounds s trace t
  sizes : rounds.map Round.size = counts
  chunks : rounds.map Round.chunk = slices content position counts
  lengths : ∀ round ∈ rounds, round.chunk.length = round.size

/-- One more round before it. -/
theorem Sent.cons {increment : Method Unit} {path content : Bytes} {position size : Nat}
    {counts : List Nat} {mid : Session octets} {between onward : Trace} {rounds : List Round}
    {code : UInt8} {box : SealedBytes} {sent : Int}
    (rest : Sent increment code path content (position + size) counts mid onward t rounds)
    (up : increment.Returns s between () mid) (inside : position + size ≤ content.length)
    (usual : Usual C H role (⟨.file (.read path position size), (content.drop position).take size⟩ ::
        ⟨.ssl (.encrypt s.m_session_key (Generic.aad s.m_counter)
          (Block.serialize ⟨code, (content.drop position).take size⟩)), some box⟩ ::
        ⟨.send (Generic.serialize ⟨Generic.aad s.m_counter, box⟩), sent⟩ :: (between ++ onward))) :
    Sent increment code path content position (size :: counts) s
      (⟨.file (.read path position size), (content.drop position).take size⟩ ::
        ⟨.ssl (.encrypt s.m_session_key (Generic.aad s.m_counter)
          (Block.serialize ⟨code, (content.drop position).take size⟩)), some box⟩ ::
        ⟨.send (Generic.serialize ⟨Generic.aad s.m_counter, box⟩), sent⟩ :: (between ++ onward)) t
      (⟨size, (content.drop position).take size⟩ :: rounds) := by
  have whole := slice_length inside
  have emitted := frame_length (usual.sealed (List.mem_cons_of_mem _ List.mem_cons_self))
  rw [Block.serialize_length, whole] at emitted
  constructor
  · exact .round _ box sent emitted up rest.sending
  · rw [List.map_cons, rest.sizes]
  · rw [List.map_cons, rest.chunks, slices]
  · intro round member
    rcases List.mem_cons.mp member with rfl | later
    · exact whole
    · exact rest.lengths round later

variable {host : Endian} {manager : FileManager} {path content buffer : Bytes}
  {position last left : Nat}

theorem server_sendChunks_returns (finds : H.Finds path content) (at_ : manager.At path position)
    (lastSize : manager.m_last_chunk_size = last)
    (inside : position + Lockstep.remaining last left ≤ content.length)
    (usual : Usual C H role trace)
    (run : (Server.sendChunks host manager buffer left).Returns s trace none t) :
    ∃ rounds, Sent (Server.incrementCounter host) Message.DOWNLOAD_CHUNK.byte path content
      position (Loose.sizes last left) s trace t rounds := by
  induction left generalizing manager buffer position s trace with
  | zero =>
      obtain ⟨rfl, -, rfl⟩ := returns_pure.mp run
      exact ⟨[], .finished, rfl, rfl, fun _ member => nomatch member⟩
  | succ left ih =>
      rw [Lockstep.remaining_succ] at inside
      rw [Server.sendChunks] at run
      dsimp only at run
      rw [Lockstep.chunkSize_eq, lastSize] at run
      replace run := returns_bind.mp run
      obtain ⟨_, ⟨manager', buffer', result⟩, mid, rest, rfl, first, run⟩ := run
      obtain ⟨piece, rfl, rfl, both, kept, next⟩ := readChunk_returns at_ first
      obtain ⟨rfl, rfl⟩ := Prod.mk.inj both
      have found := usual.found finds List.mem_cons_self
      rcases returns_ite.mp run with ⟨failed, -⟩ | ⟨-, continues⟩
      · exact absurd (show (0 : Int) = -1 from failed) (by decide)
      replace run := sent_then continues fun _ => rfl
      obtain ⟨box, sent, rest, rfl, run⟩ := run
      replace run := returns_bind.mp run
      obtain ⟨between, _, mid, onward, rfl, up, run⟩ := run
      rw [Loose.sizes]
      generalize Lockstep.chunkSize last left = size at *
      subst found
      have whole := slice_length (show position + size ≤ content.length by omega)
      obtain ⟨rounds, later⟩ := ih (next whole) (kept.trans lastSize) (by omega)
        (usual.of_append (_ :: _ :: _ :: between)) run
      rw [taken_eq whole] at usual ⊢
      exact ⟨_, later.cons up (by omega) usual⟩

theorem client_sendChunks_returns (finds : H.Finds path content) (at_ : manager.At path position)
    (lastSize : manager.m_last_chunk_size = last)
    (inside : position + Lockstep.remaining last left ≤ content.length)
    (usual : Usual C H role trace)
    (run : (Client.sendChunks host manager buffer left).Returns s trace none t) :
    ∃ rounds, Sent (Client.incrementCounter host) Message.UPLOAD_CHUNK.byte path content
      position (Loose.sizes last left) s trace t rounds := by
  induction left generalizing manager buffer position s trace with
  | zero =>
      obtain ⟨rfl, -, rfl⟩ := returns_pure.mp run
      exact ⟨[], .finished, rfl, rfl, fun _ member => nomatch member⟩
  | succ left ih =>
      rw [Lockstep.remaining_succ] at inside
      rw [Client.sendChunks] at run
      dsimp only at run
      rw [Lockstep.chunkSize_eq, lastSize] at run
      replace run := returns_bind.mp run
      obtain ⟨_, ⟨manager', buffer', result⟩, mid, rest, rfl, first, run⟩ := run
      obtain ⟨piece, rfl, rfl, both, kept, next⟩ := readChunk_returns at_ first
      obtain ⟨rfl, rfl⟩ := Prod.mk.inj both
      have found := usual.found finds List.mem_cons_self
      replace run := sent_then run fun _ => rfl
      obtain ⟨box, sent, rest, rfl, run⟩ := run
      replace run := returns_bind.mp run
      obtain ⟨between, _, mid, onward, rfl, up, run⟩ := run
      rw [Loose.sizes]
      generalize Lockstep.chunkSize last left = size at *
      subst found
      have whole := slice_length (show position + size ≤ content.length by omega)
      obtain ⟨rounds, later⟩ := ih (next whole) (kept.trans lastSize) (by omega)
        (usual.of_append (_ :: _ :: _ :: between)) run
      rw [taken_eq whole] at usual ⊢
      exact ⟨_, later.cons up (by omega) usual⟩

/-- The server writes every chunk it accepts. -/
theorem server_receiveChunks_returns (mode : manager.m_open_mode = .WRITE)
    (stream : manager.m_stream = some (path, position))
    (lastSize : manager.m_last_chunk_size = last) (usual : Usual C H role trace)
    (run : (Server.receiveChunks host manager left).Returns s trace none t) :
    ∃ rounds, Receiving (Server.incrementCounter host) path rounds s trace t ∧
      rounds.map Round.size = Loose.sizes last left := by
  induction left generalizing s trace with
  | zero =>
      obtain ⟨rfl, -, rfl⟩ := returns_pure.mp run
      exact ⟨[], .finished, rfl⟩
  | succ left ih =>
      rw [Server.receiveChunks] at run
      rw [Lockstep.chunkSize_eq, lastSize] at run
      replace run := opened_then run fun _ => rfl
      obtain ⟨result, buffer, plaintext, rest, rfl, run⟩ := run
      obtain ⟨rfl, whole⟩ := usual.received List.mem_cons_self
      replace run := returns_bind.mp run
      obtain ⟨between, _, mid, rest, rfl, up, run⟩ := run
      replace run := written_then mode stream run
      obtain ⟨onward, rfl, run⟩ := run
      obtain ⟨rounds, later, sizes⟩ := ih (((usual.of_append _).of_append _).of_append [_]) run
      refine ⟨_, .round buffer plaintext whole up later, ?_⟩
      rw [List.map_cons, sizes, Loose.sizes]

/-- So does the client, of those that carry the code of a chunk. -/
theorem client_receiveChunks_returns (mode : manager.m_open_mode = .WRITE)
    (stream : manager.m_stream = some (path, position))
    (lastSize : manager.m_last_chunk_size = last) (usual : Usual C H role trace)
    (run : (Client.receiveChunks host manager left).Returns s trace none t) :
    ∃ rounds, Receiving (Client.incrementCounter host) path rounds s trace t ∧
      rounds.map Round.size = Loose.sizes last left := by
  induction left generalizing s trace with
  | zero =>
      obtain ⟨rfl, -, rfl⟩ := returns_pure.mp run
      exact ⟨[], .finished, rfl⟩
  | succ left ih =>
      rw [Client.receiveChunks] at run
      rw [Lockstep.chunkSize_eq, lastSize] at run
      replace run := opened_then run fun _ => rfl
      obtain ⟨result, buffer, plaintext, rest, rfl, run⟩ := run
      obtain ⟨rfl, whole⟩ := usual.received List.mem_cons_self
      replace run := returns_bind.mp run
      obtain ⟨between, _, mid, rest, rfl, up, run⟩ := run
      rcases returns_ite.mp run with ⟨-, failed⟩ | ⟨-, continues⟩
      · cases (returns_pure.mp failed).2.1
      replace run := written_then mode stream continues
      obtain ⟨onward, rfl, run⟩ := run
      obtain ⟨rounds, later, sizes⟩ := ih (((usual.of_append _).of_append _).of_append [_]) run
      refine ⟨_, .round buffer plaintext whole up later, ?_⟩
      rw [List.map_cons, sizes, Loose.sizes]

end Files

/-- The file calls of a trace. -/
def filed (trace : Trace) : List (Event FileCall FileCall.Ans) :=
  trace.filterMap fun
    | ⟨.file call, answer⟩ => some ⟨call, answer⟩
    | _ => none

def Loose.Entry.event (entry : Entry) : Event FileCall FileCall.Ans := ⟨entry.call, entry.answer⟩

section Diaries
open Loose

theorem mem_filed {call : FileCall} {answer : call.Ans} {trace : Trace}
    (member : ⟨call, answer⟩ ∈ filed trace) : ⟨.file call, answer⟩ ∈ trace := by
  obtain ⟨⟨op, reply⟩, within, same⟩ := List.mem_filterMap.mp member
  cases op with
  | file other =>
      obtain ⟨rfl, same⟩ := Event.mk.inj (Option.some.inj same)
      obtain rfl := eq_of_heq same
      exact within
  | _ => exact nomatch same

theorem filed_free {trace : Trace} (free : ∀ e ∈ trace, FileFree e.op) : filed trace = [] := by
  refine List.filterMap_eq_nil_iff.mpr fun e member => ?_
  obtain ⟨op, answer⟩ := e
  cases op with
  | file call => exact (free _ member).elim
  | _ => rfl

/-- A diary holds the file calls, in their order. -/
theorem diary_filed (b : Bench) (trace : Trace) :
    (trace.foldl (fun world e => Bench.next world e.op e.answer) b).diary.map Entry.event =
      b.diary.map Entry.event ++ filed trace := by
  induction trace generalizing b with
  | nil => exact (List.append_nil _).symm
  | cons e trace ih =>
      obtain ⟨op, answer⟩ := e
      rw [List.foldl_cons, ih]
      cases op with
      | file call =>
          simp only [Bench.next, Bench.filed, Bench.wrote, List.map_append, List.append_assoc]
          rfl
      | note remark =>
          cases remark with
          | _ => rfl
      | _ => rfl

/-- What a receiving loop does to files. -/
theorem Receiving.filed {increment : Method Unit} {path : Bytes} {rounds : List Round}
    {s t : Session octets} {trace : Trace} (free : increment.Confined FileFree)
    (receives : Receiving increment path rounds s trace t) :
    filed trace = rounds.map fun round => ⟨.write path round.chunk, ()⟩ := by
  induction receives with
  | finished => rfl
  | @round size rounds s between t onward u buffer plaintext _ up _ ih =>
      have between_ : CloudStorage.filed between = [] := filed_free (free.calls up)
      change CloudStorage.filed (between ++ _) = _
      rw [CloudStorage.filed, List.filterMap_append]
      change CloudStorage.filed between ++ _ :: CloudStorage.filed onward = _
      rw [between_, ih]
      rfl

/-- Of a file that is read as it is, slices are sent. -/
theorem Loose.Sends.slices {scene : Scene} {manager : FileManager} {buffer : Bytes}
    {counts : List Nat} {reads : List Entry} {chunks : List Bytes}
    (sends : Sends scene manager buffer counts reads chunks) {path content : Bytes}
    {position : Nat} (at_ : manager.At path position)
    (inside : position + counts.sum ≤ content.length)
    (found : ∀ (position size : Nat) (piece : Bytes),
      ⟨.read path position size, piece⟩ ∈ reads.map Entry.event →
        piece = (content.drop position).take size) :
    chunks = slices content position counts := by
  induction sends generalizing position with
  | nil => rfl
  | @cons _ _ _ _ _ _ count _ _ _ _ _ read _ ih =>
      rw [List.sum_cons] at inside
      cases read with
      | failed closed => exact nomatch at_.stream.symm.trans closed
      | read path' position' piece stream =>
          obtain ⟨rfl, rfl⟩ := Prod.mk.inj (Option.some.inj (at_.stream.symm.trans stream))
          obtain rfl := found _ _ piece List.mem_cons_self
          have whole := slice_length (show position + count ≤ content.length by omega)
          rw [CloudStorage.slices, taken_eq whole]
          congr 1
          refine ih ⟨at_.mode, ?_⟩ (by omega) fun position size piece member => ?_
          · exact if_neg (Nat.not_lt.mpr (Nat.le_of_eq whole.symm))
          · exact found position size piece (List.mem_cons_of_mem _ member)

theorem Loose.Writes.events {path : Bytes} {position : Nat} {writes : List Entry}
    {chunks : List Bytes} (puts : Writes (some (path, position)) writes chunks) :
    writes.map Entry.event = chunks.map fun chunk => ⟨.write path chunk, ()⟩ := by
  induction puts with
  | nil => rfl
  | cons scene _ ih =>
      rw [List.map_append, ih]
      rfl

/-- What is new in a diary after a trace. -/
theorem filed_since {b after : Bench} {trace : Trace} {entries : List Entry}
    (seen : after = trace.foldl (fun world e => Bench.next world e.op e.answer) b)
    (diary : after.diary = b.diary ++ entries) : entries.map Entry.event = CloudStorage.filed trace := by
  have whole := diary_filed b trace
  rw [← seen, diary, List.map_append] at whole
  exact List.append_cancel_left whole

end Diaries

/-- The manager of a file that is read from its start, and that of a new file. -/
def reading (path : Bytes) (size : Nat) : FileManager :=
  FileManager.initFileInfo ⟨.READ, some (path, 0), 0, 0, 0⟩ size

def writing (path : Bytes) (size : Nat) : FileManager :=
  FileManager.initFileInfo ⟨.WRITE, some (path, 0), 0, 0, 0⟩ size

/-- The sizes into which both cut a file. -/
def cut (size : Nat) : List Nat :=
  Loose.sizes (reading [] size).m_last_chunk_size (reading [] size).m_chunks_num

theorem cut_sum (size : Nat) : (cut size).sum = size := by
  obtain ⟨whole, -⟩ := Lockstep.remaining_initFileInfo ⟨.READ, some ([], 0), 0, 0, 0⟩ size
  exact (sizes_sum _ _).trans whole

/-- Rounds that carry a content: each of at most a chunk and none of nothing. -/
structure Carry (content : Bytes) (rounds : List Round) : Prop where
  sizes : rounds.map Round.size = cut content.length
  bounds : ∀ round ∈ rounds, 1 ≤ round.size ∧ round.size ≤ Config.CHUNK_SIZE ∧
    round.chunk.length = round.size
  total : (rounds.map Round.size).sum = content.length
  whole : (rounds.map Round.chunk).flatten = content

section Rounds
variable {increment increment' : Method Unit} {code : UInt8} {path target content : Bytes}
  {s t s' t' : Session octets} {l r : Trace} {rounds received : List Round}

theorem Sent.carry (sent : Sent increment code path content 0 (cut content.length) s l t rounds) :
    Carry content rounds := by
  constructor
  · exact sent.sizes
  · intro round member
    have planned : round.size ∈ cut content.length := sent.sizes ▸ List.mem_map_of_mem member
    obtain ⟨-, short⟩ := Lockstep.remaining_initFileInfo ⟨.READ, some ([], 0), 0, 0, 0⟩
      content.length
    obtain ⟨low, high⟩ := sizes_bounds (lastChunk_positive _ _) short _ planned
    exact ⟨low, high, sent.lengths round member⟩
  · rw [sent.sizes, cut_sum]
  · rw [sent.chunks, slices_flatten, cut_sum, List.drop_zero, List.take_length]

theorem rounds_ext {first second : List Round} (sizes : first.map Round.size = second.map Round.size)
    (chunks : first.map Round.chunk = second.map Round.chunk) : first = second := by
  induction first generalizing second with
  | nil =>
      cases second with
      | nil => rfl
      | cons round rounds => exact nomatch sizes
  | cons round rounds ih =>
      cases second with
      | nil => exact nomatch sizes
      | cons other others =>
          simp only [List.map_cons, List.cons.injEq] at sizes chunks
          obtain ⟨size, sizes⟩ := sizes
          obtain ⟨chunk, chunks⟩ := chunks
          rw [ih sizes chunks, show round = other from by
            cases round
            cases other
            simp_all only]

/-- What the diaries of both sides say of a transfer: what is written has been read. -/
def Copied (path target : Bytes) (size : Nat) (reads writes : List Entry) : Prop :=
  ∃ scene buffer chunks, Loose.Sends scene (reading path size) buffer (cut size) reads chunks ∧
    Loose.Writes (some (target, 0)) writes chunks

/-- Then it is received in the rounds in which it is sent. -/
theorem Sent.same {C : Crypto} {H : Habit} {role : Role} {reads writes : List Entry}
    (sent : Sent increment code path content 0 (cut content.length) s l t rounds)
    (receives : Receiving increment' target received s' r t')
    (sizes : received.map Round.size = cut content.length)
    (free : increment'.Confined FileFree) (finds : H.Finds path content)
    (usual : Usual C H role l) (copied : Copied path target content.length reads writes)
    (read : reads.map Entry.event = filed l) (wrote : writes.map Entry.event = filed r) :
    received = rounds := by
  obtain ⟨scene, buffer, chunks, sends, puts⟩ := copied
  refine rounds_ext (sizes.trans sent.sizes.symm) ?_
  have passed : chunks = slices content 0 (cut content.length) := by
    refine sends.slices ⟨rfl, rfl⟩ ?_ fun position size piece member => ?_
    · rw [cut_sum, Nat.zero_add]
    · exact usual.found finds (mem_filed (read ▸ member))
  have stored := puts.events.symm.trans (wrote.trans (receives.filed free))
  have same := congrArg (List.map fun e : Event FileCall FileCall.Ans =>
    match e with
    | ⟨.write _ chunk, _⟩ => chunk
    | _ => []) stored
  rw [List.map_map, List.map_map] at same
  have written : received.map Round.chunk = chunks := by
    simpa only [Function.comp_def, List.map_id'] using same.symm
  rw [written, passed, sent.chunks]

end Rounds

/-- Two loops of a transfer, each in a session of its own program. -/
abbrev Transfer (C : Crypto) (H J : Habit) :=
  Loose.Pair C H J (Except Thrown (Option Nat) × Session octets)
    (Except Thrown (Option Nat) × Session octets)

/-- Before their first calls. Both sides know the size of the file. -/
def uploading (C : Crypto) (H J : Habit) (host : Endian) (s : Session octets)
    (path target : Bytes) (size : Nat) (buffer : Bytes) (b b' : Bench) : Transfer C H J :=
  ⟨Client.sendChunks host (reading path size) buffer (reading path size).m_chunks_num s,
    Server.receiveChunks host (writing target size) (writing target size).m_chunks_num s,
    b, b', [], []⟩

def downloading (C : Crypto) (H J : Habit) (host : Endian) (s : Session octets)
    (path target : Bytes) (size : Nat) (buffer : Bytes) (b b' : Bench) : Transfer C H J :=
  ⟨Client.receiveChunks host (writing target size) (writing target size).m_chunks_num s,
    Server.sendChunks host (reading path size) buffer (reading path size).m_chunks_num s,
    b, b', [], []⟩

section Transfers
variable {C : Crypto} {H J : Habit} {host : Endian} {s : Session octets}
  {path target content buffer : Bytes} {b b' : Bench} {size : Nat}

/-- Both loops have returned without a failure, in one session, and nothing is in flight. -/
structure Finished (c : Transfer C H J) (t : Session octets) : Prop where
  left : c.left = .done (.ok none, t)
  right : c.right = .done (.ok none, t)
  toLeft : c.toLeft = []
  toRight : c.toRight = []

/-- A transfer of a content from one loop to the other. Every run of both goes on to an end,
and where it ends both have finished after the same rounds, which carry the content. -/
def Lossless (content : Bytes) (start : Transfer C H J)
    (left right : List Round → Trace → Session octets → Prop) : Prop :=
  ∀ l r c, Link.Records start l r c →
    (∃ d l' r', Link.Records c l' r' d ∧ ¬Link.CanLeft d ∧ ¬Link.CanRight d) ∧
    (¬Link.CanLeft c → ¬Link.CanRight c → ∃ rounds t, Finished c t ∧ left rounds l t ∧
      right rounds r t ∧ Carry content rounds)

theorem Lossless.of_good {ends : Transfer C H J → Prop} {start : Transfer C H J}
    {left right : List Round → Trace → Session octets → Prop}
    (good : Link.Good (Loose.pact ends) start)
    (ended : ∀ l r c, Link.Records start l r c → ends c → ∃ rounds t, Finished c t ∧
      left rounds l t ∧ right rounds r t ∧ Carry content rounds) :
    Lossless content start left right := by
  intro l r c run
  constructor
  · obtain ⟨d, l', r', onward, stuck, stuck', -⟩ := good.completes run
    exact ⟨d, l', r', onward, stuck, stuck'⟩
  · intro stuck stuck'
    exact ended l r c run ((good.reaches run.reaches).ends stuck stuck')

/-- Some run ends. -/
theorem Lossless.run {start : Transfer C H J}
    {left right : List Round → Trace → Session octets → Prop}
    (lossless : Lossless content start left right) :
    ∃ l r c rounds t, Link.Records start l r c ∧ Finished c t ∧ left rounds l t ∧
      right rounds r t ∧ Carry content rounds := by
  obtain ⟨⟨c, l, r, run, stuck, stuck'⟩, -⟩ := lossless [] [] start (.refl start)
  obtain ⟨rounds, t, ended⟩ := (lossless l r c run).2 stuck stuck'
  exact ⟨l, r, c, rounds, t, run, ended⟩

/-- What one diary has gained has been read, what the other has gained written of it. -/
def Handed (path target : Bytes) (size : Nat) (read read' wrote wrote' : List Entry) : Prop :=
  ∃ reads writes, Copied path target size reads writes ∧ read' = read ++ reads ∧
    wrote' = wrote ++ writes

theorem stopped {ends : Transfer C H J → Prop} {t : Session octets} {after after' : Bench}
    (ends_ : ends ⟨.done (.ok none, t), .done (.ok none, t), after, after', [], []⟩) :
    Loose.At ends (.done (.ok none, t)) (.done (.ok none, t)) after after' := by
  refine .stop trivial trivial ?_ ?_ (fun resting => resting.elim) ends_
  · rintro ⟨_, _, ⟨⟩, -⟩
  · rintro ⟨_, _, ⟨⟩, -⟩

theorem uploading_good (registered : J.keyFile = .key ())
    (name : FileManager.isStringValid s.m_username = true)
    (wide : Config.CHUNK_SIZE ≤ buffer.length) :
    Link.Good (Loose.pact fun c => (∃ t, Finished c t) ∧
      Handed path target size b.diary c.here.diary b'.diary c.there.diary)
      (uploading C H J host s path target size buffer b b') := by
  obtain ⟨username, m_counter, key⟩ := s
  obtain ⟨-, short⟩ := Lockstep.remaining_initFileInfo ⟨.READ, some (path, 0), 0, 0, 0⟩ size
  have ahead : Loose.At (fun c : Transfer C H J => (∃ t, Finished c t) ∧
      Handed path target size b.diary c.here.diary b'.diary c.there.diary)
      (((Client.sendChunks host (reading path size) buffer (reading path size).m_chunks_num
        >>= pure) ⟨username, m_counter, key⟩).bind .done)
      (((Server.receiveChunks host (writing target size) (writing target size).m_chunks_num
        >>= pure) ⟨username, m_counter, key⟩).bind .done) b b' := by
    refine Loose.upload_chunks registered name rfl rfl rfl rfl short wide ?_
    intro reads writes chunks sends puts after after' diary diary' m_counter key
    refine stopped ⟨⟨_, rfl, rfl, rfl, rfl⟩, reads, writes, ?_, diary, diary'⟩
    exact ⟨_, buffer, chunks, sends, puts⟩
  rwa [Code.bind_pure, Code.bind_pure, Program.bind_done, Program.bind_done] at ahead

theorem downloading_good (registered : J.keyFile = .key ())
    (name : FileManager.isStringValid s.m_username = true)
    (wide : Config.CHUNK_SIZE ≤ buffer.length) :
    Link.Good (Loose.pact fun c => (∃ t, Finished c t) ∧
      Handed path target size b'.diary c.there.diary b.diary c.here.diary)
      (downloading C H J host s path target size buffer b b') := by
  obtain ⟨username, m_counter, key⟩ := s
  obtain ⟨-, short⟩ := Lockstep.remaining_initFileInfo ⟨.READ, some (path, 0), 0, 0, 0⟩ size
  have ahead : Loose.At (fun c : Transfer C H J => (∃ t, Finished c t) ∧
      Handed path target size b'.diary c.there.diary b.diary c.here.diary)
      (((Client.receiveChunks host (writing target size) (writing target size).m_chunks_num
        >>= pure) ⟨username, m_counter, key⟩).bind .done)
      (((Server.sendChunks host (reading path size) buffer (reading path size).m_chunks_num
        >>= pure) ⟨username, m_counter, key⟩).bind .done) b b' := by
    refine Loose.download_chunks registered name rfl rfl rfl rfl short wide ?_
    intro reads writes chunks sends puts after after' diary diary' m_counter key
    refine stopped ⟨⟨_, rfl, rfl, rfl, rfl⟩, reads, writes, ?_, diary', diary⟩
    exact ⟨_, buffer, chunks, sends, puts⟩
  rwa [Code.bind_pure, Code.bind_pure, Program.bind_done, Program.bind_done] at ahead

end Transfers

/-- Whatever the file is that one side reads, and wherever the counter of the session
stands: uploads and downloads come to their end and carry it over. -/
theorem chunked_transfer_lossless (C : Crypto) (H J : Habit) (host : Endian)
    (s : Session octets) (path target content buffer : Bytes) (b b' : Bench)
    (registered : J.keyFile = .key ()) (name : FileManager.isStringValid s.m_username = true)
    (wide : Config.CHUNK_SIZE ≤ buffer.length) :
    (H.Finds path content →
      Lossless content (uploading C H J host s path target content.length buffer b b')
        (Sending (Client.incrementCounter host) Message.UPLOAD_CHUNK.byte path 0 · s · ·)
        (Receiving (Server.incrementCounter host) target · s · ·)) ∧
    (J.Finds path content →
      Lossless content (downloading C H J host s path target content.length buffer b b')
        (Receiving (Client.incrementCounter host) target · s · ·)
        (Sending (Server.incrementCounter host) Message.DOWNLOAD_CHUNK.byte path 0 · s · ·)) := by
  have inside : 0 + Lockstep.remaining (reading path content.length).m_last_chunk_size
      (reading path content.length).m_chunks_num ≤ content.length := by
    obtain ⟨whole, -⟩ := Lockstep.remaining_initFileInfo ⟨.READ, some (path, 0), 0, 0, 0⟩
      content.length
    exact Nat.le_of_eq ((Nat.zero_add _).trans whole)
  constructor
  · intro finds
    refine .of_good (uploading_good registered name wide) fun l r c run ended => ?_
    obtain ⟨⟨t, finished⟩, reads, writes, copied, diary, diary'⟩ := ended
    have usual : Usual C H .client l := run.answered
    have usual' : Usual C J .server r := run.swap.answered
    obtain ⟨rounds, sent⟩ := client_sendChunks_returns finds ⟨rfl, rfl⟩ rfl inside usual
      (run.runs_left finished.left)
    obtain ⟨received, receiving, sizes⟩ := server_receiveChunks_returns rfl rfl rfl usual'
      (run.runs_right finished.right)
    obtain rfl := sent.same receiving sizes Server.confined_incrementCounter finds usual copied
      (filed_since run.here diary) (filed_since run.there diary')
    exact ⟨received, t, finished, sent.sending, receiving, sent.carry⟩
  · intro finds
    refine .of_good (downloading_good registered name wide) fun l r c run ended => ?_
    obtain ⟨⟨t, finished⟩, reads, writes, copied, diary, diary'⟩ := ended
    have usual : Usual C H .client l := run.answered
    have usual' : Usual C J .server r := run.swap.answered
    obtain ⟨rounds, sent⟩ := server_sendChunks_returns finds ⟨rfl, rfl⟩ rfl inside usual'
      (run.runs_right finished.right)
    obtain ⟨received, receiving, sizes⟩ := client_receiveChunks_returns rfl rfl rfl usual
      (run.runs_left finished.left)
    obtain rfl := sent.same receiving sizes Client.confined_incrementCounter finds usual' copied
      (filed_since run.there diary) (filed_since run.here diary')
    exact ⟨received, t, finished, receiving, sent.sending, sent.carry⟩

namespace Sample

/-- A machine on which every file reads as the content, whatever else its files do. -/
def shelf (content : Bytes) : Habit where
  Files _
    | .read _ position size, answer => answer = (content.drop position).take size
    | _, _ => True
  files _ call := by
    cases call with
    | read _ position size => exact ⟨_, rfl⟩
    | ifstream_open => exact ⟨true, trivial⟩
    | ofstream_open => exact ⟨true, trivial⟩
    | seek_end => exact ⟨none, trivial⟩
    | write => exact ⟨(), trivial⟩
    | exists_ => exact ⟨none, trivial⟩
    | directory_iterator => exact ⟨none, trivial⟩
    | is_regular_file => exact ⟨none, trivial⟩
    | is_symlink => exact ⟨none, trivial⟩
    | rename => exact ⟨(0 : Int), trivial⟩
    | remove => exact ⟨(0 : Int), trivial⟩
  keyFile := .key ()

/-- One byte more than a chunk. -/
def longer : Bytes := List.replicate (Config.CHUNK_SIZE + 1) 7

/-- A session whose counter wraps at the next message. -/
def worn : Session octets := ⟨ascii "luca", Config.MAX_COUNTER_VALUE, List.replicate Config.AES_KEY_LEN 1⟩

def idleBench : Bench := ⟨⟨none, []⟩, []⟩

def chunkBuffer : Bytes := List.replicate Config.CHUNK_SIZE 0

/-- In two rounds on both sides, with a new authentication after the first. -/
theorem two_chunks_transferred :
    (∃ l r c rounds t, Link.Records (uploading crypto (shelf longer) (shelf longer) .little worn
        [1] [2] longer.length chunkBuffer idleBench idleBench) l r c ∧ Finished c t ∧
      Sending (Client.incrementCounter .little) Message.UPLOAD_CHUNK.byte [1] 0 rounds worn l t ∧
      Receiving (Server.incrementCounter .little) [2] rounds worn r t ∧
      rounds.map Round.size = [1000000, 1] ∧ (rounds.map Round.chunk).flatten = longer) ∧
    (∃ l r c rounds t, Link.Records (downloading crypto (shelf longer) (shelf longer) .little worn
        [1] [2] longer.length chunkBuffer idleBench idleBench) l r c ∧ Finished c t ∧
      Receiving (Client.incrementCounter .little) [2] rounds worn l t ∧
      Sending (Server.incrementCounter .little) Message.DOWNLOAD_CHUNK.byte [1] 0 rounds worn r t ∧
      rounds.map Round.size = [1000000, 1] ∧ (rounds.map Round.chunk).flatten = longer) := by
  have length : longer.length = Config.CHUNK_SIZE + 1 := List.length_replicate
  have finds : (shelf longer).Finds [1] longer := fun _ _ _ _ answers => answers
  have both := chunked_transfer_lossless crypto (shelf longer) (shelf longer) .little worn [1] [2]
    longer chunkBuffer idleBench idleBench rfl (by decide) List.length_replicate.ge
  have sizes : cut longer.length = [1000000, 1] := by
    rw [length]
    decide
  constructor
  · obtain ⟨l, r, c, rounds, t, run, finished, sending, receiving, carry⟩ := (both.1 finds).run
    exact ⟨l, r, c, rounds, t, run, finished, sending, receiving, carry.sizes.trans sizes,
      carry.whole⟩
  · obtain ⟨l, r, c, rounds, t, run, finished, receiving, sending, carry⟩ := (both.2 finds).run
    exact ⟨l, r, c, rounds, t, run, finished, receiving, sending, carry.sizes.trans sizes,
      carry.whole⟩

end Sample
end CloudStorage
