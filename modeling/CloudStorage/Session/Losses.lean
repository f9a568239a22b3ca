import CloudStorage.Session.Cargo
import CloudStorage.Storage.Volume

/-! File systems on which opening may fail, reads may fall short and writes may arrive in
part: what the diaries of a transfer say about the file that it leaves. -/
namespace CloudStorage
open Interaction Code Method

namespace Loose

/-- What a call leaves of the files. Of a chunk only the first bytes may arrive. -/
def Entry.effect (taken : Nat) (map : FileMap) : Entry → FileMap
  | ⟨_, .ofstream_open path, answer⟩ => if answer = true then map.put path [] else map
  | ⟨_, .write path chunk, _⟩ =>
      match map path with
      | some held => map.put path (held ++ chunk.take taken)
      | none => map
  | ⟨_, .rename old_path new_path, answer⟩ =>
      match map old_path with
      | some held => if answer = (0 : Int) then map.move old_path new_path held else map
      | none => map
  | ⟨_, .remove path, answer⟩ => if answer = (0 : Int) then map.drop path else map
  | _ => map

/-- What the calls of a diary leave. `taken` tells for each of them how much arrives. -/
def replay (taken : Nat → Nat) : Nat → FileMap → List Entry → FileMap
  | _, map, [] => map
  | time, map, entry :: entries => replay taken (time + 1) (entry.effect (taken time) map) entries

/-- A file that is found exists, a size that is told is right, and what is read are bytes of
the file, though perhaps too few. -/
def Entry.Possible (map : FileMap) : Entry → Prop
  | ⟨_, .ifstream_open path, answer⟩ => answer = true → (map path).isSome = true
  | ⟨_, .seek_end path, answer⟩ =>
      ∀ file_size, answer = some file_size → (map path).map List.length = some file_size
  | ⟨_, .read path position size, answer⟩ =>
      answer <+: (((map path).getD []).drop position).take size
  | _ => True

/-- A machine with such files. -/
def faulty (taken : Nat → Nat) (map : FileMap) (keyFile : KeyFile Unit) : Habit where
  Files b call answer := Entry.Possible (replay taken 0 map b.diary) ⟨b.scene, call, answer⟩
  files b call := by
    cases call with
    | ifstream_open path => exact ⟨false, nofun⟩
    | seek_end path => exact ⟨none, nofun⟩
    | read path position size => exact ⟨[], List.nil_prefix⟩
    | write path chunk => exact ⟨(), trivial⟩
    | ofstream_open path => exact ⟨true, trivial⟩
    | exists_ path => exact ⟨none, trivial⟩
    | directory_iterator path => exact ⟨none, trivial⟩
    | is_regular_file path => exact ⟨none, trivial⟩
    | is_symlink path => exact ⟨none, trivial⟩
    | rename old_path new_path => exact ⟨(0 : Int), trivial⟩
    | remove path => exact ⟨(0 : Int), trivial⟩
  keyFile := keyFile

/-- Every call of the diary was answered as it could be when it was made. -/
def Legal (H : Habit) (diary : List Entry) : Prop :=
  ∀ before entry after, diary = before ++ entry :: after →
    H.Files ⟨entry.scene, before⟩ entry.call entry.answer

section Replay
variable {taken : Nat → Nat} {time : Nat} {map : FileMap} {entries later : List Entry}

theorem replay_append :
    replay taken time map (entries ++ later) =
      replay taken (time + entries.length) (replay taken time map entries) later := by
  induction entries generalizing time map with
  | nil => rfl
  | cons entry entries ih =>
      rw [List.cons_append, replay, replay, ih, List.length_cons, Nat.add_right_comm, Nat.add_assoc]

theorem effect_looks {entry : Entry} (looks : entry.call.Looks) {taken : Nat} :
    entry.effect taken map = map := by
  obtain ⟨scene, call, answer⟩ := entry
  cases call with
  | ofstream_open => exact looks.elim
  | write => exact looks.elim
  | rename => exact looks.elim
  | remove => exact looks.elim
  | _ => rfl

theorem replay_looks (looks : ∀ entry ∈ entries, entry.call.Looks) :
    replay taken time map entries = map := by
  induction entries generalizing time with
  | nil => rfl
  | cons entry entries ih =>
      rw [replay, effect_looks (looks entry (List.mem_cons_self ..))]
      exact ih fun other member => looks other (List.mem_cons_of_mem _ member)

end Replay

section Legal
variable {C : Crypto} {H J : Habit} {b : Bench} {α β : Type}

theorem legal_nil : Legal H [] := by
  intro before entry after parts
  exact nomatch (List.append_eq_nil_iff.mp parts.symm).2

theorem legal_snoc {diary : List Entry} {entry : Entry} (legal : Legal H diary)
    (answered : H.Files ⟨entry.scene, diary⟩ entry.call entry.answer) :
    Legal H (diary ++ [entry]) := by
  intro before other after parts
  rcases List.eq_nil_or_concat after with rfl | ⟨init, last, rfl⟩
  · obtain ⟨rfl, last⟩ := List.append_inj' parts rfl
    obtain rfl := List.singleton_inj.mp last
    exact answered
  · rw [List.concat_eq_append, ← List.cons_append, ← List.append_assoc] at parts
    exact legal before other init (List.append_inj' parts rfl).1

theorem next_legal {role : Role} {op : Op} {arrived : Bytes} {answer : op.Ans}
    (answers : Answers C H role b op arrived answer) (legal : Legal H b.diary) :
    Legal H (b.next op answer).diary := by
  cases op with
  | file call => exact legal_snoc legal answers
  | note remark =>
      cases remark with
      | _ => exact legal
  | _ => exact legal

/-- The diaries of a run are legal. -/
theorem reaches_legal {c d : Pair C H J α β} (run : Link.Reaches c d)
    (legal : Legal H c.here.diary) (legal' : Legal J c.there.diary) :
    Legal H d.here.diary ∧ Legal J d.there.diary := by
  induction run with
  | refl => exact ⟨legal, legal'⟩
  | @next c d e step _ ih =>
      cases step with
      | left step =>
          obtain ⟨op, next, answer, -, -, answers, rfl⟩ := step
          exact ih (next_legal answers legal) legal'
      | right step =>
          obtain ⟨op, next, answer, -, -, answers, moved⟩ := step
          obtain rfl : d = Link.swap _ := congrArg Link.swap moved
          exact ih legal (next_legal answers legal')

end Legal

/-- The size that a call tells. -/
def Entry.size : Entry → Option Nat
  | ⟨_, .seek_end _, answer⟩ => answer
  | _ => none

/-- What a call reads, and what its buffer has held before it if it is the first. -/
def Entry.reading : Entry → Option (Bytes × Bytes)
  | ⟨scene, .read _ _ _, answer⟩ => some (scene.memory, answer)
  | _ => none

def Entry.creates : Entry → Bool
  | ⟨_, .ofstream_open _, answer⟩ => answer
  | _ => false

/-- All of a chunk arrives. -/
def Entry.Whole (taken : Nat) : Entry → Prop
  | ⟨_, .write _ chunk, _⟩ => chunk.length ≤ taken
  | _ => True

def Whole (taken : Nat → Nat) : Nat → List Entry → Prop
  | _, [] => True
  | time, entry :: entries => entry.Whole (taken time) ∧ Whole taken (time + 1) entries

def told (entries : List Entry) : Nat := (entries.filterMap Entry.size).headD 0

def readings (entries : List Entry) : List Bytes := (entries.filterMap Entry.reading).map Prod.snd

/-- What lay in the chunk buffer before the first read. -/
def stale (entries : List Entry) : Bytes :=
  ((entries.filterMap Entry.reading).map Prod.fst).headD []

/-- What is sent of the chunk buffer: where a read falls short the old bytes stay, and there
are no reads after it. -/
def buffers : List Nat → Bytes → List Bytes → List Bytes
  | [], _, _ => []
  | count :: counts, buffer, [] => buffer.take count :: buffers counts buffer []
  | count :: counts, buffer, content :: readings =>
      (content ++ buffer.drop content.length).take count ::
        buffers counts (content ++ buffer.drop content.length) readings

theorem buffers_length (counts : List Nat) (buffer : Bytes) (readings : List Bytes) :
    (buffers counts buffer readings).flatten.length ≤ counts.sum := by
  induction counts generalizing buffer readings with
  | nil => exact Nat.le_refl _
  | cons count counts ih =>
      cases readings with
      | nil =>
          rw [buffers, List.flatten_cons, List.length_append, List.sum_cons]
          exact Nat.add_le_add (List.length_take_le ..) (ih ..)
      | cons content readings =>
          rw [buffers, List.flatten_cons, List.length_append, List.sum_cons]
          exact Nat.add_le_add (List.length_take_le ..) (ih ..)

/-- The file could be created, every chunk has arrived whole, and the chunk buffer held the
bytes of the file whenever it was sent; or else the file was there already. -/
def Delivers (taken : Nat → Nat) (map : FileMap) (path held : Bytes)
    (source target : List Entry) : Prop :=
  if target.any Entry.creates then
    Whole taken 0 target ∧
      (buffers (chunkSizes (told source).toUInt32.toNat) (stale source) (readings source)).flatten =
        held
  else map path = some held

section Sends
variable {scene : Scene} {reader : FileManager} {buffer : Bytes} {counts : List Nat}
  {reads : List Entry} {chunks : List Bytes}

/-- Nothing is read from a stream that has failed. -/
theorem Sends.failed (sends : Sends scene reader buffer counts reads chunks)
    (stream : reader.m_stream = none) : reads = [] := by
  induction sends with
  | nil => rfl
  | cons read _ ih =>
      cases read with
      | failed => exact ih stream
      | read _ _ _ found => exact nomatch stream.symm.trans found

theorem Sends.buffers (sends : Sends scene reader buffer counts reads chunks) :
    chunks = Loose.buffers counts buffer (readings reads) := by
  induction sends with
  | nil => rfl
  | cons read sends ih =>
      cases read with
      | failed stream =>
          obtain rfl := sends.failed stream
          exact congrArg _ ih
      | read path position content => exact congrArg _ ih

/-- The first read finds the buffer as it was set aside. -/
theorem Sends.stale {command : Option UInt8}
    (sends : Sends ⟨command, buffer⟩ reader buffer counts reads chunks)
    (stream : reader.m_stream ≠ none) (some_ : counts ≠ []) : Loose.stale reads = buffer := by
  cases sends with
  | nil => exact absurd rfl some_
  | cons read _ =>
      cases read with
      | failed none_ => exact absurd none_ stream
      | read path position content => rfl

theorem Sends.lengths (sends : Sends scene reader buffer counts reads chunks)
    (fits : ∀ count ∈ counts, count ≤ buffer.length) : chunks.map List.length = counts := by
  induction sends with
  | nil => rfl
  | cons read _ ih =>
      obtain ⟨-, -, -, longer⟩ := read.kept
      rw [List.map_cons, ih fun count member =>
        Nat.le_trans (fits count (List.mem_cons_of_mem _ member)) longer, List.length_take]
      have fit := Nat.le_trans (fits _ (List.mem_cons_self ..)) longer
      rw [Nat.min_eq_left fit]

end Sends

theorem sizes_sum (last left : Nat) : (sizes last left).sum = Lockstep.remaining last left := by
  induction left with
  | zero => rfl
  | succ left ih => rw [sizes, List.sum_cons, ih, Lockstep.remaining_succ]

theorem sizes_le {last left : Nat} (short : last ≤ Config.CHUNK_SIZE) :
    ∀ count ∈ sizes last left, count ≤ Config.CHUNK_SIZE := by
  induction left with
  | zero => exact fun _ => nofun
  | succ left ih =>
      intro count member
      cases List.mem_cons.mp member with
      | inl first => exact first ▸ Lockstep.chunkSize_le short left
      | inr later => exact ih count later

theorem chunkSizes_sum (file_size : Nat) : (chunkSizes file_size).sum = file_size :=
  (sizes_sum ..).trans (Lockstep.remaining_initFileInfo _ file_size).1

theorem chunkSizes_le (file_size : Nat) :
    ∀ count ∈ chunkSizes file_size, count ≤ Config.CHUNK_SIZE :=
  sizes_le (Lockstep.remaining_initFileInfo _ file_size).2

section Writes
variable {taken : Nat → Nat} {path : Bytes} {position : Nat} {writes : List Entry}
  {chunks : List Bytes}

/-- Without a stream nothing is written. -/
theorem Writes.none_ (puts : Writes none writes chunks) : writes = [] := by
  induction puts with
  | nil => rfl
  | cons _ _ ih => exact ih

/-- The file holds what has arrived of the chunks: all of them if every write was whole,
and fewer bytes otherwise. -/
theorem Writes.content (puts : Writes (some (path, position)) writes chunks) {time : Nat}
    {map : FileMap} {old : Bytes} (there : map path = some old) :
    ∃ content, replay taken time map writes path = some content ∧
      content.length ≤ old.length + chunks.flatten.length ∧
      (Whole taken time writes → content = old ++ chunks.flatten) ∧
      (content.length = old.length + chunks.flatten.length → Whole taken time writes) := by
  induction puts generalizing time map old with
  | nil =>
      refine ⟨old, there, Nat.le_refl _, fun _ => (List.append_nil _).symm, fun _ => trivial⟩
  | @cons chunk writes chunks scene _ ih =>
      have after : (Entry.effect (taken time) map ⟨scene, .write path chunk, ()⟩) path =
          some (old ++ chunk.take (taken time)) := by
        simp only [Entry.effect, there, FileMap.put_self]
      obtain ⟨content, holds, few, whole, full⟩ := ih after
      rw [List.length_append, List.length_take] at few full
      rw [List.flatten_cons, List.length_append]
      refine ⟨content, holds, by omega, ?_, ?_⟩
      · rintro ⟨first, rest⟩
        have all : chunk.length ≤ taken time := first
        rw [whole rest, List.take_of_length_le all, List.append_assoc]
      · intro same
        have all : chunk.length ≤ taken time := by omega
        exact ⟨all, full (by omega)⟩

end Writes

/-- The opening calls of a reader tell its size and read nothing. -/
theorem OpensRead.told {scene : Scene} {path : Bytes} {reader : FileManager}
    {opening reads : List Entry} (opens : OpensRead scene path reader opening)
    (sizeless : reads.filterMap Entry.size = []) :
    ((opening ++ reads).filterMap Entry.size).headD 0 = reader.m_file_size ∧
      (opening ++ reads).filterMap Entry.reading = reads.filterMap Entry.reading := by
  rw [List.filterMap_append, List.filterMap_append, sizeless, List.append_nil]
  cases opens with
  | _ => exact ⟨rfl, rfl⟩

/-- A reader without a stream has found nothing to send. -/
theorem OpensRead.stream {scene : Scene} {path : Bytes} {reader : FileManager}
    {opening : List Entry} (opens : OpensRead scene path reader opening)
    (some_ : chunkSizes reader.m_file_size.toUInt32.toNat ≠ []) : reader.m_stream ≠ none := by
  cases opens with
  | refused => exact absurd rfl some_
  | unsized => exact nofun
  | sized file_size => exact nofun

theorem Sends.sizeless {scene : Scene} {reader : FileManager} {buffer : Bytes} {counts : List Nat}
    {reads : List Entry} {chunks : List Bytes}
    (sends : Sends scene reader buffer counts reads chunks) :
    reads.filterMap Entry.size = [] := by
  induction sends with
  | nil => rfl
  | cons read _ ih =>
      cases read with
      | failed => exact ih
      | read => exact ih

theorem whole_append {taken : Nat → Nat} {time : Nat} {entries later : List Entry}
    (looks : ∀ entry ∈ entries, entry.call.Looks) :
    Whole taken time (entries ++ later) ↔ Whole taken (time + entries.length) later := by
  induction entries generalizing time with
  | nil => rfl
  | cons entry entries ih =>
      have first : entry.Whole (taken time) := by
        have look := looks entry (List.mem_cons_self ..)
        obtain ⟨scene, call, answer⟩ := entry
        cases call with
        | write => exact look.elim
        | _ => trivial
      rw [List.cons_append, Whole, ih fun other member => looks other (List.mem_cons_of_mem _ member),
        List.length_cons, Nat.add_right_comm, Nat.add_assoc]
      exact and_iff_right first

theorem creates_looks {entries : List Entry} (looks : ∀ entry ∈ entries, entry.call.Looks) :
    entries.any Entry.creates = false := by
  apply List.any_eq_false.mpr
  intro entry member
  have look := looks entry member
  obtain ⟨scene, call, answer⟩ := entry
  cases call with
  | ofstream_open => exact look.elim
  | _ => exact Bool.false_ne_true

/-- What a transfer leaves at its target, from the diaries of both sides. -/
theorem Carried.delivered {path other held : Bytes} {source target early early' : List Entry}
    {taken : Nat → Nat} {map : FileMap} (carried : Carried path other source target)
    (looks : ∀ entry ∈ early', entry.call.Looks) (plain : early.filterMap Entry.size = [])
    (unread : early.filterMap Entry.reading = [])
    (bound : told (early ++ source) ≤ held.length) :
    replay taken 0 map (early' ++ target) other = some held ↔
      Delivers taken map other held (early ++ source) (early' ++ target) := by
  obtain ⟨scene, scene', command, buffer, reader, opening, writer, creating, reads, writes, chunks,
    opens, creates, sends, puts, wide, rfl, rfl⟩ := carried
  obtain ⟨size, same⟩ := opens.told sends.sizeless
  have sized : told (early ++ (opening ++ reads)) = reader.m_file_size := by
    rw [told, List.filterMap_append, plain]
    exact size
  have quiet : (early ++ (opening ++ reads)).filterMap Entry.reading =
      reads.filterMap Entry.reading := by
    rw [List.filterMap_append, unread]
    exact same
  rw [sized] at bound
  have total : chunks.flatten.length ≤ held.length := by
    have lengths := sends.lengths fun count member =>
      Nat.le_trans (chunkSizes_le _ count member) wide
    rw [List.length_flatten, lengths, chunkSizes_sum]
    exact Nat.le_trans (Nat.mod_le ..) bound
  have sent : buffers (chunkSizes (told (early ++ (opening ++ reads))).toUInt32.toNat)
      (stale (early ++ (opening ++ reads))) (readings (early ++ (opening ++ reads))) = chunks := by
    have fresh : stale (early ++ (opening ++ reads)) = stale reads := by
      rw [stale, quiet]
      rfl
    have read : readings (early ++ (opening ++ reads)) = readings reads := by
      rw [readings, quiet]
      rfl
    rw [sized, fresh, read]
    have parts := sends.buffers
    by_cases empty : chunkSizes reader.m_file_size.toUInt32.toNat = []
    · rw [empty] at parts ⊢
      exact parts.symm
    · rw [sends.stale (opens.stream empty) empty]
      exact parts.symm
  rw [Delivers, sent, replay_append, replay_looks looks, List.any_append, creates_looks looks,
    Bool.false_or, whole_append looks]
  cases creates with
  | present =>
      obtain rfl := puts.none_
      exact Iff.rfl
  | refused =>
      obtain rfl := puts.none_
      exact Iff.rfl
  | created =>
      have created : ([⟨scene', .ifstream_open other, false⟩, ⟨scene', .ofstream_open other, true⟩] ++
          writes : List Entry).any Entry.creates = true := rfl
      rw [if_pos created]
      obtain ⟨content, holds, few, whole, full⟩ := puts.content (FileMap.put_self map other [])
      have left : replay taken (0 + early'.length) map
          ([⟨scene', .ifstream_open other, false⟩, ⟨scene', .ofstream_open other, true⟩] ++ writes)
          other = some content := holds
      rw [left]
      rw [List.length_nil, Nat.zero_add] at few full
      constructor
      · intro same
        obtain rfl := Option.some.inj same
        have all := full (Nat.le_antisymm few total)
        exact ⟨⟨trivial, trivial, all⟩, (whole all).symm⟩
      · rintro ⟨⟨-, -, all⟩, rfl⟩
        exact congrArg some (whole all)

/-- No more is told of a file than it holds. -/
theorem Carried.told_le {path other held : Bytes} {source target early : List Entry}
    {taken : Nat → Nat} {map : FileMap} {keyFile : KeyFile Unit} (carried : Carried path other source target)
    (legal : Legal (faulty taken map keyFile) (early ++ source))
    (looks : ∀ entry ∈ early, entry.call.Looks) (plain : early.filterMap Entry.size = []) (there : map path = some held) :
    told (early ++ source) ≤ held.length := by
  obtain ⟨scene, scene', command, buffer, reader, opening, writer, creating, reads, writes, chunks,
    opens, creates, sends, puts, wide, rfl, rfl⟩ := carried
  obtain ⟨size, -⟩ := opens.told sends.sizeless
  have sized : told (early ++ (opening ++ reads)) = reader.m_file_size := by
    rw [told, List.filterMap_append, plain]
    exact size
  rw [sized]
  cases opens with
  | refused => exact Nat.zero_le _
  | unsized => exact Nat.zero_le _
  | sized file_size =>
      have found := legal (early ++ [⟨scene, .ifstream_open path, true⟩])
        ⟨scene, .seek_end path, some file_size⟩ reads (by simp) file_size rfl
      dsimp only at found
      rw [replay_append, replay_looks looks] at found
      have known : (map path).map List.length = some file_size := found
      rw [there] at known
      exact Nat.le_of_eq (Option.some.inj known).symm

end Loose
end CloudStorage
