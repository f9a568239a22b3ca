import CloudStorage.Session.Transfers
import Mathlib.Logic.Function.Basic

/-! File systems as maps from paths to contents, as long as no call fails. -/
namespace CloudStorage
open Interaction Function

/-- What the files hold. -/
abbrev FileMap := Bytes → Option Bytes

namespace FileMap

def put (map : FileMap) (path content : Bytes) : FileMap := update map path (some content)

def drop (map : FileMap) (path : Bytes) : FileMap := update map path none

def move (map : FileMap) (old new content : Bytes) : FileMap := (map.drop old).put new content

@[simp] theorem put_self (map : FileMap) (path content : Bytes) :
    map.put path content path = some content := update_self ..

@[simp] theorem put_put (map : FileMap) (path first second : Bytes) :
    (map.put path first).put path second = map.put path second := update_idem ..

end FileMap

/-- A reading of the states of a file system as maps. The laws speak of plain paths only:
each of them names a file of its own. -/
structure Volume (S : FileStore) where
  Plain : Bytes → Prop
  content : S.State → FileMap
  opens : ∀ state path, Plain path → S.present state path = (content state path).isSome
  measures : ∀ state path held, Plain path → content state path = some held →
    S.size state path = some held.length
  reads : ∀ state path held position count, Plain path → content state path = some held →
    (S.respond state (.read path position count)).1 = (held.drop position).take count
  regular : ∀ state path held, Plain path → content state path = some held →
    (S.respond state (.is_regular_file path)).1 = some true
  symlink : ∀ state path held, Plain path → content state path = some held →
    (S.respond state (.is_symlink path)).1 = some false
  creates : ∀ state path, Plain path → content state path = none →
    (S.respond state (.ofstream_open path)).1 = true ∧ ∀ other, Plain other →
      content (S.after state (.ofstream_open path)) other = (content state).put path [] other
  writes : ∀ state path held chunk, Plain path → content state path = some held →
    ∀ other, Plain other →
      content (S.after state (.write path chunk)) other =
        (content state).put path (held ++ chunk) other
  renames : ∀ state old new held, Plain old → Plain new → content state old = some held →
    content state new = none → (S.respond state (.rename old new)).1 = 0 ∧
      ∀ other, Plain other →
        content (S.after state (.rename old new)) other = (content state).move old new held other
  removes : ∀ state path held, Plain path → content state path = some held →
    (S.respond state (.remove path)).1 = 0 ∧ ∀ other, Plain other →
      content (S.after state (.remove path)) other = (content state).drop path other

namespace Volume
variable {S : FileStore} (V : Volume S)

/-- On plain paths the files hold what the map says. -/
def Shows (state : S.State) (map : FileMap) : Prop :=
  ∀ path, V.Plain path → V.content state path = map path

variable {V} {state state' : S.State} {map : FileMap} {path : Bytes}

theorem Shows.put_congr (shows : V.Shows state map) (content : Bytes) :
    ∀ other, V.Plain other →
      (V.content state).put path content other = map.put path content other := by
  intro other plain
  simp only [FileMap.put, update_apply, shows other plain]

theorem Shows.drop_congr (shows : V.Shows state map) :
    ∀ other, V.Plain other → (V.content state).drop path other = map.drop path other := by
  intro other plain
  simp only [FileMap.drop, update_apply, shows other plain]

theorem Shows.move_congr (shows : V.Shows state map) (old new content : Bytes) :
    ∀ other, V.Plain other →
      (V.content state).move old new content other = map.move old new content other := by
  intro other plain
  simp only [FileMap.move, FileMap.put, FileMap.drop, update_apply, shows other plain]

theorem Shows.present (shows : V.Shows state map) (plain : V.Plain path) :
    S.present state path = (map path).isSome := by
  rw [V.opens state path plain, shows path plain]

/-- The manager that reads a file holds its size. -/
theorem Shows.reader (shows : V.Shows state map) (plain : V.Plain path) {held : Bytes}
    (there : map path = some held) :
    S.reader state path = FileManager.initFileInfo ⟨.READ, some (path, 0), 0, 0, 0⟩ held.length := by
  have known : V.content state path = some held := (shows path plain).trans there
  have present : S.present state path = true := by rw [shows.present plain, there]; rfl
  rw [FileStore.reader, if_pos present, V.measures state path held plain known]

theorem Shows.created (shows : V.Shows state map) (plain : V.Plain path)
    (absent : map path = none) : S.created state path = some path := by
  have known : V.content state path = none := (shows path plain).trans absent
  exact if_pos (V.creates state path plain known).1

theorem Shows.after_create (shows : V.Shows state map) (plain : V.Plain path)
    (absent : map path = none) : V.Shows (S.after state (.ofstream_open path)) (map.put path []) := by
  have known : V.content state path = none := (shows path plain).trans absent
  intro other there
  rw [(V.creates state path plain known).2 other there, shows.put_congr _ other there]

theorem Shows.after_write (shows : V.Shows state map) (plain : V.Plain path) {held : Bytes}
    (there : map path = some held) (chunk : Bytes) :
    V.Shows (S.after state (.write path chunk)) (map.put path (held ++ chunk)) := by
  have known : V.content state path = some held := (shows path plain).trans there
  intro other plain'
  rw [V.writes state path held chunk plain known other plain', shows.put_congr _ other plain']

/-- A file that is filled with chunks holds them in order. -/
theorem Shows.after_fill (plain : V.Plain path) (chunks : List Bytes) {held : Bytes}
    (shows : V.Shows state (map.put path held)) :
    V.Shows (S.fill state (some path) chunks) (map.put path (held ++ chunks.flatten)) := by
  induction chunks generalizing state held with
  | nil =>
      rw [List.flatten_nil, List.append_nil]
      exact shows
  | cons chunk chunks ih =>
      have written := shows.after_write plain (FileMap.put_self map path held) chunk
      rw [FileMap.put_put] at written
      rw [List.flatten_cons, ← List.append_assoc]
      exact ih written

/-- The chunks of a file are its content, from a position on. -/
theorem Shows.pieces (shows : V.Shows state map) (plain : V.Plain path) {held : Bytes}
    (there : map path = some held) {last left position : Nat} :
    (S.pieces state path last position left).flatten =
      (held.drop position).take (Lockstep.remaining last left) := by
  have known : V.content state path = some held := (shows path plain).trans there
  induction left generalizing position with
  | zero =>
      rw [Lockstep.remaining, List.take_zero]
      rfl
  | succ left ih =>
      rw [FileStore.pieces, Lockstep.chunkSize_eq, Lockstep.remaining_succ, List.flatten_cons, ih, V.reads state path held _ _ plain known, List.take_add,
        List.drop_drop]

/-- All chunks of a file. -/
theorem Shows.whole (shows : V.Shows state map) (plain : V.Plain path) {held : Bytes}
    (there : map path = some held) :
    (S.pieces state path (S.reader state path).m_last_chunk_size 0
      (S.reader state path).m_chunks_num).flatten = held := by
  obtain ⟨total, -⟩ := Lockstep.remaining_initFileInfo ⟨.READ, some (path, 0), 0, 0, 0⟩ held.length
  rw [shows.reader plain there, shows.pieces plain there, total, List.drop_zero, List.take_length]

/-- A new file that is filled with the chunks of another holds its content. -/
theorem Shows.copied {T : FileStore} {W : Volume T} {source : T.State} {other : FileMap}
    {here held : Bytes} (shows : V.Shows state map) (plain : V.Plain path)
    (absent : map path = none) (from_ : W.Shows source other) (plain' : W.Plain here)
    (there : other here = some held) :
    V.Shows (S.fill (S.after state (.ofstream_open path)) (S.created state path)
      (T.pieces source here (T.reader source here).m_last_chunk_size 0
        (T.reader source here).m_chunks_num)) (map.put path held) := by
  have filled := (shows.after_create plain absent).after_fill plain
    (T.pieces source here (T.reader source here).m_last_chunk_size 0
      (T.reader source here).m_chunks_num)
  rw [from_.whole plain' there, List.nil_append] at filled
  rw [shows.created plain absent]
  exact filled

theorem Shows.downloadable (shows : V.Shows state map) (plain : V.Plain path) :
    S.downloadable state path = (map path).isSome := by
  rw [FileStore.downloadable, shows.present plain]
  cases there : map path with
  | none => rfl
  | some held =>
      have known : V.content state path = some held := (shows path plain).trans there
      rw [V.regular state path held plain known, V.symlink state path held plain known]
      rfl

theorem Shows.after_rename (shows : V.Shows state map) {old new held : Bytes} (from_ : V.Plain old)
    (to_ : V.Plain new) (there : map old = some held) (absent : map new = none) :
    (S.respond state (.rename old new)).1 = 0 ∧
      V.Shows (S.after state (.rename old new)) (map.move old new held) := by
  have known : V.content state old = some held := (shows old from_).trans there
  have free : V.content state new = none := (shows new to_).trans absent
  obtain ⟨answer, moved⟩ := V.renames state old new held from_ to_ known free
  refine ⟨answer, fun other plain => ?_⟩
  rw [moved other plain, shows.move_congr _ _ _ other plain]

theorem Shows.after_remove (shows : V.Shows state map) (plain : V.Plain path) {held : Bytes}
    (there : map path = some held) :
    (S.respond state (.remove path)).1 = 0 ∧
      V.Shows (S.after state (.remove path)) (map.drop path) := by
  have known : V.content state path = some held := (shows path plain).trans there
  obtain ⟨answer, gone⟩ := V.removes state path held plain known
  refine ⟨answer, fun other plain' => ?_⟩
  rw [gone other plain', shows.drop_congr other plain']

end Volume
end CloudStorage
