import CloudStorage.Interaction.Returns
import CloudStorage.Interaction.Serial
import CloudStorage.Server
import CloudStorage.Storage.Path

/-! Requests of concurrent sessions on one disk. Every thread holds streams of its own,
and a stream stays on its file when the directory entry changes. -/
namespace CloudStorage
open Interaction Code Method

namespace Server

/-- A file, whatever it is called: it lay there in the beginning, or a request created it. -/
inductive Inode (ι : Type) where
  | original (place : List Bytes)
  | made (request : ι) (count : Nat)
  deriving DecidableEq

/-- The parts of the disk, and what each request has open. -/
inductive DiskCell (ι : Type) where
  | entry (place : List Bytes)
  | content (inode : Inode ι)
  | reader (request : ι)
  | writer (request : ι)
  | created (request : ι)
  deriving DecidableEq

@[reducible] def DiskCell.Value {ι : Type} : DiskCell ι → Type
  | .entry _ => Option (Inode ι)
  | .content _ => Bytes
  | .reader _ => Option (Inode ι)
  | .writer _ => Option (Inode ι × Nat)
  | .created _ => Nat

abbrev SharedDisk (ι : Type) := ∀ cell : DiskCell ι, cell.Value

/-- Writing into a file at a position; a gap before it reads as zeros. -/
def overwrite (held : Bytes) (position : Nat) (chunk : Bytes) : Bytes :=
  held.take position ++ List.replicate (position - held.length) 0 ++ chunk ++
    held.drop (position + chunk.length)

namespace SharedDisk
variable {ι : Type} (cwd : List Bytes) (listing : (Bytes → Bool) → List Bytes)

/-- What lies under which place. -/
def files (disk : SharedDisk ι) (place : List Bytes) : Option Bytes :=
  (disk (.entry place)).map fun inode => disk (.content inode)

def present (disk : SharedDisk ι) (place : List Bytes) : Bool := (disk (.entry place)).isSome

/-- The answers of calls that succeed. `listing` is the order in which the names of a
directory are met. -/
def respond (disk : SharedDisk ι) (request : ι) : (call : FileCall) → call.Ans
  | .ifstream_open path => present disk (Path.resolve cwd path)
  | .ofstream_open _ => true
  | .seek_end path => some ((files disk (Path.resolve cwd path)).getD []).length
  | .read _ position size =>
      match disk (.reader request) with
      | some inode => ((disk (.content inode)).drop position).take size
      | none => []
  | .write _ _ => ()
  | .exists_ _ => some true
  | .directory_iterator path =>
      some (listing fun name => present disk (Path.resolve cwd path ++ [name]))
  | .is_regular_file path => some (present disk (Path.resolve cwd path))
  | .is_symlink _ => some false
  | .rename old_path _ => if present disk (Path.resolve cwd old_path) then 0 else -1
  | .remove path => if present disk (Path.resolve cwd path) then 0 else -1

/-- A new file, open for writing. -/
def creation (place : List Bytes) (request : ι) (count : Nat) :
    List (Σ cell : DiskCell ι, cell.Value) :=
  [⟨.entry place, some (.made request count)⟩, ⟨.content (.made request count), []⟩,
    ⟨.writer request, some (.made request count, 0)⟩, ⟨.created request, count + 1⟩]

/-- `rename` and opening for writing replace what is there. -/
def assigns (disk : SharedDisk ι) (request : ι) :
    FileCall → List (Σ cell : DiskCell ι, cell.Value)
  | .ifstream_open path => [⟨.reader request, disk (.entry (Path.resolve cwd path))⟩]
  | .ofstream_open path =>
      match disk (.entry (Path.resolve cwd path)) with
      | some inode => [⟨.content inode, []⟩, ⟨.writer request, some (inode, 0)⟩]
      | none => creation (Path.resolve cwd path) request (disk (.created request))
  | .write _ chunk =>
      match disk (.writer request) with
      | some (inode, position) =>
          [⟨.content inode, overwrite (disk (.content inode)) position chunk⟩,
            ⟨.writer request, some (inode, position + chunk.length)⟩]
      | none => []
  | .rename old_path new_path =>
      match disk (.entry (Path.resolve cwd old_path)) with
      | some inode => [⟨.entry (Path.resolve cwd old_path), none⟩,
          ⟨.entry (Path.resolve cwd new_path), some inode⟩]
      | none => []
  | .remove path =>
      match disk (.entry (Path.resolve cwd path)) with
      | some _ => [⟨.entry (Path.resolve cwd path), none⟩]
      | none => []
  | _ => []

/-- A file by its directory entry. -/
def named (disk : SharedDisk ι) (place : List Bytes) : Set (DiskCell ι) :=
  {cell | cell = .entry place ∨ ∃ inode ∈ disk (.entry place), cell = .content inode}

/-- What the answer and the effect of a call depend on. -/
def looks (disk : SharedDisk ι) (request : ι) : FileCall → Set (DiskCell ι)
  | .ifstream_open path | .is_regular_file path | .remove path =>
      {.entry (Path.resolve cwd path)}
  | .ofstream_open path => {.entry (Path.resolve cwd path), .created request}
  | .seek_end path => named disk (Path.resolve cwd path)
  | .read _ _ _ =>
      {cell | cell = .reader request ∨ ∃ inode ∈ disk (.reader request), cell = .content inode}
  | .write _ _ => {cell | cell = .writer request ∨
      ∃ stream ∈ disk (.writer request), cell = .content stream.1}
  | .exists_ _ | .is_symlink _ => ∅
  | .directory_iterator path => {cell | ∃ name, cell = .entry (Path.resolve cwd path ++ [name])}
  | .rename old_path _ => {.entry (Path.resolve cwd old_path)}

theorem blind {disk disk' : SharedDisk ι} {request : ι} {call : FileCall}
    (same : ∀ cell ∈ looks cwd disk request call, disk' cell = disk cell) :
    looks cwd disk' request call = looks cwd disk request call ∧
      assigns cwd disk' request call = assigns cwd disk request call ∧
      respond cwd listing disk' request call = respond cwd listing disk request call := by
  cases call with
  | ifstream_open path =>
      have entry := same _ rfl
      simp only [looks, assigns, respond, present, entry, and_self]
  | ofstream_open path =>
      have entry := same _ (.inl rfl)
      have count := same _ (.inr rfl)
      simp only [looks, assigns, respond, entry, count, and_self]
  | seek_end path =>
      have entry := same _ (.inl rfl)
      simp only [looks, assigns, respond, named, files, entry, true_and]
      cases known : disk (.entry (Path.resolve cwd path)) with
      | none => rfl
      | some inode =>
          have content := same (.content inode) (.inr ⟨inode, known, rfl⟩)
          simp only [Option.map_some, content]
  | read path position size =>
      have reader := same _ (.inl rfl)
      simp only [looks, assigns, respond, reader, true_and]
      cases known : disk (.reader request) with
      | none => rfl
      | some inode =>
          have content := same (.content inode) (.inr ⟨inode, known, rfl⟩)
          simp only [content]
  | write path chunk =>
      have writer := same _ (.inl rfl)
      simp only [looks, assigns, respond, writer, true_and, and_true]
      cases known : disk (.writer request) with
      | none => rfl
      | some stream =>
          have content := same (.content stream.1) (.inr ⟨stream, known, rfl⟩)
          simp only [content]
  | directory_iterator path =>
      have entries := fun name => same (.entry (Path.resolve cwd path ++ [name])) ⟨name, rfl⟩
      simp only [looks, assigns, respond, present, entries, and_self]
  | is_regular_file path =>
      have entry := same _ rfl
      simp only [looks, assigns, respond, present, entry, and_self]
  | rename old_path new_path =>
      have entry := same _ rfl
      refine ⟨rfl, ?_, ?_⟩
      · simp only [assigns, entry]
      · exact congrArg (fun found : Option _ => if found.isSome then (0 : Int) else -1) entry
  | remove path =>
      have entry := same _ rfl
      refine ⟨rfl, ?_, ?_⟩
      · simp only [assigns, entry]
      · exact congrArg (fun found : Option _ => if found.isSome then (0 : Int) else -1) entry
  | exists_ _ => exact ⟨rfl, rfl, rfl⟩
  | is_symlink _ => exact ⟨rfl, rfl, rfl⟩

/-- The disk under the calls of many requests. Every call succeeds; what else happens to a
request is left open. -/
@[reducible] def memory (ι : Type) [DecidableEq ι] : SharedMemory ι Op Op.Ans where
  Cell := DiskCell ι
  decidableEq := inferInstance
  Value := DiskCell.Value
  Allowed
    | disk, request, .file call, answer => answer = respond cwd listing disk request call
    | _, _, _, _ => True
  looks
    | disk, request, .file call => looks cwd disk request call
    | _, _, _ => ∅
  assigns
    | disk, request, .file call => assigns cwd disk request call
    | _, _, _ => []
  blind := by
    intro disk disk' request op same
    cases op with
    | file call =>
        obtain ⟨looks, assigns, respond⟩ := blind cwd listing same
        exact ⟨looks, assigns, fun answer allowed => allowed.trans respond.symm⟩
    | _ => exact ⟨rfl, rfl, fun _ _ => trivial⟩

instance (call : FileCall) : DecidableEq call.Ans := by
  cases call with
  | _ => exact inferInstance

instance {ι : Type} [DecidableEq ι] (disk : SharedDisk ι) (request : ι) :
    (op : Op) → (answer : op.Ans) →
      Decidable ((memory cwd listing ι).Allowed disk request op answer)
  | .file call, answer => inferInstanceAs (Decidable (answer = respond cwd listing disk request call))
  | .ssl _, _ | .random _, _ | .memory _, _ | .stray _, _ | .send _, _ | .receive _, _
  | .unlock _ _, _ | .connect, _ | .getline, _ | .getValidCode _ _, _ | .note _, _ => .isTrue trivial

end SharedDisk

section Concurrent
variable {ι : Type} [DecidableEq ι] (host : Endian) (cwd : List Bytes)
  (listing : (Bytes → Bool) → List Bytes) (requests : ι → Bytes × Session octets)

/-- The run of a request's handler, to its end. -/
def Serves (request : ι) (trace : List (Event Op Op.Ans)) : Prop :=
  ∃ result, Runs (dispatch host (requests request).1 (requests request).2) trace (some result)

/-- What the client sees of it, with the contents that it downloads: all but the calls on
files. -/
def conversation (trace : List (Event Op Op.Ans)) : List (Event Op Op.Ans) :=
  trace.filter fun e => match e.op with
    | .file _ => false
    | _ => true

/-- The requests could have been served one at a time: the clients see the same, and the
directories end up the same. -/
def Linearizable (disk : SharedDisk ι) (log : Log ι Op Op.Ans) : Prop :=
  ∃ (order : List ι) (runs : ι → List (Event Op Op.Ans)),
    order.Nodup ∧ (∀ request, request ∈ order ↔ ∃ e, (request, e) ∈ log) ∧
    (∀ request ∈ order, Serves host requests request (runs request) ∧
      conversation (runs request) = conversation (log.own request)) ∧
    (SharedDisk.memory cwd listing ι).Follows disk (SharedMemory.serial order runs) ∧
    SharedDisk.files
        ((SharedDisk.memory cwd listing ι).after disk (SharedMemory.serial order runs)) =
      SharedDisk.files ((SharedDisk.memory cwd listing ι).after disk log)

/-- Requests whose accesses to the same files do not run in a circle could have been
served one at a time. -/
theorem concurrent_linearizable (disk : SharedDisk ι) (log : Log ι Op Op.Ans)
    (served : ∀ request, (∃ e, (request, e) ∈ log) → Serves host requests request (log.own request))
    (atomic : (SharedDisk.memory cwd listing ι).Follows disk log)
    (acyclic : ∀ request,
      ¬Relation.TransGen ((SharedDisk.memory cwd listing ι).Precedes disk log) request request) :
    Linearizable host cwd listing requests disk log := by
  obtain ⟨order, nodup, covers, same, follows⟩ := SharedMemory.serializable acyclic
  refine ⟨order, log.own, nodup, covers, ?_, follows atomic, ?_⟩
  · intro request member
    exact ⟨served request ((covers request).mp member), rfl⟩
  · rw [same]

end Concurrent
namespace Race

def source (second : Bool) : Bytes := if second then ascii "b" else ascii "a"

/-- Two requests of Luca: to rename "a" to "c", and to rename "b" to "c". -/
def requests (second : Bool) : Bytes × Session octets :=
  ((Rename.ofNames (source second) (ascii "c")).serialize, ⟨ascii "luca", 0, []⟩)

def path (name : Bytes) : Bytes := storagePath (ascii "luca") name

def tests (second : Bool) : List (Event Op Op.Ans) :=
  [⟨.note (.started Message.RENAME_REQUEST.byte), ()⟩,
    ⟨.file (.ifstream_open (path (source second))), true⟩,
    ⟨.file (.ifstream_open (path (ascii "c"))), false⟩]

def acts (second : Bool) : List (Event Op Op.Ans) :=
  [⟨.file (.rename (path (source second)) (path (ascii "c"))), (0 : Int)⟩,
    ⟨.random 70, ([] : Bytes)⟩,
    ⟨.ssl (.encrypt [] (Generic.aad 1) [Result.ACK.byte]), some ⟨[], [], []⟩⟩,
    ⟨.send (Generic.serialize ⟨Generic.aad 1, ⟨[], [], []⟩⟩), (0 : Int)⟩,
    ⟨.note (.finished Return.SUCCESS.val), ()⟩]

/-- Both have tested the new name before one of them acts. -/
def log : Log Bool Op Op.Ans :=
  (tests false).map (false, ·) ++ (tests true).map (true, ·) ++
    (acts false).map (false, ·) ++ (acts true).map (true, ·)

theorem serves (second : Bool) : Serves .big requests second (tests second ++ acts second) := by
  cases second with
  | false =>
      exact ⟨_, .call _ (.call _ (.call _ (.call _ (.call _ (.call _ (.call _ (.call _ (.done _))))))))⟩
  | true =>
      exact ⟨_, .call _ (.call _ (.call _ (.call _ (.call _ (.call _ (.call _ (.call _ (.done _))))))))⟩

/-- "a" and "b" are there, "c" is not. -/
def start : SharedDisk Bool
  | .entry place =>
      if place = Path.resolve [] (path (ascii "a")) ∨ place = Path.resolve [] (path (ascii "b"))
      then some (.original place) else none
  | .content _ => []
  | .reader _ => none
  | .writer _ => none
  | .created _ => 0

abbrev disks : SharedMemory Bool Op Op.Ans := SharedDisk.memory [] (fun _ => []) Bool

theorem follows : disks.Follows start log := by decide +kernel

/-- The second in the order would find "c" taken. -/
theorem serial_refused (first : Bool) :
    ¬disks.Follows start (SharedMemory.serial [first, !first] fun id => tests id ++ acts id) := by
  cases first with
  | false => decide +kernel
  | true => decide +kernel

theorem conversation_other {op : Op} {answer : op.Ans} {rest : List (Event Op Op.Ans)}
    (other : ∀ call, op ≠ .file call) :
    conversation (⟨op, answer⟩ :: rest) = ⟨op, answer⟩ :: conversation rest := by
  cases op with
  | file call => exact absurd rfl (other call)
  | _ => rfl

/-- The next thing that is heard of a run. -/
theorem conversation_next {op op' : Op} {answer : op.Ans} {answer' : op'.Ans}
    {rest tail : List (Event Op Op.Ans)}
    (same : conversation (⟨op, answer⟩ :: rest) = ⟨op', answer'⟩ :: tail)
    (other : ∀ call, op ≠ .file call) :
    op = op' ∧ HEq answer answer' ∧ conversation rest = tail := by
  rw [conversation_other other, List.cons.injEq, Event.mk.injEq, and_assoc] at same
  exact same

/-- A rename that looks like an acknowledged one from outside is one. -/
theorem acknowledged {second : Bool} {trace : List (Event Op Op.Ans)}
    (serves : Serves .big requests second trace)
    (same : conversation trace = conversation (tests second ++ acts second)) :
    trace = tests second ++ acts second := by
  obtain ⟨result, run⟩ := serves
  cases second with
  | _ =>
      obtain ⟨_, _, rfl, run1⟩ := Runs.of_call run
      obtain ⟨-, -, same1⟩ := conversation_next same nofun
      obtain ⟨old, _, rfl, run2⟩ := Runs.of_call run1
      cases old with
      | false =>
          obtain ⟨filler, _, rfl, run3⟩ := Runs.of_call run2
          have heard : conversation (⟨.random _, filler⟩ :: _) = _ := same1
          obtain ⟨-, known, same2⟩ := conversation_next heard nofun
          obtain rfl : filler = [] := eq_of_heq known
          obtain ⟨_, _, rfl, _⟩ := Runs.of_call run3
          exact nomatch (conversation_next same2 nofun).1
      | true =>
      obtain ⟨new, _, rfl, run3⟩ := Runs.of_call run2
      cases new with
      | true =>
          obtain ⟨filler, _, rfl, run4⟩ := Runs.of_call run3
          have heard : conversation (⟨.random _, filler⟩ :: _) = _ := same1
          obtain ⟨-, known, same2⟩ := conversation_next heard nofun
          obtain rfl : filler = [] := eq_of_heq known
          obtain ⟨_, _, rfl, _⟩ := Runs.of_call run4
          exact nomatch (conversation_next same2 nofun).1
      | false =>
      obtain ⟨outcome, _, rfl, run4⟩ := Runs.of_call run3
      by_cases moved : outcome = 0
      · obtain rfl : outcome = 0 := moved
        obtain ⟨filler, _, rfl, run5⟩ := Runs.of_call run4
        have heard : conversation (⟨.random _, filler⟩ :: _) = _ := same1
        obtain ⟨-, known, same2⟩ := conversation_next heard nofun
        obtain rfl : filler = [] := eq_of_heq known
        obtain ⟨sealed, _, rfl, run6⟩ := Runs.of_call run5
        obtain ⟨-, known, same3⟩ := conversation_next same2 nofun
        obtain rfl : sealed = some ⟨[], [], []⟩ := eq_of_heq known
        obtain ⟨sent, _, rfl, run7⟩ := Runs.of_call run6
        obtain ⟨-, known, same4⟩ := conversation_next same3 nofun
        obtain rfl : sent = 0 := eq_of_heq known
        obtain ⟨_, _, rfl, run8⟩ := Runs.of_call run7
        cases run8
        rfl
      · have refused : (if outcome ≠ 0 then pure Result.NACK.byte else pure Result.ACK.byte :
            Method UInt8) = pure Result.NACK.byte := if_pos moved
        simp only [Code.run_bind, Program.done_bind, refused] at run4
        obtain ⟨filler, _, rfl, run5⟩ := Runs.of_call run4
        have heard : conversation (⟨.random _, filler⟩ :: _) = _ := same1
        obtain ⟨-, known, same2⟩ := conversation_next heard nofun
        obtain rfl : filler = [] := eq_of_heq known
        obtain ⟨_, _, rfl, _⟩ := Runs.of_call run5
        exact nomatch (conversation_next same2 nofun).1

theorem own_log (second : Bool) : log.own second = tests second ++ acts second := by
  cases second with
  | _ => rfl

theorem order_eq {order : List Bool} (nodup : order.Nodup) (covers : ∀ second, second ∈ order) :
    ∃ first, order = [first, !first] := by
  have both : order.Perm [false, true] := by
    refine (List.perm_ext_iff_of_nodup nodup (by decide)).mpr fun second => ?_
    cases second with
    | _ => simp [covers]
  obtain ⟨first, last, rfl⟩ := List.length_eq_two.mp both.length_eq
  have distinct : last ≠ first := by
    rintro rfl
    exact (List.nodup_cons.mp nodup).1 (List.mem_singleton.mpr rfl)
  exact ⟨first, congrArg (fun other => [first, other]) (Bool.eq_not_of_ne distinct)⟩

/-- The second rename after the first. -/
def refused : List (Event Op Op.Ans) :=
  [⟨.note (.started Message.RENAME_REQUEST.byte), ()⟩,
    ⟨.file (.ifstream_open (path (ascii "b"))), true⟩,
    ⟨.file (.ifstream_open (path (ascii "c"))), true⟩, ⟨.random 70, ([] : Bytes)⟩,
    ⟨.ssl (.encrypt [] (Generic.aad 1) [Return.FILE_ALREADY_EXISTS.byte]), some ⟨[], [], []⟩⟩,
    ⟨.send (Generic.serialize ⟨Generic.aad 1, ⟨[], [], []⟩⟩), (0 : Int)⟩,
    ⟨.note (.finished Return.SUCCESS.val), ()⟩]

def queue : Log Bool Op Op.Ans :=
  (tests false ++ acts false).map (false, ·) ++ refused.map (true, ·)

theorem serves_queue (second : Bool) : Serves .big requests second (queue.own second) := by
  cases second with
  | false => exact serves false
  | true => exact ⟨_, .call _ (.call _ (.call _ (.call _ (.call _ (.call _ (.call _ (.done _)))))))⟩

theorem queue_acyclic (second : Bool) :
    ¬Relation.TransGen (disks.Precedes start queue) second second := by
  have forward : ∀ first second, disks.Precedes start queue first second →
      first = false ∧ second = true := by
    intro first second precedes
    have within := precedes.sublist
    cases first with
    | true =>
        cases second with
        | true => exact absurd rfl precedes.1
        | false => exact absurd within (by decide)
    | false =>
        cases second with
        | true => exact ⟨rfl, rfl⟩
        | false => exact absurd rfl precedes.1
  intro cycle
  obtain ⟨_, precedes, -⟩ := Relation.TransGen.head'_iff.mp cycle
  obtain ⟨_, -, precedes'⟩ := Relation.TransGen.tail'_iff.mp cycle
  exact absurd ((forward _ _ precedes).1.symm.trans (forward _ _ precedes').2) (by decide)

end Race
theorem queued_renames :
    Linearizable .big [] (fun _ => []) Race.requests Race.start Race.queue :=
  concurrent_linearizable .big [] (fun _ => []) Race.requests Race.start Race.queue
    (fun second _ => Race.serves_queue second) (by decide +kernel) Race.queue_acyclic

/-- Both renames are acknowledged, and the second replaces what the first put under the
name. -/
theorem racing_renames :
    (∀ second, Serves .big Race.requests second (Race.log.own second)) ∧
    Race.disks.Follows Race.start Race.log ∧
    ¬Linearizable .big [] (fun _ => []) Race.requests Race.start Race.log := by
  refine ⟨?_, Race.follows, ?_⟩
  · intro second
    rw [Race.own_log]
    exact Race.serves second
  · rintro ⟨order, runs, nodup, covers, served, follows, -⟩
    have all : ∀ second, second ∈ order := by
      intro second
      refine (covers second).mpr ⟨⟨.note (.started Message.RENAME_REQUEST.byte), ()⟩, ?_⟩
      rw [← Log.mem_own, Race.own_log]
      exact List.mem_cons_self ..
    have known : ∀ second ∈ order, runs second = Race.tests second ++ Race.acts second := by
      intro second member
      obtain ⟨serves, same⟩ := served second member
      rw [Race.own_log] at same
      exact Race.acknowledged serves same
    rw [SharedMemory.serial_congr known] at follows
    obtain ⟨first, rfl⟩ := Race.order_eq nodup all
    exact Race.serial_refused first follows

end Server
end CloudStorage
