import CloudStorage.Config
import Mathlib.Algebra.Ring.Int.Defs
import Mathlib.Algebra.Ring.Nat
import Mathlib.Data.List.Flatten
import Mathlib.Tactic.SplitIfs

/-! `SocketManager::send` and `SocketManager::receive` over a byte stream that loses
nothing: which frames arrive whole. -/
namespace CloudStorage

namespace SocketManager

/-- The answer of `::send` as an `int`. -/
def send (answer : Int) : Int :=
  let result := Int32.ofInt answer
  if result = -1 then -1 else 0

/-- The answer of `recv` as an `int`, compared as a `size_t` with the size. -/
def receive (answer : Int) (message_buffer_size : Nat) : Int :=
  let result := Int32.ofInt answer
  if result = 0 then -2
  else if result = -1 then -1
  else if (result.toInt % 2 ^ 64).toNat ≠ message_buffer_size then -1
  else 0

end SocketManager

/-- A buffer. No object is larger than `PTRDIFF_MAX`. -/
abbrev Frame := { bytes : Bytes // bytes.length < 2 ^ 63 }

/-- The bytes that the stream has taken and those of them that have not been read, how many
calls both ends have made, what successful calls have received, and whether all calls so
far have returned 0. -/
structure Channel where
  taken : Bytes
  wire : Bytes
  sends : Nat
  receives : Nat
  received : List Bytes
  fine : Bool

namespace Channel

def start : Channel := ⟨[], [], 0, 0, [], true⟩

/-- What POSIX allows `::send` to answer for a buffer: a failure, or how much it has taken. -/
def Posix (frame : Bytes) (answer : Int) : Prop :=
  answer = -1 ∨ ∃ count : Nat, answer = count ∧ count ≤ frame.length

/-- It fails or takes all. -/
def Whole (frame : Bytes) (answer : Int) : Prop := answer = -1 ∨ answer = frame.length

/-- The buffers are sent in order, and received in order into buffers of their sizes. With
`MSG_WAITALL` too, `recv` may fail or read less than it was asked for. -/
inductive Step (takes : Bytes → Int → Prop) (frames : List Frame) (c : Channel) :
    Channel → Prop where
  | send {frame : Frame} {answer : Int} : frames[c.sends]? = some frame → takes frame.val answer →
      Step takes frames c
        { c with
          taken := c.taken ++ frame.val.take answer.toNat
          wire := c.wire ++ frame.val.take answer.toNat
          sends := c.sends + 1
          fine := c.fine && SocketManager.send answer == 0 }
  | receive {frame : Frame} {answer : Int} (memory : Bytes) :
      frames[c.receives]? = some frame → memory.length = frame.val.length →
      (answer = -1 ∨ ∃ count : Nat, answer = count ∧ count ≤ frame.val.length ∧
        count ≤ c.wire.length) →
      Step takes frames c
        { c with
          wire := c.wire.drop answer.toNat
          receives := c.receives + 1
          received :=
            if SocketManager.receive answer frame.val.length = 0
            then c.received ++ [c.wire.take answer.toNat ++ memory.drop answer.toNat]
            else c.received
          fine := c.fine && SocketManager.receive answer frame.val.length == 0 }

/-- The states of all runs. -/
inductive Reaches (takes : Bytes → Int → Prop) (frames : List Frame) : Channel → Prop where
  | start : Reaches takes frames start
  | next {c d : Channel} : Reaches takes frames c → Step takes frames c d → Reaches takes frames d

end Channel

open Channel

theorem SocketManager.receive_failed (size : Nat) : receive (-1) size = -1 := by
  unfold receive
  dsimp only
  rw [if_neg (by decide), if_pos (by decide)]

/-- A receive succeeds for a full buffer only. -/
theorem SocketManager.receive_full {count size : Nat} (within : count ≤ size) (large : size < 2 ^ 63)
    (success : receive count size = 0) : count = size := by
  unfold receive at success
  dsimp only at success
  split_ifs at success with closed failed same
  have value : (Int32.ofInt count).toInt = Int.bmod count (2 ^ 32) := Int32.toInt_ofInt ..
  have whole := Decidable.not_not.mp same
  rw [value, Int.bmod] at whole
  split_ifs at whole with low
  · omega
  · omega

namespace Channel
variable {takes : Bytes → Int → Prop} {frames : List Frame} {c d : Channel}

/-- What holds of a run as long as all calls return 0: the stream has been cut by the sizes
of the buffers. -/
structure Cut (frames : List Frame) (c : Channel) : Prop where
  split : c.received.flatten ++ c.wire = c.taken
  sizes : c.received.map List.length = (frames.take c.receives).map (·.val.length)
  count : c.received.length = c.receives

theorem Step.fine (step : Step takes frames c d) (fine : d.fine = true) : c.fine = true := by
  cases step with
  | send => exact (Bool.and_eq_true_iff.mp fine).1
  | receive => exact (Bool.and_eq_true_iff.mp fine).1

theorem step_cut (step : Step takes frames c d) (fine : d.fine = true) (cut : Cut frames c) : Cut frames d := by
  obtain ⟨split, sizes, count⟩ := cut
  cases step with
  | send _ _ => exact ⟨by rw [← List.append_assoc, split], sizes, count⟩
  | @receive frame answer memory next length answers =>
      have success : SocketManager.receive answer frame.val.length = 0 := by
        simp only [Bool.and_eq_true, beq_iff_eq] at fine
        exact fine.2
      rcases answers with rfl | ⟨n, rfl, within, present⟩
      · rw [SocketManager.receive_failed] at success
        exact absurd success (by decide)
      · obtain rfl := SocketManager.receive_full within frame.property success
        simp only [if_pos success, Int.toNat_natCast]
        have whole : memory.drop frame.val.length = [] := by rw [← length, List.drop_length]
        rw [whole, List.append_nil]
        refine ⟨?_, ?_, ?_⟩
        · rw [← split]
          simp
        · have grown : frames.take (c.receives + 1) = frames.take c.receives ++ [frame] := by
            rw [List.take_add_one, next]
            rfl
          rw [grown, List.map_append, List.map_append, sizes]
          simp [List.length_take, present]
        · simp [count]

theorem reaches_cut (run : Reaches takes frames c) (fine : c.fine = true) : Cut frames c := by
  induction run with
  | start => exact ⟨rfl, rfl, rfl⟩
  | next _ step ih => exact step_cut step fine (ih (step.fine fine))

/-- The buffers have arrived as they were sent exactly if the stream began with them. -/
theorem Cut.iff (cut : Cut frames c) :
    c.received = (frames.take c.receives).map (·.val) ↔
      ((frames.take c.receives).map (·.val)).flatten <+: c.taken := by
  have lengths : c.received.map List.length =
      ((frames.take c.receives).map (·.val)).map List.length := by
    rw [cut.sizes, List.map_map]
    rfl
  have same : c.received.flatten.length =
      ((frames.take c.receives).map (·.val)).flatten.length := by
    rw [List.length_flatten, List.length_flatten, lengths]
  rw [← cut.split]
  constructor
  · intro arrived
    rw [← arrived]
    exact List.prefix_append ..
  · intro begins
    refine List.eq_iff_flatten_eq.mpr ⟨?_, lengths⟩
    have mine : c.received.flatten <+: c.received.flatten ++ c.wire := List.prefix_append ..
    exact (List.prefix_of_prefix_length_le mine begins (Nat.le_of_eq same)).eq_of_length same

/-- What the stream has taken if every `::send` took all or failed. -/
theorem reaches_taken (run : Reaches Whole frames c) (fine : c.fine = true) :
    c.taken = ((frames.take c.sends).map (·.val)).flatten := by
  induction run with
  | start => rfl
  | next _ step ih =>
      have before := ih (step.fine fine)
      cases step with
      | receive => exact before
      | @send frame answer next takes =>
          have sent := (Bool.and_eq_true_iff.mp fine).2
          rcases takes with rfl | rfl
          · exact absurd sent (by decide)
          · rw [List.take_add_one, next, List.map_append, List.flatten_append, ← before]
            simp

/-- Where the stream takes every buffer whole, the k-th receive has delivered the k-th buffer
as long as all calls return 0. -/
theorem frames_delivered (frames : List Frame) {c : Channel} (run : Reaches Whole frames c)
    (fine : c.fine = true) :
    c.received = (frames.take c.received.length).map (·.val) := by
  have cut := reaches_cut run fine
  have taken := reaches_taken run fine
  rw [cut.count]
  apply cut.iff.mpr
  rw [taken]
  -- The receiver cannot be ahead: it would have read more than was taken.
  rcases Nat.le_total c.receives c.sends with behind | ahead
  · have parts : frames.take c.sends =
        frames.take c.receives ++ (frames.drop c.receives).take (c.sends - c.receives) := by
      rw [← List.take_add, Nat.add_sub_of_le behind]
    rw [parts, List.map_append, List.flatten_append]
    exact List.prefix_append ..
  · have parts : frames.take c.receives =
        frames.take c.sends ++ (frames.drop c.sends).take (c.receives - c.sends) := by
      rw [← List.take_add, Nat.add_sub_of_le ahead]
    have read : ((frames.take c.receives).map (·.val)).flatten.length ≤
        ((frames.take c.sends).map (·.val)).flatten.length := by
      rw [← taken, ← cut.split, List.length_append, List.length_flatten, List.length_flatten,
        cut.sizes, List.map_map]
      exact Nat.le_add_right ..
    have longer : ((frames.take c.sends).map (·.val)).flatten <+:
        ((frames.take c.receives).map (·.val)).flatten := by
      rw [parts, List.map_append, List.flatten_append]
      exact List.prefix_append ..
    exact (longer.eq_of_length_le read).symm ▸ List.prefix_rfl

section Sample

def pair : List Frame := [⟨[1, 2], by decide⟩, ⟨[3, 4], by decide⟩]

/-- Both buffers are sent, and the first is received. -/
theorem frames_delivered_sample :
    ∃ c, Reaches Whole pair c ∧ c.received = [[1, 2]] := by
  have first : Reaches Whole pair _ := .next .start (.send rfl (.inr rfl))
  have second : Reaches Whole pair _ := .next first (.send rfl (.inr rfl))
  have third : Reaches Whole pair _ :=
    .next second (.receive [0, 0] rfl rfl (.inr ⟨2, rfl, by decide, by decide⟩))
  have delivered := frames_delivered pair third (by decide)
  exact ⟨_, third, delivered.trans (by decide)⟩

/-- The stream takes one byte of the first buffer, which counts as sent. -/
theorem short_send_shifts :
    ∃ c, Reaches Posix pair c ∧ c.fine = true ∧ c.received = [[1, 3]] ∧
      c.received ≠ (pair.take c.received.length).map (·.val) := by
  refine ⟨_, .next (.next (.next .start
    (.send rfl (.inr ⟨1, rfl, by decide⟩))) (.send rfl (.inr ⟨2, rfl, by decide⟩)))
    (.receive [0, 0] rfl rfl (.inr ⟨2, rfl, by decide, by decide⟩)), by decide, by decide, by decide⟩

end Sample

end Channel
end CloudStorage
