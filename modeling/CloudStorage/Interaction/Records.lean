import CloudStorage.Interaction.Link
import CloudStorage.Interaction.Returns

/-! Runs of two programs at the ends of a channel, with the events of each end. Read from
one end, such a run is a run of the program there. -/
namespace Interaction
namespace Link
variable {Op : Type} {Ans : Op → Type} {Byte : Type} {P Q : Port Op Ans Byte} {α β : Type}

/-- A run, with what each end has called and what it was answered. -/
inductive Records : Link P Q α β → List (Event Op Ans) → List (Event Op Ans) → Link P Q α β →
    Prop where
  | refl (c : Link P Q α β) : Records c [] [] c
  | left {op : Op} {next : Ans op → Program Op Ans α} {p : Program Op Ans β} {here : P.World}
      {there : Q.World} {toLeft toRight : List Byte} {l r : List (Event Op Ans)}
      {d : Link P Q α β} (answer : Ans op) : P.takes op ≤ toLeft.length →
      P.Answers here op (toLeft.take (P.takes op)) answer →
      Records ⟨next answer, p, P.next here op answer, there, toLeft.drop (P.takes op),
        toRight ++ P.puts op⟩ l r d →
      Records ⟨.call op next, p, here, there, toLeft, toRight⟩ (⟨op, answer⟩ :: l) r d
  | right {op : Op} {next : Ans op → Program Op Ans β} {p : Program Op Ans α} {here : P.World}
      {there : Q.World} {toLeft toRight : List Byte} {l r : List (Event Op Ans)}
      {d : Link P Q α β} (answer : Ans op) : Q.takes op ≤ toRight.length →
      Q.Answers there op (toRight.take (Q.takes op)) answer →
      Records ⟨p, next answer, here, Q.next there op answer, toLeft ++ Q.puts op,
        toRight.drop (Q.takes op)⟩ l r d →
      Records ⟨p, .call op next, here, there, toLeft, toRight⟩ l (⟨op, answer⟩ :: r) d

/-- Every run can be read so. -/
theorem Reaches.records {c d : Link P Q α β} (run : Reaches c d) : ∃ l r, Records c l r d := by
  induction run with
  | refl c => exact ⟨[], [], .refl c⟩
  | @next c m e step _ ih =>
      obtain ⟨l, r, rest⟩ := ih
      obtain ⟨p, q, here, there, toLeft, toRight⟩ := c
      cases step with
      | left step =>
          obtain ⟨op, next, answer, rfl, enough, answers, rfl⟩ := step
          exact ⟨_, r, .left answer enough answers rest⟩
      | right step =>
          obtain ⟨op, next, answer, calls, enough, answers, moved⟩ := step
          obtain rfl : q = .call op next := calls
          obtain rfl : m = swap _ := congrArg swap moved
          exact ⟨l, _, .right answer enough answers rest⟩

namespace Records
variable {c d : Link P Q α β} {l r : List (Event Op Ans)}

theorem reaches (run : Records c l r d) : Reaches c d := by
  induction run with
  | refl c => exact .refl c
  | left answer enough answers _ ih =>
      exact .next (.left ⟨_, _, answer, rfl, enough, answers, rfl⟩) ih
  | right answer enough answers _ ih =>
      exact .next (.right ⟨_, _, answer, rfl, enough, answers, rfl⟩) ih

/-- The same run seen from the other end. -/
theorem swap (run : Records c l r d) : Records c.swap r l d.swap := by
  induction run with
  | refl c => exact .refl _
  | left answer enough answers _ ih => exact .right answer enough answers ih
  | right answer enough answers _ ih => exact .left answer enough answers ih

/-- The events of the left end are those of a run of its program. -/
theorem runs_left (run : Records c l r d) {value : α} (ended : d.left = .done value) :
    Runs c.left l (some value) := by
  induction run with
  | refl c =>
      rw [ended]
      exact .done value
  | left answer _ _ _ ih => exact .call answer (ih ended)
  | right _ _ _ _ ih => exact ih ended

theorem runs_right (run : Records c l r d) {value : β} (ended : d.right = .done value) :
    Runs c.right r (some value) := run.swap.runs_left ended

/-- Each was answered as the surroundings of its end answer. -/
theorem answered (run : Records c l r d) : ∀ e ∈ l, ∃ world bytes, bytes.length = P.takes e.op ∧
    P.Answers world e.op bytes e.answer := by
  induction run with
  | refl => exact fun _ member => nomatch member
  | left answer enough answers _ ih =>
      intro e member
      rcases List.mem_cons.mp member with rfl | later
      · exact ⟨_, _, List.length_take_of_le enough, answers⟩
      · exact ih e later
  | right _ _ _ _ ih => exact ih

/-- The surroundings have seen them, in this order. -/
theorem here (run : Records c l r d) :
    d.here = l.foldl (fun world e => P.next world e.op e.answer) c.here := by
  induction run with
  | refl => rfl
  | left _ _ _ _ ih => exact ih
  | right _ _ _ _ ih => exact ih

theorem there (run : Records c l r d) :
    d.there = r.foldl (fun world e => Q.next world e.op e.answer) c.there := run.swap.here

end Records

/-- Where all goes well, every run comes to an end in which all has gone well. -/
theorem Good.completes {K : Pact P Q α β} {c d : Link P Q α β} {l r : List (Event Op Ans)}
    (good : Good K c) (run : Records c l r d) :
    ∃ e l' r', Records d l' r' e ∧ ¬CanLeft e ∧ ¬CanRight e ∧ K.Ends e := by
  have well := good.reaches run.reaches
  obtain ⟨e, onward, left, right⟩ := well.halts
  obtain ⟨l', r', further⟩ := onward.records
  exact ⟨e, l', r', further, left, right, (well.reaches onward).ends left right⟩

end Link
end Interaction
