import CloudStorage.Interaction.Segments
import CloudStorage.Interaction.Thrown

/-! One end of a channel whatever comes from the other: what its program owes alone it owes
in every run of a pair. -/
namespace Interaction
open Code

variable {Op : Type} {Ans : Op → Type} {Byte : Type}

/-- One end to which any bytes may come. -/
@[reducible] def Port.alone (P : Port Op Ans Byte) : Monitor Op Ans where
  State := P.World
  Legal world op answer := ∃ bytes, bytes.length = P.takes op ∧ P.Answers world op bytes answer
  Safe _ _ _ := True
  step := P.next

variable {P Q : Port Op Ans Byte} {α β γ : Type}

namespace Link

/-- What the left program owes alone it still owes after any steps of both. -/
theorem Reaches.left_alone {c d : Link P Q α β} (run : Reaches c d) {post : α → P.World → Prop}
    (owes : c.left.wp P.alone post c.here) : d.left.wp P.alone post d.here := by
  induction run with
  | refl => exact owes
  | @next c d e step _ ih =>
      apply ih
      cases step with
      | left step =>
          obtain ⟨op, next, answer, calls, enough, answers, rfl⟩ := step
          rw [calls] at owes
          have length := List.length_take_of_le enough
          exact (owes _ rfl answer ⟨_, length, answers⟩).2
      | right step =>
          obtain ⟨op, next, answer, -, -, -, moved⟩ := step
          obtain rfl : d = swap _ := congrArg swap moved
          exact owes

theorem Good.either {K : Pact P Q α β} (carefree : K.Carefree) {c : Link P Q α β}
    (stuck : ¬CanLeft c → ¬CanRight c → K.Ends c) (left : ∀ c', LeftStep c c' → Good K c')
    (right : ∀ c', RightStep c c' → Good K c') : Good K c := by
  by_cases can : CanLeft c
  · exact .left (carefree.safeLeft _) (carefree.safeRight _) can
      (fun resting => absurd resting (carefree.awakeLeft _)) left
  · by_cases can' : CanRight c
    · exact .right (carefree.safeLeft _) (carefree.safeRight _) can'
        (fun resting => absurd resting (carefree.awakeRight _)) right
    · exact .stop (carefree.safeLeft _) (carefree.safeRight _) can can'
        (fun resting => absurd resting (carefree.awakeLeft _)) (stuck can can')

/-- Two programs always come to an end, and all goes well if no end is a bad one. -/
theorem Good.anyhow {K : Pact P Q α β} (carefree : K.Carefree) {c : Link P Q α β}
    (ends : ∀ d, Reaches c d → ¬CanLeft d → ¬CanRight d → K.Ends d) : Good K c := by
  obtain ⟨p, q, here, there, toLeft, toRight⟩ := c
  induction p generalizing q here there toLeft toRight with
  | done value =>
      induction q generalizing here there toLeft toRight with
      | done other =>
          apply Good.either carefree (ends _ (.refl _))
          · rintro _ ⟨_, _, _, ⟨⟩, -⟩
          · rintro _ ⟨_, _, _, ⟨⟩, -⟩
      | call op next ih =>
          apply Good.either carefree (ends _ (.refl _))
          · rintro _ ⟨_, _, _, ⟨⟩, -⟩
          · rintro d ⟨_, _, answer, ⟨⟩, enough, answers, moved⟩
            obtain rfl : d = swap _ := congrArg swap moved
            apply ih
            intro e run
            exact ends e (.next (.right ⟨op, next, answer, rfl, enough, answers, rfl⟩) run)
  | call op next ih =>
      induction q generalizing here there toLeft toRight with
      | done other =>
          apply Good.either carefree (ends _ (.refl _))
          · rintro _ ⟨_, _, answer, ⟨⟩, enough, answers, rfl⟩
            apply ih
            intro e run
            exact ends e (.next (.left ⟨op, next, answer, rfl, enough, answers, rfl⟩) run)
          · rintro _ ⟨_, _, _, ⟨⟩, -⟩
      | call op' next' ih' =>
          apply Good.either carefree (ends _ (.refl _))
          · rintro _ ⟨_, _, answer, ⟨⟩, enough, answers, rfl⟩
            apply ih
            intro e run
            exact ends e (.next (.left ⟨op, next, answer, rfl, enough, answers, rfl⟩) run)
          · rintro d ⟨_, _, answer, ⟨⟩, enough, answers, moved⟩
            obtain rfl : d = swap _ := congrArg swap moved
            apply ih'
            intro e run
            exact ends e (.next (.right ⟨op', next', answer, rfl, enough, answers, rfl⟩) run)

end Link

/-- What a program owes at its desk, with nothing in the inbox, it owes alone: it takes no
bytes. -/
theorem Program.alone_of_desk {Safe : P.World → Prop} {p : Program Op Ans γ}
    {post : γ → Desk P → Prop} {world : P.World} {out : List Byte}
    (owes : p.wp (P.desk Safe) post ⟨world, [], out⟩) :
    p.wp P.alone (fun value world => ∃ out, post value ⟨world, [], out⟩) world := by
  induction p generalizing world out with
  | done value => exact ⟨out, owes⟩
  | call op next ih =>
      rintro _ rfl answer ⟨bytes, length, answers⟩
      obtain ⟨some_, usual⟩ := P.answered world op (([] : List Byte).take (P.takes op))
      obtain ⟨⟨-, enough, -⟩, -⟩ := owes _ rfl some_ usual
      have none_ : P.takes op = 0 := Nat.le_zero.mp enough
      obtain rfl := List.eq_nil_of_length_eq_zero (length.trans none_)
      have legal : (P.desk Safe).Legal ⟨world, [], out⟩ op answer := by
        rw [← List.take_nil] at answers
        exact answers
      obtain ⟨-, later⟩ := owes _ rfl answer legal
      have later : (next answer).wp (P.desk Safe) post
          ⟨P.next world op answer, [], Desk.post out (P.puts op)⟩ := by
        simpa only [Port.desk, List.drop_nil] using later
      exact ⟨trivial, ih answer later⟩

end Interaction
