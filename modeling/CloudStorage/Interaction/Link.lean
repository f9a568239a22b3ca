import CloudStorage.Interaction.Calculus

/-! Two programs at the ends of a channel that delivers every byte in order. Their
steps interleave freely; one schedule that goes well is enough for all of them. -/
namespace Interaction

/-- One end of the channel: how many bytes a call takes from it and which it puts, how
the surroundings of this end answer, and when it counts as resting. -/
structure Port (Op : Type) (Ans : Op → Type) (Byte : Type) where
  World : Type
  takes : Op → Nat
  puts : Op → List Byte
  Answers : World → (op : Op) → List Byte → Ans op → Prop
  next : World → (op : Op) → Ans op → World
  answered : ∀ world op bytes, ∃ answer, Answers world op bytes answer
  Rests : World → Prop

variable {Op : Type} {Ans : Op → Type} {Byte : Type}

/-- Both programs, their surroundings and the bytes in flight. -/
structure Link (P Q : Port Op Ans Byte) (α β : Type) where
  left : Program Op Ans α
  right : Program Op Ans β
  here : P.World
  there : Q.World
  toLeft : List Byte
  toRight : List Byte

namespace Link
variable {P Q : Port Op Ans Byte} {α β γ : Type}

def swap (c : Link P Q α β) : Link Q P β α :=
  ⟨c.right, c.left, c.there, c.here, c.toRight, c.toLeft⟩

/-- The left program makes its next call. -/
def LeftStep (c c' : Link P Q α β) : Prop :=
  ∃ op next answer, c.left = .call op next ∧ P.takes op ≤ c.toLeft.length ∧
    P.Answers c.here op (c.toLeft.take (P.takes op)) answer ∧
    c' = ⟨next answer, c.right, P.next c.here op answer, c.there,
      c.toLeft.drop (P.takes op), c.toRight ++ P.puts op⟩

def RightStep (c c' : Link P Q α β) : Prop := LeftStep c.swap c'.swap

inductive Step (c c' : Link P Q α β) : Prop where
  | left (step : LeftStep c c')
  | right (step : RightStep c c')

inductive Reaches : Link P Q α β → Link P Q α β → Prop where
  | refl (c) : Reaches c c
  | next {c d e} : Step c d → Reaches d e → Reaches c e

/-- Its next call does not wait for bytes. -/
def CanLeft (c : Link P Q α β) : Prop :=
  ∃ op next, c.left = .call op next ∧ P.takes op ≤ c.toLeft.length

def CanRight (c : Link P Q α β) : Prop := CanLeft c.swap

theorem LeftStep.can {c c' : Link P Q α β} (step : LeftStep c c') : CanLeft c := by
  obtain ⟨op, next, answer, calls, enough, -⟩ := step
  exact ⟨op, next, calls, enough⟩

/-- The surroundings of the other end stay as they are. -/
theorem LeftStep.there {c d : Link P Q α β} (step : LeftStep c d) : d.there = c.there := by
  obtain ⟨_, _, _, -, -, -, rfl⟩ := step
  rfl

/-- Bytes on their way to the other end stay there. -/
theorem LeftStep.toRight {c d : Link P Q α β} (step : LeftStep c d) (some_ : c.toRight ≠ []) :
    d.toRight ≠ [] := by
  obtain ⟨_, _, _, -, -, -, rfl⟩ := step
  exact List.append_ne_nil_of_left_ne_nil some_ _

theorem RightStep.here {c d : Link P Q α β} (step : RightStep c d) : d.here = c.here :=
  LeftStep.there (c := c.swap) (d := d.swap) step

theorem CanLeft.step {c : Link P Q α β} (can : CanLeft c) : ∃ c', LeftStep c c' := by
  obtain ⟨op, next, calls, enough⟩ := can
  obtain ⟨answer, answers⟩ := P.answered c.here op (c.toLeft.take (P.takes op))
  exact ⟨_, op, next, answer, calls, enough, answers, rfl⟩

/-- A step of the other end only brings more bytes. -/
theorem CanLeft.after_right {c d : Link P Q α β} (can : CanLeft c) (step : RightStep c d) :
    CanLeft d := by
  obtain ⟨op, next, calls, enough⟩ := can
  obtain ⟨_, _, _, -, -, -, moved⟩ := step
  obtain rfl : d = swap _ := congrArg swap moved
  refine ⟨op, next, calls, ?_⟩
  rw [show (swap _ : Link P Q α β).toLeft = c.toLeft ++ _ from rfl, List.length_append]
  omega

/-- Steps of both ends commute if the left one did not wait for the right one. -/
theorem commute {c d e : Link P Q α β} (can : CanLeft c) (first : RightStep c d)
    (second : LeftStep d e) : ∃ m, LeftStep c m ∧ RightStep m e := by
  obtain ⟨op, next, calls, enough⟩ := can
  obtain ⟨other, continue_, reply, otherCalls, otherEnough, otherAnswers, moved⟩ := first
  obtain rfl : d = swap _ := congrArg swap moved
  obtain ⟨op', next', answer, calls', -, answers, rfl⟩ := second
  obtain ⟨rfl, rfl⟩ : op = op' ∧ HEq next next' := by
    have same := calls.symm.trans calls'
    injection same with ops nexts
    exact ⟨ops, nexts⟩
  have taken : (c.toLeft ++ Q.puts other).take (P.takes op) = c.toLeft.take (P.takes op) :=
    List.take_append_of_le_length enough
  have left : (c.toLeft ++ Q.puts other).drop (P.takes op) =
      c.toLeft.drop (P.takes op) ++ Q.puts other := List.drop_append_of_le_length enough
  have otherTaken : (c.toRight ++ P.puts op).take (Q.takes other) =
      c.toRight.take (Q.takes other) := List.take_append_of_le_length otherEnough
  have otherLeft : (c.toRight ++ P.puts op).drop (Q.takes other) =
      c.toRight.drop (Q.takes other) ++ P.puts op := List.drop_append_of_le_length otherEnough
  refine ⟨_, ⟨op, next, answer, calls, enough, taken ▸ answers, rfl⟩,
    other, continue_, reply, otherCalls, ?_, ?_, ?_⟩
  · exact Nat.le_trans otherEnough (by simp [swap])
  · exact otherTaken.symm ▸ otherAnswers
  · simp only [swap, left, otherLeft]

theorem commute_swap {c d e : Link P Q α β} (can : CanRight c) (first : LeftStep c d)
    (second : RightStep d e) : ∃ m, RightStep c m ∧ LeftStep m e := by
  obtain ⟨m, left, right⟩ := commute (c := c.swap) (d := d.swap) (e := e.swap) can first second
  exact ⟨m.swap, left, right⟩

/-- What is to hold of a run: of the surroundings of each end, whenever both rest and
nothing is on its way to the right, and when neither can go on. -/
structure Pact (P Q : Port Op Ans Byte) (α β : Type) where
  SafeLeft : P.World → Prop
  SafeRight : Q.World → Prop
  Agree : Link P Q α β → Prop
  Ends : Link P Q α β → Prop

/-- There is a schedule under which all goes well. It lets the left program leave a
rest only when the right one waits, and the right one only for bytes that came. -/
inductive Good (K : Pact P Q α β) : Link P Q α β → Prop where
  | stop {c} : K.SafeLeft c.here → K.SafeRight c.there → ¬CanLeft c → ¬CanRight c →
      (P.Rests c.here → K.Agree c) → K.Ends c → Good K c
  | left {c} : K.SafeLeft c.here → K.SafeRight c.there → CanLeft c →
      (P.Rests c.here → ¬CanRight c ∧ K.Agree c) → (∀ c', LeftStep c c' → Good K c') → Good K c
  | right {c} : K.SafeLeft c.here → K.SafeRight c.there → CanRight c →
      (Q.Rests c.there → c.toRight ≠ []) → (∀ c', RightStep c c' → Good K c') → Good K c

namespace Good
variable {K : Pact P Q α β} {c c' : Link P Q α β}

theorem safe (good : Good K c) : K.SafeLeft c.here ∧ K.SafeRight c.there := by
  cases good with
  | stop here there => exact ⟨here, there⟩
  | left here there => exact ⟨here, there⟩
  | right here there => exact ⟨here, there⟩

/-- Then all goes well under every schedule: the steps that it takes in another order
commute. -/
theorem step (good : Good K c) (step : Step c c') : Good K c' := by
  induction good generalizing c' with
  | stop _ _ cannotLeft cannotRight =>
      cases step with
      | left step => exact absurd step.can cannotLeft
      | right step => exact absurd (LeftStep.can step) cannotRight
  | @left c here there can rest next ih =>
      cases step with
      | left step => exact next _ step
      | right step =>
          have later : ∀ e, LeftStep c' e → Good K e := by
            intro e second
            obtain ⟨m, first, second⟩ := commute can step second
            exact ih m first (.right second)
          obtain ⟨e, onward⟩ := (can.after_right step).step
          have safeThere : K.SafeRight c'.there := onward.there ▸ (later e onward).safe.2
          refine .left (step.here ▸ here) safeThere (can.after_right step) ?_ later
          intro resting
          have waits := (rest (step.here ▸ resting)).1
          exact absurd (LeftStep.can step) waits
  | @right c here there can woken next ih =>
      cases step with
      | left step =>
          have later : ∀ e, RightStep c' e → Good K e := by
            intro e second
            obtain ⟨m, first, second⟩ := commute_swap can step second
            exact ih m first (.left second)
          have canStill : CanRight c' := CanLeft.after_right (c := c.swap) (d := c'.swap) can step
          obtain ⟨e, onward⟩ := CanLeft.step canStill
          have safeHere : K.SafeLeft c'.here :=
            RightStep.here (c := c') (d := e.swap) onward ▸ (later e.swap onward).safe.1
          refine .right safeHere (step.there ▸ there) canStill ?_ later
          intro resting
          exact step.toRight (woken (step.there ▸ resting))
      | right step => exact next _ step

theorem reaches (good : Good K c) (run : Reaches c c') : Good K c' := by
  induction run with
  | refl => exact good
  | next step _ ih => exact ih (good.step step)

/-- While both rest and nothing is on its way they agree. -/
theorem agree (good : Good K c) (resting : P.Rests c.here) (waiting : Q.Rests c.there)
    (empty : c.toRight = []) : K.Agree c := by
  cases good with
  | stop _ _ _ _ rest => exact rest resting
  | left _ _ _ rest => exact (rest resting).2
  | right _ _ _ woken => exact absurd empty (woken waiting)

/-- A run that cannot go on has ended well. -/
theorem ends (good : Good K c) (left : ¬CanLeft c) (right : ¬CanRight c) : K.Ends c := by
  cases good with
  | stop _ _ _ _ _ ends => exact ends
  | left _ _ can => exact absurd can left
  | right _ _ can => exact absurd can right

/-- So has one in which the left program is done and the right one rests in vain. -/
theorem rested (good : Good K c) (left : ¬CanLeft c) (waiting : Q.Rests c.there)
    (empty : c.toRight = []) : K.Ends c := by
  cases good with
  | stop _ _ _ _ _ ends => exact ends
  | left _ _ can => exact absurd can left
  | right _ _ _ woken => exact absurd empty (woken waiting)

/-- Every run comes to an end. -/
theorem halts (good : Good K c) : ∃ d, Reaches c d ∧ ¬CanLeft d ∧ ¬CanRight d := by
  induction good with
  | stop _ _ left right => exact ⟨_, .refl _, left, right⟩
  | left _ _ can _ _ ih =>
      obtain ⟨m, first⟩ := can.step
      obtain ⟨d, run, ended⟩ := ih m first
      exact ⟨d, .next (.left first) run, ended⟩
  | right _ _ can _ _ ih =>
      obtain ⟨m, first⟩ := CanLeft.step can
      have step : RightStep _ m.swap := first
      obtain ⟨d, run, ended⟩ := ih m.swap step
      exact ⟨d, .next (.right step) run, ended⟩

end Good

end Link

/-- What a program at one end can see: its surroundings, what has arrived and what it
has sent. -/
structure Desk (P : Port Op Ans Byte) where
  world : P.World
  inbox : List Byte
  outbox : List Byte

/-- Bytes are only put on the desk by calls that send some. -/
def Desk.post (outbox : List Byte) : List Byte → List Byte
  | [] => outbox
  | frame => outbox ++ frame

theorem Desk.post_eq (outbox frame : List Byte) : Desk.post outbox frame = outbox ++ frame := by
  cases frame with
  | nil => exact (List.append_nil _).symm
  | cons _ _ => rfl

/-- One end on its own. It never waits for bytes that have not arrived. -/
def Port.desk (P : Port Op Ans Byte) (Safe : P.World → Prop) : Monitor Op Ans where
  State := Desk P
  Legal := fun g op answer => P.Answers g.world op (g.inbox.take (P.takes op)) answer
  Safe := fun g op _ => Safe g.world ∧ P.takes op ≤ g.inbox.length ∧
    (P.Rests g.world → g.inbox ≠ [])
  step := fun g op answer =>
    ⟨P.next g.world op answer, g.inbox.drop (P.takes op), Desk.post g.outbox (P.puts op)⟩

namespace Link.Good
variable {P Q : Port Op Ans Byte} {α β γ : Type} {K : Pact P Q α β} {here : P.World}
  {there : Q.World} {toLeft toRight : List Byte}

/-- The left program runs ahead as far as it does not wait. -/
theorem run_left {p : Program Op Ans γ} {k : γ → Program Op Ans α} {right : Program Op Ans β}
    {post : γ → Desk P → Prop} {out : List Byte} (safe : K.SafeRight there)
    (ahead : p.wp (P.desk fun world => K.SafeLeft world ∧ ¬P.Rests world) post
      ⟨here, toLeft, out⟩)
    (rest : ∀ value g, post value g →
      Good K ⟨k value, right, g.world, there, g.inbox, toRight ++ g.outbox⟩) :
    Good K ⟨p.bind k, right, here, there, toLeft, toRight ++ out⟩ := by
  induction p generalizing here toLeft out with
  | done value => exact rest value _ ahead
  | call op next ih =>
      obtain ⟨some_, answers⟩ := P.answered here op (toLeft.take (P.takes op))
      obtain ⟨⟨⟨safeHere, moving⟩, enough, -⟩, -⟩ := ahead _ rfl some_ answers
      refine .left safeHere safe ⟨op, _, rfl, enough⟩ (fun resting => absurd resting moving) ?_
      rintro _ ⟨_, _, answer, ⟨⟩, -, answers, rfl⟩
      have later := ih answer (ahead _ rfl answer answers).2
      simpa only [Desk.post_eq, List.append_assoc] using later

theorem run_right {p : Program Op Ans γ} {k : γ → Program Op Ans β} {left : Program Op Ans α}
    {post : γ → Desk Q → Prop} {out : List Byte} (safe : K.SafeLeft here)
    (ahead : p.wp (Q.desk K.SafeRight) post ⟨there, toRight, out⟩)
    (rest : ∀ value g, post value g →
      Good K ⟨left, k value, here, g.world, toLeft ++ g.outbox, g.inbox⟩) :
    Good K ⟨left, p.bind k, here, there, toLeft ++ out, toRight⟩ := by
  induction p generalizing there toRight out with
  | done value => exact rest value _ ahead
  | call op next ih =>
      obtain ⟨some_, answers⟩ := Q.answered there op (toRight.take (Q.takes op))
      obtain ⟨⟨safeThere, enough, woken⟩, -⟩ := ahead _ rfl some_ answers
      refine .right safe safeThere ⟨op, _, rfl, enough⟩ woken ?_
      rintro c' ⟨_, _, answer, ⟨⟩, -, answers, moved⟩
      obtain rfl : c' = swap _ := congrArg swap moved
      have later := ih answer (ahead _ rfl answer answers).2
      simpa only [swap, Desk.post_eq, List.append_assoc] using later

variable {σ ε : Type} {s : σ}

/-- The first part of the left code runs ahead. -/
theorem code_left {c : Code Op Ans σ ε γ} {δ : Type} {f : γ → Code Op Ans σ ε δ}
    {k : Except ε δ × σ → Program Op Ans α} {right : Program Op Ans β}
    {mid : γ → σ → Desk P → Prop} (safe : K.SafeRight there)
    (ahead : c.ensures (P.desk fun world => K.SafeLeft world ∧ ¬P.Rests world) mid s
      ⟨here, toLeft, []⟩)
    (rest : ∀ value t g, mid value t g →
      Good K ⟨(f value t).bind k, right, g.world, there, g.inbox, toRight ++ g.outbox⟩) :
    Good K ⟨((c >>= f) s).bind k, right, here, there, toLeft, toRight⟩ := by
  rw [Code.run_bind, Program.bind_assoc, ← List.append_nil toRight]
  refine run_left safe ahead ?_
  rintro _ g ⟨value, t, rfl, known⟩
  exact rest value t g known

theorem code_right {c : Code Op Ans σ ε γ} {δ : Type} {f : γ → Code Op Ans σ ε δ}
    {k : Except ε δ × σ → Program Op Ans β} {left : Program Op Ans α}
    {mid : γ → σ → Desk Q → Prop} (safe : K.SafeLeft here)
    (ahead : c.ensures (Q.desk K.SafeRight) mid s ⟨there, toRight, []⟩)
    (rest : ∀ value t g, mid value t g →
      Good K ⟨left, (f value t).bind k, here, g.world, toLeft ++ g.outbox, g.inbox⟩) :
    Good K ⟨left, ((c >>= f) s).bind k, here, there, toLeft, toRight⟩ := by
  rw [Code.run_bind, Program.bind_assoc, ← List.append_nil toLeft]
  refine run_right safe ahead ?_
  rintro _ g ⟨value, t, rfl, known⟩
  exact rest value t g known

end Link.Good
end Interaction
