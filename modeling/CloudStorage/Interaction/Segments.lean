import CloudStorage.Interaction.Link

/-! Parts of a run that are already known from another pair of ports: where the calls of
both programs are answered as there, the schedule that goes well there goes well here. -/
namespace Interaction
variable {Op : Type} {Ans : Op → Type} {Byte : Type}

/-- On quiet calls the port `P'` moves the bytes of `P` and answers no more than `P`. -/
structure Port.Mimics (P' P : Port Op Ans Byte) (quiet : Op → Prop)
    (Matches : P'.World → P.World → Prop) : Prop where
  takes : ∀ op, P'.takes op = P.takes op
  puts : ∀ op, P'.puts op = P.puts op
  answers : ∀ w' w op bytes answer, Matches w' w → quiet op →
    P'.Answers w' op bytes answer → P.Answers w op bytes answer
  next : ∀ w' w op bytes answer, Matches w' w → quiet op →
    P'.Answers w' op bytes answer → Matches (P'.next w' op answer) (P.next w op answer)

/-- Every call of the program is of the kind. -/
abbrev Program.Only (kind : Op → Prop) {α : Type} (p : Program Op Ans α) : Prop :=
  p.wp (.confine kind) (fun _ _ => True) ()

namespace Link
variable {P Q P' Q' : Port Op Ans Byte} {α β γ δ : Type}

/-- Nothing is asked of a run but its end. -/
structure Pact.Carefree (K : Pact P Q α β) : Prop where
  safeLeft : ∀ world, K.SafeLeft world
  safeRight : ∀ world, K.SafeRight world
  awakeLeft : ∀ world, ¬P.Rests world
  awakeRight : ∀ world, ¬Q.Rests world

theorem canLeft_call {op : Op} {next : Ans op → Program Op Ans α} {right : Program Op Ans β}
    {here : P.World} {there : Q.World} {toLeft toRight : List Byte} :
    CanLeft ⟨.call op next, right, here, there, toLeft, toRight⟩ ↔
      P.takes op ≤ toLeft.length := by
  constructor
  · rintro ⟨_, _, calls, enough⟩
    cases calls
    exact enough
  · intro enough
    exact ⟨op, next, rfl, enough⟩

variable {K : Pact P Q γ δ} {K' : Pact P' Q' α β} {quiet quiet' : Op → Prop}
  {MatchesLeft : P'.World → P.World → Prop} {MatchesRight : Q'.World → Q.World → Prop}

/-- A stretch of both programs whose calls are quiet goes as it goes between `P` and `Q`. -/
theorem Good.segment (carefree : K'.Carefree) (left : P'.Mimics P quiet MatchesLeft)
    (right : Q'.Mimics Q quiet' MatchesRight) {c : Link P Q γ δ} (good : Good K c)
    (onlyLeft : c.left.Only quiet) (onlyRight : c.right.Only quiet')
    {here : P'.World} {there : Q'.World} (matchesLeft : MatchesLeft here c.here)
    (matchesRight : MatchesRight there c.there) {k : γ → Program Op Ans α}
    {k' : δ → Program Op Ans β}
    (rest : ∀ d here there, K.Ends d → MatchesLeft here d.here → MatchesRight there d.there →
      Good K' ⟨d.left.bind k, d.right.bind k', here, there, d.toLeft, d.toRight⟩) :
    Good K' ⟨c.left.bind k, c.right.bind k', here, there, c.toLeft, c.toRight⟩ := by
  induction good generalizing here there with
  | stop _ _ _ _ _ ends => exact rest _ here there ends matchesLeft matchesRight
  | @left c _ _ can _ _ ih =>
      obtain ⟨p, q, w, v, toLeft, toRight⟩ := c
      obtain ⟨op, next, rfl, enough⟩ := can
      have ready : P'.takes op ≤ toLeft.length := Nat.le_trans (Nat.le_of_eq (left.takes op)) enough
      refine .left (carefree.safeLeft _) (carefree.safeRight _) ⟨op, _, rfl, ready⟩
        (fun resting => absurd resting (carefree.awakeLeft _)) ?_
      rintro _ ⟨_, _, answer, ⟨⟩, -, answers, rfl⟩
      obtain ⟨isQuiet, onward⟩ := onlyLeft () rfl answer trivial
      dsimp only at answers ⊢
      have known := left.answers _ _ _ _ _ matchesLeft isQuiet answers
      have follows := left.next _ _ _ _ _ matchesLeft isQuiet answers
      rw [left.takes] at known
      rw [left.takes, left.puts]
      exact ih _ ⟨op, next, answer, rfl, enough, known, rfl⟩ onward onlyRight follows matchesRight
  | @right c _ _ can _ _ ih =>
      obtain ⟨p, q, w, v, toLeft, toRight⟩ := c
      obtain ⟨op, next, calls, enough⟩ := can
      obtain rfl : q = .call op next := calls
      have ready : Q'.takes op ≤ toRight.length :=
        Nat.le_trans (Nat.le_of_eq (right.takes op)) enough
      refine .right (carefree.safeLeft _) (carefree.safeRight _) ⟨op, _, rfl, ready⟩
        (fun resting => absurd resting (carefree.awakeRight _)) ?_
      rintro c' ⟨_, _, answer, ⟨⟩, -, answers, moved⟩
      obtain rfl : c' = swap _ := congrArg swap moved
      obtain ⟨isQuiet, onward⟩ := onlyRight () rfl answer trivial
      have known := right.answers _ _ _ _ _ matchesRight isQuiet answers
      have follows := right.next _ _ _ _ _ matchesRight isQuiet answers
      rw [right.takes] at known
      simp only [swap]
      rw [right.takes, right.puts]
      have step : RightStep (⟨p, .call op next, w, v, toLeft, toRight⟩ : Link P Q γ δ)
          ⟨p, next answer, w, Q.next v op answer, toLeft ++ Q.puts op,
            toRight.drop (Q.takes op)⟩ := ⟨op, next, answer, rfl, enough, known, rfl⟩
      exact ih _ step onlyLeft onward matchesLeft follows

/-- A call of the left program that moves no bytes. -/
theorem Good.call_left (carefree : K'.Carefree) {op : Op} {next : Ans op → Program Op Ans α}
    {p : Program Op Ans β} {here : P'.World} {there : Q'.World} {toLeft toRight : List Byte}
    (takes : P'.takes op = 0) (puts : P'.puts op = [])
    (rest : ∀ answer, P'.Answers here op [] answer →
      Good K' ⟨next answer, p, P'.next here op answer, there, toLeft, toRight⟩) :
    Good K' ⟨.call op next, p, here, there, toLeft, toRight⟩ := by
  refine .left (carefree.safeLeft _) (carefree.safeRight _)
    (canLeft_call.mpr (takes ▸ Nat.zero_le _))
    (fun resting => absurd resting (carefree.awakeLeft _)) ?_
  rintro _ ⟨_, _, answer, ⟨⟩, -, answers, rfl⟩
  dsimp only at answers ⊢
  rw [takes, List.take_zero] at answers
  rw [takes, puts, List.drop_zero, List.append_nil]
  exact rest answer answers

theorem Good.call_right (carefree : K'.Carefree) {op : Op} {next : Ans op → Program Op Ans β}
    {p : Program Op Ans α} {here : P'.World} {there : Q'.World} {toLeft toRight : List Byte}
    (takes : Q'.takes op = 0) (puts : Q'.puts op = [])
    (rest : ∀ answer, Q'.Answers there op [] answer →
      Good K' ⟨p, next answer, here, Q'.next there op answer, toLeft, toRight⟩) :
    Good K' ⟨p, .call op next, here, there, toLeft, toRight⟩ := by
  refine .right (carefree.safeLeft _) (carefree.safeRight _)
    ⟨op, next, rfl, takes ▸ Nat.zero_le _⟩
    (fun resting => absurd resting (carefree.awakeRight _)) ?_
  rintro c' ⟨_, _, answer, ⟨⟩, -, answers, moved⟩
  obtain rfl : c' = swap _ := congrArg swap moved
  simp only [swap, takes, List.take_zero] at answers ⊢
  rw [puts, List.drop_zero, List.append_nil]
  exact rest answer answers

end Link
end Interaction
