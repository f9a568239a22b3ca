import CloudStorage.Interaction.Link

/-! A schedule that can be evaluated: the right program goes on whenever it can, and the
left one while the right one waits. -/
namespace Interaction
variable {Op : Type} {Ans : Op → Type} {Byte : Type} {P Q : Port Op Ans Byte} {α β : Type}

/-- One answer to every call at an end. -/
structure Port.Clerk (P : Port Op Ans Byte) where
  reply : P.World → (op : Op) → List Byte → Ans op
  answers : ∀ world op bytes, P.Answers world op bytes (reply world op bytes)

namespace Link
variable {p : P.Clerk} {q : Q.Clerk} {c d : Link P Q α β}

def leftTurn (p : P.Clerk) (c : Link P Q α β) : Option (Link P Q α β) :=
  match c.left with
  | .done _ => none
  | .call op next =>
      let answer := p.reply c.here op (c.toLeft.take (P.takes op))
      if P.takes op ≤ c.toLeft.length then
        some ⟨next answer, c.right, P.next c.here op answer, c.there,
          c.toLeft.drop (P.takes op), c.toRight ++ P.puts op⟩
      else none

def rightTurn (q : Q.Clerk) (c : Link P Q α β) : Option (Link P Q α β) :=
  (leftTurn q c.swap).map swap

def turn (p : P.Clerk) (q : Q.Clerk) (c : Link P Q α β) : Option (Link P Q α β) :=
  match rightTurn q c with
  | some d => some d
  | none => leftTurn p c

/-- At most so many steps. -/
def play (p : P.Clerk) (q : Q.Clerk) (steps : Nat) (c : Link P Q α β) : Link P Q α β :=
  match steps with
  | 0 => c
  | steps + 1 =>
      match turn p q c with
      | some d => play p q steps d
      | none => c

theorem leftTurn_step (goes : leftTurn p c = some d) : LeftStep c d := by
  obtain ⟨left, right, here, there, toLeft, toRight⟩ := c
  cases left with
  | done value => exact nomatch goes
  | call op next =>
      simp only [leftTurn] at goes
      by_cases enough : P.takes op ≤ toLeft.length
      · rw [if_pos enough] at goes
        obtain rfl := Option.some.inj goes
        exact ⟨op, next, _, rfl, enough, p.answers _ _ _, rfl⟩
      · rw [if_neg enough] at goes
        exact nomatch goes

theorem rightTurn_step (goes : rightTurn q c = some d) : RightStep c d := by
  obtain ⟨e, moved, rfl⟩ := Option.map_eq_some_iff.mp goes
  exact leftTurn_step moved

theorem turn_step (goes : turn p q c = some d) : Step c d := by
  unfold turn at goes
  split at goes
  · rename_i e right
    obtain rfl := Option.some.inj goes
    exact .right (rightTurn_step right)
  · exact .left (leftTurn_step goes)

theorem leftTurn_none (stays : leftTurn p c = none) : ¬CanLeft c := by
  obtain ⟨left, right, here, there, toLeft, toRight⟩ := c
  rintro ⟨op, next, rfl, enough⟩
  simp only [leftTurn] at stays
  rw [if_pos enough] at stays
  exact nomatch stays

/-- Neither program can go on. -/
theorem turn_none (stays : turn p q c = none) : ¬CanLeft c ∧ ¬CanRight c := by
  unfold turn at stays
  split at stays
  · exact nomatch stays
  · rename_i waits
    exact ⟨leftTurn_none stays, leftTurn_none (Option.map_eq_none_iff.mp waits)⟩

theorem play_reaches (steps : Nat) (c : Link P Q α β) : Reaches c (play p q steps c) := by
  induction steps generalizing c with
  | zero => exact .refl c
  | succ steps ih =>
      unfold play
      split
      · rename_i d goes
        exact .next (turn_step goes) (ih d)
      · exact .refl c

end Link
end Interaction
