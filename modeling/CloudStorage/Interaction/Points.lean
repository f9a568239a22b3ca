import CloudStorage.Interaction.Monitor

/-! The calls that a program can come to, each with what follows it. A property of
them is proved along the program and then holds wherever a run has got to. -/
namespace Interaction
variable {Op : Type} {Ans : Op → Type} {α β : Type}

namespace Program

/-- After these events the second program is left to run. -/
inductive Leads : Program Op Ans α → List (Event Op Ans) → Program Op Ans α → Prop where
  | here (p) : Leads p [] p
  | call {op next trace rest} (answer : Ans op) : Leads (next answer) trace rest →
      Leads (.call op next) (⟨op, answer⟩ :: trace) rest

/-- Every call that the program can come to satisfies `P`. -/
def Everywhere (P : (op : Op) → (Ans op → Program Op Ans α) → Prop) : Program Op Ans α → Prop
  | .done _ => True
  | .call op next => P op next ∧ ∀ answer, (next answer).Everywhere P

variable {P : (op : Op) → (Ans op → Program Op Ans α) → Prop}

theorem Everywhere.after {p rest : Program Op Ans α} {trace : List (Event Op Ans)}
    (leads : Leads p trace rest) (all : p.Everywhere P) : rest.Everywhere P := by
  induction leads with
  | here p => exact all
  | call answer leads ih => exact ih (all.2 answer)

theorem Everywhere.bind {Q : (op : Op) → (Ans op → Program Op Ans β) → Prop}
    {p : Program Op Ans α} {f : α → Program Op Ans β}
    (along : ∀ op next, P op next → Q op fun answer => (next answer).bind f)
    (first : p.Everywhere P) (rest : ∀ value, (f value).Everywhere Q) :
    (p.bind f).Everywhere Q := by
  induction p with
  | done value => exact rest value
  | call op next ih =>
      constructor
      · exact along op next first.1
      · intro answer
        exact ih answer (first.2 answer)

theorem Everywhere.translate {Op' : Type} {Ans' : Op' → Type}
    {implement : (op : Op) → Program Op' Ans' (Ans op)}
    {Q : (op : Op') → (Ans' op → Program Op' Ans' α) → Prop} {p : Program Op Ans α}
    (along : ∀ op next, P op next → (∀ answer, ((next answer).translate implement).Everywhere Q) →
      ((implement op).bind fun answer => (next answer).translate implement).Everywhere Q)
    (all : p.Everywhere P) : (p.translate implement).Everywhere Q := by
  induction p with
  | done value => trivial
  | call op next ih =>
      apply along op next all.1
      intro answer
      exact ih answer (all.2 answer)

end Program
end Interaction
