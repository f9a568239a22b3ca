import CloudStorage.Interaction.Returns

/-! Monitors that keep their own record good, and how what one monitor is owed by a
program is carried over to the program that implements its calls. -/
namespace Interaction
variable {Op Op' : Type} {Ans : Op → Type} {Ans' : Op' → Type} {α : Type}

/-- Owes that the record stays good. -/
@[reducible] def Monitor.keeping (State : Type) (observe : State → (op : Op) → Ans op → State)
    (Legal : (op : Op) → Ans op → Prop) (Good : State → Prop) : Monitor Op Ans where
  State := State
  Legal := fun _ => Legal
  Safe := fun g op answer => Good (observe g op answer)
  step := observe

namespace Monitor
variable {State : Type} {observe : State → (op : Op) → Ans op → State}
  {Legal : (op : Op) → Ans op → Prop} {Good : State → Prop}

theorem keeping_good {g : State} {trace : List (Event Op Ans)} (start : Good g)
    (safe : (keeping State observe Legal Good).SafeTrace g trace) :
    Good ((recording State observe).after g trace) := by
  induction trace generalizing g with
  | nil => exact start
  | cons e trace ih => exact ih safe.1 safe.2

theorem keeping_legal {g : State} {trace : List (Event Op Ans)}
    (legal : ∀ e ∈ trace, Legal e.op e.answer) :
    (keeping State observe Legal Good).LegalTrace g trace := by
  induction trace generalizing g with
  | nil => trivial
  | cons e trace ih =>
      constructor
      · exact legal e (List.mem_cons_self ..)
      · exact ih fun event member => legal event (List.mem_cons_of_mem _ member)

end Monitor

/-- The record is good after every execution, finished or not. -/
theorem Program.keeping_sound {State : Type} {observe : State → (op : Op) → Ans op → State}
    {Legal : (op : Op) → Ans op → Prop} {Good : State → Prop} {p : Program Op Ans α} {g : State}
    {post : α → State → Prop} {trace : List (Event Op Ans)} {result : Option α}
    (h : p.wp (.keeping State observe Legal Good) post g) (start : Good g)
    (run : Runs p trace result) (legal : ∀ e ∈ trace, Legal e.op e.answer) :
    Good ((Monitor.recording State observe).after g trace) :=
  Monitor.keeping_good start (wp_sound (fun _ => rfl) h run (Monitor.keeping_legal legal)).1

/-- Calls that change no record. -/
def Monitor.Silent {State : Type} (observe : State → (op : Op) → Ans op → State) (op : Op) : Prop :=
  ∀ g answer, observe g op answer = g

theorem Monitor.silent_stable {State : Type} {observe : State → (op : Op) → Ans op → State}
    {Legal : (op : Op) → Ans op → Prop} {Good : State → Prop} {g : State} (good : Good g) :
    (Monitor.keeping State observe Legal Good).Stable (Monitor.Silent observe)
      fun g' : State => g' = g := by
  rintro g _ rfl rfl op none_ answer -
  have same := none_ g answer
  have kept : Good (observe g op answer) := by
    rw [same]
    exact good
  exact ⟨kept, same⟩

/-- Code that makes no others leaves a good record as it is. -/
theorem Code.wp_silent {σ ε State β : Type} {observe : State → (op : Op) → Ans op → State}
    {Legal : (op : Op) → Ans op → Prop} {Good : State → Prop} {c : Code Op Ans σ ε α}
    {ends : α → Prop} {f : α → Code Op Ans σ ε β} {post : β → σ → State → Prop} {s : σ} {g : State}
    (keeps : c.Keeps (Monitor.Silent observe) ends) (good : Good g)
    (rest : ∀ value, ends value → (f value).wp (.keeping State observe Legal Good) post s g) :
    (c >>= f).wp (.keeping State observe Legal Good) post s g := by
  refine wp_seq (keeps.invariant (Monitor.silent_stable good) rfl) ?_
  rintro value _ _ ⟨rfl, ended, rfl⟩
  exact rest value ended

/-- What holds between the two records at every call holds at the end. -/
theorem Program.wp_transfer {ν : Monitor Op Ans} {μ : Monitor Op' Ans'}
    {implement : (op : Op) → Program Op' Ans' (Ans op)} {R : ν.State → μ.State → Prop}
    (alone : ∀ b, ν.Rely b b)
    (implements : ∀ b g op, R b g → (∀ answer, ν.Legal b op answer → ν.Safe b op answer) →
      (implement op).wp μ (fun answer g' => ν.Legal b op answer ∧ R (ν.step b op answer) g') g)
    {p : Program Op Ans α} {post : α → ν.State → Prop} {b : ν.State} {g : μ.State}
    (h : p.wp ν post b) (start : R b g) :
    (p.translate implement).wp μ (fun value g' => ∃ b', R b' g' ∧ post value b') g := by
  induction p generalizing b g with
  | done value => exact ⟨b, start, h⟩
  | call op next ih =>
      have owed : ∀ answer, ν.Legal b op answer → ν.Safe b op answer := fun answer legal =>
        (h b (alone b) answer legal).1
      refine wp_bind.mpr (wp_mono ?_ (implements b g op start owed))
      rintro answer g' ⟨legal, related⟩
      exact ih answer (h b (alone b) answer legal).2 related

end Interaction
