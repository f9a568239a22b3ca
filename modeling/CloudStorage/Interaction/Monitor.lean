import CloudStorage.Interaction.Program

/-! Executions of an interaction program under an arbitrary environment, and a
calculus for properties of all of them. A monitor reads the events of a run; its
weakest precondition of a program is computed along the program, and `sound`
transfers it to every event of every execution, finished or cut short. -/
namespace Interaction

/-- One call together with the answer it received. -/
structure Event (Op : Type) (Ans : Op → Type) where
  op : Op
  answer : Ans op

/-- The events of an execution, with its value if it ran to the end. Cutting an
execution anywhere is again an execution, so safety reads off every prefix. -/
inductive Runs {Op : Type} {Ans : Op → Type} {α : Type} :
    Program Op Ans α → List (Event Op Ans) → Option α → Prop where
  | done (value) : Runs (.done value) [] (some value)
  | cut (p) : Runs p [] none
  | call {op next trace result} (answer : Ans op) : Runs (next answer) trace result →
      Runs (.call op next) (⟨op, answer⟩ :: trace) result

/-- The execution under an environment that answers by a function of its state. -/
def Program.execute {Op W : Type} {Ans : Op → Type} {α : Type}
    (respond : W → (op : Op) → Ans op × W) : Program Op Ans α → W → List (Event Op Ans) × α
  | .done value, _ => ([], value)
  | .call op next, w =>
      let answered := respond w op
      let rest := (next answered.1).execute respond answered.2
      (⟨op, answered.1⟩ :: rest.1, rest.2)

theorem Program.execute_runs {Op W : Type} {Ans : Op → Type} {α : Type}
    (respond : W → (op : Op) → Ans op × W) (p : Program Op Ans α) (w : W) :
    Runs p (p.execute respond w).1 (some (p.execute respond w).2) := by
  induction p generalizing w with
  | done value => exact .done value
  | call op next ih => exact .call _ (ih _ _)

/-- Answers that are always of one kind are so throughout an execution. -/
theorem Program.execute_answers {Op W : Type} {Ans : Op → Type} {α : Type}
    {respond : W → (op : Op) → Ans op × W} {kind : (op : Op) → Ans op → Prop}
    (all : ∀ w op, kind op (respond w op).1) (p : Program Op Ans α) (w : W) :
    ∀ e ∈ (p.execute respond w).1, kind e.op e.answer := by
  induction p generalizing w with
  | done value => exact fun e member => nomatch member
  | call op next ih =>
      intro e member
      rcases List.mem_cons.mp member with rfl | later
      · exact all w op
      · exact ih _ _ e later

/-- An automaton over events. `Legal` bounds the answers of the environment,
`Safe` is what the program owes at each event, and `Rely` is what others may do to
the state between two events of the program. -/
structure Monitor (Op : Type) (Ans : Op → Type) where
  State : Type
  Rely : State → State → Prop := Eq
  Legal : State → (op : Op) → Ans op → Prop
  Safe : State → (op : Op) → Ans op → Prop
  step : State → (op : Op) → Ans op → State

variable {Op : Type} {Ans : Op → Type} {α β : Type}

namespace Monitor

def after (μ : Monitor Op Ans) (g : μ.State) : List (Event Op Ans) → μ.State
  | [] => g
  | e :: rest => μ.after (μ.step g e.op e.answer) rest

def LegalTrace (μ : Monitor Op Ans) (g : μ.State) : List (Event Op Ans) → Prop
  | [] => True
  | e :: rest => μ.Legal g e.op e.answer ∧ μ.LegalTrace (μ.step g e.op e.answer) rest

def SafeTrace (μ : Monitor Op Ans) (g : μ.State) : List (Event Op Ans) → Prop
  | [] => True
  | e :: rest => μ.Safe g e.op e.answer ∧ μ.SafeTrace (μ.step g e.op e.answer) rest

instance decidableLegalTrace (μ : Monitor Op Ans)
    [decidable : ∀ g op answer, Decidable (μ.Legal g op answer)] :
    ∀ g trace, Decidable (μ.LegalTrace g trace)
  | _, [] => .isTrue trivial
  | g, e :: rest =>
      have := μ.decidableLegalTrace (μ.step g e.op e.answer) rest
      inferInstanceAs (Decidable (_ ∧ _))

instance decidableSafeTrace (μ : Monitor Op Ans)
    [decidable : ∀ g op answer, Decidable (μ.Safe g op answer)] :
    ∀ g trace, Decidable (μ.SafeTrace g trace)
  | _, [] => .isTrue trivial
  | g, e :: rest =>
      have := μ.decidableSafeTrace (μ.step g e.op e.answer) rest
      inferInstanceAs (Decidable (_ ∧ _))

theorem after_append (μ : Monitor Op Ans) (g : μ.State) (first rest : List (Event Op Ans)) :
    μ.after g (first ++ rest) = μ.after (μ.after g first) rest := by
  induction first generalizing g with
  | nil => rfl
  | cons e first ih => exact ih _

theorem LegalTrace.append {μ : Monitor Op Ans} {g : μ.State} {first rest : List (Event Op Ans)} :
    μ.LegalTrace g (first ++ rest) ↔
      μ.LegalTrace g first ∧ μ.LegalTrace (μ.after g first) rest := by
  induction first generalizing g with
  | nil => exact ⟨fun h => ⟨trivial, h⟩, fun h => h.2⟩
  | cons e first ih => simp only [List.cons_append, LegalTrace, after, ih, and_assoc]

theorem SafeTrace.append {μ : Monitor Op Ans} {g : μ.State} {first rest : List (Event Op Ans)} :
    μ.SafeTrace g (first ++ rest) ↔
      μ.SafeTrace g first ∧ μ.SafeTrace (μ.after g first) rest := by
  induction first generalizing g with
  | nil => exact ⟨fun h => ⟨trivial, h⟩, fun h => h.2⟩
  | cons e first ih => simp only [List.cons_append, SafeTrace, after, ih, and_assoc]

/-- The obligation at the event that follows a prefix of a safe trace. -/
theorem SafeTrace.at {μ : Monitor Op Ans} {g : μ.State} {first rest : List (Event Op Ans)}
    {e : Event Op Ans} (safe : μ.SafeTrace g (first ++ e :: rest)) :
    μ.Safe (μ.after g first) e.op e.answer :=
  (SafeTrace.append.mp safe).2.1

end Monitor

namespace Program

/-- Whatever the environment legally answers, every event is safe and the final
value and monitor state satisfy `post`. -/
def wp (μ : Monitor Op Ans) : Program Op Ans α → (α → μ.State → Prop) → μ.State → Prop
  | .done value, post, g => post value g
  | .call op next, post, g =>
      ∀ h, μ.Rely g h → ∀ answer, μ.Legal h op answer →
        μ.Safe h op answer ∧ (next answer).wp μ post (μ.step h op answer)

variable {μ : Monitor Op Ans}

theorem wp_mono {p : Program Op Ans α} {post post' : α → μ.State → Prop} {g : μ.State}
    (weaker : ∀ value g, post value g → post' value g) (h : p.wp μ post g) :
    p.wp μ post' g := by
  induction p generalizing g with
  | done value => exact weaker _ _ h
  | call op next ih =>
      intro between others answer legal
      obtain ⟨safe, rest⟩ := h between others answer legal
      exact ⟨safe, ih answer rest⟩

theorem wp_bind {p : Program Op Ans α} {f : α → Program Op Ans β} {post : β → μ.State → Prop}
    {g : μ.State} :
    (p.bind f).wp μ post g ↔ p.wp μ (fun value g' => (f value).wp μ post g') g := by
  induction p generalizing g with
  | done value => exact Iff.rfl
  | call op next ih => simp only [call_bind, wp, ih]

/-- The calculus speaks about executions: every one is safe throughout, and a
finished one ends in the postcondition. -/
theorem wp_sound {p : Program Op Ans α} {post : α → μ.State → Prop} {g : μ.State}
    {trace : List (Event Op Ans)} {result : Option α}
    (alone : ∀ g, μ.Rely g g) (h : p.wp μ post g) (run : Runs p trace result)
    (legal : μ.LegalTrace g trace) :
    μ.SafeTrace g trace ∧ ∀ value ∈ result, post value (μ.after g trace) := by
  induction run generalizing g with
  | done value => exact ⟨trivial, by rintro _ ⟨⟩; exact h⟩
  | cut p => exact ⟨trivial, by simp⟩
  | call answer run ih =>
      obtain ⟨safe, rest⟩ := h _ (alone _) answer legal.1
      obtain ⟨tail, ends⟩ := ih rest legal.2
      exact ⟨⟨safe, tail⟩, ends⟩

end Program
end Interaction
