import CloudStorage.Interaction.Calculus

/-! Runs that return normally, with their events: one rule for each way of building
code. Read from left to right they take a given run apart, from right to left they
build one. -/
namespace Interaction
variable {Op : Type} {Ans : Op → Type} {α β : Type}

namespace Runs

theorem bind {p : Program Op Ans α} {f : α → Program Op Ans β} {first rest : List (Event Op Ans)}
    {value : α} {result : Option β} (start : Runs p first (some value))
    (continuation : Runs (f value) rest result) : Runs (p.bind f) (first ++ rest) result := by
  induction p generalizing first with
  | done value =>
      cases start
      exact continuation
  | call op next ih =>
      cases start with
      | call answer run => exact .call answer (ih answer run)

theorem of_bind {p : Program Op Ans α} {f : α → Program Op Ans β} {trace : List (Event Op Ans)}
    {result : β} (run : Runs (p.bind f) trace (some result)) :
    ∃ first value rest, trace = first ++ rest ∧ Runs p first (some value) ∧
      Runs (f value) rest (some result) := by
  induction p generalizing trace with
  | done value => exact ⟨[], value, trace, rfl, .done value, run⟩
  | call op next ih =>
      cases run with
      | call answer run =>
          obtain ⟨first, value, rest, rfl, start, continuation⟩ := ih answer run
          exact ⟨_, value, rest, rfl, .call answer start, continuation⟩

theorem of_call {op : Op} {next : Ans op → Program Op Ans α} {trace : List (Event Op Ans)}
    {value : α} (run : Runs (.call op next) trace (some value)) :
    ∃ answer rest, trace = ⟨op, answer⟩ :: rest ∧ Runs (next answer) rest (some value) := by
  cases run with
  | call answer run => exact ⟨answer, _, rfl, run⟩

/-- The answers decide what a program does: no run goes on after one that has ended. -/
theorem determined {p : Program Op Ans α} {first rest : List (Event Op Ans)} {value other : α}
    (short : Runs p first (some value)) (long : Runs p (first ++ rest) (some other)) :
    rest = [] ∧ other = value := by
  induction p generalizing first with
  | done value =>
      cases short
      cases long
      exact ⟨rfl, rfl⟩
  | call op next ih =>
      cases short with
      | call answer short =>
          cases long with
          | call answer long => exact ih answer short long

end Runs

/-- A monitor that watches nothing but keeps its own record of the calls. -/
def Monitor.recording {Op : Type} {Ans : Op → Type} (State : Type)
    (observe : State → (op : Op) → Ans op → State) : Monitor Op Ans where
  State := State
  Legal := fun _ _ _ => True
  Safe := fun _ _ _ => True
  step := observe

/-- Of an outcome it knows that some run led to it. -/
theorem Program.wp_recording {State : Type} {observe : State → (op : Op) → Ans op → State}
    {p : Program Op Ans α} {g : State} :
    p.wp (.recording State observe) (fun value g' => ∃ trace, Runs p trace (some value) ∧
      g' = (Monitor.recording State observe).after g trace) g := by
  induction p generalizing g with
  | done value => exact ⟨[], .done value, rfl⟩
  | call op next ih =>
      rintro _ rfl answer -
      refine ⟨trivial, wp_mono ?_ (ih answer)⟩
      rintro value _ ⟨trace, run, rfl⟩
      exact ⟨_, .call answer run, rfl⟩

/-- Where each call is carried out in a way that changes the state as `observe` says,
it is enough to look at the calls. -/
theorem Program.wp_translate {Op' : Type} {Ans' : Op' → Type}
    {implement : (op : Op) → Program Op' Ans' (Ans op)} {μ : Monitor Op' Ans'}
    {observe : μ.State → (op : Op) → Ans op → μ.State}
    (implements : ∀ g op, (implement op).wp μ (fun answer g' => g' = observe g op answer) g)
    {p : Program Op Ans α} {post : α → μ.State → Prop} {g : μ.State}
    (h : p.wp (.recording μ.State observe) post g) : (p.translate implement).wp μ post g := by
  induction p generalizing g with
  | done value => exact h
  | call op next ih =>
      refine wp_bind.mpr (wp_mono ?_ (implements g op))
      rintro answer _ rfl
      exact ih answer (h g rfl answer trivial).2

namespace Code
variable {σ ε : Type} {s t : σ} {trace : List (Event Op Ans)}

/-- The code returns the value with these events. -/
def Returns (c : Code Op Ans σ ε α) (s : σ) (trace : List (Event Op Ans)) (value : α) (t : σ) :
    Prop :=
  Runs (c s) trace (some (.ok value, t))

theorem returns_pure {value result : α} :
    (pure value : Code Op Ans σ ε α).Returns s trace result t ↔
      trace = [] ∧ result = value ∧ t = s := by
  constructor
  · rintro ⟨⟩
    exact ⟨rfl, rfl, rfl⟩
  · rintro ⟨rfl, rfl, rfl⟩
    exact .done _

theorem returns_bind {c : Code Op Ans σ ε α} {f : α → Code Op Ans σ ε β} {result : β} :
    (c >>= f).Returns s trace result t ↔
      ∃ first value mid rest, trace = first ++ rest ∧ c.Returns s first value mid ∧
        (f value).Returns mid rest result t := by
  constructor
  · intro run
    obtain ⟨first, ⟨outcome, mid⟩, rest, rfl, start, continuation⟩ := Runs.of_bind run
    cases outcome with
    | error e => exact nomatch continuation
    | ok value => exact ⟨first, value, mid, rest, rfl, start, continuation⟩
  · rintro ⟨first, value, mid, rest, rfl, start, continuation⟩
    exact Runs.bind start continuation

theorem returns_invoke {op : Op} {answer : Ans op} :
    (invoke op : Code Op Ans σ ε (Ans op)).Returns s trace answer t ↔
      trace = [⟨op, answer⟩] ∧ t = s := by
  constructor
  · intro run
    cases run with
    | call answer run =>
        cases run
        exact ⟨rfl, rfl⟩
  · rintro ⟨rfl, rfl⟩
    exact .call answer (.done _)

theorem returns_ite {condition : Prop} [Decidable condition] {yes no : Code Op Ans σ ε α}
    {result : α} :
    (if condition then yes else no).Returns s trace result t ↔
      condition ∧ yes.Returns s trace result t ∨ ¬condition ∧ no.Returns s trace result t := by
  by_cases h : condition
  · simp only [h, if_true, true_and, not_true, false_and, or_false]
  · simp only [h, if_false, false_and, not_false_iff, true_and, false_or]

/-- The forms in which sequencing is met: a call, a read or a write comes first. -/
theorem returns_invoke_bind {op : Op} {f : Ans op → Code Op Ans σ ε β} {result : β} :
    (invoke op >>= f).Returns s trace result t ↔
      ∃ answer rest, trace = ⟨op, answer⟩ :: rest ∧ (f answer).Returns s rest result t := by
  rw [returns_bind]
  constructor
  · rintro ⟨_, answer, _, rest, rfl, first, run⟩
    obtain ⟨rfl, rfl⟩ := returns_invoke.mp first
    exact ⟨answer, rest, rfl, run⟩
  · rintro ⟨answer, rest, rfl, run⟩
    exact ⟨_, answer, s, rest, rfl, returns_invoke.mpr ⟨rfl, rfl⟩, run⟩

theorem returns_get_bind {f : σ → Code Op Ans σ ε β} {result : β} :
    ((get : Code Op Ans σ ε σ) >>= f).Returns s trace result t ↔
      (f s).Returns s trace result t := Iff.rfl

theorem returns_modify_bind {update : σ → σ} {f : Unit → Code Op Ans σ ε β} {result : β} :
    ((modify update : Code Op Ans σ ε Unit) >>= f).Returns s trace result t ↔
      (f ()).Returns (update s) trace result t := Iff.rfl

end Code
end Interaction
