/-! Programs that interact with an environment. A program is a finite tree of
calls; each call names an operation and continues with whatever the environment
answers. Nothing here fixes the operations: what an answer may be is decided by
the semantics a development gives to them. -/
namespace Interaction

inductive Program (Op : Type) (Ans : Op → Type) (α : Type) where
  | done (value : α)
  | call (op : Op) (next : Ans op → Program Op Ans α)

namespace Program
variable {Op Op' : Type} {Ans : Op → Type} {Ans' : Op' → Type} {α β γ : Type}

def bind : Program Op Ans α → (α → Program Op Ans β) → Program Op Ans β
  | .done value, f => f value
  | .call op next, f => .call op fun answer => (next answer).bind f

/-- Replaces every call by a program over other operations. -/
def translate (implement : (op : Op) → Program Op' Ans' (Ans op)) :
    Program Op Ans α → Program Op' Ans' α
  | .done value => .done value
  | .call op next => (implement op).bind fun answer => (next answer).translate implement

@[simp] theorem done_bind (value : α) (f : α → Program Op Ans β) :
    (Program.done value).bind f = f value := rfl

@[simp] theorem call_bind (op : Op) (next : Ans op → Program Op Ans α)
    (f : α → Program Op Ans β) :
    (Program.call op next).bind f = .call op fun answer => (next answer).bind f := rfl

@[simp] theorem bind_done (p : Program Op Ans α) : p.bind .done = p := by
  induction p with
  | done value => rfl
  | call op next ih => simp only [call_bind, ih]

theorem bind_assoc (p : Program Op Ans α) (f : α → Program Op Ans β)
    (g : β → Program Op Ans γ) :
    (p.bind f).bind g = p.bind fun value => (f value).bind g := by
  induction p with
  | done value => rfl
  | call op next ih => simp only [call_bind, ih]

end Program

/-- Sequential code over a private state `σ` that may throw `ε`: the shape of a
method body, with its fields in `σ`. -/
def Code (Op : Type) (Ans : Op → Type) (σ ε α : Type) : Type :=
  σ → Program Op Ans (Except ε α × σ)

namespace Code
variable {Op : Type} {Ans : Op → Type} {σ ε α β : Type}

protected def pure (value : α) : Code Op Ans σ ε α := fun s => .done (.ok value, s)

protected def bind (c : Code Op Ans σ ε α) (f : α → Code Op Ans σ ε β) :
    Code Op Ans σ ε β := fun s =>
  Program.bind (c s) fun
    | (.ok value, t) => f value t
    | (.error e, t) => .done (.error e, t)

instance : Monad (Code Op Ans σ ε) where
  pure := Code.pure
  bind := Code.bind

def invoke (op : Op) : Code Op Ans σ ε (Ans op) := fun s =>
  .call op fun answer => .done (.ok answer, s)

def get : Code Op Ans σ ε σ := fun s => .done (.ok s, s)

def modify (f : σ → σ) : Code Op Ans σ ε Unit := fun s => .done (.ok (), f s)

def throw (e : ε) : Code Op Ans σ ε α := fun s => .done (.error e, s)

theorem run_pure (value : α) (s : σ) :
    (Pure.pure value : Code Op Ans σ ε α) s = .done (.ok value, s) := rfl

theorem pure_bind (value : α) (f : α → Code Op Ans σ ε β) :
    ((Pure.pure value : Code Op Ans σ ε α) >>= f) = f value := rfl

theorem run_get (f : σ → Code Op Ans σ ε β) (s : σ) : (get >>= f) s = f s s := rfl

theorem run_modify (update : σ → σ) (f : Unit → Code Op Ans σ ε β) (s : σ) :
    (modify update >>= f) s = f () (update s) := rfl

theorem run_bind (c : Code Op Ans σ ε α) (f : α → Code Op Ans σ ε β) (s : σ) :
    (c >>= f) s = Program.bind (c s) fun
      | (.ok value, t) => f value t
      | (.error e, t) => .done (.error e, t) := rfl

theorem bind_pure (c : Code Op Ans σ ε α) : c >>= pure = c := by
  funext s
  rw [run_bind]
  refine Eq.trans (congrArg (Program.bind (c s)) (funext ?_)) (Program.bind_done (c s))
  rintro ⟨result, t⟩
  cases result with
  | error e => rfl
  | ok value => rfl

theorem bind_assoc {γ : Type} (c : Code Op Ans σ ε α) (f : α → Code Op Ans σ ε β)
    (g : β → Code Op Ans σ ε γ) : c >>= f >>= g = c >>= fun value => f value >>= g := by
  funext s
  simp only [run_bind, Program.bind_assoc]
  congr
  funext ⟨result, t⟩
  cases result with
  | error e => rfl
  | ok value => rfl

end Code
end Interaction
