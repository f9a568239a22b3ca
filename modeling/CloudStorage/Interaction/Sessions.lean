import CloudStorage.Interaction.Calculus

/-! Many programs at once. A log interleaves the events of all sessions; each session
has its own part of it, and what may come next depends on all that came before. What a
single program does is learnt from a monitor that remembers its events. -/
namespace Interaction
variable {Id Op : Type} {Ans : Op → Type} {α β : Type}

abbrev Log (Id Op : Type) (Ans : Op → Type) := List (Id × Event Op Ans)

namespace Log
variable [DecidableEq Id] {id : Id} {e : Event Op Ans} {log : Log Id Op Ans}

def own (log : Log Id Op Ans) (id : Id) : List (Event Op Ans) :=
  log.filterMap fun entry => if entry.1 = id then some entry.2 else none

@[simp] theorem own_nil : own ([] : Log Id Op Ans) id = [] := rfl

@[simp] theorem own_cons_self : own ((id, e) :: log) id = e :: own log id := by
  simp [own]

@[simp] theorem mem_own : e ∈ log.own id ↔ (id, e) ∈ log := by
  rw [own, List.mem_filterMap]
  constructor
  · rintro ⟨⟨other, event⟩, member, kept⟩
    by_cases same : other = id
    · rw [if_pos same, Option.some.injEq] at kept
      exact same ▸ kept ▸ member
    · rw [if_neg same] at kept
      cases kept
  · intro member
    exact ⟨(id, e), member, if_pos rfl⟩

@[simp] theorem own_append {later : Log Id Op Ans} :
    own (log ++ later) id = log.own id ++ own later id := by
  simp only [own, List.filterMap_append]

/-- Events of one session in a row. -/
def turn (id : Id) (events : List (Event Op Ans)) : Log Id Op Ans := events.map fun e => (id, e)

@[simp] theorem own_turn_self (events : List (Event Op Ans)) : own (turn id events) id = events := by
  induction events with
  | nil => rfl
  | cons e events ih => exact own_cons_self.trans (congrArg (e :: ·) ih)

theorem own_turn_other {other : Id} (differs : other ≠ id) (events : List (Event Op Ans)) :
    own (turn other events) id = [] := by
  simp [own, turn, List.filterMap_map, differs]

omit [DecidableEq Id] in
theorem mem_turn {events : List (Event Op Ans)} (member : e ∈ events) : (id, e) ∈ turn id events :=
  List.mem_map_of_mem member

end Log

/-- Each event was allowed by the log before it. -/
inductive Lawful (Allowed : Log Id Op Ans → Id → Event Op Ans → Prop) : Log Id Op Ans → Prop where
  | nil : Lawful Allowed []
  | snoc {log id e} : Lawful Allowed log → Allowed log id e → Lawful Allowed (log ++ [(id, e)])

namespace Lawful
variable {Allowed : Log Id Op Ans → Id → Event Op Ans → Prop} {log : Log Id Op Ans} {id : Id}
  {e : Event Op Ans}

theorem allowed (lawful : Lawful Allowed log) (member : (id, e) ∈ log) :
    ∃ earlier, earlier ⊆ log ∧ Allowed earlier id e := by
  induction lawful with
  | nil => cases member
  | @snoc log other event _ next ih =>
      rcases List.mem_append.mp member with before | last
      · obtain ⟨earlier, within, allows⟩ := ih before
        exact ⟨earlier, fun _ early => List.mem_append_left _ (within early), allows⟩
      · obtain ⟨rfl, rfl⟩ := Prod.mk.inj (List.mem_singleton.mp last)
        exact ⟨log, List.subset_append_left .., next⟩

/-- An event that no session may repeat belongs to one session. -/
theorem unique (kind : Event Op Ans → Prop) (lawful : Lawful Allowed log)
    (fresh : ∀ log id e, Allowed log id e → kind e → ∀ other, (other, e) ∉ log)
    (isKind : kind e) {other : Id} (first : (id, e) ∈ log) (second : (other, e) ∈ log) :
    id = other := by
  induction lawful with
  | nil => cases first
  | @snoc log owner event _ next ih =>
      rcases List.mem_append.mp first with old | new
      · rcases List.mem_append.mp second with old' | new'
        · exact ih old old'
        · obtain ⟨rfl, rfl⟩ := Prod.mk.inj (List.mem_singleton.mp new')
          exact absurd old (fresh _ _ _ next isKind _)
      · obtain ⟨rfl, rfl⟩ := Prod.mk.inj (List.mem_singleton.mp new)
        rcases List.mem_append.mp second with old' | new'
        · exact absurd old' (fresh _ _ _ next isKind _)
        · exact (Prod.mk.inj (List.mem_singleton.mp new')).1.symm

end Lawful

/-- Remembers all events, the last one first. `Because` is what must have happened
before an event. -/
def Monitor.history (Legal : (op : Op) → Ans op → Prop)
    (Because : List (Event Op Ans) → (op : Op) → Ans op → Prop) : Monitor Op Ans where
  State := List (Event Op Ans)
  Legal := fun _ => Legal
  Safe := Because
  step := fun past op answer => ⟨op, answer⟩ :: past

namespace Monitor
variable {Legal : (op : Op) → Ans op → Prop}
  {Because : List (Event Op Ans) → (op : Op) → Ans op → Prop}

theorem history_after (past trace : List (Event Op Ans)) :
    (history Legal Because).after past trace = trace.reverse ++ past := by
  induction trace generalizing past with
  | nil => rfl
  | cons e trace ih =>
      rw [List.reverse_cons, List.append_assoc]
      exact ih _

theorem history_legal {past trace : List (Event Op Ans)}
    (legal : ∀ e ∈ trace, Legal e.op e.answer) :
    (history Legal Because).LegalTrace past trace := by
  induction trace generalizing past with
  | nil => trivial
  | cons e trace ih =>
      refine ⟨legal e (List.mem_cons_self ..), ih ?_⟩
      exact fun event member => legal event (List.mem_cons_of_mem _ member)

end Monitor

section History
variable {Legal : (op : Op) → Ans op → Prop}
  {Because : List (Event Op Ans) → (op : Op) → Ans op → Prop}

/-- Every event of an execution, finished or not, has its reason in the events before it. -/
theorem Program.wp_history {p : Program Op Ans α} {post : α → List (Event Op Ans) → Prop}
    {trace : List (Event Op Ans)} {result : Option α}
    (h : p.wp (.history Legal Because) post []) (run : Runs p trace result)
    (legal : ∀ e ∈ trace, Legal e.op e.answer) :
    (∀ first e rest, trace = first ++ e :: rest → Because first.reverse e.op e.answer) ∧
      ∀ value ∈ result, post value trace.reverse := by
  obtain ⟨safe, ends⟩ := wp_sound (fun _ => rfl) h run (Monitor.history_legal legal)
  constructor
  · rintro first e rest rfl
    have reason := safe.at
    rwa [Monitor.history_after, List.append_nil] at reason
  · intro value returned
    have final := ends value returned
    rwa [Monitor.history_after, List.append_nil] at final

/-- One call, with what it adds to the past. -/
theorem Code.wp_history_call {σ ε : Type} {op : Op} {f : Ans op → Code Op Ans σ ε β} {s : σ}
    {post : β → σ → List (Event Op Ans) → Prop} {past : List (Event Op Ans)}
    (rest : ∀ answer, Legal op answer → Because past op answer ∧
      (f answer).wp (.history Legal Because) post s (⟨op, answer⟩ :: past)) :
    (invoke op >>= f).wp (.history Legal Because) post s past := by
  refine wp_bind.mpr (wp_invoke.mpr ?_)
  rintro _ rfl answer legal
  exact rest answer legal

end History
end Interaction
