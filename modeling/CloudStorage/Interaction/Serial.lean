import CloudStorage.Interaction.Sessions
import Mathlib.Data.Set.Finite.Basic
import Mathlib.Logic.Function.Basic
import Mathlib.Order.WellFounded

/-! Participants that share a memory. An action looks at some cells and sets some; two
actions that keep clear of each other can change places. If the order in which
participants get in each other's way has no cycle, they could as well have acted one after
the other. -/
namespace Interaction

/-- A memory of cells. What an action of a participant may answer, and which cells it sets
to what, depends only on the cells that it looks at. -/
structure SharedMemory (Id Op : Type) (Ans : Op → Type) where
  Cell : Type
  decidableEq : DecidableEq Cell
  Value : Cell → Type
  Allowed : (∀ cell, Value cell) → Id → (op : Op) → Ans op → Prop
  looks : (∀ cell, Value cell) → Id → Op → Set Cell
  assigns : (∀ cell, Value cell) → Id → Op → List (Σ cell, Value cell)
  blind : ∀ m m' id op, (∀ cell ∈ looks m id op, m' cell = m cell) →
    looks m' id op = looks m id op ∧ assigns m' id op = assigns m id op ∧
      ∀ answer, Allowed m id op answer → Allowed m' id op answer

namespace SharedMemory
variable {Id Op : Type} {Ans : Op → Type} (M : SharedMemory Id Op Ans)

instance : DecidableEq M.Cell := M.decidableEq

abbrev State := ∀ cell, M.Value cell

def assign (m : M.State) : List (Σ cell, M.Value cell) → M.State
  | [] => m
  | ⟨cell, value⟩ :: rest => assign (Function.update m cell value) rest

def sets (m : M.State) (id : Id) (op : Op) : Set M.Cell :=
  {cell | cell ∈ (M.assigns m id op).map Sigma.fst}

/-- Who touched what. -/
structure Access where
  id : Id
  looked : Set M.Cell
  changed : Set M.Cell

def access (m : M.State) (entry : Id × Event Op Ans) : M.Access :=
  ⟨entry.1, M.looks m entry.1 entry.2.op, M.sets m entry.1 entry.2.op⟩

def act (m : M.State) (entry : Id × Event Op Ans) : M.State :=
  M.assign m (M.assigns m entry.1 entry.2.op)

def Allows (m : M.State) (entry : Id × Event Op Ans) : Prop :=
  M.Allowed m entry.1 entry.2.op entry.2.answer

def after (m : M.State) : Log Id Op Ans → M.State
  | [] => m
  | entry :: log => after (M.act m entry) log

/-- Every event is one that the memory allows. -/
def Follows (m : M.State) : Log Id Op Ans → Prop
  | [] => True
  | entry :: log => M.Allows m entry ∧ Follows (M.act m entry) log

instance decidableFollows
    [decidable : ∀ (m : M.State) id op answer, Decidable (M.Allowed m id op answer)] :
    ∀ (m : M.State) (log : Log Id Op Ans), Decidable (M.Follows m log)
  | _, [] => .isTrue trivial
  | m, entry :: log =>
      have : Decidable (M.Allows m entry) := decidable m entry.1 entry.2.op entry.2.answer
      have := decidableFollows (M.act m entry) log
      inferInstanceAs (Decidable (_ ∧ _))

def accesses (m : M.State) : Log Id Op Ans → List M.Access
  | [] => []
  | entry :: log => M.access m entry :: accesses (M.act m entry) log

variable {M}

theorem assign_of_notMem {assignments : List (Σ cell, M.Value cell)} {m : M.State} {cell : M.Cell}
    (untouched : cell ∉ assignments.map Sigma.fst) : M.assign m assignments cell = m cell := by
  induction assignments generalizing m with
  | nil => rfl
  | cons assignment rest ih =>
      rw [List.map_cons, List.mem_cons, not_or] at untouched
      rw [assign, ih untouched.2, Function.update_of_ne untouched.1]

theorem assign_congr {assignments : List (Σ cell, M.Value cell)} {m m' : M.State} {cell : M.Cell}
    (same : m' cell = m cell ∨ cell ∈ assignments.map Sigma.fst) :
    M.assign m' assignments cell = M.assign m assignments cell := by
  induction assignments generalizing m m' with
  | nil => exact same.resolve_right List.not_mem_nil
  | cons assignment rest ih =>
      obtain ⟨target, value⟩ := assignment
      apply ih
      by_cases here : cell = target
      · subst here
        simp only [Function.update_self, true_or]
      · simpa only [Function.update_of_ne here, List.map_cons, List.mem_cons, here, false_or]
          using same

/-- Neither changes a cell that the other touches. -/
def Access.Apart (x y : M.Access) : Prop :=
  (∀ cell ∈ x.changed, cell ∉ y.looked ∧ cell ∉ y.changed) ∧ ∀ cell ∈ y.changed, cell ∉ x.looked

variable (M) in
/-- One participant touched a cell before another did, and one of them changed it. -/
def Precedes (m : M.State) (log : Log Id Op Ans) (first second : Id) : Prop :=
  first ≠ second ∧ ∃ x y, [x, y].Sublist (M.accesses m log) ∧ x.id = first ∧ y.id = second ∧
    ¬x.Apart y

section Exchange
variable {m : M.State} {x y : Id × Event Op Ans}

theorem frame {cell : M.Cell} (unset : cell ∉ M.sets m x.1 x.2.op) : M.act m x cell = m cell :=
  assign_of_notMem unset

theorem Access.Apart.unchanged (apart : (M.access m x).Apart (M.access (M.act m x) y)) :
    ∀ cell ∈ M.looks (M.act m x) y.1 y.2.op, m cell = M.act m x cell := by
  intro cell looked
  symm
  apply frame
  intro changed
  exact (apart.1 cell changed).1 looked

theorem access_earlier (apart : (M.access m x).Apart (M.access (M.act m x) y)) :
    M.access m y = M.access (M.act m x) y := by
  obtain ⟨looks, assigns, -⟩ := M.blind _ _ _ _ apart.unchanged
  simp only [access, sets, looks, assigns]

/-- Neither sees that the other came first. -/
theorem Access.Apart.untouched (apart : (M.access m x).Apart (M.access (M.act m x) y)) :
    ∀ cell ∈ M.looks m x.1 x.2.op, M.act m y cell = m cell := by
  intro cell looked
  apply frame
  intro changed
  have later : cell ∈ (M.access (M.act m x) y).changed := by
    rw [← access_earlier apart]
    exact changed
  exact apart.2 cell later looked

theorem access_later (apart : (M.access m x).Apart (M.access (M.act m x) y)) :
    M.access (M.act m y) x = M.access m x := by
  obtain ⟨looks, assigns, -⟩ := M.blind _ _ _ _ apart.untouched
  simp only [access, sets, looks, assigns]

theorem act_commutes (apart : (M.access m x).Apart (M.access (M.act m x) y)) :
    M.act (M.act m y) x = M.act (M.act m x) y := by
  have early : M.assigns m y.1 y.2.op = M.assigns (M.act m x) y.1 y.2.op :=
    (M.blind _ _ _ _ apart.unchanged).2.1
  have late : M.assigns (M.act m y) x.1 x.2.op = M.assigns m x.1 x.2.op :=
    (M.blind _ _ _ _ apart.untouched).2.1
  funext cell
  by_cases first : cell ∈ M.sets m x.1 x.2.op
  · have second : cell ∉ M.sets (M.act m x) y.1 y.2.op := (apart.1 cell first).2
    calc M.act (M.act m y) x cell = M.act m x cell := by
          rw [act, late]
          exact assign_congr (.inr first)
      _ = M.act (M.act m x) y cell := (frame second).symm
  · have skipped : cell ∉ M.sets (M.act m y) x.1 x.2.op := by
      rw [sets, late]
      exact first
    calc M.act (M.act m y) x cell = M.act m y cell := frame skipped
      _ = M.act (M.act m x) y cell := by
          rw [act, early]
          exact assign_congr (.inl (frame first).symm)

theorem allows_exchanged (apart : (M.access m x).Apart (M.access (M.act m x) y))
    (first : M.Allows m x) (second : M.Allows (M.act m x) y) :
    M.Allows m y ∧ M.Allows (M.act m y) x := by
  constructor
  · exact (M.blind _ _ _ _ apart.unchanged).2.2 _ second
  · exact (M.blind _ _ _ _ apart.untouched).2.2 _ first

end Exchange

/-- An event that stands clear of all that follow can be moved behind them. -/
theorem postpone {x : Id × Event Op Ans} {block : Log Id Op Ans} {m : M.State}
    (apart : ∀ y ∈ M.accesses (M.act m x) block, (M.access m x).Apart y) :
    M.accesses m block = M.accesses (M.act m x) block ∧
      M.access (M.after m block) x = M.access m x ∧
      M.act (M.after m block) x = M.after (M.act m x) block ∧
      (M.Allows m x → M.Follows (M.act m x) block →
        M.Follows m block ∧ M.Allows (M.after m block) x) := by
  induction block generalizing m with
  | nil => exact ⟨rfl, rfl, rfl, fun allowed _ => ⟨trivial, allowed⟩⟩
  | cons y block ih =>
      have here := apart _ (List.mem_cons_self ..)
      have commutes := act_commutes here
      have same := access_later here
      have rest : ∀ z ∈ M.accesses (M.act (M.act m y) x) block,
          (M.access (M.act m y) x).Apart z := by
        rw [commutes, same]
        intro z member
        exact apart z (List.mem_cons_of_mem _ member)
      obtain ⟨accessed, kept, final, follows⟩ := ih rest
      rw [commutes] at accessed final follows
      refine ⟨?_, kept.trans same, final, ?_⟩
      · rw [accesses, accesses, accessed, access_earlier here]
      · rintro allowed ⟨next, onward⟩
        obtain ⟨early, late⟩ := allows_exchanged here allowed next
        obtain ⟨block, last⟩ := follows late onward
        exact ⟨⟨early, block⟩, last⟩

/-- The participants one after the other. -/
def serial (order : List Id) (runs : Id → List (Event Op Ans)) : Log Id Op Ans :=
  order.flatMap fun id => (runs id).map fun e => (id, e)

theorem serial_congr {order : List Id} {runs runs' : Id → List (Event Op Ans)}
    (same : ∀ id ∈ order, runs id = runs' id) : serial order runs = serial order runs' := by
  refine List.flatMap_congr fun id member => ?_
  rw [same id member]

theorem after_append (m : M.State) (first rest : Log Id Op Ans) :
    M.after m (first ++ rest) = M.after (M.after m first) rest := by
  induction first generalizing m with
  | nil => rfl
  | cons entry first ih => exact ih _

theorem follows_append {m : M.State} {first rest : Log Id Op Ans} :
    M.Follows m (first ++ rest) ↔ M.Follows m first ∧ M.Follows (M.after m first) rest := by
  induction first generalizing m with
  | nil => exact ⟨fun follows => ⟨trivial, follows⟩, fun follows => follows.2⟩
  | cons entry first ih => simp only [List.cons_append, Follows, after, ih, and_assoc]

theorem access_listed {m : M.State} {log : Log Id Op Ans} {x : M.Access}
    (member : x ∈ M.accesses m log) : ∃ e, (x.id, e) ∈ log := by
  induction log generalizing m with
  | nil => cases member
  | cons entry log ih =>
      cases member with
      | head => exact ⟨entry.2, List.mem_cons_self ..⟩
      | tail _ member =>
          obtain ⟨e, listed⟩ := ih member
          exact ⟨e, List.mem_cons_of_mem _ listed⟩

theorem accesses_ids (m : M.State) (log : Log Id Op Ans) :
    (M.accesses m log).map Access.id = log.map Prod.fst := by
  induction log generalizing m with
  | nil => rfl
  | cons entry log ih => rw [accesses, List.map_cons, List.map_cons, ih, access]

theorem Precedes.sublist {m : M.State} {log : Log Id Op Ans} {first second : Id}
    (precedes : M.Precedes m log first second) : [first, second].Sublist (log.map Prod.fst) := by
  obtain ⟨-, x, y, within, rfl, rfl, -⟩ := precedes
  rw [← accesses_ids m]
  exact within.map Access.id

/-- Among finitely many participants one is preceded by none. -/
theorem exists_unpreceded {m : M.State} {log : Log Id Op Ans} (nonempty : log ≠ [])
    (acyclic : ∀ id, ¬Relation.TransGen (M.Precedes m log) id id) :
    ∃ id e, (id, e) ∈ log ∧ ∀ first, ¬M.Precedes m log first id := by
  let Active := { id // id ∈ log.map Prod.fst }
  let earlier : Active → Active → Prop := fun a b => Relation.TransGen (M.Precedes m log) a.1 b.1
  have : IsTrans Active earlier := ⟨fun _ _ _ => Relation.TransGen.trans⟩
  have : Std.Irrefl earlier := ⟨fun a => acyclic a.1⟩
  have finite : Finite Active := (List.finite_toSet (log.map Prod.fst)).to_subtype
  have wellFounded : WellFounded earlier := Finite.wellFounded_of_trans_of_irrefl earlier
  obtain ⟨entry, rest, rfl⟩ := List.exists_cons_of_ne_nil nonempty
  have some_ : (Set.univ : Set Active).Nonempty := ⟨⟨entry.1, by simp⟩, trivial⟩
  obtain ⟨⟨id, active⟩, -, least⟩ := wellFounded.has_min Set.univ some_
  obtain ⟨⟨_, e⟩, listed, rfl⟩ := List.mem_map.mp active
  refine ⟨_, e, listed, ?_⟩
  intro first precedes
  obtain ⟨-, x, y, within, rfl, -, -⟩ := id precedes
  obtain ⟨event, member⟩ := access_listed (within.subset (List.mem_cons_self ..))
  exact least ⟨x.id, List.mem_map.mpr ⟨_, member, rfl⟩⟩ trivial (.single precedes)

section Front
variable [DecidableEq Id]

/-- The events of a participant, and those of the others. -/
def mine (id : Id) (log : Log Id Op Ans) : Log Id Op Ans := log.filter fun entry => entry.1 = id

def others (id : Id) (log : Log Id Op Ans) : Log Id Op Ans := log.filter fun entry => entry.1 ≠ id

/-- A participant that nobody precedes can act before all others. -/
theorem advance {id : Id} {log : Log Id Op Ans} {m : M.State}
    (unpreceded : ∀ first, ¬M.Precedes m log first id) :
    M.accesses (M.after m (mine id log)) (others id log) =
        (M.accesses m log).filter (fun x => x.id ≠ id) ∧
      M.accesses m (mine id log) = (M.accesses m log).filter (fun x => x.id = id) ∧
      M.after (M.after m (mine id log)) (others id log) = M.after m log ∧
      (M.Follows m log →
        M.Follows m (mine id log) ∧ M.Follows (M.after m (mine id log)) (others id log)) := by
  induction log generalizing m with
  | nil => exact ⟨rfl, rfl, rfl, fun _ => ⟨trivial, trivial⟩⟩
  | cons x log ih =>
      have later : ∀ first, ¬M.Precedes (M.act m x) log first id := by
        rintro first ⟨distinct, a, b, within, isFirst, isSecond, clash⟩
        exact unpreceded first ⟨distinct, a, b, within.cons _, isFirst, isSecond, clash⟩
      obtain ⟨theirs, own, final, follows⟩ := ih later
      by_cases isMine : x.1 = id
      · have same : (M.access m x).id = id := isMine
        simp only [mine, others, List.filter_cons, isMine, accesses, same, decide_true, if_true,
          ne_eq, not_true_eq_false, decide_false, Bool.false_eq_true, if_false, after, Follows]
        refine ⟨theirs, congrArg _ own, final, ?_⟩
        rintro ⟨allowed, onward⟩
        obtain ⟨front, back⟩ := follows onward
        exact ⟨⟨allowed, front⟩, back⟩
      · have other : (M.access m x).id ≠ id := isMine
        have apart : ∀ y ∈ M.accesses (M.act m x) (mine id log), (M.access m x).Apart y := by
          rw [own]
          intro y member
          obtain ⟨listed, isId⟩ := List.mem_filter.mp member
          by_contra clash
          apply unpreceded x.1
          refine ⟨isMine, _, y, ?_, rfl, of_decide_eq_true isId, clash⟩
          exact List.Sublist.cons_cons _ (List.singleton_sublist.mpr listed)
        obtain ⟨accessed, kept, moved, front⟩ := postpone apart
        simp only [mine, others, List.filter_cons, isMine, accesses, other, decide_false,
          Bool.false_eq_true, if_false, ne_eq, not_false_eq_true, decide_true, if_true, after,
          Follows]
        simp only [mine, others] at accessed kept moved front theirs own final follows
        rw [kept, moved, accessed]
        refine ⟨congrArg _ theirs, own, final, ?_⟩
        rintro ⟨allowed, onward⟩
        obtain ⟨block, back⟩ := follows onward
        obtain ⟨early, last⟩ := front allowed block
        exact ⟨early, last, back⟩

theorem mine_eq_own (id : Id) (log : Log Id Op Ans) :
    mine id log = (log.own id).map fun e => (id, e) := by
  induction log with
  | nil => rfl
  | cons entry log ih =>
      obtain ⟨owner, e⟩ := entry
      by_cases same : owner = id
      · subst same
        rw [Log.own_cons_self, List.map_cons, ← ih]
        exact List.filter_cons_of_pos (decide_eq_true rfl)
      · have skipped : Log.own ((owner, e) :: log) id = Log.own log id := by simp [Log.own, same]
        rw [skipped, ← ih]
        exact List.filter_cons_of_neg (mt of_decide_eq_true same)

theorem own_others {id other : Id} (distinct : other ≠ id) (log : Log Id Op Ans) :
    (others id log).own other = log.own other := by
  rw [Log.own, others, List.filterMap_filter]
  refine List.filterMap_congr fun entry _ => ?_
  by_cases same : entry.1 = other
  · simp [same, distinct]
  · simp [same]

/-- Without a cycle the participants could have acted one after the other: each sees and
does the same, and the memory ends up the same. -/
theorem serializable {m : M.State} {log : Log Id Op Ans}
    (acyclic : ∀ id, ¬Relation.TransGen (M.Precedes m log) id id) :
    ∃ order : List Id, order.Nodup ∧ (∀ id, id ∈ order ↔ ∃ e, (id, e) ∈ log) ∧
      M.after m (serial order log.own) = M.after m log ∧
      (M.Follows m log → M.Follows m (serial order log.own)) := by
  induction length : log.length using Nat.strong_induction_on generalizing m log with
  | _ n ih =>
  by_cases empty : log = []
  · subst empty
    exact ⟨[], List.nodup_nil, by simp, rfl, fun follows => follows⟩
  · obtain ⟨id, e, listed, unpreceded⟩ := exists_unpreceded empty acyclic
    obtain ⟨theirs, -, final, follows⟩ := advance unpreceded
    have shorter : (others id log).length < n := by
      rw [← length]
      refine List.length_filter_lt_length_iff_exists.mpr ⟨_, listed, ?_⟩
      simp
    have fewer : ∀ a b, M.Precedes (M.after m (mine id log)) (others id log) a b →
        M.Precedes m log a b := by
      rintro a b ⟨distinct, x, y, within, isFirst, isSecond, clash⟩
      rw [theirs] at within
      exact ⟨distinct, x, y, within.trans List.filter_sublist, isFirst, isSecond, clash⟩
    obtain ⟨order, nodup, covers, same, serially⟩ :=
      ih _ shorter (fun other cycle => acyclic other (Relation.TransGen.mono fewer _ _ cycle)) rfl
    have absent : id ∉ order := by
      intro member
      obtain ⟨event, among⟩ := (covers id).mp member
      have := (List.mem_filter.mp among).2
      simp at this
    have unchanged : serial order (others id log).own = serial order log.own := by
      apply serial_congr
      intro other member
      apply own_others
      rintro rfl
      exact absent member
    have split : serial (id :: order) log.own = mine id log ++ serial order log.own := by
      rw [mine_eq_own]
      rfl
    rw [unchanged] at same serially
    refine ⟨id :: order, List.nodup_cons.mpr ⟨absent, nodup⟩, ?_, ?_, ?_⟩
    · intro other
      by_cases isFirst : other = id
      · subst isFirst
        exact ⟨fun _ => ⟨e, listed⟩, fun _ => List.mem_cons_self ..⟩
      · rw [List.mem_cons, or_iff_right isFirst, covers]
        simp [others, isFirst]
    · rw [split, after_append, same, final]
    · intro legal
      obtain ⟨front, back⟩ := follows legal
      rw [split, follows_append]
      exact ⟨front, serially back⟩

end Front
end SharedMemory
end Interaction
