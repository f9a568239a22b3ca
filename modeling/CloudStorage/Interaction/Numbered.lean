import Mathlib.Data.List.Nodup
import Mathlib.Data.List.Pairwise
import Mathlib.Data.List.Perm.Subperm
import Mathlib.Data.List.Sort

/-! Lists whose entries carry numbers: consecutive ones, as in one conversation, or
increasing ones, as in a history of conversations. The numbers decide the places. -/
namespace Interaction
variable {α β : Type} {number : α → Nat}

theorem mem_concat_at {l : List α} {a b : α} {place : Nat} (found : (l ++ [a])[place]? = some b) :
    l[place]? = some b ∨ (place = l.length ∧ b = a) := by
  rcases Nat.lt_trichotomy place l.length with before | here | behind
  · rw [List.getElem?_append_left before] at found
    exact .inl found
  · subst here
    rw [List.getElem?_concat_length] at found
    exact .inr ⟨rfl, (Option.some.inj found).symm⟩
  · rw [List.getElem?_eq_none (by simp; omega)] at found
    cases found

theorem at_concat {l : List α} {a b : α} {place : Nat} (found : l[place]? = some b) :
    (l ++ [a])[place]? = some b := by
  rw [List.getElem?_append_left (List.getElem?_eq_some_iff.mp found).1]
  exact found

/-- The numbers go up by one from the start. -/
def Consecutive (number : α → Nat) (start : Nat) (l : List α) : Prop :=
  ∀ place a, l[place]? = some a → number a = start + place

/-- The numbers go up. -/
abbrev Increasing (number : α → Nat) (l : List α) : Prop := l.Pairwise (number · < number ·)

namespace Consecutive
variable {start : Nat} {l : List α} {a : α}

theorem nil : Consecutive number start [] := by
  intro place a found
  cases found

theorem concat (consecutive : Consecutive number start l) (next : number a = start + l.length) :
    Consecutive number start (l ++ [a]) := by
  intro place b found
  rcases mem_concat_at found with before | ⟨rfl, rfl⟩
  · exact consecutive place b before
  · exact next

theorem bound (consecutive : Consecutive number start l) (member : a ∈ l) :
    start ≤ number a ∧ number a < start + l.length := by
  obtain ⟨place, found⟩ := List.getElem?_of_mem member
  have inside := (List.getElem?_eq_some_iff.mp found).1
  rw [consecutive place a found]
  omega

/-- The number of an entry tells its place. -/
theorem at_ (consecutive : Consecutive number start l) (member : a ∈ l) {place : Nat}
    (same : number a = start + place) : l[place]? = some a := by
  obtain ⟨there, found⟩ := List.getElem?_of_mem member
  have counted := consecutive there a found
  have places : there = place := by omega
  rw [← places]
  exact found

end Consecutive

namespace Increasing
variable {l m : List α} {a b : α}

theorem injective (increasing : Increasing number l) (first : a ∈ l) (second : b ∈ l)
    (same : number a = number b) : a = b := by
  have distinct : (l.map number).Nodup := by
    rw [List.Nodup, List.pairwise_map]
    exact increasing.imp Nat.ne_of_lt
  exact List.inj_on_of_nodup_map distinct first second same

theorem concat (increasing : Increasing number l) (later : ∀ b ∈ l, number b < number a) :
    Increasing number (l ++ [a]) := by
  rw [Increasing, List.pairwise_append]
  refine ⟨increasing, List.pairwise_singleton _ _, ?_⟩
  intro b member c last
  rw [List.mem_singleton.mp last]
  exact later b member

/-- Entries of one list that are all in another stand there in the same order. -/
theorem sublist (increasing : Increasing number l) (others : Increasing number m)
    (among : ∀ a ∈ l, a ∈ m) : l.Sublist m := by
  have distinct : l.Nodup := increasing.imp fun before same => by
    rw [same] at before
    exact Nat.lt_irrefl _ before
  have : Std.Antisymm fun a b : α => number a < number b :=
    ⟨fun a b before behind => absurd before (Nat.lt_asymm behind)⟩
  exact List.sublist_of_subperm_of_pairwise (distinct.subperm among) increasing others

/-- All numbers of the one block are below all of the other. -/
def Before (number : α → Nat) (l m : List α) : Prop := ∀ a ∈ l, ∀ b ∈ m, number a < number b

/-- Two different blocks of a history lie apart. -/
theorem apart {blocks : List β} {entries : β → List α}
    (increasing : Increasing number (blocks.flatMap entries)) {x y : β} (first : x ∈ blocks)
    (second : y ∈ blocks) (differ : x ≠ y) :
    Before number (entries x) (entries y) ∨ Before number (entries y) (entries x) := by
  have ordered := (List.pairwise_flatMap.mp increasing).2
  have either : blocks.Pairwise fun x y =>
      Before number (entries x) (entries y) ∨ Before number (entries y) (entries x) :=
    ordered.imp Or.inl
  have : Std.Symm fun x y : β =>
      Before number (entries x) (entries y) ∨ Before number (entries y) (entries x) :=
    ⟨fun x y => Or.symm⟩
  exact either.forall first second differ

end Increasing
end Interaction
