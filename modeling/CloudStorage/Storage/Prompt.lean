import CloudStorage.Config
import Mathlib.Algebra.Ring.Int.Defs
import Mathlib.Data.List.TakeWhile

/-! `FileManager::getValidCode`: lines are read until one is a number within the bounds. -/
namespace Interaction

variable {σ β : Type}

/-- Attempts until one succeeds, at most so many. -/
def retry (attempt : σ → Option β × σ) : Nat → σ → Option (β × σ)
  | 0, _ => none
  | rounds + 1, s =>
      match attempt s with
      | (some value, s') => some (value, s')
      | (none, s') => retry attempt rounds s'

variable {attempt : σ → Option β × σ} {s s' : σ}

theorem retry_hit {value : β} (hit : attempt s = (some value, s')) (rounds : Nat) :
    retry attempt (rounds + 1) s = some (value, s') := by
  rw [retry, hit]

theorem retry_miss (miss : attempt s = (none, s')) (rounds : Nat) :
    retry attempt (rounds + 1) s = retry attempt rounds s' := by
  rw [retry, miss]

/-- From states that only lead to misses and to one another nothing ever comes. -/
theorem retry_never {dead : σ → Prop}
    (misses : ∀ s, dead s → (attempt s).1 = none ∧ dead (attempt s).2) (start : dead s)
    (rounds : Nat) : retry attempt rounds s = none := by
  induction rounds generalizing s with
  | zero => rfl
  | succ rounds ih =>
      obtain ⟨miss, later⟩ := misses s start
      rw [retry_miss (Prod.ext miss rfl)]
      exact ih later

open Classical in
/-- Of the members that satisfy a predicate there is a first one. -/
theorem exists_first {α : Type} {p : α → Prop} {members : List α}
    (some_ : ¬∀ member ∈ members, ¬p member) :
    ∃ before member after, members = before ++ member :: after ∧ p member ∧
      ∀ other ∈ before, ¬p other := by
  cases found : members.find? (p ·) with
  | none =>
      refine absurd ?_ some_
      intro member isMember
      simpa using List.find?_eq_none.mp found member isMember
  | some member =>
      obtain ⟨holds, before, after, parts, none_⟩ := List.find?_eq_some_iff_append.mp found
      refine ⟨before, member, after, parts, of_decide_eq_true holds, ?_⟩
      intro other isMember
      simpa using none_ other isMember

end Interaction

namespace CloudStorage
open Interaction

def newline : UInt8 := 10

/-- `isspace` in the locale "C". -/
def isBlank (byte : UInt8) : Bool := byte = 32 || (9 ≤ byte && byte ≤ 13)

def isDigit (byte : UInt8) : Bool := 48 ≤ byte && byte ≤ 57

def decimal (digits : Bytes) : Nat :=
  digits.foldl (fun value digit => 10 * value + (digit.toNat - 48)) 0

/-- `cin`: what has not been read yet, and whether no end of input has been met. -/
structure Cin where
  rest : Bytes
  good : Bool
  deriving DecidableEq, Repr

/-- `getline(cin, input)`. A stream that is no longer good leaves the string as it was. -/
def getline (cin : Cin) (input : Bytes) : Bytes × Cin :=
  if cin.good then
    let line := cin.rest.takeWhile (· ≠ newline)
    match cin.rest.drop line.length with
    | [] => (line, ⟨[], false⟩)
    | _ :: rest => (line, ⟨rest, true⟩)
  else (input, cin)

/-- The sign of a number, `true` for a minus, and what follows it. -/
def signed : Bytes → Bool × Bytes
  | 43 :: digits => (false, digits)
  | 45 :: digits => (true, digits)
  | digits => (false, digits)

/-- `ss >> userInput` for an `int`: the number and what is left of the text. Without digits
or out of range it fails. -/
def extract (text : Bytes) : Option (Int × Bytes) :=
  let (negative, digits) := signed (text.dropWhile isBlank)
  let number := digits.takeWhile isDigit
  let value : Int := if negative then -decimal number else decimal number
  if number = [] then none
  else if -2 ^ 31 ≤ value ∧ value < 2 ^ 31 then some (value, digits.drop number.length)
  else none

namespace FileManager

/-- What one line is worth. `ss.eof()` holds when the number has come to the end of it. -/
def userInput (lowerBound upperBound : Int32) (input : Bytes) : Option Int :=
  match extract input with
  | some (userInput, []) =>
      if lowerBound.toInt ≤ userInput ∧ userInput ≤ upperBound.toInt then some userInput else none
  | _ => none

/-- One round of the loop. -/
def promptCode (lowerBound upperBound : Int32) (state : Bytes × Cin) :
    Option Int × (Bytes × Cin) :=
  let (input, cin) := getline state.2 state.1
  (userInput lowerBound upperBound input, input, cin)

/-- `getValidCode`, given up after so many rounds. -/
def getValidCode (lowerBound upperBound : Int32) (rounds : Nat) (cin : Cin) :
    Option (Int × Cin) :=
  (retry (promptCode lowerBound upperBound) rounds ([], cin)).map fun (code, _, cin) => (code, cin)

end FileManager

/-- The line is wholly an integer: blanks may stand before it, but not behind. -/
def Numeral (line : Bytes) (value : Int) : Prop :=
  ∃ blanks sign digits, line = blanks ++ (sign ++ digits) ∧
    (∀ byte ∈ blanks, isBlank byte = true) ∧ digits ≠ [] ∧
    (∀ byte ∈ digits, isDigit byte = true) ∧
    (((sign = [] ∨ sign = ascii "+") ∧ value = decimal digits) ∨
      (sign = ascii "-" ∧ value = -(decimal digits : Int)))

example : extract (ascii " -07 ") = some (-7, ascii " ") := by decide

theorem isBlank_digit {byte : UInt8} (digit : isDigit byte = true) : isBlank byte = false := by
  simp only [isDigit, isBlank, Bool.and_eq_true, decide_eq_true_eq, UInt8.le_iff_toNat_le] at *
  have differs : byte ≠ 32 := by
    rintro rfl
    exact absurd digit.1 (by decide)
  have least : (48 : UInt8).toNat = 48 := rfl
  simp only [differs, decide_false, Bool.false_or, Bool.and_eq_false_iff, decide_eq_false_iff_not]
  right
  have most : (13 : UInt8).toNat = 13 := rfl
  omega

/-- A digit is neither sign. -/
theorem signed_digits {digits : Bytes} (all : ∀ byte ∈ digits, isDigit byte = true) :
    signed digits = (false, digits) := by
  unfold signed
  split
  · exact absurd (all 43 (List.mem_cons_self ..)) (by decide)
  · exact absurd (all 45 (List.mem_cons_self ..)) (by decide)
  · rfl

/-- The sign that has been read. -/
theorem signed_parts (text : Bytes) :
    ∃ sign, text = sign ++ (signed text).2 ∧
      (((sign = [] ∨ sign = ascii "+") ∧ (signed text).1 = false) ∨
        (sign = ascii "-" ∧ (signed text).1 = true)) := by
  unfold signed
  split
  · exact ⟨ascii "+", rfl, .inl ⟨.inr rfl, rfl⟩⟩
  · exact ⟨ascii "-", rfl, .inr ⟨rfl, rfl⟩⟩
  · exact ⟨[], rfl, .inl ⟨.inl rfl, rfl⟩⟩

theorem dropWhile_blanks {blanks text : Bytes} (all : ∀ byte ∈ blanks, isBlank byte = true)
    (solid : ∀ byte ∈ text.head?, isBlank byte = false) :
    (blanks ++ text).dropWhile isBlank = text := by
  rw [List.dropWhile_append_of_pos all]
  cases text with
  | nil => rfl
  | cons byte text => exact List.dropWhile_cons_of_neg (by simp [solid byte rfl])

theorem takeWhile_digits {digits : Bytes} (all : ∀ byte ∈ digits, isDigit byte = true) :
    digits.takeWhile isDigit = digits :=
  List.takeWhile_eq_self_iff.mpr all

theorem Numeral.extract {line : Bytes} {value : Int} (numeral : Numeral line value)
    (range : -2 ^ 31 ≤ value ∧ value < 2 ^ 31) : extract line = some (value, []) := by
  obtain ⟨blanks, sign, digits, rfl, blank, some_, all, worth⟩ := numeral
  have digit : ∀ byte ∈ digits.head?, isBlank byte = false := fun byte member =>
    isBlank_digit (all byte (List.mem_of_mem_head? member))
  have read : ∃ negative, signed ((blanks ++ (sign ++ digits)).dropWhile isBlank) =
      (negative, digits) ∧ (if negative then -(decimal digits : Int) else decimal digits) = value := by
    rcases worth with ⟨rfl | rfl, rfl⟩ | ⟨rfl, rfl⟩
    · exact ⟨false, by
        rw [List.nil_append, dropWhile_blanks blank digit]
        exact signed_digits all, rfl⟩
    · exact ⟨false, by rw [dropWhile_blanks blank (by rintro _ ⟨⟩; decide)]; rfl, rfl⟩
    · exact ⟨true, by rw [dropWhile_blanks blank (by rintro _ ⟨⟩; decide)]; rfl, rfl⟩
  obtain ⟨negative, parts, same⟩ := read
  rw [CloudStorage.extract, parts]
  simp only [takeWhile_digits all, same, if_neg some_, if_pos range, List.drop_length]

theorem numeral_of_extract {line : Bytes} {value : Int} (read : extract line = some (value, [])) :
    Numeral line value := by
  obtain ⟨sign, parts, worth⟩ := signed_parts (line.dropWhile isBlank)
  rw [extract] at read
  generalize signed (line.dropWhile isBlank) = outcome at read parts worth
  obtain ⟨negative, digits⟩ := outcome
  dsimp only at read parts worth
  by_cases none_ : digits.takeWhile isDigit = []
  · rw [if_pos none_] at read
    exact nomatch read
  rw [if_neg none_] at read
  generalize worthIs : (if negative = true then -(decimal (digits.takeWhile isDigit) : Int)
    else decimal (digits.takeWhile isDigit)) = number at read
  split_ifs at read
  obtain ⟨rfl, ended⟩ := Prod.mk.inj (Option.some.inj read)
  have all : digits.takeWhile isDigit = digits :=
    List.IsPrefix.eq_of_length_le (List.takeWhile_prefix _) (List.drop_eq_nil_iff.mp ended)
  rw [all] at none_ worthIs
  refine ⟨line.takeWhile isBlank, sign, digits, ?_, ?_, none_,
    List.takeWhile_eq_self_iff.mp all, ?_⟩
  · rw [← parts, List.takeWhile_append_dropWhile]
  · exact fun byte member => List.mem_takeWhile_imp member
  · rcases worth with ⟨plain, rfl⟩ | ⟨minus, rfl⟩
    · exact .inl ⟨plain, worthIs.symm⟩
    · exact .inr ⟨minus, worthIs.symm⟩

/-- A line that the prompt takes, and its value. -/
def Chosen (lowerBound upperBound : Int32) (line : Bytes) (value : Int) : Prop :=
  Numeral line value ∧ lowerBound.toInt ≤ value ∧ value ≤ upperBound.toInt

/-- Bytes between two newlines. -/
abbrev Line := { bytes : Bytes // newline ∉ bytes }

/-- Lines that have been typed, what was typed behind the last newline, and the end of input. -/
def typed (lines : List Line) (last : Line) : Cin :=
  ⟨(lines.map fun line => line.val ++ [newline]).flatten ++ last.val, true⟩

section Lines
variable {lowerBound upperBound : Int32} {input : Bytes} {line last : Line} {lines : List Line}

theorem takeWhile_line (line : Line) (rest : Bytes) :
    (line.val ++ newline :: rest).takeWhile (· ≠ newline) = line.val := by
  rw [List.takeWhile_append_of_pos]
  · simp
  · intro byte member
    apply decide_eq_true
    rintro rfl
    exact line.property member

theorem getline_line (rest : Bytes) :
    getline ⟨line.val ++ newline :: rest, true⟩ input = (line.val, ⟨rest, true⟩) := by
  simp only [getline, if_true, takeWhile_line, List.drop_left]

theorem getline_last : getline ⟨last.val, true⟩ input = (last.val, ⟨[], false⟩) := by
  have whole : last.val.takeWhile (· ≠ newline) = last.val := by
    apply List.takeWhile_eq_self_iff.mpr
    intro byte member
    apply decide_eq_true
    rintro rfl
    exact last.property member
  simp only [getline, if_true, whole, List.drop_length]

theorem typed_cons : typed (line :: lines) last =
    ⟨line.val ++ newline :: (typed lines last).rest, true⟩ := by
  simp [typed]

namespace FileManager

theorem userInput_iff {value : Int} :
    userInput lowerBound upperBound input = some value ↔
      Chosen lowerBound upperBound input value := by
  constructor
  · intro taken
    unfold userInput at taken
    split at taken
    · rename_i number read
      split_ifs at taken with bounds
      obtain rfl := Option.some.inj taken
      exact ⟨numeral_of_extract read, bounds⟩
    · exact nomatch taken
  · rintro ⟨numeral, bounds⟩
    have range : -2 ^ 31 ≤ value ∧ value < 2 ^ 31 := by
      have least := lowerBound.le_toInt
      have most := upperBound.toInt_lt
      omega
    simp only [userInput, numeral.extract range, if_pos bounds]

theorem userInput_none (wrong : ¬∃ value, Chosen lowerBound upperBound input value) :
    userInput lowerBound upperBound input = none := by
  apply Option.eq_none_iff_forall_ne_some.mpr
  intro value taken
  exact wrong ⟨value, userInput_iff.mp taken⟩

/-- A line that is not taken is passed over. -/
theorem prompt_miss (wrong : ¬∃ value, Chosen lowerBound upperBound line.val value) :
    promptCode lowerBound upperBound (input, typed (line :: lines) last) =
      (none, line.val, typed lines last) := by
  simp only [promptCode, typed_cons, getline_line, userInput_none wrong]
  rfl

theorem prompt_hit {value : Int} (chosen : Chosen lowerBound upperBound line.val value) :
    promptCode lowerBound upperBound (input, typed (line :: lines) last) =
      (some value, line.val, typed lines last) := by
  simp only [promptCode, typed_cons, getline_line, userInput_iff.mpr chosen]
  rfl

/-- The first line that is taken ends the loop, and nothing behind it has been read. -/
theorem first_chosen {before after : List Line} {value : Int}
    (wrong : ∀ other ∈ before, ¬∃ value, Chosen lowerBound upperBound other.val value)
    (chosen : Chosen lowerBound upperBound line.val value) :
    retry (promptCode lowerBound upperBound) (before.length + 1)
        (input, typed (before ++ line :: after) last) =
      some (value, line.val, typed after last) := by
  induction before generalizing input with
  | nil => exact retry_hit (prompt_hit chosen) 0
  | cons other before ih =>
      have missed := wrong other (List.mem_cons_self ..)
      rw [List.cons_append, List.length_cons, retry_miss (prompt_miss missed)]
      exact ih fun later member => wrong later (List.mem_cons_of_mem _ member)

/-- So does what stands behind the last newline. -/
theorem last_chosen {value : Int}
    (wrong : ∀ other ∈ lines, ¬∃ value, Chosen lowerBound upperBound other.val value)
    (chosen : Chosen lowerBound upperBound last.val value) :
    retry (promptCode lowerBound upperBound) (lines.length + 1) (input, typed lines last) =
      some (value, last.val, ⟨[], false⟩) := by
  induction lines generalizing input with
  | nil =>
      apply retry_hit
      have read : getline (typed [] last) input = (last.val, ⟨[], false⟩) := getline_last
      simp only [promptCode, read, userInput_iff.mpr chosen]
  | cons other lines ih =>
      have missed := wrong other (List.mem_cons_self ..)
      rw [List.length_cons, retry_miss (prompt_miss missed)]
      exact ih fun later member => wrong later (List.mem_cons_of_mem _ member)

/-- Behind the end of input the loop reads the same line for ever. -/
theorem ended_never (wrong : userInput lowerBound upperBound input = none) (rounds : Nat) :
    retry (promptCode lowerBound upperBound) rounds (input, ⟨[], false⟩) = none := by
  have dead : ∀ s : Bytes × Cin,
      userInput lowerBound upperBound s.1 = none ∧ s.2 = ⟨[], false⟩ →
      (promptCode lowerBound upperBound s).1 = none ∧
        userInput lowerBound upperBound (promptCode lowerBound upperBound s).2.1 = none ∧
          (promptCode lowerBound upperBound s).2.2 = ⟨[], false⟩ := by
    rintro ⟨input, _⟩ ⟨wrong, rfl⟩
    exact ⟨wrong, wrong, rfl⟩
  exact retry_never dead ⟨wrong, rfl⟩ rounds

/-- Without a line that is taken the loop does not end. -/
theorem none_chosen
    (wrong : ∀ other ∈ lines, ¬∃ value, Chosen lowerBound upperBound other.val value)
    (unfinished : ¬∃ value, Chosen lowerBound upperBound last.val value) (rounds : Nat) :
    retry (promptCode lowerBound upperBound) rounds (input, typed lines last) = none := by
  induction lines generalizing input rounds with
  | nil =>
      cases rounds with
      | zero => rfl
      | succ rounds =>
          have read : getline (typed [] last) input = (last.val, ⟨[], false⟩) := getline_last
          have miss : promptCode lowerBound upperBound (input, typed [] last) =
              (none, last.val, ⟨[], false⟩) := by
            simp only [promptCode, read, userInput_none unfinished]
          rw [retry_miss miss]
          exact ended_never (userInput_none unfinished) rounds
  | cons other lines ih =>
      cases rounds with
      | zero => rfl
      | succ rounds =>
          rw [retry_miss (prompt_miss (wrong other (List.mem_cons_self ..)))]
          exact ih (fun later member => wrong later (List.mem_cons_of_mem _ member)) rounds

end FileManager

/-- The prompt ends, and takes the first line that it can take and none behind it. -/
structure Prompted (lowerBound upperBound : Int32) (lines : List Line) (last : Line) : Prop where
  ends : ∃ rounds result,
    FileManager.getValidCode lowerBound upperBound rounds (typed lines last) = some result
  first : ∀ before line after value, lines = before ++ line :: after →
    (∀ other ∈ before, ¬∃ value, Chosen lowerBound upperBound other.val value) →
    Chosen lowerBound upperBound line.val value →
    ∃ rounds, FileManager.getValidCode lowerBound upperBound rounds (typed lines last) =
      some (value, typed after last)
  last : ∀ value, (∀ other ∈ lines, ¬∃ value, Chosen lowerBound upperBound other.val value) →
    Chosen lowerBound upperBound last.val value →
    ∃ rounds, FileManager.getValidCode lowerBound upperBound rounds (typed lines last) =
      some (value, ⟨[], false⟩)

/-- The prompt does so exactly if some line is an integer within the bounds. -/
theorem FileManager.getValidCode_iff (lowerBound upperBound : Int32) (lines : List Line)
    (last : Line) :
    Prompted lowerBound upperBound lines last ↔
      ∃ line ∈ lines ++ [last], ∃ value, Chosen lowerBound upperBound line.val value := by
  constructor
  · rintro ⟨⟨rounds, result, ended⟩, -, -⟩
    by_contra none_
    have wrong : ∀ other ∈ lines, ¬∃ value, Chosen lowerBound upperBound other.val value :=
      fun other member taken => none_ ⟨other, List.mem_append_left _ member, taken⟩
    have unfinished : ¬∃ value, Chosen lowerBound upperBound last.val value :=
      fun taken => none_ ⟨last, List.mem_append_right _ (List.mem_singleton.mpr rfl), taken⟩
    rw [getValidCode, none_chosen wrong unfinished] at ended
    exact nomatch ended
  · intro some_
    have first : ∀ before line after value, lines = before ++ line :: after →
        (∀ other ∈ before, ¬∃ value, Chosen lowerBound upperBound other.val value) →
        Chosen lowerBound upperBound line.val value →
        ∃ rounds, getValidCode lowerBound upperBound rounds (typed lines last) =
          some (value, typed after last) := by
      rintro before line after value rfl wrong chosen
      exact ⟨_, by rw [getValidCode, first_chosen wrong chosen]; rfl⟩
    have ending : ∀ value,
        (∀ other ∈ lines, ¬∃ value, Chosen lowerBound upperBound other.val value) →
        Chosen lowerBound upperBound last.val value →
        ∃ rounds, getValidCode lowerBound upperBound rounds (typed lines last) =
          some (value, ⟨[], false⟩) := by
      intro value wrong chosen
      exact ⟨_, by rw [getValidCode, last_chosen wrong chosen]; rfl⟩
    refine ⟨?_, first, ending⟩
    by_cases wrong : ∀ other ∈ lines, ¬∃ value, Chosen lowerBound upperBound other.val value
    · obtain ⟨line, member, value, chosen⟩ := some_
      cases List.mem_append.mp member with
      | inl earlier => exact absurd ⟨value, chosen⟩ (wrong line earlier)
      | inr latest =>
          obtain rfl := List.mem_singleton.mp latest
          obtain ⟨rounds, ended⟩ := ending value wrong chosen
          exact ⟨rounds, _, ended⟩
    · obtain ⟨before, line, after, parts, ⟨value, chosen⟩, earlier⟩ := exists_first wrong
      obtain ⟨rounds, ended⟩ := first before line after value parts earlier chosen
      exact ⟨rounds, _, ended⟩

/-- At the end of input the menu prompts for ever. -/
theorem FileManager.getValidCode_endless :
    ¬Prompted 1 7 [] ⟨[], List.not_mem_nil⟩ := by
  rintro ⟨⟨rounds, result, ended⟩, -, -⟩
  cases rounds with
  | zero => exact nomatch ended
  | succ rounds =>
      have miss : promptCode 1 7 ([], typed [] ⟨[], List.not_mem_nil⟩) = (none, [], ⟨[], false⟩) := by
        decide
      have wrong : userInput 1 7 [] = none := by decide
      rw [getValidCode, retry_miss miss, ended_never wrong rounds] at ended
      exact nomatch ended

end Lines

end CloudStorage
