import CloudStorage.Server.Steps
import CloudStorage.Session.Rehearsal

/-! The request that a session is executing, as an observer sees it, and the file names
that its handler reads. -/
namespace CloudStorage
open Interaction Code Method
namespace Server

/-- Whether a command was accepted since the top of the loop, and its plaintext. -/
structure Request where
  serving : Bool
  plaintext : Bytes

namespace Request

def observe (g : Request) : Op → Request
  | .note (.accepted _ _ plaintext) => if g.serving then g else ⟨true, plaintext⟩
  | .note (.idle _ _) => { g with serving := false }
  | _ => g

def start : Request := ⟨false, []⟩

/-- The file names that a command carries with their terminators are good. -/
def namesGood (host : Endian) (good : Bytes → Bool) (plaintext : Bytes) : Bool :=
  (nameFields host plaintext).all fun entry => !entry.2.contains 0 || good (cPrefix entry.2)

/-- A name whose terminator lies behind the array is good. -/
def strayGood (host : Endian) (good : Bytes → Bool) (plaintext : Bytes) (array : NameField)
    (beyond : Bytes) : Bool :=
  (nameFields host plaintext).all fun entry =>
    entry.1 != array || entry.2.contains 0 || good (entry.2 ++ cPrefix beyond)

variable {host : Endian} {good : Bytes → Bool} {plaintext memory beyond : Bytes}
  {array : NameField}

theorem namesGood.named (names : namesGood host good plaintext = true)
    (member : (array, memory) ∈ nameFields host plaintext) (terminated : 0 ∈ memory) :
    good (cPrefix memory) = true := by
  have entry := List.all_eq_true.mp names _ member
  simpa [terminated] using entry

theorem strayGood.named (names : strayGood host good plaintext array beyond = true)
    (member : (array, memory) ∈ nameFields host plaintext) (unterminated : 0 ∉ memory) :
    good (memory ++ cPrefix beyond) = true := by
  have entry := List.all_eq_true.mp names _ member
  simpa [unterminated] using entry

end Request
end Server
end CloudStorage
