import CloudStorage.Dialogue.Emissions
import CloudStorage.Interaction.Numbered
import CloudStorage.Interaction.Transfer

/-! The ledger of a party for the epoch of a key: for each request what the two sides
have said, in order, and what was done to files. -/
namespace CloudStorage
open Interaction

def Role.other : Role → Role
  | .client => .server
  | .server => .client

theorem Role.other_ne (role : Role) : role.other ≠ role := by cases role <;> decide

namespace Dialogue

/-- A message and the side it comes from. -/
structure Turn where
  author : Role
  message : Emission
  deriving DecidableEq

def Turn.counter (turn : Turn) : Nat := turn.message.counter

abbrev Talk := List Turn

namespace Talk

/-- The counter of the first message. -/
def start (talk : Talk) : Nat := (talk.head?.map Turn.counter).getD 0

/-- What one side has said. -/
def said (author : Role) (talk : Talk) : List Emission :=
  talk.filterMap fun turn => if turn.author = author then some turn.message else none

theorem mem_said {author : Role} {talk : Talk} {e : Emission} :
    e ∈ talk.said author ↔ ⟨author, e⟩ ∈ talk := by
  simp only [said, List.mem_filterMap, Option.ite_none_right_eq_some, Option.some.injEq]
  constructor
  · rintro ⟨⟨_, _⟩, member, rfl, rfl⟩
    exact member
  · intro member
    exact ⟨_, member, rfl, rfl⟩

theorem start_append {talk : Talk} (begun : talk ≠ []) (turn : Turn) :
    start (talk ++ [turn]) = talk.start := by
  cases talk with
  | nil => exact absurd rfl begun
  | cons first rest => rfl

end Talk

structure Reading where
  path : Bytes
  position : Nat
  size : Nat
  content : Bytes
  deriving DecidableEq

/-- The changes that were tried and those that succeeded, the chunks that were written and
read, the size that was found and the directory that was listed. -/
structure Deeds where
  changes : List FileCall
  effects : List FileCall
  written : List (Bytes × Bytes)
  reads : List Reading
  size : Option Nat
  listing : Option (Bytes × List Bytes)
  deriving DecidableEq

namespace Deeds

def none_ : Deeds := ⟨[], [], [], [], none, none⟩

def observe (d : Deeds) : (call : FileCall) → call.Ans → Deeds
  | .ofstream_open path, opened =>
      { d with
        changes := d.changes ++ [.ofstream_open path]
        effects := if opened then d.effects ++ [.ofstream_open path] else d.effects }
  | .rename old new, result =>
      { d with
        changes := d.changes ++ [.rename old new]
        effects := if result = (0 : Int) then d.effects ++ [.rename old new] else d.effects }
  | .remove path, result =>
      { d with
        changes := d.changes ++ [.remove path]
        effects := if result = (0 : Int) then d.effects ++ [.remove path] else d.effects }
  | .write path chunk, _ => { d with written := d.written ++ [(path, chunk)] }
  | .read path position size, content =>
      { d with reads := d.reads ++ [⟨path, position, size, content⟩] }
  | .seek_end _, size => { d with size := size }
  | .directory_iterator path, names => { d with listing := names.map (path, ·) }
  | _, _ => d

/-- Every chunk was read whole. -/
def Whole (d : Deeds) : Prop := ∀ reading ∈ d.reads, reading.content.length = reading.size

instance (d : Deeds) : Decidable d.Whole := inferInstanceAs (Decidable (∀ _ ∈ _, _))

end Deeds

/-- One request: what was asked and whether it was answered with Yes (the client knows),
what was said and done, and the code with which it ended. -/
structure Entry where
  command : UInt8
  names : List Bytes
  confirmed : Bool
  talk : Talk
  deeds : Deeds
  result : Option Nat
  deriving DecidableEq

namespace Entry

def begun (command : UInt8) (names : List Bytes) (talk : Talk) : Entry :=
  ⟨command, names, false, talk, .none_, none⟩

def say (entry : Entry) (turn : Turn) : Entry := { entry with talk := entry.talk ++ [turn] }

@[simp] theorem talk_say (entry : Entry) (turn : Turn) :
    (entry.say turn).talk = entry.talk ++ [turn] := rfl

def act (entry : Entry) (call : FileCall) (answer : call.Ans) : Entry :=
  { entry with deeds := entry.deeds.observe call answer }

def finish (entry : Entry) (code : Nat) : Entry := { entry with result := some code }

def confirm (entry : Entry) (choice : Nat) : Entry := { entry with confirmed := choice = 1 }

end Entry

/-- Whether the epoch lasts, is about to end with what is sent next, and waits for a
command; the user; what is sealed and not sent; what was sent under the key outside the
epoch; frames for which no handler has been started; what goes on from before the epoch;
and the requests of the epoch, latest first. -/
structure Ledger where
  current : Bool
  closing : Bool
  waiting : Bool
  user : Bytes
  pending : Option Emission
  outside : List Emission
  unhandled : List Emission
  leftover : Entry
  entries : List Entry
  deriving DecidableEq

namespace Ledger

def start : Ledger := ⟨false, false, false, [], none, [], [], .begun 0 [] [], []⟩

/-- All that was said in the epoch, in order. -/
def talks (g : Ledger) : Talk := g.leftover.talk ++ g.entries.reverse.flatMap Entry.talk

/-- The request in progress goes on. -/
def extend (g : Ledger) (f : Entry → Entry) : Ledger :=
  match g.entries with
  | [] => { g with leftover := f g.leftover }
  | entry :: rest => { g with entries := f entry :: rest }

def say (g : Ledger) (turn : Turn) : Ledger := g.extend (·.say turn)

/-- What is sealed has been sent. -/
def deliver (role : Role) (key : Bytes) (g : Ledger) : Ledger :=
  match g.pending with
  | none => g
  | some e =>
      if e.key ≠ key then { g with pending := none }
      else if g.current then { g.say ⟨role, e⟩ with pending := none }
      else { g with pending := none, outside := e :: g.outside }

/-- The epoch ends if it is about to. -/
def leave (g : Ledger) : Ledger :=
  if g.closing then { g with current := false, closing := false } else g

def enter (g : Ledger) (user : Bytes) : Ledger :=
  { g with current := true, user := user, unhandled := [], leftover := .begun 0 [] [], entries := [] }

/-- The epoch of the key begins, or that of another one. -/
def begin_ (key : Bytes) (g : Ledger) (user other : Bytes) : Ledger :=
  if other = key then g.enter user else { g with current := false }

/-- A frame has been accepted. -/
def hear (role : Role) (g : Ledger) (e : Emission) : Ledger :=
  if ¬g.current then { g with waiting := false }
  else if g.waiting then { g with waiting := false, unhandled := e :: g.unhandled }
  else g.say ⟨role.other, e⟩

def open_ (g : Ledger) (entry : Entry) : Ledger :=
  if g.current then { g with waiting := false, entries := entry :: g.entries }
  else { g with waiting := false }

/-- The handler of the frame that was accepted last has been started. -/
def handle (g : Ledger) (command : UInt8) : Ledger :=
  match g.unhandled with
  | [] => g
  | e :: rest => if g.current then
      { g with unhandled := rest, entries := .begun command [] [⟨.client, e⟩] :: g.entries } else g

def observe (role : Role) (key : Bytes) (g : Ledger) : (op : Op) → op.Ans → Ledger
  | .ssl (.encrypt other aad plaintext), answer =>
      { g with pending := answer.map fun box => ⟨other, aad, plaintext, box⟩ }
  | .send _, result =>
      if result = -1 then { g with pending := none }.leave else (g.deliver role key).leave
  | .ssl .generateEphemeralKey, _ => { g with current := false }
  | .note (.authenticated user other), _ => g.begin_ key user other
  | .note .erased, _ => { g with closing := true }
  | .note (.idle _ _), _ => { g with waiting := true }
  | .note (.accepted other frame plaintext), _ =>
      g.hear role ⟨other, frame.m_aad, plaintext, frame.m_sealed⟩
  | .note (.invoked command names), _ => g.open_ (.begun command names [])
  | .note (.started command), _ => g.handle command
  | .note (.finished code), _ => if g.current then g.extend (·.finish code) else g
  | .getValidCode 1 2, choice => if g.current then g.extend (·.confirm choice) else g
  | .file call, answer => if g.current then g.extend (·.act call answer) else g
  | _, _ => g

end Ledger

/-- The ledger of a party for the epoch of a key. -/
def ledger (role : Role) (key : Bytes) (trace : List (Event Op Op.Ans)) : Ledger :=
  (Monitor.recording Ledger (Ledger.observe role key)).after .start trace

end Dialogue
end CloudStorage
