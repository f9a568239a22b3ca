import CloudStorage.Dialogue.Ledger
import CloudStorage.Session.Exchange

/-! What a party owes of its ledger, and what its single steps do to it. Both parties
work by these rules; they differ in what they say for a request. -/
namespace CloudStorage
open Interaction Code Method
namespace Dialogue

/-- What may be heard, what a request of a user is, what is sent under the key outside the
epoch, what may be said for a request from before the epoch, and whether the key can come
back after the epoch. -/
structure Charter where
  role : Role
  key : Bytes
  Known : Emission → Prop
  Formed : Bytes → Entry → Prop
  Outer : Emission → Prop
  Left : Turn → Prop
  again : Prop

/-- What is sent is as long as its text, and what is heard is known. -/
def Charter.Sound (c : Charter) (turn : Turn) : Prop :=
  (turn.author = c.role → turn.message.size = turn.message.plaintext.length) ∧
    (turn.author = c.role.other → c.Known turn.message)

namespace Ledger

/-- The counters go up with every message of either side. -/
structure Good (c : Charter) (g : Ledger) : Prop where
  ordered : Increasing Turn.counter g.talks
  sound : ∀ turn ∈ g.talks, c.Sound turn
  formed : ∀ entry ∈ g.entries, c.Formed g.user entry
  left_ : ∀ turn ∈ g.leftover.talk, c.Left turn
  outside : ∀ e ∈ g.outside, c.Outer e

variable {c : Charter} {g : Ledger}

theorem good_start : Good c start where
  ordered := .nil
  sound := nofun
  formed := nofun
  left_ := nofun
  outside := nofun

/-- Nothing but what was said and done matters. -/
theorem Good.same {g' : Ledger} (good : g.Good c) (user : g'.user = g.user)
    (outside : g'.outside = g.outside) (leftover : g'.leftover = g.leftover)
    (entries : g'.entries = g.entries) : g'.Good c := by
  obtain ⟨_, _, _, _, _, _, _, _, _⟩ := g'
  subst user outside leftover entries
  exact ⟨good.ordered, good.sound, good.formed, good.left_, good.outside⟩

@[simp] theorem talks_say (turn : Turn) : (g.say turn).talks = g.talks ++ [turn] := by
  unfold say extend
  cases listed : g.entries with
  | nil => simp [talks, listed, Entry.say]
  | cons entry rest => simp [talks, listed, Entry.say]

theorem talks_extend {f : Entry → Entry} (quiet : ∀ entry, (f entry).talk = entry.talk) :
    (g.extend f).talks = g.talks := by
  unfold extend
  cases listed : g.entries with
  | nil => simp [talks, listed, quiet]
  | cons entry rest => simp [talks, listed, quiet]

@[simp] theorem extend_current (f : Entry → Entry) : (g.extend f).current = g.current := by
  unfold extend
  cases g.entries <;> rfl

@[simp] theorem extend_closing (f : Entry → Entry) : (g.extend f).closing = g.closing := by
  unfold extend
  cases g.entries <;> rfl

@[simp] theorem extend_waiting (f : Entry → Entry) : (g.extend f).waiting = g.waiting := by
  unfold extend
  cases g.entries <;> rfl

@[simp] theorem extend_user (f : Entry → Entry) : (g.extend f).user = g.user := by
  unfold extend
  cases g.entries <;> rfl

@[simp] theorem extend_pending (f : Entry → Entry) : (g.extend f).pending = g.pending := by
  unfold extend
  cases g.entries <;> rfl

@[simp] theorem extend_outside (f : Entry → Entry) : (g.extend f).outside = g.outside := by
  unfold extend
  cases g.entries <;> rfl

theorem extend_same {f : Entry → Entry} (same : ∀ entry, f entry = entry) : g.extend f = g := by
  obtain ⟨_, _, _, _, _, _, _, _, entries⟩ := g
  unfold extend
  cases entries <;> simp only [same]

theorem extend_nil {f : Entry → Entry} (empty : g.entries = []) :
    g.extend f = { g with leftover := f g.leftover } := by
  simp only [extend, empty]

theorem extend_cons {f : Entry → Entry} {entry : Entry} {rest : List Entry}
    (listed : g.entries = entry :: rest) : g.extend f = { g with entries := f entry :: rest } := by
  simp only [extend, listed]

/-- A step that says nothing. -/
theorem Good.extend (good : g.Good c) {f : Entry → Entry}
    (quiet : ∀ entry, (f entry).talk = entry.talk)
    (formed : ∀ entry rest, g.entries = entry :: rest → c.Formed g.user (f entry)) :
    (g.extend f).Good c := by
  have talks : (g.extend f).talks = g.talks := talks_extend quiet
  constructor
  · exact talks ▸ good.ordered
  · exact talks ▸ good.sound
  · cases listed : g.entries with
    | nil =>
        simp only [extend_nil listed, listed]
        nofun
    | cons entry rest =>
        simp only [extend_cons listed]
        intro other member
        cases member with
        | head => exact formed entry rest listed
        | tail _ old => exact good.formed other (listed ▸ List.mem_cons_of_mem _ old)
  · cases listed : g.entries with
    | nil =>
        simp only [extend_nil listed, quiet]
        exact good.left_
    | cons entry rest =>
        simp only [extend_cons listed]
        exact good.left_
  · rw [extend_outside]
    exact good.outside

/-- One more message. -/
theorem Good.say (good : g.Good c) {turn : Turn} (later : ∀ t ∈ g.talks, t.counter < turn.counter)
    (sound : c.Sound turn) (left_ : g.entries = [] → c.Left turn)
    (formed : ∀ entry rest, g.entries = entry :: rest → c.Formed g.user (entry.say turn)) :
    (g.say turn).Good c := by
  constructor
  · rw [talks_say]
    exact good.ordered.concat later
  · rw [talks_say]
    intro t member
    cases List.mem_append.mp member with
    | inl old => exact good.sound t old
    | inr new => exact List.mem_singleton.mp new ▸ sound
  · cases listed : g.entries with
    | nil =>
        simp only [Ledger.say, extend_nil listed, listed]
        nofun
    | cons entry rest =>
        simp only [Ledger.say, extend_cons listed]
        intro other member
        cases member with
        | head => exact formed entry rest listed
        | tail _ old => exact good.formed other (listed ▸ List.mem_cons_of_mem _ old)
  · cases listed : g.entries with
    | nil =>
        simp only [Ledger.say, extend_nil listed, Entry.say, List.mem_append, List.mem_singleton]
        intro t member
        cases member with
        | inl old => exact good.left_ t old
        | inr new => exact new ▸ left_ listed
    | cons entry rest =>
        simp only [Ledger.say, extend_cons listed]
        exact good.left_
  · rw [Ledger.say, extend_outside]
    exact good.outside

theorem leave_open (open_ : g.closing = false) : g.leave = g := by
  simp [leave, open_]

end Ledger

/-- OpenSSL keeps lengths and opens nothing unknown. -/
def Charter.Legal (c : Charter) (op : Op) (answer : op.Ans) : Prop :=
  KeepsLength op answer ∧ OpensOnly c.key c.Known op answer

@[reducible] def Charter.monitor (c : Charter) : Monitor Op Op.Ans :=
  .keeping Ledger (Ledger.observe c.role c.key) c.Legal (Ledger.Good c)

/-- Calls that the ledger does not list. -/
abbrev Charter.Unlisted (c : Charter) : Op → Prop :=
  Monitor.Silent (Ledger.observe c.role c.key)

variable {c : Charter} {s : Session octets} {g : Ledger} {spent : Bool}
  {holds holds' : Bytes → Entry → Prop}

/-- Between two messages. `spent` says that the counter was used and not yet advanced. -/
structure Resting (c : Charter) (spent : Bool) (s : Session octets) (g : Ledger) : Prop where
  good : g.Good c
  same : g.current = true → s.m_session_key = c.key ∧ g.user = s.m_username
  lapsed : g.current = false → s.m_session_key = c.key → c.again
  unsent : g.pending = none
  stays : g.closing = false
  behind : g.current = true → ∀ turn ∈ g.talks, turn.counter < s.m_counter.toNat + spent.toNat

/-- In a request, of which something holds; it may be one from before the epoch. -/
structure Working (c : Charter) (spent : Bool) (holds : Bytes → Entry → Prop)
    (s : Session octets) (g : Ledger) : Prop where
  resting : Resting c spent s g
  busy : g.waiting = false
  place : g.current = true → g.entries = [] ∨ ∃ entry rest, g.entries = entry :: rest ∧
    holds g.user entry ∧
    (entry.talk ≠ [] → s.m_counter.toNat + spent.toNat = entry.talk.start + entry.talk.length)

/-- Outside the epoch nothing is known of the request. -/
theorem Working.past (working : Working c spent holds s g) (past : ¬g.current = true) :
    Working c spent holds' s g :=
  ⟨working.resting, working.busy, fun now => absurd now past⟩

theorem Working.mono (working : Working c spent holds s g)
    (weaker : ∀ entry, c.Formed s.m_username entry → holds s.m_username entry →
      holds' s.m_username entry) : Working c spent holds' s g := by
  refine ⟨working.resting, working.busy, fun current => ?_⟩
  have user := (working.resting.same current).2
  cases working.place current with
  | inl none_ => exact .inl none_
  | inr some_ =>
      obtain ⟨entry, rest, listed, held, counter⟩ := some_
      have formed := working.resting.good.formed entry (listed ▸ List.mem_cons_self ..)
      rw [user] at held formed
      exact .inr ⟨entry, rest, listed, user ▸ weaker entry formed held, counter⟩

/-- A step of the request that says nothing. -/
theorem Working.extend (working : Working c spent holds s g) {f : Entry → Entry}
    (quiet : ∀ entry, (f entry).talk = entry.talk)
    (goes : ∀ entry, c.Formed g.user entry → holds g.user entry →
      c.Formed g.user (f entry) ∧ holds' g.user (f entry)) (current : g.current = true) :
    Working c spent holds' s (g.extend f) := by
  have formed : ∀ entry rest, g.entries = entry :: rest → c.Formed g.user (f entry) ∧
      holds' g.user (f entry) := by
    intro entry rest listed
    obtain none_ | ⟨head, tail, placed, held, -⟩ := working.place current
    · rw [none_] at listed
      cases listed
    · obtain ⟨rfl, rfl⟩ := List.cons.inj (placed.symm.trans listed)
      exact goes head (working.resting.good.formed head (listed ▸ List.mem_cons_self ..)) held
  have good := working.resting.good.extend quiet fun entry rest listed => (formed entry rest listed).1
  have resting : Resting c spent s (g.extend f) := by
    constructor
    · exact good
    · simpa using working.resting.same
    · simpa using working.resting.lapsed
    · simpa using working.resting.unsent
    · simpa using working.resting.stays
    · rw [Ledger.talks_extend quiet, Ledger.extend_current]
      exact working.resting.behind
  refine ⟨resting, by simpa using working.busy, fun _ => ?_⟩
  obtain none_ | ⟨entry, rest, listed, -, counter⟩ := working.place current
  · exact .inl (by rw [Ledger.extend_nil none_, none_])
  · refine .inr ⟨f entry, rest, by rw [Ledger.extend_cons listed], ?_, ?_⟩
    · rw [Ledger.extend_user]
      exact (formed entry rest listed).2
    · rw [quiet]
      exact counter

/-- A message of either side, under the counter of the session. -/
theorem Working.say (working : Working c false holds s g) {turn : Turn}
    (counter : turn.counter = s.m_counter.toNat) (sound : c.Sound turn)
    (left_ : g.entries = [] → c.Left turn)
    (goes : ∀ entry, c.Formed g.user entry → holds g.user entry →
      (entry.talk ≠ [] → turn.counter = entry.talk.start + entry.talk.length) →
      c.Formed g.user (entry.say turn) ∧ holds' g.user (entry.say turn))
    (current : g.current = true) : Working c true holds' s (g.say turn) := by
  have formed : ∀ entry rest, g.entries = entry :: rest → c.Formed g.user (entry.say turn) ∧
      holds' g.user (entry.say turn) := by
    intro entry rest listed
    obtain none_ | ⟨head, tail, placed, held, next⟩ := working.place current
    · rw [none_] at listed
      cases listed
    · obtain ⟨rfl, rfl⟩ := List.cons.inj (placed.symm.trans listed)
      exact goes head (working.resting.good.formed head (listed ▸ List.mem_cons_self ..)) held
        fun begun => counter.trans (next begun)
  have behind : ∀ t ∈ g.talks, t.counter < turn.counter := by
    intro t member
    rw [counter]
    exact working.resting.behind current t member
  have good := working.resting.good.say behind sound left_ fun entry rest listed =>
    (formed entry rest listed).1
  have resting : Resting c true s (g.say turn) := by
    constructor
    · exact good
    · simpa [Ledger.say] using working.resting.same
    · simpa [Ledger.say] using working.resting.lapsed
    · simpa [Ledger.say] using working.resting.unsent
    · simpa [Ledger.say] using working.resting.stays
    · intro _ t member
      rw [Ledger.talks_say] at member
      cases List.mem_append.mp member with
      | inl old =>
          have before := working.resting.behind current t old
          simp only [Bool.toNat_false, Bool.toNat_true] at before ⊢
          omega
      | inr new =>
          rw [List.mem_singleton.mp new, counter]
          exact Nat.lt_succ_self _
  refine ⟨resting, by simpa [Ledger.say] using working.busy, fun _ => ?_⟩
  obtain none_ | ⟨entry, rest, listed, -, next⟩ := working.place current
  · exact .inl (by rw [Ledger.say, Ledger.extend_nil none_, none_])
  · refine .inr ⟨entry.say turn, rest, by rw [Ledger.say, Ledger.extend_cons listed], ?_, fun _ => ?_⟩
    · rw [Ledger.say, Ledger.extend_user]
      exact (formed entry rest listed).2
    · cases spoken : entry.talk with
      | nil => simp [Entry.say, spoken, Talk.start, counter]
      | cons first more =>
          have before := next (by simp [spoken])
          simp only [spoken, Bool.toNat_false, List.length_cons, Talk.start, List.head?_cons,
            Option.map_some, Option.getD_some] at before
          simp only [Entry.say, spoken, Talk.start, List.cons_append, List.head?_cons,
            Option.map_some, Option.getD_some, List.length_cons, List.length_append,
            List.length_nil, Bool.toNat_true]
          omega

end Dialogue
end CloudStorage
