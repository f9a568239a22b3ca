import CloudStorage.Dialogue.Client.Session
import CloudStorage.Dialogue.Server.Session

/-! Where the messages come from that open under a key. All that a party has sent under it
is in its ledger, so what opens at one of the two is in the ledger of one of them. -/
namespace CloudStorage
open Interaction
namespace Dialogue

/-- The end of a negotiation of this key. -/
def authenticates (key : Bytes) (e : Event Op Op.Ans) : Bool :=
  match e.op with
  | .note (.authenticated _ other) => other = key
  | _ => false

/-- The key comes out of one negotiation only. -/
def NegotiatedOnce (key : Bytes) (trace : List (Event Op Op.Ans)) : Prop :=
  trace.countP (authenticates key) ≤ 1

instance (key : Bytes) (trace : List (Event Op Op.Ans)) : Decidable (NegotiatedOnce key trace) :=
  inferInstanceAs (Decidable (_ ≤ _))

namespace Ledger
variable {role : Role} {key : Bytes} {o : Outbox} {g g' : Ledger}

/-- What was sent under the key is in the ledger. -/
structure Records (role : Role) (key : Bytes) (o : Outbox) (g : Ledger) : Prop where
  pending : o.pending = g.pending
  sent : ∀ e ∈ o.sent, e.key = key → e ∈ g.outside ∨ ⟨role, e⟩ ∈ g.talks

/-- The epoch has not begun. -/
structure Unopened (g : Ledger) : Prop where
  past : g.current = false
  silent : g.talks = []

@[simp] theorem leave_talks : g.leave.talks = g.talks := by
  unfold leave
  split <;> rfl

theorem Records.same (records : Records role key o g) (pending : g'.pending = g.pending)
    (outside : g'.outside = g.outside) (talks : ∀ turn ∈ g.talks, turn ∈ g'.talks) :
    Records role key o g' := by
  refine ⟨records.pending.trans pending.symm, fun e member own => ?_⟩
  rw [outside]
  exact (records.sent e member own).imp id (talks _)

theorem Records.leave (records : Records role key o g) : Records role key o g.leave := by
  refine records.same ?_ ?_ fun turn member => by rwa [leave_talks]
  · unfold Ledger.leave
    split <;> rfl
  · unfold Ledger.leave
    split <;> rfl

theorem Records.deliver (records : Records role key o g) :
    Records role key ⟨none, o.pending.toList ++ o.sent⟩ (g.deliver role key) := by
  unfold Ledger.deliver
  have pending := records.pending
  cases waiting : g.pending with
  | none =>
      rw [waiting] at pending
      refine ⟨waiting.symm, ?_⟩
      rw [pending]
      exact records.sent
  | some e =>
      rw [waiting] at pending
      rw [pending]
      by_cases other : e.key ≠ key
      · simp only [if_pos other]
        refine ⟨rfl, fun sent member own => ?_⟩
        rcases List.mem_cons.mp member with rfl | before
        · exact absurd own other
        · exact records.sent sent before own
      · simp only [if_neg other]
        by_cases current : g.current = true
        · simp only [if_pos current]
          have talks : Ledger.talks { g.say ⟨role, e⟩ with pending := none } = g.talks ++ [⟨role, e⟩] :=
            talks_say _
          have outside : Ledger.outside { g.say ⟨role, e⟩ with pending := none } = g.outside :=
            extend_outside _
          refine ⟨rfl, fun sent member own => ?_⟩
          rw [talks, outside]
          rcases List.mem_cons.mp member with rfl | before
          · exact .inr (List.mem_append_right _ (List.mem_singleton_self _))
          · exact (records.sent sent before own).imp id (List.mem_append_left _)
        · simp only [if_neg current]
          refine ⟨rfl, fun sent member own => ?_⟩
          rcases List.mem_cons.mp member with rfl | before
          · exact .inl (List.mem_cons_self ..)
          · exact (records.sent sent before own).imp (List.mem_cons_of_mem _) id

theorem Records.send (records : Records role key o g) (frame : Bytes) (answer : Int) :
    Records role key (Outbox.observe o (.send frame) answer)
      (Ledger.observe role key g (.send frame) answer) := by
  by_cases failed : answer = -1
  · have out : Outbox.observe o (.send frame) answer = ⟨none, o.sent⟩ :=
      congrArg (Outbox.mk none) (if_pos failed)
    have noted : Ledger.observe role key g (.send frame) answer =
        Ledger.leave { g with pending := none } := if_pos failed
    have dropped : Records role key ⟨none, o.sent⟩ { g with pending := none } := ⟨rfl, records.sent⟩
    rw [out, noted]
    exact dropped.leave
  · have out : Outbox.observe o (.send frame) answer = ⟨none, o.pending.toList ++ o.sent⟩ :=
      congrArg (Outbox.mk none) (if_neg failed)
    have noted : Ledger.observe role key g (.send frame) answer = (g.deliver role key).leave :=
      if_neg failed
    rw [out, noted]
    exact records.deliver.leave

theorem Records.begin_ (records : Records role key o g) (user other : Bytes)
    (once : other = key → g.talks = []) : Records role key o (g.begin_ key user other) := by
  unfold Ledger.begin_
  split_ifs with own
  · refine records.same rfl rfl fun turn member => ?_
    rw [once own] at member
    cases member
  · exact records.same rfl rfl fun _ => id

/-- A step that says nothing. -/
theorem Records.extend (records : Records role key o g) {f : Entry → Entry}
    (quiet : ∀ entry, (f entry).talk = entry.talk) : Records role key o (g.extend f) :=
  records.same (extend_pending f) (extend_outside f) fun turn member => by rwa [talks_extend quiet]

theorem Records.hear (records : Records role key o g) (e : Emission) :
    Records role key o (g.hear role e) := by
  unfold Ledger.hear
  split_ifs
  · exact records.same rfl rfl fun _ => id
  · refine records.same (extend_pending _) (extend_outside _) fun turn member => ?_
    rw [talks_say]
    exact List.mem_append_left _ member
  · exact records.same rfl rfl fun _ => id

theorem Records.open_ (records : Records role key o g) (command : UInt8) (names : List Bytes) :
    Records role key o (g.open_ (.begun command names [])) := by
  unfold Ledger.open_
  split_ifs
  · refine records.same rfl rfl fun turn member => ?_
    simpa [Ledger.talks, Entry.begun] using member
  · exact records.same rfl rfl fun _ => id

theorem Records.handle (records : Records role key o g) (command : UInt8) :
    Records role key o (g.handle command) := by
  unfold Ledger.handle
  cases g.unhandled with
  | nil => exact records
  | cons e rest =>
      simp only
      split_ifs
      · refine records.same rfl rfl fun turn member => ?_
        have said : turn ∈ g.talks ++ [⟨.client, e⟩] := List.mem_append_left _ member
        simpa [Ledger.talks, Entry.begun] using said
      · exact records

/-- Only the question whether to delete is recorded. -/
theorem observe_choice (role : Role) (key : Bytes) (g : Ledger)
    (lowerBound upperBound choice : Nat) :
    Ledger.observe role key g (.getValidCode lowerBound upperBound) choice = g ∨
      (g.current = true ∧ Ledger.observe role key g (.getValidCode lowerBound upperBound) choice =
        g.extend (·.confirm choice)) := by
  match lowerBound, upperBound with
  | 1, 2 =>
      by_cases current : g.current = true
      · exact .inr ⟨current, if_pos current⟩
      · exact .inl (if_neg current)
  | 0, _ => exact .inl rfl
  | 1, 0 => exact .inl rfl
  | 1, 1 => exact .inl rfl
  | 1, _ + 3 => exact .inl rfl
  | _ + 2, _ => exact .inl rfl

/-- Only a further negotiation of the key can lose what is recorded. -/
theorem Records.step (records : Records role key o g) (e : Event Op Op.Ans)
    (once : authenticates key e = true → g.talks = []) :
    Records role key (Outbox.observe o e.op e.answer) (Ledger.observe role key g e.op e.answer) := by
  obtain ⟨op, answer⟩ := e
  cases op with
  | ssl call =>
      cases call with
      | encrypt other aad plaintext => exact ⟨rfl, records.sent⟩
      | generateEphemeralKey => exact records.same rfl rfl fun _ => id
      | _ => exact records
  | send frame => exact records.send frame answer
  | getValidCode lowerBound upperBound =>
      rcases observe_choice role key g lowerBound upperBound answer with same | ⟨-, noted⟩
      · simp only [same]
        exact records
      · simp only [noted]
        exact records.extend fun _ => rfl
  | file call =>
      simp only [Ledger.observe]
      split_ifs
      · exact records.extend fun _ => rfl
      · exact records
  | note remark =>
      cases remark with
      | authenticated user other => exact records.begin_ user other fun own => once (decide_eq_true own)
      | accepted other frame plaintext => exact records.hear _
      | invoked command names => exact records.open_ command names
      | started command => exact records.handle command
      | finished code =>
          simp only [Ledger.observe]
          split_ifs
          · exact records.extend fun _ => rfl
          · exact records
      | _ => exact records.same rfl rfl fun _ => id
  | _ => exact records

theorem Unopened.send (unopened : Unopened g) (frame : Bytes) (answer : Int) :
    Unopened (Ledger.observe role key g (.send frame) answer) := by
  have leaves : ∀ g' : Ledger, Unopened g' → Unopened g'.leave := by
    intro g' unopened
    refine ⟨?_, leave_talks.trans unopened.silent⟩
    unfold Ledger.leave
    split
    · rfl
    · exact unopened.past
  simp only [Ledger.observe, Ledger.deliver, unopened.past, Bool.false_eq_true, if_false]
  split_ifs
  · exact leaves _ ⟨rfl, unopened.silent⟩
  · split
    · exact leaves _ unopened
    · split_ifs
      · exact leaves _ ⟨rfl, unopened.silent⟩
      · exact leaves _ ⟨rfl, unopened.silent⟩

theorem Unopened.step (unopened : Unopened g) (e : Event Op Op.Ans)
    (never : authenticates key e = false) : Unopened (Ledger.observe role key g e.op e.answer) := by
  obtain ⟨op, answer⟩ := e
  have past := unopened.past
  cases op with
  | ssl call =>
      cases call with
      | encrypt other aad plaintext => exact ⟨past, unopened.silent⟩
      | generateEphemeralKey => exact ⟨rfl, unopened.silent⟩
      | _ => exact unopened
  | send frame => exact unopened.send frame answer
  | getValidCode lowerBound upperBound =>
      rcases observe_choice role key g lowerBound upperBound answer with same | ⟨current, -⟩
      · simp only [same]
        exact unopened
      · rw [past] at current
        cases current
  | file call =>
      simp only [Ledger.observe, past, Bool.false_eq_true, if_false]
      exact unopened
  | note remark =>
      cases remark with
      | authenticated user other =>
          have differs : other ≠ key := of_decide_eq_false never
          simp only [Ledger.observe, Ledger.begin_, if_neg differs]
          exact ⟨rfl, unopened.silent⟩
      | accepted other frame plaintext =>
          simp only [Ledger.observe, Ledger.hear, past, Bool.false_eq_true, not_false_eq_true, if_true]
          exact ⟨rfl, unopened.silent⟩
      | invoked command names =>
          simp only [Ledger.observe, Ledger.open_, past, Bool.false_eq_true, if_false]
          exact ⟨rfl, unopened.silent⟩
      | started command =>
          simp only [Ledger.observe, Ledger.handle, past, Bool.false_eq_true, if_false]
          split <;> exact unopened
      | finished code =>
          simp only [Ledger.observe, past, Bool.false_eq_true, if_false]
          exact unopened
      | _ => exact ⟨past, unopened.silent⟩
  | _ => exact unopened

theorem Records.run (trace : List (Event Op Op.Ans)) (records : Records role key o g)
    (once : (Unopened g ∧ trace.countP (authenticates key) ≤ 1) ∨
      trace.countP (authenticates key) = 0) :
    Records role key ((Monitor.recording Outbox Outbox.observe).after o trace)
      ((Monitor.recording Ledger (Ledger.observe role key)).after g trace) := by
  induction trace generalizing o g with
  | nil => exact records
  | cons e trace ih =>
      rw [List.countP_cons] at once
      by_cases now : authenticates key e = true
      · rw [if_pos now] at once
        obtain ⟨unopened, once⟩ : Unopened g ∧ trace.countP (authenticates key) + 1 ≤ 1 :=
          once.resolve_right (by omega)
        exact ih (records.step e fun _ => unopened.silent) (.inr (by omega))
      · rw [if_neg now, Nat.add_zero] at once
        refine ih (records.step e fun opens => absurd opens now) ?_
        rcases once with ⟨unopened, once⟩ | never
        · exact .inl ⟨unopened.step e (Bool.eq_false_iff.mpr now), once⟩
        · exact .inr never

end Ledger

/-- All that a party has sent under the key is in its ledger. -/
theorem emitted_listed {role : Role} {key : Bytes} {trace : List (Event Op Op.Ans)}
    (once : NegotiatedOnce key trace) : ∀ e ∈ emitted trace, e.key = key →
      e ∈ (ledger role key trace).outside ∨ ⟨role, e⟩ ∈ (ledger role key trace).talks := by
  have records : Ledger.Records role key .start .start := ⟨rfl, nofun⟩
  exact (records.run trace (.inl ⟨⟨rfl, rfl⟩, once⟩)).sent

/-- What opened under the key. -/
def unsealed (key : Bytes) (trace : List (Event Op Op.Ans)) : List Emission :=
  trace.filterMap fun e =>
    match e with
    | ⟨.ssl (.decrypt other aad box), some plaintext⟩ =>
        if other = key then some ⟨key, aad, plaintext, box⟩ else none
    | _ => none

/-- A client and a server on an insecure network: OpenSSL keeps the lengths, nothing opens
under the key but what one of the two has sent, and each gets the key from one negotiation
only. -/
structure Ideal (key : Bytes) (client server : List (Event Op Op.Ans)) : Prop where
  lengths : ∀ e ∈ client ++ server, KeepsLength e.op e.answer
  authentic : ∀ e ∈ unsealed key client ++ unsealed key server, e ∈ emitted client ∨ e ∈ emitted server
  once : NegotiatedOnce key client ∧ NegotiatedOnce key server

/-- The two have sent it under the key. -/
def Genuine (key : Bytes) (client server : List (Event Op Op.Ans)) (e : Emission) : Prop :=
  e.key = key ∧ (e ∈ emitted client ∨ e ∈ emitted server)

/-- The ledgers of a client and a server that use a key. What one of them hears was said by
one of them. -/
structure Paired (host : Endian) (key : Bytes) (known : Emission → Prop) (c s : Ledger) : Prop where
  client : c.Good (Client.charter host key known)
  server : s.Good (Server.charter host key known)
  origin : ∀ e, known e → e ∈ c.outside ∨ ⟨.client, e⟩ ∈ c.talks ∨ e ∈ s.outside ∨ ⟨.server, e⟩ ∈ s.talks

theorem opens_genuine {key : Bytes} {client server trace : List (Event Op Op.Ans)}
    (authentic : ∀ e ∈ unsealed key trace, e ∈ emitted client ∨ e ∈ emitted server) :
    ∀ e ∈ trace, OpensOnly key (Genuine key client server) e.op e.answer := by
  rintro ⟨op, answer⟩ member
  cases op with
  | ssl call =>
      cases call with
      | decrypt other aad box =>
          rintro plaintext success rfl
          refine ⟨rfl, authentic _ (List.mem_filterMap.mpr ⟨_, member, ?_⟩)⟩
          obtain rfl : answer = some plaintext := success
          exact if_pos rfl
      | _ => trivial
  | _ => trivial

theorem Ideal.paired {host : Endian} {key : Bytes} {rounds turns : Nat} {s t : Session octets}
    {client server : List (Event Op Op.Ans)} {ended : Option (Option Int)} {result : Option Unit}
    (ideal : Ideal key client server) (clientRun : Runs (Client.run host rounds s) client ended)
    (serverRun : Runs (Server.run host turns t) server result) :
    Paired host key (Genuine key client server) (ledger .client key client)
      (ledger .server key server) where
  client := Client.ledger_good clientRun fun e member =>
    ⟨ideal.lengths e (List.mem_append_left _ member),
    opens_genuine (fun e opened => ideal.authentic e (List.mem_append_left _ opened)) e member⟩
  server := Server.ledger_good serverRun fun e member =>
    ⟨ideal.lengths e (List.mem_append_right _ member),
    opens_genuine (fun e opened => ideal.authentic e (List.mem_append_right _ opened)) e member⟩
  origin := by
    rintro e ⟨own, sent | sent⟩
    · exact (emitted_listed ideal.once.1 e sent own).imp id .inl
    · exact .inr (.inr (emitted_listed ideal.once.2 e sent own))

end Dialogue
end CloudStorage
