import CloudStorage.Dialogue.Steps

/-! How an epoch begins, and how the counter is advanced in it. The two parties negotiate
differently, but seal only under the new key and only after their part of it is drawn. -/
namespace CloudStorage
open Interaction Code Method
namespace Dialogue
variable {c : Charter} {s : Session octets} {g : Ledger} {holds : Bytes → Entry → Prop}
  {waiting : Bool} {form : Bytes → Bytes → Prop}

/-- What the ledger knows while a session key is negotiated. -/
structure Negotiating (c : Charter) (waiting : Bool) (r : Sealing.Record) (g : Ledger) : Prop where
  good : g.Good c
  stays : g.closing = false
  waits : g.waiting = waiting
  past : r.drawn = true → g.current = false
  waiting_ : ∀ e ∈ g.pending, r.unsent = true ∧ g.current = false ∧ (e.key = c.key → c.Outer e)

theorem Negotiating.deliver {r : Sealing.Record} (start : Negotiating c waiting r g) :
    Negotiating c waiting { r with unsent := false } (g.deliver c.role c.key) := by
  unfold Ledger.deliver
  cases pending : g.pending with
  | none =>
      refine ⟨start.good, start.stays, start.waits, start.past, fun e member => ?_⟩
      rw [pending] at member
      cases member
  | some e =>
      obtain ⟨-, past, outer⟩ := start.waiting_ e pending
      by_cases other : e.key ≠ c.key
      · simp only [if_pos other]
        exact ⟨start.good.same rfl rfl rfl rfl, start.stays, start.waits, start.past, nofun⟩
      · simp only [if_neg other, past, Bool.false_eq_true, if_false]
        refine ⟨⟨start.good.ordered, start.good.sound, start.good.formed, start.good.left_, ?_⟩,
          start.stays, start.waits, fun _ => rfl, nofun⟩
        intro sent member
        cases member with
        | head => exact outer (not_not.mp other)
        | tail _ old => exact start.good.outside sent old

theorem send_negotiates {r : Sealing.Record} (start : Negotiating c waiting r g) (frame : Bytes) :
    Program.wp c.monitor (.call (.send frame) .done : Program Op Op.Ans Int)
      (fun _ g' => Negotiating c waiting { r with unsent := false } g') g := by
  rintro _ rfl answer -
  have sent : Negotiating c waiting { r with unsent := false }
      (Ledger.observe c.role c.key g (.send frame) answer) := by
    by_cases failed : answer = -1
    · have dropped : Negotiating c waiting { r with unsent := false } { g with pending := none } :=
        ⟨start.good.same rfl rfl rfl rfl, start.stays, start.waits, start.past, nofun⟩
      have noted : Ledger.observe c.role c.key g (.send frame) answer = { g with pending := none } :=
        (if_pos failed).trans (Ledger.leave_open start.stays)
      rw [noted]
      exact dropped
    · have delivered := start.deliver
      have noted : Ledger.observe c.role c.key g (.send frame) answer = g.deliver c.role c.key :=
        (if_neg failed).trans (Ledger.leave_open delivered.stays)
      rw [noted]
      exact delivered
  exact ⟨sent.good, sent⟩

/-- The calls of the negotiation, as the ledger sees them. -/
theorem onWire_negotiates
    (outer : ∀ aad plaintext (box : SealedBytes), form aad plaintext →
      box.m_ciphertext.length = plaintext.length → c.Outer ⟨c.key, aad, plaintext, box⟩)
    (r : Sealing.Record) (g : Ledger) (op : AuthOp octets) (start : Negotiating c waiting r g)
    (owed : ∀ answer, Sealing.SignatureFits op answer → Sealing.Seals form r op) :
    op.onWire.wp c.monitor (fun answer g' =>
      Sealing.SignatureFits op answer ∧ Negotiating c waiting (r.observe op) g') g := by
  have quiet : ∀ {α : Type} {call : Op} {f : call.Ans → α}, c.Unlisted call →
      (Program.call call fun answer => .done (f answer) : Program Op Op.Ans α).wp c.monitor
        (fun _ g' => True ∧ Negotiating c waiting r g') g := by
    rintro α call f none_ _ rfl answer -
    have kept : Negotiating c waiting r (Ledger.observe c.role c.key g call answer) := by
      rw [none_ g answer]
      exact start
    exact ⟨kept.good, trivial, kept⟩
  have sent : ∀ frame, Program.wp c.monitor (.call (.send frame) .done : Program Op Op.Ans Int)
      (fun _ g' => True ∧ Negotiating c waiting { r with unsent := false } g') g := fun frame =>
    Program.wp_mono (fun _ _ kept => ⟨trivial, kept⟩) (send_negotiates start frame)
  cases op with
  | ssl call =>
      cases call with
      | generateEphemeralKey =>
          rintro _ rfl answer -
          have good : Ledger.Good c { g with current := false } := start.good.same rfl rfl rfl rfl
          refine ⟨good, trivial, good, start.stays, start.waits, fun _ => rfl, fun e member => ?_⟩
          obtain ⟨unsent, -, outer⟩ := start.waiting_ e member
          exact ⟨unsent, rfl, outer⟩
      | encrypt other aad plaintext =>
          rintro _ rfl answer legal
          obtain ⟨drawn, formed⟩ := owed none trivial
          have good : Ledger.Good c
              (Ledger.observe c.role c.key g (.ssl (.encrypt other aad plaintext)) answer) :=
            start.good.same rfl rfl rfl rfl
          refine ⟨good, trivial, good, start.stays, start.waits, start.past, ?_⟩
          intro e member
          obtain ⟨box, found, rfl⟩ := Option.map_eq_some_iff.mp member
          refine ⟨rfl, start.past drawn, ?_⟩
          intro own
          obtain rfl : other = c.key := own
          exact outer aad plaintext box formed (legal.1 box found)
      | generateDS input =>
          rintro _ rfl answer legal
          exact ⟨start.good, legal.1, start⟩
      | _ => exact quiet fun _ _ => rfl
  | random => exact quiet fun _ _ => rfl
  | overread => exact quiet fun _ _ => rfl
  | stray => exact quiet fun _ _ => rfl
  | strayText => exact quiet fun _ _ => rfl
  | checked => exact quiet fun _ _ => rfl
  | sendM1 => exact sent _
  | sendM2 =>
      rintro _ rfl answer -
      exact ⟨start.good, sent _⟩
  | sendM3 => exact sent _
  | sendM4 => exact sent _
  | sendM5 => exact sent _
  | receiveM1 => exact quiet fun _ _ => rfl
  | receiveM2 => exact quiet fun _ _ => rfl
  | receiveM3 => exact quiet fun _ _ => rfl
  | receiveM4 => exact quiet fun _ _ => rfl
  | receiveM5 => exact quiet fun _ _ => rfl

/-- Right after an authentication. -/
structure Entered (c : Charter) (waiting : Bool) (s : Session octets) (g : Ledger) : Prop where
  resting : Resting c false s g
  waits : g.waiting = waiting
  empty : g.current = true → g.entries = []

/-- How a party authenticates: it negotiates, and a success is remarked. -/
def authenticateBy (negotiation : Auth octets Nat) : Method Nat := do
  let result ← Auth.onWire negotiation
  if result ≠ Return.AUTHENTICATION_SUCCESS.val then return result
  let s ← get
  note (.authenticated s.m_username s.m_session_key)
  return result

/-- What makes a negotiation one that the ledger can follow. -/
structure Negotiates (c : Charter) (form : Bytes → Bytes → Prop)
    (negotiation : Auth octets Nat) : Prop where
  seals : ∀ s, negotiation.wp (Sealing.monitor form) Sealing.Resets s ⟨false, false⟩
  outer : ∀ aad plaintext (box : SealedBytes), form aad plaintext →
    box.m_ciphertext.length = plaintext.length → c.Outer ⟨c.key, aad, plaintext, box⟩

theorem authenticate_enters {negotiation : Auth octets Nat}
    (negotiates : Negotiates c form negotiation)
    (good : g.Good c) (unsent : g.pending = none) (stays : g.closing = false)
    (waits : g.waiting = waiting) :
    (authenticateBy negotiation).wp c.monitor (fun code s' g' =>
      code = Return.AUTHENTICATION_SUCCESS.val → Entered c waiting s' g') s g := by
  have start : Negotiating c waiting ⟨false, false⟩ g := by
    refine ⟨good, stays, waits, nofun, ?_⟩
    rw [unsent]
    nofun
  have negotiated : (Auth.onWire negotiation).wp c.monitor (fun code s' g' =>
      code = Return.AUTHENTICATION_SUCCESS.val → s'.m_counter = 0 ∧ g'.Good c ∧ g'.pending = none ∧
        g'.closing = false ∧ g'.waiting = waiting) s g := by
    refine Program.wp_mono ?_ (Program.wp_transfer (fun _ => rfl)
      (onWire_negotiates negotiates.outer) (negotiates.seals s) start)
    rintro ⟨_, t⟩ g' ⟨r, known, ends⟩ code rfl success
    obtain ⟨counter, -, sent⟩ := ends _ rfl success
    refine ⟨counter, known.good, Option.eq_none_iff_forall_not_mem.mpr fun e member => ?_,
      known.stays, known.waits⟩
    rw [(known.waiting_ e member).1] at sent
    cases sent
  refine wp_seq negotiated fun code s g success => ?_
  refine wp_ite.mpr ⟨fun failed => (wp_pure _).mpr fun same => absurd same failed, fun same => ?_⟩
  obtain ⟨counter, good, unsent, stays, waits⟩ := success (not_not.mp same)
  refine wp_bind.mpr (wp_get.mpr (wp_listed fun answer _ => ?_))
  by_cases own : s.m_session_key = c.key
  · have opened : Ledger.observe c.role c.key g (.note (.authenticated s.m_username s.m_session_key))
        answer = g.enter s.m_username := if_pos own
    have begun : (g.enter s.m_username).Good c := ⟨.nil, nofun, nofun, nofun, good.outside⟩
    rw [opened]
    exact ⟨begun, (wp_pure _).mpr fun _ => ⟨⟨begun, fun _ => ⟨own, rfl⟩, nofun, unsent, stays,
      fun _ => nofun⟩, waits, fun _ => rfl⟩⟩
  · have closed : Ledger.observe c.role c.key g (.note (.authenticated s.m_username s.m_session_key))
        answer = { g with current := false } := if_neg own
    have kept : Ledger.Good c { g with current := false } := good.same rfl rfl rfl rfl
    rw [closed]
    exact ⟨kept, (wp_pure _).mpr fun _ => ⟨⟨kept, nofun, fun _ same => absurd same own, unsent, stays,
      nofun⟩, waits, nofun⟩⟩

/-- `incrementCounter` of either party. -/
def incrementBy (authenticate : Method Nat) : Method Unit := do
  let s ← get
  if s.m_counter = Config.MAX_COUNTER_VALUE then
    let result ← authenticate
    if result ≠ Return.AUTHENTICATION_SUCCESS.val then
      throw (.code Return.AUTHENTICATION_FAILURE.val)
  else modify fun s => { s with m_counter := s.m_counter + 1 }

theorem increment_works {negotiation : Auth octets Nat} (negotiates : Negotiates c form negotiation)
    (working : Working c true holds s g) :
    (incrementBy (authenticateBy negotiation)).wp c.monitor (fun _ s' g' =>
      Working c false holds s' g') s g := by
  have resting := working.resting
  refine wp_bind.mpr (wp_get.mpr (wp_ite.mpr ⟨fun _ => ?_, fun more => ?_⟩))
  · refine wp_seq (authenticate_enters negotiates resting.good resting.unsent resting.stays
      working.busy) fun code s' g' success => ?_
    refine wp_ite.mpr ⟨fun _ => wp_throw.mpr trivial, fun same => (wp_pure _).mpr ?_⟩
    have entered := success (not_not.mp same)
    exact ⟨entered.resting, entered.waits, fun current => .inl (entered.empty current)⟩
  · have next := counter_succ more
    refine wp_modify.mpr ⟨⟨resting.good, resting.same, resting.lapsed, resting.unsent, resting.stays,
      fun current turn member => ?_⟩, working.busy, fun current => ?_⟩
    · have before := resting.behind current turn member
      simp only [next, Bool.toNat_true, Bool.toNat_false] at before ⊢
      omega
    · obtain none_ | ⟨entry, rest, listed, held, counter⟩ := working.place current
      · exact .inl none_
      · refine .inr ⟨entry, rest, listed, held, fun begun => ?_⟩
        have now := counter begun
        simp only [next, Bool.toNat_true, Bool.toNat_false] at now ⊢
        omega

end Dialogue
end CloudStorage
