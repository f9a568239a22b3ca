import CloudStorage.Server.Steps
import CloudStorage.Session.Rehearsal


/-! Replay protection: which counters a session accepts under one key. -/
namespace CloudStorage
open Interaction Code Method
namespace Server
open Rehearsal

/-- The counters of the frames accepted since the last authentication, latest first,
and whether the next accepted frame is a command. -/
structure Acceptance where
  counters : List UInt32
  waiting : Bool

namespace Acceptance

def observe (g : Acceptance) : Op → Acceptance
  | .note (.accepted _ frame _) => { g with counters := frame.getCounter :: g.counters }
  | .note (.authenticated _ _) => { g with counters := [] }
  | .note (.idle _ _) => { g with waiting := true }
  | .note (.started _) => { g with waiting := false }
  | _ => g

/-- A command that is accepted has a handler. -/
def handled (host : Endian) (g : Acceptance) : Op → Bool
  | .note (.accepted _ _ plaintext) =>
      !g.waiting || (handler host (plaintext.headD 0)).isSome
  | _ => true

/-- An accepted counter is larger than all before it. -/
def Larger (g : Acceptance) : Op → Prop
  | .note (.accepted _ frame _) => ∀ earlier ∈ g.counters, earlier < frame.getCounter
  | _ => True

@[reducible] def monitor (host : Endian) : Monitor Op Op.Ans where
  State := Acceptance
  Legal := fun g op _ => g.handled host op = true
  Safe := fun g op _ => g.Larger op
  step := fun g op _ => g.observe op

/-- No accepted counter is the current one or a later one. -/
def Fresh (s : Session octets) (g : Acceptance) : Prop := ∀ earlier ∈ g.counters, earlier < s.m_counter

/-- The current counter may have been accepted. -/
def Used (s : Session octets) (g : Acceptance) : Prop := ∀ earlier ∈ g.counters, earlier ≤ s.m_counter

end Acceptance

/-- The counters accepted since the last authentication, latest first. -/
def acceptedCounters (host : Endian) (trace : List (Event Op Op.Ans)) : List UInt32 :=
  ((Acceptance.monitor host).after ⟨[], false⟩ trace).counters

/-- Every command accepted in the run has a handler. -/
def CommandsHandled (host : Endian) (trace : List (Event Op Op.Ans)) : Prop :=
  (Acceptance.monitor host).LegalTrace ⟨[], false⟩ trace

instance (host : Endian) (g : Acceptance) (op : Op) (answer : op.Ans) :
    Decidable ((Acceptance.monitor host).Legal g op answer) :=
  inferInstanceAs (Decidable (g.handled host op = true))

instance (host : Endian) (trace : List (Event Op Op.Ans)) :
    Decidable (CommandsHandled host trace) := Monitor.decidableLegalTrace _ _ _

namespace Acceptance
variable {host : Endian} {s : Session octets} {g : Acceptance}

theorem Fresh.used (fresh : Fresh s g) : Used s g := fun earlier member =>
  UInt32.le_of_lt (fresh earlier member)

/-- The calls of the negotiation and of sending are not observed. -/
theorem stable_handshake (p : Acceptance → Prop) : (monitor host).Stable Handshake p := by
  rintro g _ kept rfl op isHandshake answer -
  cases isHandshake <;> exact ⟨trivial, kept⟩

/-- Advancing the counter leaves every accepted one behind; a new key leaves none. -/
theorem increment_fresh (used : Used s g) (waiting : g.waiting = false) :
    (incrementCounter host).wp (monitor host)
      (fun _ s' g' => g'.waiting = false ∧ Fresh s' g') s g := by
  refine incrementCounter_wp (fun notFull => ⟨waiting, ?_⟩) fun _ => ?_
  · intro earlier member
    have below := used earlier member
    simp only [Config.MAX_COUNTER_VALUE] at notFull
    grind
  · refine wp_mono ?_ (authenticate_wp (stable_handshake fun g => g.waiting = false)
      (fun _ _ _ _ _ _ _ => trivial) waiting)
    intro code s' g' success succeeded
    obtain ⟨g, _, waiting, rfl, -, rfl⟩ := success succeeded
    exact ⟨waiting, nofun⟩

/-- Between requests, and in a handler once the counter is advanced, no accepted
counter can come again. -/
def invariant (host : Endian) : Invariant (monitor host) where
  Owner := Unit
  Idle := Fresh
  Left := Fresh
  Busy := fun spent _ _ _ s g => g.waiting = false ∧ if spent then Used s g else Fresh s g
  Name := fun _ _ => True
  Path := fun _ _ => True

theorem openGeneric_used {frame : Generic} (fresh : Fresh s g) {waiting : Bool}
    (phase : g.waiting = waiting) :
    (openGeneric frame).wp (monitor host) (fun result s' g' => s' = s ∧
      (∀ plaintext, result = .ok plaintext → Used s g' ∧ g'.waiting = waiting ∧
        (waiting = true → (handler host (plaintext.headD 0)).isSome = true)) ∧
      (∀ code, result = .error code → Fresh s g' ∧ g'.waiting = waiting)) s g := by
  refine openGeneric_wp (fun g : Acceptance => Fresh s g ∧ g.waiting = waiting)
    (stable_handshake _) ?_ ⟨fresh, phase⟩
  rintro plaintext _ _ g _ - - - ⟨fresh, phase⟩ rfl same legal
  refine ⟨?_, ?_, phase, ?_⟩
  · intro earlier member
    exact same ▸ fresh earlier member
  · intro earlier member
    rcases List.mem_cons.mp member with rfl | member
    · exact same ▸ UInt32.le_refl _
    · exact fresh.used earlier member
  · rintro rfl
    simpa only [monitor, handled, phase, Bool.not_true, Bool.false_or] using legal

theorem upkeep (host : Endian) : Upkeep host (invariant host) where
  command := by
    intro s g fresh
    refine wp_mono ?_ (receiveCommand_wp (s := s)
      (fun g : Acceptance => Fresh s g ∧ g.waiting = true)
      (fun plaintext g => Used s g ∧ (handler host (plaintext.headD 0)).isSome = true)
      ?_ (stable_handshake _) ?_)
    · rintro received _ g ⟨rfl, accepted⟩ plaintext arrived
      obtain ⟨used, handled⟩ := accepted plaintext arrived
      obtain ⟨request, found⟩ := Option.isSome_iff_exists.mp handled
      rw [found]
      exact wp_invoke.mpr fun _ same _ _ => same ▸ ⟨trivial, (), rfl, used⟩
    · rintro _ rfl -
      exact ⟨trivial, fresh, rfl⟩
    · rintro frame g ⟨fresh, waiting⟩
      refine wp_mono ?_ (openGeneric_used fresh waiting)
      rintro result _ g ⟨rfl, good, -⟩
      refine ⟨rfl, fun plaintext ok => ?_⟩
      obtain ⟨used, -, handled⟩ := good plaintext ok
      exact ⟨used, handled rfl⟩
  leave := fun busy => busy.2
  finish := by
    intro code s g fresh
    exact wp_invoke.mpr fun _ same _ _ => same ▸ ⟨trivial, fresh⟩
  increment := by
    rintro spent touched owner plaintext s g ⟨waiting, counters⟩
    refine increment_fresh ?_ waiting
    cases spent with
    | true => exact counters
    | false => exact Fresh.used counters
  emit := by
    rintro touched owner plaintext s g message ⟨waiting, fresh⟩ -
    refine wp_mono ?_ ((sendGeneric_keeps message).invariant
      (stable_handshake fun g => g.waiting = false ∧ Fresh s g) ⟨waiting, fresh⟩)
    rintro failure _ g ⟨rfl, -, waiting, fresh⟩
    refine ⟨waiting, ?_⟩
    cases failure with
    | none => exact fresh.used
    | some code => exact fresh
  accept := by
    rintro touched owner plaintext s g frame ⟨waiting, fresh⟩
    refine wp_mono ?_ (openGeneric_used fresh waiting)
    rintro result _ g ⟨rfl, good, bad⟩
    cases result with
    | ok plaintext => exact ⟨(good plaintext rfl).2.1, (good plaintext rfl).1⟩
    | error code => exact ⟨(bad code rfl).2, (bad code rfl).1⟩
  dismiss := by
    rintro owner plaintext s g message ⟨waiting, fresh⟩ - -
    refine wp_mono ?_ (dismiss_wp (Fresh s) (stable_handshake (Fresh s)) ?_
      (stable_handshake _) message fresh)
    · rintro code _ g (⟨rfl, fresh⟩ | ⟨rfl, fresh⟩)
      · exact fresh
      · exact fresh
    · rintro g _ fresh rfl -
      exact ⟨trivial, fresh⟩
  plain := by
    rintro spent touched owner plaintext s g _ busy rfl op isPlain answer -
    cases isPlain <;> exact ⟨trivial, busy⟩
  stray := by
    rintro spent owner plaintext s g _ array memory busy rfl - - beyond -
    exact ⟨trivial, trivial, busy⟩
  file := by
    rintro spent touched owner plaintext s g _ call busy rfl - answer -
    exact ⟨trivial, busy⟩
  named := fun _ _ _ => trivial
  storage := fun _ _ => trivial
  directory := fun _ => trivial

end Acceptance

/-- Safe acceptances form a decreasing list. -/
theorem Acceptance.safe_pairwise {host : Endian} {g : Acceptance}
    {trace : List (Event Op Op.Ans)} (start : g.counters.Pairwise (· > ·))
    (safe : (monitor host).SafeTrace g trace) :
    ((monitor host).after g trace).counters.Pairwise (· > ·) := by
  induction trace generalizing g with
  | nil => exact start
  | cons e rest ih =>
      obtain ⟨larger, safe⟩ := safe
      refine ih ?_ safe
      obtain ⟨op, answer⟩ := e
      simp only [observe]
      split
      · exact List.pairwise_cons.mpr ⟨larger, start⟩
      · exact List.Pairwise.nil
      · exact start
      · exact start
      · exact start

/-- The exact reach of the replay protection: as long as every accepted command has a
handler, the counters accepted under one key only increase. -/
theorem accepted_counters_increase {host : Endian} {rounds : Nat} {s : Session octets}
    {trace : List (Event Op Op.Ans)} {result : Option Unit}
    (execution : Runs (run host rounds s) trace result)
    (handled : CommandsHandled host trace) :
    (acceptedCounters host trace).Pairwise (· > ·) := by
  refine Acceptance.safe_pairwise List.Pairwise.nil ?_
  refine (Acceptance.upkeep host).run (fun _ => rfl) ?_ execution handled
  refine wp_mono ?_ (authenticate_wp (Acceptance.stable_handshake fun _ => True)
    (fun _ _ _ _ _ _ _ => trivial) trivial)
  intro code s g success succeeded
  obtain ⟨_, _, -, rfl, -, rfl⟩ := success succeeded
  exact nofun

/-- A session with two list requests. -/
theorem two_requests_increase :
    acceptedCounters .little ((run .little 2 newcomer).execute Scene.respond
        (sessionOf .little [(0, packet [11]), (2, packet [11])])).1 = [2, 0] ∧
      (acceptedCounters .little ((run .little 2 newcomer).execute Scene.respond
        (sessionOf .little [(0, packet [11]), (2, packet [11])])).1).Pairwise (· > ·) :=
  ⟨by decide +kernel, accepted_counters_increase (Program.execute_runs Scene.respond _ _)
    (by decide +kernel)⟩

/-- A packet with an unknown code does not advance the counter. -/
theorem unhandled_command_replayed :
    ¬ ∀ (host : Endian) (rounds : Nat) (s : Session octets) (trace : List (Event Op Op.Ans))
      (result : Option Unit), Runs (run host rounds s) trace result →
        (acceptedCounters host trace).Pairwise (· > ·) := by
  intro claim
  have increasing := claim .little 2 newcomer _ _
    (Program.execute_runs Scene.respond _ (sessionOf .little [(0, packet [2]), (0, packet [2])]))
  have accepted : acceptedCounters .little ((run .little 2 newcomer).execute Scene.respond
      (sessionOf .little [(0, packet [2]), (0, packet [2])])).1 = [0, 0] := by
    decide +kernel
  rw [accepted] at increasing
  exact absurd increasing (by decide)

end Server
end CloudStorage
