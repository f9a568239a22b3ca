import CloudStorage.Server.Steps
import CloudStorage.Session.Rehearsal

/-! Custody of the session key: under which keys commands run, and what happens to
them after a logout. -/
namespace CloudStorage
open Interaction Code Method
namespace Server
open Rehearsal

/-- The key of the last successful authentication unless it has been erased, the
command in progress, whether a logout was executed since that authentication, and the
counter with which the next frame is expected. -/
structure Custody where
  installed : Option Bytes
  command : UInt8
  loggedOut : Bool
  counter : UInt32

namespace Custody

def observe (g : Custody) : Op → Custody
  | .note (.authenticated _ key) => { g with installed := some key, loggedOut := false }
  | .note .erased => { g with installed := none }
  | .note (.started command) => { g with command := command }
  | .note (.finished _) =>
      { g with loggedOut := g.loggedOut || g.command == Message.LOGOUT_REQUEST.byte }
  | .note (.idle _ counter) => { g with counter := counter }
  | _ => g

/-- After a logout no frame opens with the counter that is expected next. -/
def closed (g : Custody) : (op : Op) → op.Ans → Bool
  | .ssl (.decrypt _ aad _), some _ => !g.loggedOut || networkValue aad != g.counter
  | _, _ => true

/-- After a logout nobody holds the negotiated key any more; frames can still be made
under the constant key. -/
def retired (g : Custody) : (op : Op) → op.Ans → Bool
  | .ssl (.decrypt key _ _), some _ => !g.loggedOut || key == erasedKey
  | _, _ => true

/-- Frames are accepted, and handlers run, under a key that an authentication has
installed and nothing has erased, and no handler runs after a logout. -/
def guarded (g : Custody) : Op → Bool
  | .note (.accepted key _ _) => g.installed == some key
  | .note (.started _) => g.installed.isSome && !g.loggedOut
  | _ => true

/-- The environment may do what `legal` says. -/
@[reducible] def monitor (legal : Custody → (op : Op) → op.Ans → Bool) : Monitor Op Op.Ans where
  State := Custody
  Legal := fun g op answer => legal g op answer = true
  Safe := fun g op _ => g.guarded op = true
  step := fun g op _ => g.observe op

def start : Custody := ⟨none, 0, false, 0⟩

variable {host : Endian} {s : Session octets} {g : Custody}

/-- The calls of the negotiation and of sending are not observed. -/
theorem stable_handshake {legal : Custody → (op : Op) → op.Ans → Bool} (p : Custody → Prop) :
    (monitor legal).Stable Handshake p := by
  rintro g _ kept rfl op isHandshake answer -
  cases isHandshake <;> exact ⟨rfl, kept⟩

/-- The key in use is the installed one, except after a logout. -/
def invariant : Invariant (monitor closed) where
  Owner := Unit
  Idle := fun s g => g.loggedOut = false → g.installed = some s.m_session_key
  Left := fun s g => g.command = Message.LOGOUT_REQUEST.byte ∨
    (g.loggedOut = false → g.installed = some s.m_session_key)
  Busy := fun _ _ _ plaintext s g =>
    g.installed = some s.m_session_key ∧ g.loggedOut = false ∧ g.command = plaintext.headD 0
  Name := fun _ _ => True
  Path := fun _ _ => True

/-- An authentication installs the key in use and ends a logout. -/
theorem authenticate_installs (command : UInt8) (start : g.command = command) :
    (authenticate host).wp (monitor closed) (fun code s' g' =>
      code = Return.AUTHENTICATION_SUCCESS.val → g'.installed = some s'.m_session_key ∧
        g'.loggedOut = false ∧ g'.command = command) s g := by
  refine wp_mono ?_ (authenticate_wp (stable_handshake fun g => g.command = command)
    (fun _ _ _ _ _ _ _ => rfl) start)
  intro code s' g' success succeeded
  obtain ⟨g, _, same, rfl, -, rfl⟩ := success succeeded
  exact ⟨rfl, rfl, same⟩

/-- A frame is accepted under the installed key, or not at all. -/
theorem openGeneric_installed {frame : Generic}
    (installed : g.loggedOut = false → g.installed = some s.m_session_key)
    (expected : g.loggedOut = true → g.counter = s.m_counter) :
    (openGeneric frame).wp (monitor closed) (fun result s' g' => s' = s ∧
      (∀ plaintext, result = .ok plaintext → g' = g ∧ g.loggedOut = false) ∧
      (∀ code, result = .error code → g' = g)) s g := by
  refine openGeneric_wp (fun g' : Custody => g' = g) (stable_handshake _) ?_ rfl
  rintro plaintext _ _ _ _ same rfl legal same' rfl counters -
  obtain ⟨rfl, rfl⟩ : g = _ ∧ g = _ := ⟨same.symm, same'.symm⟩
  have inUse : g.loggedOut = false := by
    by_contra after
    rw [Bool.not_eq_false] at after
    simp only [closed, after, Bool.not_true, Bool.false_or, bne_iff_ne] at legal
    exact legal (counters.symm.trans (expected after).symm)
  refine ⟨?_, rfl, inUse⟩
  simp only [guarded, installed inUse, BEq.rfl]

theorem upkeep (host : Endian) : Upkeep host invariant where
  command := by
    intro s g installed
    refine wp_mono ?_ (receiveCommand_wp (s := s)
      (fun g' : Custody => g' = { g with counter := s.m_counter })
      (fun _ g' => g' = { g with counter := s.m_counter } ∧ g.loggedOut = false)
      ?_ (stable_handshake _) ?_)
    · rintro received _ g' ⟨rfl, accepted⟩ plaintext arrived
      obtain ⟨rfl, inUse⟩ := accepted plaintext arrived
      cases handler host (plaintext.headD 0) with
      | none => exact installed
      | some request =>
          refine wp_invoke.mpr fun _ same _ _ => same ▸ ⟨?_, (), installed inUse, inUse, rfl⟩
          simp only [guarded, installed inUse, inUse, Option.isSome_some, Bool.not_false,
            Bool.and_self]
    · rintro _ rfl -
      exact ⟨rfl, rfl⟩
    · rintro frame _ rfl
      refine wp_mono ?_ (openGeneric_installed (s := s) installed fun _ => rfl)
      rintro result _ g' ⟨rfl, good, -⟩
      exact ⟨rfl, good⟩
  leave := fun busy => .inr fun _ => busy.1
  finish := by
    intro code s g left
    refine wp_invoke.mpr fun _ same _ _ => same ▸ ⟨rfl, fun inUse => ?_⟩
    simp only [observe, Bool.or_eq_false_iff, beq_eq_false_iff_ne] at inUse
    rcases left with logout | installed
    · exact absurd logout inUse.2
    · exact installed inUse.1
  increment := by
    rintro spent touched owner plaintext s g ⟨installed, inUse, command⟩
    refine incrementCounter_wp (fun _ => ⟨installed, inUse, command⟩) fun _ => ?_
    exact authenticate_installs _ command
  emit := by
    rintro touched owner plaintext s g message busy -
    refine wp_mono ?_ ((sendGeneric_keeps message).invariant
      (stable_handshake fun g' : Custody => g' = g) rfl)
    rintro failure _ _ ⟨rfl, -, rfl⟩
    exact busy
  accept := by
    rintro touched owner plaintext s g frame ⟨installed, inUse, command⟩
    refine wp_mono ?_ (openGeneric_installed (fun _ => installed) fun after =>
      absurd after (by simp [inUse]))
    rintro result _ g' ⟨rfl, good, bad⟩
    cases result with
    | ok plaintext => exact (good plaintext rfl).1 ▸ ⟨installed, inUse, command⟩
    | error code => exact bad code rfl ▸ ⟨installed, inUse, command⟩
  dismiss := by
    rintro owner plaintext s g message ⟨installed, inUse, command⟩ logout -
    have left := command.trans logout
    refine wp_mono ?_ (dismiss_wp (fun g : Custody => g.command = Message.LOGOUT_REQUEST.byte)
      (stable_handshake fun g => g.command = Message.LOGOUT_REQUEST.byte) ?_
      (stable_handshake _) message left)
    · rintro code _ g (⟨rfl, left⟩ | ⟨rfl, left⟩)
      · exact .inl left
      · exact .inl left
    · rintro g _ left rfl -
      exact ⟨rfl, left⟩
  plain := by
    rintro spent touched owner plaintext s g _ busy rfl op isPlain answer -
    cases isPlain <;> exact ⟨rfl, busy⟩
  stray := by
    rintro spent owner plaintext s g _ array memory busy rfl - - beyond -
    exact ⟨rfl, trivial, busy⟩
  file := by
    rintro spent touched owner plaintext s g _ call busy rfl - answer -
    exact ⟨rfl, busy⟩
  named := fun _ _ _ => trivial
  storage := fun _ _ => trivial
  directory := fun _ => trivial

end Custody

/-- While nobody can open a frame with the expected counter after a logout, every
frame is accepted and every handler runs under an installed key that is not erased,
and none runs after a logout. -/
theorem commands_under_installed_key {host : Endian} {rounds : Nat} {s : Session octets}
    {trace : List (Event Op Op.Ans)} {result : Option Unit}
    (execution : Runs (run host rounds s) trace result)
    (closed : (Custody.monitor Custody.closed).LegalTrace .start trace) :
    (Custody.monitor Custody.closed).SafeTrace .start trace := by
  refine (Custody.upkeep host).run (fun _ => rfl) ?_ execution closed
  refine wp_mono ?_ (Custody.authenticate_installs 0 rfl)
  intro code s g success succeeded _
  exact (success succeeded).1

/-- A login, a list request, a logout and the end of the connection. -/
theorem ordinary_session_guarded :
    (Custody.monitor Custody.closed).SafeTrace .start ((run .little 3 newcomer).execute Scene.respond
      (sessionOf .little [(0, packet [11]), (2, packet [15])])).1 :=
  commands_under_installed_key (Program.execute_runs Scene.respond _ _) (by decide +kernel)

/-- The command loop goes on after a logout, and the erased key is a constant: anyone
can have a list, or any other request, executed. -/
theorem command_after_logout :
    ¬ ∀ (host : Endian) (rounds : Nat) (s : Session octets) (trace : List (Event Op Op.Ans))
      (result : Option Unit), Runs (run host rounds s) trace result →
        (Custody.monitor Custody.retired).LegalTrace .start trace →
          (Custody.monitor Custody.retired).SafeTrace .start trace := by
  intro claim
  let scene := sessionOf .little [(0, packet [15])]
  let forged := { scene with inbox := scene.inbox ++ [frame erasedKey 1 (packet [11])] }
  have safe := claim .little 3 newcomer _ _ (Program.execute_runs Scene.respond _ forged)
    (by decide +kernel)
  exact absurd safe (by decide +kernel)

end Server
end CloudStorage
