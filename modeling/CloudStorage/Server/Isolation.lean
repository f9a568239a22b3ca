import CloudStorage.Server.Requests
import CloudStorage.Storage.Path

/-! Storage isolation: which paths the handlers of a user's session touch. -/
namespace CloudStorage
open Interaction Code Method
namespace Server
open Rehearsal

namespace Isolation

/-- Every login is by `user`, and every file name that a handler reads retraces its
steps from the storage of `user`. -/
def admits (host : Endian) (cwd : List Bytes) (user : Bytes) (g : Request) :
    (op : Op) → op.Ans → Bool
  | .note (.authenticated username _), _ => username == user
  | .note (.accepted _ _ plaintext), _ =>
      g.serving ||
        Request.namesGood host (Path.Retraces (Path.resolve cwd (storageDirectory user))) plaintext
  | .stray array, beyond =>
      Request.strayGood host (Path.Retraces (Path.resolve cwd (storageDirectory user)))
        g.plaintext array beyond
  | _, _ => true

/-- The path is the storage of `user` or a direct child of it. -/
def Inside (cwd : List Bytes) (user path : Bytes) : Prop :=
  Path.Within (Path.resolve cwd (storageDirectory user)) (Path.resolve cwd path)

def Contained (cwd : List Bytes) (user : Bytes) : Op → Prop
  | .file call => ∀ path ∈ call.paths, Inside cwd user path
  | _ => True

instance (cwd : List Bytes) (user : Bytes) : (op : Op) → Decidable (Contained cwd user op)
  | .file call =>
      inferInstanceAs (Decidable (∀ path ∈ call.paths, Path.Within _ (Path.resolve cwd path)))
  | .ssl _ | .random _ | .memory _ | .stray _ | .send _ | .receive _ | .unlock _ _ | .connect
  | .getline | .getValidCode _ _ | .note _ => .isTrue trivial

@[reducible] def monitor (host : Endian) (cwd : List Bytes) (user : Bytes) :
    Monitor Op Op.Ans where
  State := Request
  Legal := fun g op answer => admits host cwd user g op answer = true
  Safe := fun _ op _ => Contained cwd user op
  step := fun g op _ => g.observe op

/-- The user of a successful authentication. -/
def loginName : Op → Option Bytes
  | .note (.authenticated username _) => some username
  | _ => none

variable {host : Endian} {cwd : List Bytes} {user : Bytes} {s : Session octets} {g : Request}

theorem inside_storagePath {name : Bytes} :
    Inside cwd user (storagePath user name) ↔
      Path.Retraces (Path.resolve cwd (storageDirectory user)) name = true := by
  have joined : storagePath user name = storageDirectory user ++ Path.slash :: name := by
    simp only [storagePath, List.append_assoc]
    rfl
  rw [Inside, joined, Path.resolve_append, Path.within_iff_retraces]

/-- The calls of the negotiation and of sending are not observed. -/
theorem stable_handshake (p : Request → Prop) : (monitor host cwd user).Stable Handshake p := by
  rintro g _ kept rfl op isHandshake answer -
  cases isHandshake <;> exact ⟨trivial, kept⟩

/-- The session is the user's, and in a handler the names of the request are good. -/
def invariant (host : Endian) (cwd : List Bytes) (user : Bytes) :
    Invariant (monitor host cwd user) where
  Owner := Unit
  Idle := fun s _ => s.m_username = user
  Left := fun s _ => s.m_username = user
  Busy := fun _ _ _ plaintext s g => s.m_username = user ∧ g = ⟨true, plaintext⟩ ∧
    Request.namesGood host (Path.Retraces (Path.resolve cwd (storageDirectory user)))
      plaintext = true
  Name := fun _ name => Path.Retraces (Path.resolve cwd (storageDirectory user)) name = true
  Path := fun _ path => Inside cwd user path

theorem authenticate_user (p : Request → Prop) (start : p g) :
    (authenticate host).wp (monitor host cwd user) (fun code s' g' =>
      code = Return.AUTHENTICATION_SUCCESS.val → s'.m_username = user ∧ p g') s g := by
  refine wp_mono ?_ (authenticate_wp (stable_handshake p) (fun _ _ _ _ _ _ _ => trivial) start)
  intro code s' g' success succeeded
  obtain ⟨g, _, kept, rfl, legal, rfl⟩ := success succeeded
  exact ⟨beq_iff_eq.mp legal, kept⟩

/-- Acceptance records the plaintext of a command, and nothing in a handler. -/
theorem openGeneric_recorded {frame : Generic} :
    (openGeneric frame).wp (monitor host cwd user) (fun result s' g' => s' = s ∧
      (∀ plaintext, result = .ok plaintext →
        g' = (if g.serving then g else ⟨true, plaintext⟩) ∧ (g.serving = false →
          Request.namesGood host (Path.Retraces (Path.resolve cwd (storageDirectory user)))
            plaintext = true)) ∧
      (∀ code, result = .error code → g' = g)) s g := by
  refine openGeneric_wp (fun g' : Request => g' = g) (stable_handshake _) ?_ rfl
  rintro plaintext _ _ _ _ - - - rfl rfl - legal
  refine ⟨trivial, rfl, fun waiting => ?_⟩
  simpa only [admits, waiting, Bool.false_or] using legal

theorem upkeep (host : Endian) (cwd : List Bytes) (user : Bytes) :
    Upkeep host (invariant host cwd user) where
  command := by
    intro s g same
    refine wp_mono ?_ (receiveCommand_wp (s := s)
      (fun g : Request => g.serving = false)
      (fun plaintext (g : Request) => g = ⟨true, plaintext⟩ ∧
        Request.namesGood host (Path.Retraces (Path.resolve cwd (storageDirectory user)))
          plaintext = true) ?_ (stable_handshake _) ?_)
    · rintro received _ g' ⟨rfl, accepted⟩ plaintext arrived
      obtain ⟨rfl, names⟩ := accepted plaintext arrived
      cases handler host (plaintext.headD 0) with
      | none => exact same
      | some request =>
          exact wp_invoke.mpr fun _ next _ _ => next ▸ ⟨trivial, (), same, rfl, names⟩
    · rintro _ rfl -
      exact ⟨trivial, rfl⟩
    · intro frame g waiting
      refine wp_mono ?_ (openGeneric_recorded (s := s) (g := g))
      rintro result _ g' ⟨rfl, good, -⟩
      refine ⟨rfl, fun plaintext ok => ?_⟩
      obtain ⟨recorded, names⟩ := good plaintext ok
      rw [waiting] at recorded
      exact ⟨recorded, names waiting⟩
  leave := fun busy => busy.1
  finish := by
    intro code s g same
    exact wp_invoke.mpr fun _ _ _ _ => ⟨trivial, same⟩
  increment := by
    rintro spent touched owner plaintext s g ⟨same, rest⟩
    refine incrementCounter_wp (fun _ => ⟨same, rest⟩) fun _ => ?_
    exact authenticate_user _ rest
  emit := by
    rintro touched owner plaintext s g message busy -
    refine wp_mono ?_ ((sendGeneric_keeps message).invariant
      (stable_handshake fun g' : Request => g' = g) rfl)
    rintro failure _ _ ⟨rfl, -, rfl⟩
    exact busy
  accept := by
    rintro touched owner plaintext s g frame ⟨same, rfl, names⟩
    refine wp_mono ?_ openGeneric_recorded
    rintro result _ g' ⟨rfl, good, bad⟩
    cases result with
    | ok chunk => exact ⟨same, (good chunk rfl).1, names⟩
    | error code => exact ⟨same, bad code rfl, names⟩
  dismiss := by
    rintro owner plaintext s g message ⟨same, -⟩ - -
    refine wp_mono ?_ (dismiss_wp (fun _ => True) (stable_handshake fun _ => True)
      (fun _ _ _ _ _ => ⟨trivial, trivial⟩) (stable_handshake _) message trivial)
    rintro code _ g (⟨rfl, -⟩ | ⟨rfl, -⟩)
    · exact same
    · exact same
  plain := by
    rintro spent touched owner plaintext s g _ busy rfl op isPlain answer -
    cases isPlain <;> exact ⟨trivial, busy⟩
  stray := by
    rintro spent owner plaintext s g _ array memory ⟨same, rfl, names⟩ rfl member open_ beyond
      legal
    exact ⟨trivial, Request.strayGood.named legal member open_, same, rfl, names⟩
  file := by
    rintro spent touched owner plaintext s g _ call busy rfl allowed answer -
    exact ⟨allowed, busy⟩
  named := by
    rintro spent owner plaintext s g array memory ⟨-, -, names⟩ member terminated
    exact Request.namesGood.named names member terminated
  storage := by
    rintro owner plaintext s g name ⟨rfl, -, -⟩ good
    exact inside_storagePath.mpr good
  directory := by
    rintro owner plaintext s g ⟨rfl, -, -⟩
    exact .inl rfl

end Isolation

/-- In a session of `user` whose requests only name files by paths that retrace their
steps, every path that is touched is the storage of `user` or a direct child of it. -/
theorem storage_isolated {host : Endian} {cwd : List Bytes} {user : Bytes} {rounds : Nat}
    {s : Session octets} {trace : List (Event Op Op.Ans)} {result : Option Unit}
    (execution : Runs (run host rounds s) trace result)
    (admitted : (Isolation.monitor host cwd user).LegalTrace .start trace) :
    (Isolation.monitor host cwd user).SafeTrace .start trace := by
  refine (Isolation.upkeep host cwd user).run (fun _ => rfl) ?_ execution admitted
  refine wp_mono ?_ (Isolation.authenticate_user (fun _ => True) trivial)
  exact fun code s g success succeeded => (success succeeded).1

/-- A directory two below the root, and a session of Luca with one download. -/
def sampleDirectory : List Bytes := [ascii "cloud", ascii "build"]

def downloadOf (name : Bytes) : Scene :=
  sessionOf .little [(0, packet (5 :: strncpy name Config.FILE_NAME_LEN))]

theorem download_isolated :
    (Isolation.monitor .little sampleDirectory (ascii "Luca")).SafeTrace .start
      ((run .little 2 newcomer).execute Scene.respond (downloadOf (ascii "notes.txt"))).1 :=
  storage_isolated (Program.execute_runs Scene.respond _ _) (by decide +kernel)

/-- The server does not check file names: Luca can ask for a file of Francesco. -/
theorem foreign_file_touched :
    ¬ ∀ (host : Endian) (cwd : List Bytes) (user : Bytes) (rounds : Nat) (s : Session octets)
      (trace : List (Event Op Op.Ans)) (result : Option Unit),
      FileManager.isStringValid user = true → Runs (run host rounds s) trace result →
        (∀ event ∈ trace, ∀ name ∈ Isolation.loginName event.op, name = user) →
          (Isolation.monitor host cwd user).SafeTrace .start trace := by
  intro claim
  have safe := claim .little sampleDirectory (ascii "Luca") 2 newcomer _ _ (by decide +kernel)
    (Program.execute_runs Scene.respond _ (downloadOf (ascii "../Francesco/notes.txt")))
    (by decide +kernel)
  exact absurd safe (by decide +kernel)

end Server
end CloudStorage
