import CloudStorage.Authentication.Transcript
import CloudStorage.Server.Isolation

/-! The binding of a session to its user: whose directory a request works in, and
whose signature was verified for the key it came under. -/
namespace CloudStorage
open Interaction Code Method
namespace Server
open Rehearsal

/-- The name between "../resources/public_keys/" and "_key.pem". -/
def userOf (file : Bytes) : Bytes :=
  (file.drop (ascii "../resources/public_keys/").length).take
    (file.length - (publicKeyFile []).length)

theorem userOf_publicKeyFile (username : Bytes) : userOf (publicKeyFile username) = username := by
  have frame : (publicKeyFile username).length - (publicKeyFile []).length = username.length := by
    simp only [publicKeyFile, List.length_append, List.length_nil]
    omega
  rw [userOf, frame, publicKeyFile, List.append_assoc, List.drop_left, List.take_left]

/-- Whose key file was read last and the key in it, whose signature was verified since,
the user of the current session key and of the request in progress, and how far that
request has come. -/
structure Binding where
  candidate : Option (Bytes × Bytes)
  verified : Option Bytes
  user : Option Bytes
  owner : Option Bytes
  serving : Bool
  touched : Bool
  plaintext : Bytes
  deriving DecidableEq

namespace Binding

def reads (g : Binding) (file : Bytes) : KeyFile Bytes → Binding
  | .key public_key => { g with candidate := some (userOf file, public_key), verified := none }
  | _ => { g with candidate := none, verified := none }

/-- The signature counts for the user whose key it was verified with. -/
def verifies (g : Binding) (key : Bytes) (success : Bool) : Binding :=
  { g with verified :=
      if success then (g.candidate.filter fun entry => entry.2 == key).map Prod.fst else none }

def observe (g : Binding) : (op : Op) → op.Ans → Binding
  | .ssl (.readPublicKey file), answer => g.reads file answer
  | .ssl (.isDSverified _ _ key), success => g.verifies key success
  | .note (.authenticated _ _), _ => { g with user := g.verified }
  | .note (.accepted _ _ plaintext), _ =>
      if g.serving then g else
        { g with owner := g.user, serving := true, touched := false, plaintext := plaintext }
  | .note (.idle _ _), _ => { g with serving := false }
  | .file _, _ => { g with touched := true }
  | _, _ => g

/-- The storage of a user, from the working directory. -/
def storageOf (cwd : List Bytes) (user : Option Bytes) : List Bytes :=
  Path.resolve cwd (storageDirectory (user.getD []))

/-- Whoever logs in has a proper name, and file names retrace their steps from the
storage of the user. -/
def proper (host : Endian) (cwd : List Bytes) (g : Binding) : (op : Op) → op.Ans → Bool
  | .note (.authenticated username _), _ => FileManager.isStringValid username
  | .note (.accepted _ _ plaintext), _ =>
      g.serving || Request.namesGood host (Path.Retraces (storageOf cwd g.user)) plaintext
  | .stray array, beyond =>
      Request.strayGood host (Path.Retraces (storageOf cwd g.owner)) g.plaintext array beyond
  | _, _ => true

/-- Before a request has accessed a file only its own user logs in. -/
def loyal (g : Binding) : Op → Bool
  | .note (.authenticated username _) => !g.serving || g.touched || g.owner == some username
  | _ => true

/-- The file accesses of a request are in the storage of the registered user whose
signature was verified for its session key. -/
def Bound (cwd : List Bytes) (g : Binding) : Op → Prop
  | .file call => ∃ user ∈ g.owner,
      FileManager.isStringValid user = true ∧ Isolation.Contained cwd user (.file call)
  | _ => True

instance (cwd : List Bytes) (g : Binding) : (op : Op) → Decidable (g.Bound cwd op)
  | .file _ => inferInstanceAs (Decidable (∃ user ∈ g.owner, _ ∧ _))
  | .ssl _ | .random _ | .memory _ | .stray _ | .send _ | .receive _ | .unlock _ _ | .connect
  | .getline | .getValidCode _ _ | .note _ => .isTrue trivial

@[reducible] def monitor (host : Endian) (cwd : List Bytes) : Monitor Op Op.Ans where
  State := Binding
  Legal := fun g op answer => g.proper host cwd op answer = true ∧ g.loyal op = true
  Safe := fun g op _ => g.Bound cwd op
  step := observe

/-- Anybody may log in at any time. -/
@[reducible] def lenient (host : Endian) (cwd : List Bytes) : Monitor Op Op.Ans where
  State := Binding
  Legal := fun g op answer => g.proper host cwd op answer = true
  Safe := fun g op _ => g.Bound cwd op
  step := observe

def start : Binding := ⟨none, none, none, none, false, false, []⟩

variable {host : Endian} {cwd : List Bytes} {s : Session octets} {g : Binding}

/-- What a negotiation leaves alone. -/
def SameRequest (g g' : Binding) : Prop :=
  g'.user = g.user ∧ g'.owner = g.owner ∧ g'.serving = g.serving ∧ g'.touched = g.touched ∧
    g'.plaintext = g.plaintext

/-- The negotiation as the monitor sees it. -/
def negotiating (g : Binding) : (op : AuthOp octets) → op.Ans → Binding
  | .ssl call, answer => g.observe (.ssl call) answer
  | _, _ => g

theorem onWire_observed (g : Binding) (op : AuthOp octets) :
    op.onWire.wp (monitor host cwd) (fun answer g' => g' = g.negotiating op answer) g := by
  cases op with
  | ssl call =>
      rintro _ rfl answer -
      exact ⟨trivial, rfl⟩
  | sendM2 code =>
      rintro _ rfl filler - 
      refine ⟨trivial, ?_⟩
      rintro _ rfl sent -
      exact ⟨trivial, rfl⟩
  | _ =>
      rintro _ rfl answer -
      exact ⟨trivial, rfl⟩

theorem negotiating_request (g : Binding) (op : AuthOp octets) (answer : op.Ans) :
    SameRequest g (g.negotiating op answer) := by
  cases op with
  | ssl call =>
      cases call with
      | readPublicKey file => cases answer <;> exact ⟨rfl, rfl, rfl, rfl, rfl⟩
      | _ => exact ⟨rfl, rfl, rfl, rfl, rfl⟩
  | _ => exact ⟨rfl, rfl, rfl, rfl, rfl⟩

def record : Monitor (AuthOp octets) AuthOp.Ans := .recording Binding negotiating

theorem recorded_request (g : Binding) (trace : List (Event (AuthOp octets) AuthOp.Ans)) :
    SameRequest g (record.after g trace) := by
  induction trace generalizing g with
  | nil => exact ⟨rfl, rfl, rfl, rfl, rfl⟩
  | cons e rest ih =>
      obtain ⟨user, owner, serving, touched, plaintext⟩ := g.negotiating_request e.op e.answer
      obtain ⟨user', owner', serving', touched', plaintext'⟩ := ih (g.negotiating e.op e.answer)
      exact ⟨user'.trans user, owner'.trans owner, serving'.trans serving,
        touched'.trans touched, plaintext'.trans plaintext⟩

/-- The signature that a transcript shows is verified with the key of its user. -/
theorem recorded_verified (g : Binding) (d : Transcript octets)
    {named read : List (Event (AuthOp octets) AuthOp.Ans)}
    (naming : named = [] ∨ ∃ beyond, named = [⟨.stray, beyond⟩])
    (reading : read = [] ∨ ∃ size beyond, read = [⟨.overread size, beyond⟩]) :
    Binding.verified (record.after g (d.events host named read)) = some d.username := by
  have quiet : ∀ g, record.after g read = g := by
    intro g
    rcases reading with rfl | ⟨size, beyond, rfl⟩ <;> rfl
  have silent : ∀ g, record.after g named = g := by
    intro g
    rcases naming with rfl | ⟨beyond, rfl⟩ <;> rfl
  simp only [Transcript.events, Agreement.events, Closing.events, Monitor.after_append,
    List.cons_append, Monitor.after, silent, quiet]
  simp only [record, Monitor.recording, negotiating, observe, reads, verifies,
    userOf_publicKeyFile, Option.filter, BEq.rfl, if_true, Option.map]

/-- A successful negotiation has verified a signature of the user it leaves. -/
theorem negotiated (g : Binding) :
    (Auth.onWire (authenticationRequest host)).wp (monitor host cwd) (fun code s' g' =>
      code = Return.AUTHENTICATION_SUCCESS.val →
        g'.verified = some s'.m_username ∧ SameRequest g g') s g := by
  refine Program.wp_translate onWire_observed (Program.wp_mono ?_ Program.wp_recording)
  rintro ⟨_, t⟩ _ ⟨trace, run, rfl⟩ _ rfl rfl
  refine ⟨?_, recorded_request g trace⟩
  obtain ⟨d, named, read, rfl, naming, reading, -, rfl⟩ := authenticationRequest_success run
  exact recorded_verified g d (Negotiation.usernameText_returns naming).2
    (Negotiation.keyText_returns reading).2

/-- A login makes the user of the new key current. Before the request in progress has
touched a file it is the request's own user again. -/
theorem authenticate_user (g : Binding) :
    (authenticate host).wp (monitor host cwd) (fun code s' g' =>
      code = Return.AUTHENTICATION_SUCCESS.val →
        g'.user = some s'.m_username ∧ FileManager.isStringValid s'.m_username = true ∧
        g'.owner = g.owner ∧ g'.serving = g.serving ∧ g'.touched = g.touched ∧
        g'.plaintext = g.plaintext ∧
        (g.serving = true → g.touched = false → g.owner = some s'.m_username)) s g := by
  refine wp_seq (negotiated g) fun code s g' success => ?_
  refine wp_ite.mpr ⟨fun failed => ?_, fun same => wp_bind.mpr (wp_get.mpr ?_)⟩
  · exact (wp_pure _).mpr fun success => absurd success failed
  obtain ⟨verified, -, owner, serving, touched, plaintext⟩ := success (not_not.mp same)
  refine wp_bind.mpr (wp_invoke.mpr ?_)
  rintro _ rfl _ ⟨valid, loyalty⟩
  refine ⟨trivial, (wp_pure _).mpr fun _ => ?_⟩
  refine ⟨verified, valid, owner, serving, touched, plaintext, fun busy untouched => ?_⟩
  simp only [loyal, serving, touched, owner, busy, untouched] at loyalty
  simpa using loyalty

/-- Nothing but remarks and file calls changes what is known of the request. -/
theorem stable_handshake (g : Binding) : (monitor host cwd).Stable Handshake (SameRequest g) := by
  rintro g' _ same rfl op isHandshake answer -
  refine ⟨?_, ?_⟩
  · cases isHandshake <;> trivial
  · cases isHandshake with
    | ssl call =>
        have kept := g'.negotiating_request (.ssl call) answer
        obtain ⟨user, owner, serving, touched, plaintext⟩ := kept
        obtain ⟨user', owner', serving', touched', plaintext'⟩ := same
        exact ⟨user.trans user', owner.trans owner', serving.trans serving',
          touched.trans touched', plaintext.trans plaintext'⟩
    | _ => exact same

/-- The user of the current key is the one that `m_username` names. -/
def Idle (s : Session octets) (g : Binding) : Prop :=
  g.user = some s.m_username ∧ FileManager.isStringValid s.m_username = true

/-- A request of `owner` is in progress. Until it has touched a file the session is
still the owner's. -/
structure Serving (host : Endian) (cwd : List Bytes) (accessed : Bool) (name request : Bytes)
    (s : Session octets) (g : Binding) : Prop where
  idle : Idle s g
  owner : g.owner = some name
  valid : FileManager.isStringValid name = true
  serving : g.serving = true
  touched : g.touched = accessed
  same : accessed = false → s.m_username = name
  plaintext : g.plaintext = request
  names : Request.namesGood host (Path.Retraces (storageOf cwd (some name))) request = true

theorem Serving.keep {touched : Bool} {owner plaintext : Bytes} {g' : Binding}
    (busy : Serving host cwd touched owner plaintext s g) (request : SameRequest g g') :
    Serving host cwd touched owner plaintext s g' := by
  obtain ⟨user, owner, serving, touched, plaintext⟩ := request
  exact ⟨⟨user.trans busy.idle.1, busy.idle.2⟩, owner.trans busy.owner, busy.valid,
    serving.trans busy.serving, touched.trans busy.touched, busy.same,
    plaintext.trans busy.plaintext, busy.names⟩

def invariant (host : Endian) (cwd : List Bytes) : Invariant (monitor host cwd) where
  Owner := Bytes
  Idle := Idle
  Left := Idle
  Busy := fun _ touched => Serving host cwd touched
  Name := fun owner name => Path.Retraces (storageOf cwd (some owner)) name = true
  Path := fun owner path => Isolation.Inside cwd owner path

/-- A frame that is accepted in a request changes nothing; at the top of the loop it
starts a request of the current user. -/
theorem openGeneric_recorded {frame : Generic} :
    (openGeneric frame).wp (monitor host cwd) (fun result s' g' => s' = s ∧
      (∀ plaintext, result = .ok plaintext → (g.serving = true → SameRequest g g') ∧
        (g.serving = false → g'.user = g.user ∧ g'.owner = g.user ∧ g'.serving = true ∧
          g'.touched = false ∧ g'.plaintext = plaintext ∧
          Request.namesGood host (Path.Retraces (storageOf cwd g.user)) plaintext = true)) ∧
      (∀ code, result = .error code → SameRequest g g')) s g := by
  have start : SameRequest g g := ⟨rfl, rfl, rfl, rfl, rfl⟩
  have stable : (monitor host cwd).Stable Handshake (SameRequest g) := stable_handshake g
  refine openGeneric_wp _ stable ?_ start
  rintro plaintext _ _ h _ - - - request rfl - legal
  refine ⟨trivial, fun busy => ?_, fun waiting => ?_⟩
  · have serving : h.serving = true := request.2.2.1.trans busy
    simpa only [observe, serving, if_true] using request
  · have serving : h.serving = false := request.2.2.1.trans waiting
    have user : h.user = g.user := request.1
    replace legal := legal.1
    simp only [proper, serving, user, Bool.false_or] at legal
    simp only [observe, serving]
    exact ⟨user, user, rfl, rfl, rfl, legal⟩

theorem upkeep (host : Endian) (cwd : List Bytes) : Upkeep host (invariant host cwd) where
  command := by
    rintro s g ⟨user, valid⟩
    refine wp_mono ?_ (receiveCommand_wp (s := s)
      (fun g' : Binding => g'.user = g.user ∧ g'.serving = false)
      (fun plaintext g' => Serving host cwd false s.m_username plaintext s g') ?_ ?_ ?_)
    · rintro received _ g' ⟨rfl, accepted⟩ plaintext arrived
      have busy := accepted plaintext arrived
      cases handler host (plaintext.headD 0) with
      | none => exact busy.idle
      | some request =>
          exact wp_invoke.mpr fun _ next _ _ => next ▸ ⟨trivial, _, busy⟩
    · rintro _ rfl -
      exact ⟨trivial, rfl, rfl⟩
    · rintro g' _ ⟨same, waiting⟩ rfl op isHandshake answer legal
      obtain ⟨safe, kept⟩ :=
        stable_handshake g' g' g' ⟨rfl, rfl, rfl, rfl, rfl⟩ rfl op isHandshake answer legal
      exact ⟨safe, kept.1.trans same, kept.2.2.1.trans waiting⟩
    · rintro frame g' ⟨same, waiting⟩
      refine wp_mono ?_ (openGeneric_recorded (s := s) (g := g'))
      rintro result _ g'' ⟨rfl, good, -⟩
      refine ⟨rfl, fun plaintext ok => ?_⟩
      obtain ⟨user', owner, serving, touched, recorded, names⟩ := (good plaintext ok).2 waiting
      have current := same.trans user
      rw [current] at user' owner names
      exact ⟨⟨user', valid⟩, owner, valid, serving, touched, fun _ => rfl, recorded, names⟩
  leave := fun busy => busy.idle
  finish := by
    intro code s g idle
    exact wp_invoke.mpr fun _ same _ _ => same ▸ ⟨trivial, idle⟩
  increment := by
    intro spent touched owner plaintext s g busy
    refine incrementCounter_wp (fun _ => ⟨busy.idle, busy.owner, busy.valid, busy.serving,
      busy.touched, busy.same, busy.plaintext, busy.names⟩) fun _ => ?_
    refine wp_mono ?_ (authenticate_user g)
    intro code s' g' success succeeded
    obtain ⟨user, valid, owner', serving, touched', recorded, again⟩ := success succeeded
    refine ⟨⟨user, valid⟩, owner'.trans busy.owner, busy.valid, serving.trans busy.serving,
      touched'.trans busy.touched, ?_, recorded.trans busy.plaintext, busy.names⟩
    intro untouched
    have current := again busy.serving (busy.touched.trans untouched)
    exact (Option.some.inj (busy.owner.symm.trans current)).symm
  emit := by
    intro touched owner plaintext s g message busy _
    refine wp_mono ?_ ((sendGeneric_keeps message).invariant (stable_handshake g)
      ⟨rfl, rfl, rfl, rfl, rfl⟩)
    rintro failure _ g' ⟨rfl, -, request⟩
    exact busy.keep request
  accept := by
    intro touched owner plaintext s g frame busy
    refine wp_mono ?_ openGeneric_recorded
    rintro result _ g' ⟨rfl, good, bad⟩
    cases result with
    | ok chunk => exact busy.keep ((good chunk rfl).1 busy.serving)
    | error code => exact busy.keep (bad code rfl)
  dismiss := by
    intro owner plaintext s g message busy _ _
    refine wp_mono ?_ (dismiss_wp (SameRequest g) (stable_handshake g) ?_ (stable_handshake g)
      message ⟨rfl, rfl, rfl, rfl, rfl⟩)
    · rintro code _ g' (⟨rfl, request⟩ | ⟨rfl, request⟩)
      · exact ⟨request.1.trans busy.idle.1, busy.idle.2⟩
      · exact ⟨request.1.trans busy.idle.1, busy.idle.2⟩
    · rintro g' _ request rfl -
      exact ⟨trivial, request⟩
  plain := by
    rintro spent touched owner plaintext s g _ busy rfl op isPlain answer -
    cases isPlain <;> exact ⟨trivial, busy⟩
  stray := by
    rintro spent owner plaintext s g _ array memory busy rfl member unterminated beyond legal
    have good : Request.strayGood host (Path.Retraces (storageOf cwd (some owner))) plaintext
        array beyond = true := by
      simpa only [proper, busy.owner, busy.plaintext] using legal.1
    exact ⟨trivial, Request.strayGood.named good member unterminated, busy⟩
  file := by
    rintro spent touched owner plaintext s g _ call busy rfl allowed answer -
    exact ⟨⟨owner, busy.owner, busy.valid, allowed⟩, busy.idle, busy.owner, busy.valid,
      busy.serving, rfl, nofun, busy.plaintext, busy.names⟩
  named := by
    intro spent owner plaintext s g array memory busy member terminated
    exact Request.namesGood.named busy.names member terminated
  storage := by
    intro owner plaintext s g name busy good
    obtain rfl := busy.same rfl
    exact Isolation.inside_storagePath.mpr good
  directory := by
    intro owner plaintext s g busy
    obtain rfl := busy.same rfl
    exact .inl rfl

end Binding

/-- When only a request's own user logs in before the request has accessed a file,
users have proper names and file names retrace their steps, every file access of a
request is in the storage of the user whose signature was verified for its key. -/
theorem session_stays_bound {host : Endian} {cwd : List Bytes} {rounds : Nat}
    {s : Session octets} {trace : List (Event Op Op.Ans)} {result : Option Unit}
    (execution : Runs (run host rounds s) trace result)
    (admitted : (Binding.monitor host cwd).LegalTrace .start trace) :
    (Binding.monitor host cwd).SafeTrace .start trace := by
  refine (Binding.upkeep host cwd).run (fun _ => rfl) ?_ execution admitted
  refine wp_mono ?_ (Binding.authenticate_user .start)
  intro code s g success succeeded
  obtain ⟨user, valid, -⟩ := success succeeded
  exact ⟨user, valid⟩

/-- A session in which Luca asks for one of his files. -/
theorem download_stays_bound :
    (Binding.monitor .little sampleDirectory).SafeTrace .start
      ((run .little 2 newcomer).execute Scene.respond (downloadOf (ascii "notes.txt"))).1 :=
  session_stays_bound (Program.execute_runs Scene.respond _ _) (by decide +kernel)

end Server
end CloudStorage
