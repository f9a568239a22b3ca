import CloudStorage.Session.Agreement
import CloudStorage.Session.Files

/-! The rounds of both loops: the client is at its menu or inside an operation while the
server waits for a request, and a request of the client wakes the server up. -/
namespace CloudStorage
open Interaction Code Method Party

namespace Lockstep
variable {C : Crypto} {F G : Computer} {α β γ δ : Type} {ends : Pair C F G α β → Prop}
  {host : Endian} {files : F.State} {storage : G.State} {s : Session octets}
  {left : Program Op Op.Ans α} {right : Program Op Op.Ans β} {there : Machine G}
  {kC : Except Thrown γ × Session octets → Program Op Op.Ans α}
  {kS : Except Thrown Unit × Session octets → Program Op Op.Ans β} {rounds : Nat}

/-- The client is at work beside a server in any state. -/
abbrev Beside (ends : Pair C F G α β → Prop) (left : Program Op Op.Ans α)
    (right : Program Op Op.Ans β) (files : F.State) (there : Machine G) : Prop :=
  Link.Good (pact ends) ⟨left, right, busy files, there, [], []⟩

/-- A step of the client that sends and receives nothing. -/
theorem local_left {η : Type} {c : Method η} {f : η → Method γ} {known : η → Prop}
    {files' : F.State} (sound : there.sound = true)
    (quiet : c.ensures
      ((port C F .client).desk fun m => (pact ends).SafeLeft m ∧ ¬(port C F .client).Rests m)
      (Same C .client s files' [] [] known) s ⟨busy files, [], []⟩)
    (next : ∀ answer, known answer → Beside ends ((f answer s).bind kC) right files' there) :
    Beside ends (((c >>= f) s).bind kC) right files there := by
  refine .code_left sound quiet ?_
  rintro answer s _ ⟨fine, rfl, rfl⟩
  exact next answer fine

theorem local_right {η : Type} {c : Method η} {f : η → Method δ} {known : η → Prop}
    {storage' : G.State} {kS : Except Thrown δ × Session octets → Program Op Op.Ans β}
    (quiet : c.ensures ((port C G .server).desk (pact ends).SafeRight)
      (Same C .server s storage' [] [] known) s ⟨busy storage, [], []⟩)
    (next : ∀ answer, known answer → At ends left ((f answer s).bind kS) files storage') :
    At ends left (((c >>= f) s).bind kS) files storage := by
  refine .code_right (safe_left files).1 quiet ?_
  rintro answer s _ ⟨fine, rfl, rfl⟩
  exact next answer fine

/-- What the server goes on with after it has waited for a request. -/
def served (host : Endian) (rounds : Nat) (command : Option Bytes) : Method Unit :=
  match command with
  | some plaintext => do
      Server.dispatch host plaintext
      Server.serve host rounds
  | none => return ()

theorem serve_succ (host : Endian) (rounds : Nat) :
    Server.serve host (rounds + 1) = Server.receiveCommand >>= served host rounds := by
  refine congrArg (Server.receiveCommand >>= ·) (funext fun command => ?_)
  cases command with
  | none => rfl
  | some plaintext => rfl

/-- The server waits at the top of its loop. -/
def atTop (storage : G.State) (s : Session octets) : Machine G :=
  ⟨storage, true, some (s.m_session_key, s.m_counter), none⟩

abbrev Waiting (ends : Pair C F G α β → Prop) (host : Endian)
    (kS : Except Thrown Unit × Session octets → Program Op Op.Ans β) (left : Program Op Op.Ans α)
    (rounds : Nat) (s : Session octets) (files : F.State) (storage : G.State) : Prop :=
  Beside ends left (((Server.awaitCommand >>= served host rounds) s).bind kS) files
    (atTop storage s)

/-- The server comes to the top of its loop. -/
theorem settle (next : Waiting ends host kS left rounds s files storage) :
    At ends left ((Server.serve host (rounds + 1) s).bind kS) files storage := by
  have remark : (note (.idle s.m_session_key s.m_counter)).ensures
      ((port C G .server).desk (pact ends).SafeRight)
      (fun _ t g => t = s ∧ g = ⟨atTop storage s, [], []⟩) s ⟨busy storage, [], []⟩ := by
    rintro _ rfl answer -
    exact ⟨⟨rfl, Nat.zero_le _, nofun⟩, answer, s, rfl, rfl, rfl⟩
  rw [serve_succ, Server.receiveCommand, Code.bind_assoc, run_get, Code.bind_assoc]
  refine .code_right (safe_left files).1 remark ?_
  rintro _ s _ ⟨rfl, rfl⟩
  exact next

/-- A handler has returned. -/
def handled (host : Endian) (rounds : Nat) (code : Nat) : Method Unit := do
  note (.finished code)
  Server.serve host rounds

theorem leave {code : Nat} (next : Waiting ends host kS left rounds s files storage) :
    At ends left ((handled host (rounds + 1) code s).bind kS) files storage :=
  right_note trivial (settle next)

/-- A request wakes the server up. -/
theorem to_command {plaintext : Bytes} {f : Option Nat → Method γ} {g : Option Bytes → Method δ}
    {kS : Except Thrown δ × Session octets → Program Op Op.Ans β}
    (length : plaintext.length = Config.MAX_PACKET_SIZE)
    (next : At ends ((f none s).bind kC) ((g (some plaintext) s).bind kS) files storage) :
    Beside ends (((sendGeneric plaintext >>= f) s).bind kC)
      (((Server.awaitCommand >>= g) s).bind kS) files (atTop storage s) := by
  have short : plaintext.length < 2 ^ 31 := by rw [length]; decide
  refine .code_left rfl (sendGeneric_sent safe_left short) ?_
  rintro _ s _ ⟨rfl, rfl, frame, carries, rfl⟩
  have received : Server.awaitCommand.ensures ((port C G .server).desk (pact ends).SafeRight)
      (Same C .server s storage [] [] (· = some plaintext)) s ⟨atTop storage s, frame, []⟩ := by
    have whole : frame.length = Generic.getMessageSize Config.MAX_PACKET_SIZE :=
      carries.length.trans (congrArg _ length)
    have some_ : frame ≠ [] := by
      rintro rfl
      exact absurd whole (by simp [Generic.getMessageSize, Config.MAX_PACKET_SIZE])
    have ready : (pact ends).SafeRight (atTop storage s) := rfl
    refine ensures_seq (ask_receive ready rfl whole (List.append_nil frame).symm fun _ => some_) ?_
    rintro _ s _ ⟨rfl, rfl, rfl⟩
    refine ensures_seq (frame_opened safe_right carries length) ?_
    rintro _ s _ ⟨rfl, rfl, rfl⟩
    exact ensures_pure ⟨rfl, rfl, rfl⟩
  refine .code_right (safe_left files).1 received ?_
  rintro _ s _ ⟨rfl, rfl, rfl⟩
  exact next

/-- The first message of an operation. -/
theorem request {plaintext : Bytes} {f : Option Nat → Method γ} (handler : Bytes → Method Nat)
    (length : plaintext.length = Config.MAX_PACKET_SIZE)
    (known : Server.handler host (plaintext.headD 0) = some handler)
    (next : At ends ((f none s).bind kC)
      (((handler plaintext >>= handled host rounds) s).bind kS) files storage) :
    Waiting ends host kS (((sendGeneric plaintext >>= f) s).bind kC) rounds s files storage := by
  apply to_command length
  rw [served, Server.dispatch, known, Code.bind_assoc]
  refine right_note trivial ?_
  rw [Code.bind_assoc]
  exact next

end Lockstep
end CloudStorage
