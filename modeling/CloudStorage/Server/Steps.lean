import CloudStorage.Server.Upkeep

/-! Specifications of the steps of a session for properties that look neither into the
handshake nor into the frames. -/
namespace CloudStorage
open Interaction Code Method

/-- Calls of the negotiation, of sealing and of sending. -/
inductive Handshake : Op → Prop where
  | ssl (call : Ssl octets) : Handshake (.ssl call)
  | random (size : Nat) : Handshake (.random size)
  | memory (size : Nat) : Handshake (.memory size)
  | stray : Handshake (.stray .m_username)
  | strayText : Handshake (.stray .m_serialized_certificate)
  | send (frame : Bytes) : Handshake (.send frame)
  | receive (size : Nat) : Handshake (.receive size)
  | checked (m_counter received : UInt32) : Handshake (.note (.checked m_counter received))

theorem AuthOp.onWire_handshake (op : AuthOp octets) :
    op.onWire.wp (.confine Handshake) (fun _ _ => True) () := by
  have single : ∀ {α : Type} {op : Op} (f : op.Ans → α), Handshake op →
      (Program.call op fun answer => .done (f answer)).wp (.confine Handshake)
        (fun _ _ => True) () := fun _ isHandshake _ _ _ _ => ⟨isHandshake, trivial⟩
  cases op with
  | ssl call => exact single id (.ssl call)
  | random size => exact single id (.random size)
  | overread size => exact single id (.memory size)
  | stray => exact single id .stray
  | strayText => exact single id .strayText
  | checked m_counter received => exact single id (.checked m_counter received)
  | sendM1 message => exact single id (.send _)
  | sendM2 code => exact fun _ _ _ _ => ⟨.random _, single id (.send _)⟩
  | sendM3 message => exact single id (.send _)
  | sendM4 message => exact single id (.send _)
  | sendM5 message => exact single id (.send _)
  | receiveM1 => exact single _ (.receive _)
  | receiveM2 => exact single _ (.receive _)
  | receiveM3 => exact single _ (.receive _)
  | receiveM4 => exact single _ (.receive _)
  | receiveM5 => exact single _ (.receive _)

theorem translate_handshake {α : Type} (p : Program (AuthOp octets) AuthOp.Ans α) :
    (p.translate AuthOp.onWire).wp (.confine Handshake) (fun _ _ => True) () := by
  induction p with
  | done value => trivial
  | call op next ih =>
      exact Program.wp_bind.mpr
        (Program.wp_mono (fun answer _ _ => ih answer) op.onWire_handshake)

namespace Server
variable {host : Endian} {μ : Monitor Op Op.Ans}

/-- A success ends with the remark that names the user and the new key. -/
theorem authenticate_wp {inv : μ.State → Prop} (stable : μ.Stable Handshake inv)
    (marked : ∀ g h, inv g → μ.Rely g h → ∀ username key,
      μ.Legal h (.note (.authenticated username key)) () →
      μ.Safe h (.note (.authenticated username key)) ())
    {s : Session octets} {g : μ.State} (start : inv g) :
    (authenticate host).wp μ (fun code s' g' => code = Return.AUTHENTICATION_SUCCESS.val →
      ∃ g h, inv g ∧ μ.Rely g h ∧
        μ.Legal h (.note (.authenticated s'.m_username s'.m_session_key)) () ∧
        g' = μ.step h (.note (.authenticated s'.m_username s'.m_session_key)) ()) s g := by
  have negotiated : (Auth.onWire (authenticationRequest host)).wp μ (fun _ _ g' => inv g') s g := by
    refine Program.wp_mono ?_ (Program.confined_invariant (translate_handshake _) stable start)
    exact fun _ _ kept _ _ => kept.2
  refine wp_seq negotiated fun code s g kept => ?_
  refine wp_ite.mpr ⟨fun failed => ?_, fun _ => wp_bind.mpr (wp_get.mpr ?_)⟩
  · exact (wp_pure _).mpr fun success => absurd success failed
  · refine wp_bind.mpr (wp_invoke.mpr fun h others _ legal => ?_)
    exact ⟨marked g h kept others _ _ legal, (wp_pure _).mpr fun _ =>
      ⟨g, h, kept, others, legal, rfl⟩⟩

theorem encryptGeneric_keeps (plaintext : Bytes) :
    (encryptGeneric plaintext).Keeps Handshake := by
  refine .ite (fun _ => .pure trivial) fun _ => .bind .get fun s _ => ?_
  refine .bind (.invoke (.ssl _)) fun ciphertext _ => ?_
  cases ciphertext with
  | none => exact .pure trivial
  | some ciphertext => exact .pure trivial

theorem sendGeneric_keeps (plaintext : Bytes) : (sendGeneric plaintext).Keeps Handshake := by
  refine .bind (encryptGeneric_keeps plaintext) fun message _ => ?_
  cases message with
  | none => exact .pure trivial
  | some message =>
      refine .bind (.invoke (.send _)) fun sent _ => ?_
      exact .ite (fun _ => .pure trivial) fun _ => .pure trivial

/-- What acceptance of a frame has to establish; without it the invariant stays. -/
theorem openGeneric_wp (inv : μ.State → Prop) {opened : Bytes → μ.State → Prop}
    {s : Session octets} {frame : Generic} (stable : μ.Stable Handshake inv)
    (accept : ∀ plaintext c d g h, inv c → μ.Rely c d →
      μ.Legal d (.ssl (.decrypt s.m_session_key frame.m_aad frame.m_sealed)) (some plaintext) →
      inv g → μ.Rely g h → s.m_counter = frame.getCounter →
      μ.Legal h (.note (.accepted s.m_session_key frame plaintext)) () →
      μ.Safe h (.note (.accepted s.m_session_key frame plaintext)) () ∧
        opened plaintext (μ.step h (.note (.accepted s.m_session_key frame plaintext)) ()))
    {g : μ.State} (start : inv g) :
    (openGeneric frame).wp μ (fun result s' g' => s' = s ∧
      (∀ plaintext, result = .ok plaintext → opened plaintext g') ∧
      (∀ code, result = .error code → inv g')) s g := by
  refine wp_bind.mpr (wp_get.mpr (wp_bind.mpr (wp_invoke.mpr ?_)))
  intro d others answer legal
  obtain ⟨safe, kept⟩ := stable _ _ start others _ (.ssl _) answer legal
  refine ⟨safe, ?_⟩
  cases answer with
  | none => exact (wp_pure _).mpr ⟨rfl, nofun, fun _ _ => kept⟩
  | some plaintext =>
      refine wp_bind.mpr (wp_invoke.mpr fun h others' _ legal' => ?_)
      obtain ⟨safe', kept'⟩ := stable _ _ kept others' _ (.checked _ _) () legal'
      refine ⟨safe', wp_ite.mpr ⟨fun _ => (wp_pure _).mpr ⟨rfl, nofun, fun _ _ => kept'⟩, ?_⟩⟩
      intro same
      refine wp_bind.mpr (wp_invoke.mpr fun h others' _ marked => ?_)
      obtain ⟨safe'', reached⟩ :=
        accept plaintext _ d _ h start others legal kept' others' (not_not.mp same) marked
      refine ⟨safe'', (wp_pure _).mpr ⟨rfl, ?_, nofun⟩⟩
      rintro _ ⟨⟩
      exact reached

theorem receiveCommand_wp (ready : μ.State → Prop) (received : Bytes → μ.State → Prop)
    {s : Session octets} {g : μ.State}
    (idle : ∀ h, μ.Rely g h → μ.Legal h (.note (.idle s.m_session_key s.m_counter)) () →
      μ.Safe h (.note (.idle s.m_session_key s.m_counter)) () ∧
        ready (μ.step h (.note (.idle s.m_session_key s.m_counter)) ()))
    (waits : μ.Stable Handshake ready)
    (opens : ∀ frame g, ready g → (openGeneric frame).wp μ (fun result s' g' => s' = s ∧
      ∀ plaintext, result = .ok plaintext → received plaintext g') s g) :
    receiveCommand.wp μ (fun result s' g' => s' = s ∧
      ∀ plaintext, result = some plaintext → received plaintext g') s g := by
  refine wp_bind.mpr (wp_get.mpr (wp_bind.mpr (wp_invoke.mpr fun h others _ legal => ?_)))
  obtain ⟨safe, arrived⟩ := idle h others legal
  refine ⟨safe, wp_bind.mpr (wp_invoke.mpr ?_)⟩
  rintro h others ⟨result, buffer⟩ legal
  obtain ⟨safe, arrived⟩ := waits _ h arrived others _ (.receive _) (result, buffer) legal
  refine ⟨safe, ?_⟩
  have ended : (pure none : Method (Option Bytes)).wp μ (fun result s' g' => s' = s ∧
      ∀ plaintext, result = some plaintext → received plaintext g') s
      (μ.step h (.receive (Generic.getMessageSize Config.MAX_PACKET_SIZE)) (result, buffer)) :=
    (wp_pure _).mpr ⟨rfl, nofun⟩
  refine wp_ite.mpr ⟨fun _ => ended, fun _ => wp_ite.mpr ⟨fun _ => ended, fun _ => ?_⟩⟩
  refine wp_seq (opens _ _ arrived) ?_
  rintro opened _ g ⟨rfl, good⟩
  cases opened with
  | error code =>
      exact wp_ite.mpr ⟨fun _ => wp_throw.mpr trivial, fun _ => (wp_pure _).mpr ⟨rfl, nofun⟩⟩
  | ok plaintext =>
      refine (wp_pure _).mpr ⟨rfl, ?_⟩
      rintro _ ⟨⟩
      exact good plaintext rfl

/-- Either sealing fails and nothing happens, or the key is erased. -/
theorem dismiss_wp {inv : μ.State → Prop} (erased : μ.State → Prop) {s : Session octets} {g : μ.State}
    (stable : μ.Stable Handshake inv)
    (erase : ∀ g h, inv g → μ.Rely g h → μ.Legal h (.note .erased) () →
      μ.Safe h (.note .erased) () ∧ erased (μ.step h (.note .erased) ()))
    (sends : μ.Stable Handshake erased) (message : Bytes) (start : inv g) :
    (dismiss message).wp μ (fun _ s' g' => (s' = s ∧ inv g') ∨
      (s' = { s with m_session_key := erasedKey } ∧ erased g')) s g := by
  refine wp_seq ((encryptGeneric_keeps message).invariant stable start) ?_
  rintro sealedMessage _ g ⟨rfl, -, kept⟩
  cases sealedMessage with
  | none => exact (wp_pure _).mpr (.inl ⟨rfl, kept⟩)
  | some frame =>
      refine wp_bind.mpr (wp_modify.mpr (wp_bind.mpr (wp_invoke.mpr fun h others _ legal => ?_)))
      obtain ⟨safe, gone⟩ := erase g h kept others legal
      refine ⟨safe, wp_bind.mpr (wp_invoke.mpr fun h others answer legal => ?_)⟩
      obtain ⟨safe, gone⟩ := sends _ h gone others _ (.send _) answer legal
      refine ⟨safe, wp_ite.mpr ⟨fun _ => ?_, fun _ => ?_⟩⟩
      · exact (wp_pure _).mpr (.inr ⟨rfl, gone⟩)
      · exact (wp_pure _).mpr (.inr ⟨rfl, gone⟩)

/-- `incrementCounter` adds one or authenticates anew. -/
theorem incrementCounter_wp {post : Session octets → μ.State → Prop} {s : Session octets}
    {g : μ.State}
    (next : s.m_counter ≠ Config.MAX_COUNTER_VALUE →
      post { s with m_counter := s.m_counter + 1 } g)
    (again : s.m_counter = Config.MAX_COUNTER_VALUE → (authenticate host).wp μ
      (fun code s' g' => code = Return.AUTHENTICATION_SUCCESS.val → post s' g') s g) :
    (incrementCounter host).wp μ (fun _ s' g' => post s' g') s g := by
  refine wp_bind.mpr (wp_get.mpr (wp_ite.mpr ⟨fun full => ?_, fun more => ?_⟩))
  · refine wp_seq (again full) fun code s g success => ?_
    refine wp_ite.mpr ⟨fun _ => wp_throw.mpr trivial, fun same => ?_⟩
    exact (wp_pure _).mpr (success (not_not.mp same))
  · exact wp_modify.mpr (next more)

end Server
end CloudStorage
