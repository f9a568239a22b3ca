import CloudStorage.Session.Lockstep

/-! Both sides of a negotiation, in step: it succeeds and leaves an equal key. -/
namespace CloudStorage
open Interaction Code Method Party

/-- One call of the negotiation on the wire. -/
def AuthOp.wire (op : AuthOp octets) : Method op.Ans := fun s =>
  op.onWire.bind fun answer => .done (.ok answer, s)

theorem Auth.onWire_ask {α : Type} (op : AuthOp octets) (f : op.Ans → Auth octets α) :
    Auth.onWire (Negotiation.ask op >>= f) = (op.wire >>= fun answer => Auth.onWire (f answer)) := by
  funext s
  simp only [Auth.onWire, Negotiation.ask, run_bind, invoke, AuthOp.wire, Program.translate,
    Program.call_bind, Program.done_bind, Program.bind_assoc]

theorem padded_length {P : Primitives} {text : List P.Symbol} {width : Nat}
    (fits : text.length ≤ width) : (padded text width).length = width := by
  simp only [padded, List.length_append, List.length_replicate]
  omega

/-- A text that fits its array is read back. -/
theorem Negotiation.keyText_padded {P : Primitives} {text : List P.Symbol} {width : Nat}
    (fits : text.length ≤ width) (small : width < 2 ^ 31) :
    keyText (padded text width) text.length.toUInt32 = pure (some text) := by
  have value : text.length.toUInt32.toNat = text.length :=
    UInt32.toNat_ofNat_of_lt' (show text.length < 2 ^ 32 by omega)
  simp only [keyText, value, padded_length fits]
  rw [if_neg (by omega), if_pos fits, padded, List.take_left]

theorem Negotiation.certificateText_padded {P : Primitives} {text : List P.Symbol} {width : Nat}
    (fits : text.length ≤ width) (small : width < 2 ^ 31) :
    certificateText (padded text width) text.length.toUInt32 = pure text := by
  have value : text.length.toUInt32.toNat = text.length :=
    UInt32.toNat_ofNat_of_lt' (show text.length < 2 ^ 32 by omega)
  simp only [certificateText, value, padded_length fits]
  rw [if_pos (by omega), if_pos fits, padded, List.take_left]

theorem Negotiation.usernameText_terminated {P : Primitives} {m_username : Bytes}
    (terminated : 0 ∈ m_username) :
    (usernameText m_username : Auth P Bytes) = pure (cPrefix m_username) := if_pos terminated

theorem AuthenticationM1.formed_ofKey {text : Bytes} (username : Bytes)
    (fits : text.length ≤ EPHEMERAL_KEY_LEN) :
    AuthenticationM1.WellFormed (.ofKey text username) :=
  ⟨padded_length (P := octets) fits, strncpy_length _ _⟩

theorem AuthenticationM3.formed_ofParts {text certificate : Bytes} {counter : UInt32}
    {host : Endian} {C : Crypto} {key input : Bytes} {box : SealedBytes}
    (keyFits : text.length ≤ EPHEMERAL_KEY_LEN)
    (certificateFits : certificate.length ≤ MAX_SERIALIZED_CERTIFICATE_LEN)
    (fits : C.Seals key (host.bytes counter) input box)
    (signature : input.length = ENCRYPTED_SIGNATURE_LEN) :
    AuthenticationM3.WellFormed (.ofParts text (host.bytes counter) box certificate) :=
  ⟨padded_length (P := octets) keyFits, fits.iv, Endian.bytes_length _ _, fits.tag,
    fits.ciphertext.trans signature, padded_length (P := octets) certificateFits⟩

namespace Lockstep
variable {C : Crypto} {F G : Computer} {α β γ δ : Type}
  {ends : Pair C F G α β → Prop} {files : F.State} {storage : G.State}
  {s t : Session octets} {kC : Except Thrown γ × Session octets → Program Op Op.Ans α}
  {kS : Except Thrown δ × Session octets → Program Op Op.Ans β}
  {left : Program Op Op.Ans α} {right : Program Op Op.Ans β}

/-- A call of the client that moves no bytes. -/
theorem auth_left {op : AuthOp octets} {f : op.Ans → Auth octets γ} {known : op.Ans → Prop}
    (quiet : op.wire.ensures
      ((port C F .client).desk fun m => (pact ends).SafeLeft m ∧ ¬(port C F .client).Rests m)
      (Same C .client s files [] [] known) s ⟨busy files, [], []⟩)
    (next : ∀ answer, known answer →
      At ends ((Auth.onWire (f answer) s).bind kC) right files storage) :
    At ends ((Auth.onWire (Negotiation.ask op >>= f) s).bind kC) right files storage := by
  rw [Auth.onWire_ask]
  refine .code_left (safe_right storage) quiet ?_
  rintro answer s _ ⟨fine, rfl, rfl⟩
  exact next answer fine

theorem auth_right {op : AuthOp octets} {f : op.Ans → Auth octets δ} {known : op.Ans → Prop}
    (quiet : op.wire.ensures ((port C G .server).desk (pact ends).SafeRight)
      (Same C .server t storage [] [] known) t ⟨busy storage, [], []⟩)
    (next : ∀ answer, known answer →
      At ends left ((Auth.onWire (f answer) t).bind kS) files storage) :
    At ends left ((Auth.onWire (Negotiation.ask op >>= f) t).bind kS) files storage := by
  rw [Auth.onWire_ask]
  refine .code_right (safe_left files).1 quiet ?_
  rintro answer t _ ⟨fine, rfl, rfl⟩
  exact next answer fine

theorem left_ssl {call : Ssl octets} {f : call.Ans → Auth octets γ}
    (next : ∀ answer, C.Answers .client call answer →
      At ends ((Auth.onWire (f answer) s).bind kC) right files storage) :
    At ends ((Auth.onWire (Negotiation.ssl call >>= f) s).bind kC) right files storage :=
  auth_left (ask_ssl safe_left call) next

theorem right_ssl {call : Ssl octets} {f : call.Ans → Auth octets δ}
    (next : ∀ answer, C.Answers .server call answer →
      At ends left ((Auth.onWire (f answer) t).bind kS) files storage) :
    At ends left ((Auth.onWire (Negotiation.ssl call >>= f) t).bind kS) files storage :=
  auth_right (ask_ssl safe_right call) next

theorem left_modify {update : Session octets → Session octets} {f : Unit → Auth octets γ}
    (next : At ends ((Auth.onWire (f ()) (update s)).bind kC) right files storage) :
    At ends ((Auth.onWire (modify update >>= f) s).bind kC) right files storage := next

theorem right_modify {update : Session octets → Session octets} {f : Unit → Auth octets δ}
    (next : At ends left ((Auth.onWire (f ()) (update t)).bind kS) files storage) :
    At ends left ((Auth.onWire (modify update >>= f) t).bind kS) files storage := next

theorem left_get {f : Session octets → Auth octets γ}
    (next : At ends ((Auth.onWire (f s) s).bind kC) right files storage) :
    At ends ((Auth.onWire (get >>= f) s).bind kC) right files storage := next

theorem right_get {f : Session octets → Auth octets δ}
    (next : At ends left ((Auth.onWire (f t) t).bind kS) files storage) :
    At ends left ((Auth.onWire (get >>= f) t).bind kS) files storage := next

/-- A message of the negotiation to the server. -/
theorem message_to_server {a b : AuthOp octets} {f : a.Ans → Auth octets γ}
    {g : b.Ans → Auth octets δ} {frame : Bytes} {sent : a.Ans} {received : b.Ans}
    (puts : a.wire.ensures
      ((port C F .client).desk fun m => (pact ends).SafeLeft m ∧ ¬(port C F .client).Rests m)
      (Same C .client s files [] ([] ++ frame) (· = sent)) s ⟨busy files, [], []⟩)
    (gets : b.wire.ensures ((port C G .server).desk (pact ends).SafeRight)
      (Same C .server t storage [] [] (· = received)) t ⟨busy storage, frame, []⟩)
    (next : At ends ((Auth.onWire (f sent) s).bind kC) ((Auth.onWire (g received) t).bind kS)
      files storage) :
    At ends ((Auth.onWire (Negotiation.ask a >>= f) s).bind kC)
      ((Auth.onWire (Negotiation.ask b >>= g) t).bind kS) files storage := by
  rw [Auth.onWire_ask, Auth.onWire_ask]
  refine .code_left (safe_right storage) puts ?_
  rintro _ s _ ⟨rfl, rfl, rfl⟩
  refine .code_right (safe_left files).1 gets ?_
  rintro _ t _ ⟨rfl, rfl, rfl⟩
  exact next

theorem exchange_m1 {m : AuthenticationM1 octets} {f : Int → Auth octets γ}
    {g : Int × AuthenticationM1 octets → Auth octets δ} (formed : m.WellFormed)
    (next : At ends ((Auth.onWire (f 0) s).bind kC) ((Auth.onWire (g (0, m)) t).bind kS)
      files storage) :
    At ends ((Auth.onWire (Negotiation.ask (.sendM1 m) >>= f) s).bind kC)
      ((Auth.onWire (Negotiation.ask .receiveM1 >>= g) t).bind kS) files storage := by
  refine message_to_server (ask_send safe_left m.serialize)
    (receive_read safe_right AuthenticationM1.deserialize formed.serialize_length
      (List.append_nil _).symm) ?_
  rw [formed.deserialize_serialize]
  exact next

/-- A message of the negotiation to the client. -/
theorem message_to_client {a b : AuthOp octets} {f : b.Ans → Auth octets γ}
    {g : a.Ans → Auth octets δ} {frame : Bytes} {sent : a.Ans} {received : b.Ans}
    (puts : a.wire.ensures ((port C G .server).desk (pact ends).SafeRight)
      (Same C .server t storage [] ([] ++ frame) (· = sent)) t ⟨busy storage, [], []⟩)
    (gets : b.wire.ensures
      ((port C F .client).desk fun m => (pact ends).SafeLeft m ∧ ¬(port C F .client).Rests m)
      (Same C .client s files [] [] (· = received)) s ⟨busy files, frame, []⟩)
    (next : At ends ((Auth.onWire (f received) s).bind kC) ((Auth.onWire (g sent) t).bind kS)
      files storage) :
    At ends ((Auth.onWire (Negotiation.ask b >>= f) s).bind kC)
      ((Auth.onWire (Negotiation.ask a >>= g) t).bind kS) files storage := by
  rw [Auth.onWire_ask, Auth.onWire_ask]
  refine .code_right (safe_left files).1 puts ?_
  rintro _ t _ ⟨rfl, rfl, rfl⟩
  refine .code_left (safe_right storage) gets ?_
  rintro _ s _ ⟨rfl, rfl, rfl⟩
  exact next

/-- M2 travels in the clear, behind it lies random filler. -/
theorem exchange_m2 {message_code : UInt8} {f : Int × UInt8 → Auth octets γ}
    {g : Int → Auth octets δ}
    (next : At ends ((Auth.onWire (f (0, message_code)) s).bind kC)
      ((Auth.onWire (g 0) t).bind kS) files storage) :
    At ends ((Auth.onWire (Negotiation.ask .receiveM2 >>= f) s).bind kC)
      ((Auth.onWire (Negotiation.ask (.sendM2 message_code) >>= g) t).bind kS) files storage := by
  have puts : (AuthOp.wire (.sendM2 message_code)).ensures
      ((port C G .server).desk (pact ends).SafeRight)
      (fun sent t' g => sent = 0 ∧ t' = t ∧ ∃ filler : Bytes, filler.length = fillerSize 1 ∧
        g = ⟨busy storage, [], [] ++ SimpleMessage.serialize ⟨message_code⟩ filler⟩) t
      ⟨busy storage, [], []⟩ := by
    refine ensures_seq (ask_random (safe_right storage) (busy_atWork storage) _) ?_
    rintro filler t _ ⟨length, rfl, rfl⟩
    refine ensures_mono ?_ (ask_send safe_right _)
    rintro sent t _ ⟨rfl, rfl, rfl⟩
    exact ⟨rfl, rfl, filler, length, rfl⟩
  rw [Auth.onWire_ask, Auth.onWire_ask]
  refine .code_right (safe_left files).1 puts ?_
  rintro _ t _ ⟨rfl, rfl, filler, length, rfl⟩
  have whole : (SimpleMessage.serialize ⟨message_code⟩ filler).length =
      SimpleMessage.getMessageSize := by
    simp [SimpleMessage.serialize, length, fillerSize, SimpleMessage.getMessageSize,
      Config.MAX_PACKET_SIZE]
  refine .code_left (safe_right storage) (receive_read safe_left
    (fun buffer => (SimpleMessage.deserialize buffer).m_message_code) whole
    (List.append_nil _).symm) ?_
  rintro _ s _ ⟨rfl, rfl, rfl⟩
  exact next

theorem exchange_m3 {m : AuthenticationM3 octets} {g : Int → Auth octets δ}
    {f : Int × AuthenticationM3 octets → Auth octets γ} (formed : m.WellFormed)
    (next : At ends ((Auth.onWire (f (0, m)) s).bind kC) ((Auth.onWire (g 0) t).bind kS)
      files storage) :
    At ends ((Auth.onWire (Negotiation.ask .receiveM3 >>= f) s).bind kC)
      ((Auth.onWire (Negotiation.ask (.sendM3 m) >>= g) t).bind kS) files storage := by
  refine message_to_client (ask_send safe_right m.serialize)
    (receive_read safe_left AuthenticationM3.deserialize formed.serialize_length
      (List.append_nil _).symm) ?_
  rw [formed.deserialize_serialize]
  exact next

/-- A sealed message that fits its envelope is read back. -/
theorem envelope_read {m : AuthenticationM4 octets} (formed : m.envelope.WellFormed) {size : Nat}
    (length : m.m_sealed.m_ciphertext.length = size) :
    AuthenticationM4.deserialize m.serialize size = m := by
  subst length
  have read := formed.deserialize_serialize
  simp only [AuthenticationM4.deserialize, AuthenticationM4.serialize]
  rw [show Generic.deserialize m.envelope.serialize m.m_sealed.m_ciphertext.length = m.envelope
    from read]
  rfl

theorem exchange_m4 {m : AuthenticationM4 octets} {f : Int → Auth octets γ}
    {g : Int × AuthenticationM4 octets → Auth octets δ} (formed : m.envelope.WellFormed)
    (length : m.m_sealed.m_ciphertext.length = ENCRYPTED_SIGNATURE_LEN)
    (next : At ends ((Auth.onWire (f 0) s).bind kC) ((Auth.onWire (g (0, m)) t).bind kS)
      files storage) :
    At ends ((Auth.onWire (Negotiation.ask (.sendM4 m) >>= f) s).bind kC)
      ((Auth.onWire (Negotiation.ask .receiveM4 >>= g) t).bind kS) files storage := by
  have whole : m.serialize.length = AuthenticationM4.getMessageSize :=
    formed.serialize_length.trans (congrArg _ length)
  refine message_to_server (ask_send safe_left m.serialize)
    (receive_read safe_right (AuthenticationM4.deserialize · ENCRYPTED_SIGNATURE_LEN) whole
      (List.append_nil _).symm) ?_
  rw [envelope_read formed length]
  exact next

theorem exchange_m5 {m : AuthenticationM4 octets} {g : Int → Auth octets δ}
    {f : Int × AuthenticationM4 octets → Auth octets γ} (formed : m.envelope.WellFormed)
    (length : m.m_sealed.m_ciphertext.length = Config.MAX_PACKET_SIZE)
    (next : At ends ((Auth.onWire (f (0, m)) s).bind kC) ((Auth.onWire (g 0) t).bind kS)
      files storage) :
    At ends ((Auth.onWire (Negotiation.ask .receiveM5 >>= f) s).bind kC)
      ((Auth.onWire (Negotiation.ask (.sendM5 m) >>= g) t).bind kS) files storage := by
  have whole : m.serialize.length = Generic.getMessageSize Config.MAX_PACKET_SIZE :=
    formed.serialize_length.trans (congrArg _ length)
  refine message_to_client (ask_send safe_right m.serialize)
    (receive_read safe_left (AuthenticationM4.deserialize · Config.MAX_PACKET_SIZE) whole
      (List.append_nil _).symm) ?_
  rw [envelope_read formed length]
  exact next

theorem sent_fine : ¬(0 : Int) = -1 := by decide

theorem result_fine : ¬(0 : Int) ≠ 0 := by decide

/-- The comparison of equal counters. -/
theorem left_counter {received : UInt32} {f : Bool → Auth octets γ}
    (same : received = s.m_counter)
    (next : At ends ((Auth.onWire (f false) s).bind kC) right files storage) :
    At ends ((Auth.onWire (Negotiation.counterDiffers received >>= f) s).bind kC) right files
      storage := by
  subst same
  refine auth_left (f := fun _ => f (decide (s.m_counter ≠ s.m_counter)))
    (note_harmless (safe_left files) (busy_atWork files)
      (show Harmless (.checked s.m_counter s.m_counter) from rfl)) ?_
  intro _ _
  simpa only [ne_eq, not_true_eq_false, decide_false] using next

theorem right_counter {received : UInt32} {f : Bool → Auth octets δ}
    (same : received = t.m_counter)
    (next : At ends left ((Auth.onWire (f false) t).bind kS) files storage) :
    At ends left ((Auth.onWire (Negotiation.counterDiffers received >>= f) t).bind kS) files
      storage := by
  subst same
  refine auth_right (f := fun _ => f (decide (t.m_counter ≠ t.m_counter)))
    (note_harmless (safe_right storage) (busy_atWork storage)
      (show Harmless (.checked t.m_counter t.m_counter) from rfl)) ?_
  intro _ _
  simpa only [ne_eq, not_true_eq_false, decide_false] using next

theorem right_random {size : Nat} {f : Bytes → Auth octets δ}
    (next : ∀ answer : Bytes, answer.length = size →
      At ends left ((Auth.onWire (f answer) t).bind kS) files storage) :
    At ends left ((Auth.onWire (Negotiation.ask (.random size) >>= f) t).bind kS) files storage :=
  auth_right (ask_random (safe_right storage) (busy_atWork storage) size) next

variable {kC : Except Thrown Nat × Session octets → Program Op Op.Ans α}
  {kS : Except Thrown Nat × Session octets → Program Op Op.Ans β}

/-- M4 and M5, with the signature of the client already sealed. -/
theorem finish {host : Endian} {key buffer signature username : Bytes} {box : SealedBytes}
    {f : Int → Auth octets Nat} (signed : C.Signs .client buffer signature)
    (fits : C.Seals key (host.bytes 1) signature box)
    (sent : f 0 = Negotiation.advance >>= fun _ => Client.finishAuthentication)
    (next : At ends (kC (.ok Return.AUTHENTICATION_SUCCESS.val, ⟨username, 0, key⟩))
      (kS (.ok Return.AUTHENTICATION_SUCCESS.val, ⟨username, 0, key⟩)) files storage) :
    At ends
      ((Auth.onWire (Negotiation.ask (.sendM4 ⟨host.bytes 1, box⟩) >>= f)
        ⟨username, 1, key⟩).bind kC)
      ((Auth.onWire (Server.finishAuthentication host (C.publicKey .client) buffer)
        ⟨username, 1, key⟩).bind kS) files storage := by
  have length : box.m_ciphertext.length = ENCRYPTED_SIGNATURE_LEN :=
    fits.ciphertext.trans signed.length
  refine exchange_m4 ⟨fits.iv, Endian.bytes_length _ _, fits.tag⟩ length ?_
  rw [sent]
  dsimp only
  rw [if_neg result_fine]
  refine right_counter (Endian.value_bytes _ _) ?_
  rw [if_neg Bool.false_ne_true]
  refine right_modify (right_get (right_ssl ?_))
  rintro _ rfl
  rw [fits.opens]
  refine right_ssl ?_
  rintro _ rfl
  rw [signed.verified]
  refine right_random fun filler width => ?_
  refine right_get (right_ssl ?_)
  rintro _ ⟨box', rfl, fits'⟩
  have length' : box'.m_ciphertext.length = Config.MAX_PACKET_SIZE := by
    rw [fits'.ciphertext]
    simp only [id, List.length_cons, width, Config.MAX_PACKET_SIZE]
  refine left_modify (exchange_m5 ⟨fits'.iv, networkBytes_length _, fits'.tag⟩ length' ?_)
  dsimp only at fits' ⊢
  rw [if_neg result_fine]
  refine left_get (left_ssl ?_)
  rintro _ rfl
  rw [fits'.opens]
  refine left_counter (networkValue_networkBytes _) ?_
  rw [if_neg Bool.false_ne_true]
  exact next

/-- M3 and what follows from it. Each side agrees on the key with its own exponent. -/
theorem answer {host : Endian} {exponent username keyC keyS : Bytes} {counterC counterS : UInt32}
    (next : ∀ key : Bytes,
      At ends (kC (.ok Return.AUTHENTICATION_SUCCESS.val, ⟨username, 0, key⟩))
        (kS (.ok Return.AUTHENTICATION_SUCCESS.val, ⟨username, 0, key⟩)) files storage) :
    At ends
      ((Auth.onWire (do
        let (result, authenticationM3) ← Negotiation.ask .receiveM3
        if result ≠ 0 then return Return.RECEIVE_FAILURE.val
        Client.answerAuthentication host exponent (C.publicText exponent) authenticationM3)
        ⟨username, counterC, keyC⟩).bind kC)
      ((Auth.onWire (Server.answerAuthentication host
        (.ofKey (C.publicText exponent) username) (C.publicKey .client))
        ⟨username, counterS, keyS⟩).bind kS) files storage := by
  refine right_ssl fun other _ => ?_
  rw [AuthenticationM1.ofKey, Negotiation.keyText_padded (C.text_fits exponent) (by decide),
    Code.pure_bind]
  refine right_ssl ?_
  rintro _ rfl
  rw [C.text_read]
  refine right_ssl ?_
  rintro _ rfl
  refine right_ssl ?_
  rintro _ rfl
  refine right_modify (right_ssl ?_)
  rintro _ rfl
  refine right_ssl ?_
  rintro _ rfl
  rw [if_neg (not_not.mpr rfl)]
  refine right_ssl fun signature signed => ?_
  refine right_modify (right_ssl ?_)
  rintro _ ⟨box, rfl, fits⟩
  refine right_ssl ?_
  rintro _ rfl
  rw [C.agree_comm other exponent] at fits ⊢
  have formed := AuthenticationM3.formed_ofParts (C.text_fits other) C.certificate_fits fits
    signed.length
  refine exchange_m3 formed ?_
  dsimp only
  rw [if_neg result_fine, if_neg result_fine]
  refine left_modify (left_counter (Endian.value_bytes _ _) ?_)
  rw [if_neg Bool.false_ne_true]
  refine left_modify ?_
  rw [AuthenticationM3.ofParts, Negotiation.keyText_padded (C.text_fits other) (by decide),
    Code.pure_bind]
  refine left_ssl ?_
  rintro _ rfl
  rw [C.text_read]
  refine left_ssl ?_
  rintro _ rfl
  refine left_ssl ?_
  rintro _ rfl
  refine left_modify (left_ssl ?_)
  rintro _ rfl
  rw [fits.opens]
  refine left_ssl fun own ownSigned => ?_
  rw [Negotiation.certificateText_padded C.certificate_fits (by decide), Code.pure_bind]
  refine left_ssl ?_
  rintro _ rfl
  rw [C.certificate_read]
  refine left_ssl ?_
  rintro _ rfl
  rw [C.certificate_trusted, if_neg (not_not.mpr rfl)]
  refine left_ssl ?_
  rintro _ rfl
  rw [C.certificate_key]
  refine left_ssl ?_
  rintro _ rfl
  rw [signed.verified, if_neg (not_not.mpr rfl)]
  refine left_get (right_modify (left_ssl ?_))
  rintro _ ⟨box', rfl, fits'⟩
  exact finish ownSigned fits' (if_neg sent_fine) (next _)

/-- Both programs end their negotiation in success, with an equal key. -/
theorem negotiate {host : Endian} {username keyC keyS nameS : Bytes} {counterC counterS : UInt32}
    (name : FileManager.isStringValid username = true)
    (next : ∀ key : Bytes,
      At ends (kC (.ok Return.AUTHENTICATION_SUCCESS.val, ⟨username, 0, key⟩))
        (kS (.ok Return.AUTHENTICATION_SUCCESS.val, ⟨username, 0, key⟩)) files storage) :
    At ends ((Auth.onWire (Client.authenticationRequest host) ⟨username, counterC, keyC⟩).bind kC)
      ((Auth.onWire (Server.authenticationRequest host) ⟨nameS, counterS, keyS⟩).bind kS)
      files storage := by
  obtain ⟨clean, short⟩ := FileManager.clean_of_valid name
  refine left_ssl fun exponent _ => ?_
  refine left_ssl ?_
  rintro _ rfl
  refine left_get (exchange_m1 (AuthenticationM1.formed_ofKey username (C.text_fits exponent)) ?_)
  have named : Negotiation.usernameText
      (AuthenticationM1.ofKey (P := octets) (C.publicText exponent) username).m_username =
        (pure username : Auth octets Bytes) := by
    refine (Negotiation.usernameText_terminated (mem_strncpy short)).trans ?_
    exact congrArg pure (cPrefix_strncpy clean short)
  rw [if_neg sent_fine]
  dsimp only
  rw [if_neg result_fine, named, Code.pure_bind]
  refine right_ssl ?_
  rintro _ rfl
  refine right_modify (exchange_m2 ?_)
  dsimp only
  rw [if_neg sent_fine, if_neg (by decide), if_neg sent_fine]
  exact answer next

/-- A remark of either side that changes nothing. -/
theorem left_note {γ : Type} {remark : Remark} {f : Unit → Method γ}
    {kC : Except Thrown γ × Session octets → Program Op Op.Ans α} (harmless : Harmless remark)
    (next : At ends ((f () s).bind kC) right files storage) :
    At ends (((note remark >>= f) s).bind kC) right files storage := by
  refine .code_left (safe_right storage) (note_harmless (safe_left files) (busy_atWork files) harmless) ?_
  rintro _ s _ ⟨-, rfl, rfl⟩
  exact next

theorem right_note {δ : Type} {remark : Remark} {f : Unit → Method δ}
    {kS : Except Thrown δ × Session octets → Program Op Op.Ans β} (harmless : Harmless remark)
    (next : At ends left ((f () t).bind kS) files storage) :
    At ends left (((note remark >>= f) t).bind kS) files storage := by
  refine .code_right (safe_left files).1 (note_harmless (safe_right storage) (busy_atWork storage) harmless) ?_
  rintro _ t _ ⟨-, rfl, rfl⟩
  exact next

variable {γ δ : Type} {host : Endian} {username : Bytes}
  {kC : Except Thrown γ × Session octets → Program Op Op.Ans α}
  {kS : Except Thrown δ × Session octets → Program Op Op.Ans β}

theorem authenticate {keyC keyS nameS : Bytes} {counterC counterS : UInt32}
    {f : Nat → Method γ} {g : Nat → Method δ}
    (name : FileManager.isStringValid username = true)
    (next : ∀ key : Bytes,
      At ends ((f Return.AUTHENTICATION_SUCCESS.val ⟨username, 0, key⟩).bind kC)
        ((g Return.AUTHENTICATION_SUCCESS.val ⟨username, 0, key⟩).bind kS) files storage) :
    At ends (((Client.authenticate host >>= f) ⟨username, counterC, keyC⟩).bind kC)
      (((Server.authenticate host >>= g) ⟨nameS, counterS, keyS⟩).bind kS) files storage := by
  rw [Client.authenticate, Server.authenticate, Code.bind_assoc, Code.bind_assoc, run_bind,
    run_bind, Program.bind_assoc, Program.bind_assoc]
  refine negotiate name fun key => ?_
  dsimp only
  rw [if_neg (not_not.mpr rfl)]
  exact left_note trivial (right_note trivial (next key))

/-- The counters move together, whether they are at their limit or not. -/
theorem increments {key : Bytes} {m_counter : UInt32} {f : Unit → Method γ} {g : Unit → Method δ}
    (name : FileManager.isStringValid username = true)
    (next : ∀ m_counter key,
      At ends ((f () ⟨username, m_counter, key⟩).bind kC)
        ((g () ⟨username, m_counter, key⟩).bind kS) files storage) :
    At ends (((Client.incrementCounter host >>= f) ⟨username, m_counter, key⟩).bind kC)
      (((Server.incrementCounter host >>= g) ⟨username, m_counter, key⟩).bind kS) files
      storage := by
  rw [Client.incrementCounter, Server.incrementCounter, Code.bind_assoc, Code.bind_assoc, run_get,
    run_get]
  dsimp only
  by_cases limit : m_counter = Config.MAX_COUNTER_VALUE
  · rw [if_pos limit, if_pos limit, Code.bind_assoc, Code.bind_assoc]
    refine authenticate name fun key => ?_
    rw [if_neg (not_not.mpr rfl)]
    exact next 0 key
  · rw [if_neg limit, if_neg limit]
    exact next (m_counter + 1) key

end Lockstep
end CloudStorage
