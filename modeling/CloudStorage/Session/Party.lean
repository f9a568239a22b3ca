import CloudStorage.Session.Honest

/-! What one honest party does at its end of the channel: the calls and the steps that
the operations repeat. -/
namespace CloudStorage
open Interaction Code Method

namespace Party
variable {C : Crypto} {F : Computer} {role : Role} {Safe : Machine F → Prop}
  {m : Machine F} {files : F.State} {inbox out : Bytes} {s : Session octets}

/-- A machine that has seen no wrong counter and is not at the top of its loop. -/
def busy (files : F.State) : Machine F := ⟨files, true, none, none⟩

theorem busy_atWork (files : F.State) : (busy files).AtWork := ⟨rfl, rfl⟩

/-- The party on its own, with what is to hold of its machine. -/
abbrev desk (C : Crypto) (role : Role) (Safe : Machine F → Prop) : Monitor Op Op.Ans :=
  (port C F role).desk Safe

/-- Everything is as before, except for what is said of the answer. -/
def Same (C : Crypto) (role : Role) (s : Session octets) (files : F.State) (inbox out : Bytes)
    {α : Type} (known : α → Prop) :
    α → Session octets → Desk (port C F role) → Prop :=
  fun answer t g => known answer ∧ t = s ∧ g = ⟨busy files, inbox, out⟩

theorem ask_ssl (safe : ∀ files, Safe (busy files)) (call : Ssl octets) :
    (ask (.ssl call)).ensures (desk C role Safe)
      (Same C role s files inbox out (C.Answers role call)) s ⟨busy files, inbox, out⟩ := by
  rintro _ rfl answer legal
  exact ⟨⟨safe files, Nat.zero_le _, nofun⟩, answer, s, rfl, legal, rfl, rfl⟩

theorem ask_random (safe : Safe m) (work : m.AtWork) (size : Nat) :
    (ask (.random size)).ensures (desk C role Safe)
      (Same C role s m.files inbox out fun answer : Bytes => answer.length = size) s
      ⟨m, inbox, out⟩ := by
  rintro _ rfl answer legal
  refine ⟨⟨safe, Nat.zero_le _, work.stays⟩, answer, s, rfl, legal, rfl, ?_⟩
  exact congrArg (fun sound => (⟨⟨m.files, sound, none, none⟩, inbox, out⟩ :
    Desk (port C F role))) work.sound

theorem ask_memory (safe : ∀ files, Safe (busy files)) (size : Nat) :
    (ask (.memory size)).ensures (desk C role Safe)
      (Same C role s files inbox out fun answer : Bytes => answer.length = size) s
      ⟨busy files, inbox, out⟩ := by
  rintro _ rfl answer legal
  exact ⟨⟨safe files, Nat.zero_le _, nofun⟩, answer, s, rfl, legal, rfl, rfl⟩

theorem ask_send (safe : ∀ files, Safe (busy files)) (frame : Bytes) :
    (ask (.send frame)).ensures (desk C role Safe)
      (Same C role s files inbox (out ++ frame) fun answer : Int => answer = 0) s
      ⟨busy files, inbox, out⟩ := by
  rintro _ rfl answer legal
  refine ⟨⟨safe files, Nat.zero_le _, nofun⟩, answer, s, rfl, legal, rfl, ?_⟩
  exact congrArg (Desk.mk _ _) (Desk.post_eq out frame)

/-- The user makes a choice. -/
theorem ask_choice (safe : Safe m) (work : m.AtWork) (lowerBound upperBound : Nat) :
    (ask (.getValidCode lowerBound upperBound)).ensures (desk C role Safe)
      (fun choice t g => F.chooses lowerBound upperBound choice ∧ t = s ∧
        g = ⟨⟨m.files, true, none, some choice⟩, inbox, out⟩) s ⟨m, inbox, out⟩ := by
  rintro _ rfl answer legal
  refine ⟨⟨safe, Nat.zero_le _, work.stays⟩, answer, s, rfl, legal, rfl, ?_⟩
  exact congrArg (fun sound => (⟨⟨m.files, sound, none, some answer⟩, inbox, out⟩ :
    Desk (port C F role))) work.sound

/-- A frame that has arrived is received whole. -/
theorem ask_receive (safe : Safe m) (sound : m.sound = true) {frame rest : Bytes} {size : Nat}
    (whole : frame.length = size) (arrived : inbox = frame ++ rest)
    (woken : m.idle.isSome = true → frame ≠ []) :
    (ask (.receive size)).ensures (desk C role Safe)
      (Same C role s m.files rest out fun answer : Int × Bytes => answer = (0, frame)) s
      ⟨m, inbox, out⟩ := by
  subst whole arrived
  rintro _ rfl answer legal
  have arrived : answer = (0, frame) := legal.trans (congrArg (Prod.mk 0) List.take_left)
  refine ⟨⟨safe, ?_, ?_⟩, answer, s, rfl, arrived, rfl, ?_⟩
  · exact Nat.le_trans (Nat.le_add_right _ _) (Nat.le_of_eq List.length_append.symm)
  · intro resting
    exact List.append_ne_nil_of_left_ne_nil (woken resting) _
  · obtain ⟨files, _, idle, choice⟩ := m
    obtain rfl := sound
    exact congrArg (fun left => (⟨busy files, left, out⟩ : Desk (port C F role))) List.drop_left

/-- It is read as the message that was put together. -/
theorem receive_read (safe : ∀ files, Safe (busy files)) {α : Type} (read : Bytes → α)
    {frame rest : Bytes} {size : Nat} (whole : frame.length = size)
    (arrived : inbox = frame ++ rest) :
    (ask (.receive size) >>= fun answer => pure (answer.1, read answer.2) :
      Method (Int × α)).ensures (desk C role Safe)
      (Same C role s files rest out fun answer => answer = (0, read frame)) s
      ⟨busy files, inbox, out⟩ := by
  refine ensures_seq (ask_receive (safe files) rfl whole arrived nofun) ?_
  rintro _ s _ ⟨rfl, rfl, rfl⟩
  exact ensures_pure ⟨rfl, rfl, rfl⟩

theorem ask_file (safe : ∀ files, Safe (busy files)) (call : FileCall) :
    (file call).ensures (desk C role Safe)
      (Same C role s (F.respond files call).2 inbox out
        fun answer => answer = (F.respond files call).1) s ⟨busy files, inbox, out⟩ := by
  rintro _ rfl answer legal
  exact ⟨⟨safe files, Nat.zero_le _, nofun⟩, answer, s, rfl, legal, rfl, rfl⟩

/-- A call that only looks leaves the files alone. -/
theorem look (safe : ∀ files, Safe (busy files)) {call : FileCall} (looks : call.Looks) :
    (file call).ensures (desk C role Safe)
      (Same C role s files inbox out fun answer => answer = (F.respond files call).1) s
      ⟨busy files, inbox, out⟩ := by
  refine ensures_mono ?_ (ask_file safe call)
  rintro answer t g ⟨answered, same, ends⟩
  rw [F.looks files call looks] at ends
  exact ⟨answered, same, ends⟩

/-- Remarks other than a wrong counter or the top of the loop. -/
def Harmless : Remark → Prop
  | .checked m_counter received => m_counter = received
  | .idle _ _ => False
  | _ => True

theorem note_harmless (safe : Safe m) (work : m.AtWork) {remark : Remark}
    (harmless : Harmless remark) :
    (note remark).ensures (desk C role Safe)
      (Same C role s m.files inbox out fun _ : Unit => True) s ⟨m, inbox, out⟩ := by
  rintro _ rfl answer legal
  refine ⟨⟨safe, Nat.zero_le _, work.stays⟩, answer, s, rfl, trivial, rfl, ?_⟩
  obtain ⟨files, _, idle, choice⟩ := m
  obtain rfl := work.sound
  cases remark with
  | checked m_counter received =>
      obtain rfl : m_counter = received := harmless
      exact congrArg (fun sound => (⟨⟨files, true && sound, none, none⟩, inbox, out⟩ :
        Desk (port C F role))) (beq_self_eq_true m_counter)
  | idle => exact harmless.elim
  | _ => rfl

theorem ask_line (safe : Safe m) (work : m.AtWork) :
    (ask .getline).ensures (desk C role Safe)
      (Same C role s m.files inbox out m.Types) s ⟨m, inbox, out⟩ := by
  rintro _ rfl answer legal
  refine ⟨⟨safe, Nat.zero_le _, work.stays⟩, answer, s, rfl, legal, rfl, ?_⟩
  exact congrArg (fun sound => (⟨⟨m.files, sound, none, none⟩, inbox, out⟩ :
    Desk (port C F role))) work.sound

theorem ask_unlock (safe : ∀ files, Safe (busy files)) (path password : Bytes) :
    (ask (.unlock path password)).ensures (desk C role Safe)
      (Same C role s files inbox out fun _ => True) s ⟨busy files, inbox, out⟩ := by
  rintro _ rfl answer legal
  exact ⟨⟨safe files, Nat.zero_le _, nofun⟩, answer, s, rfl, legal, rfl, rfl⟩

theorem ask_connect (safe : ∀ files, Safe (busy files)) :
    (ask .connect).ensures (desk C role Safe)
      (Same C role s files inbox out fun _ => True) s ⟨busy files, inbox, out⟩ := by
  rintro _ rfl answer legal
  exact ⟨⟨safe files, Nat.zero_le _, nofun⟩, answer, s, rfl, legal, rfl, rfl⟩

/-- A name that the console lets through. -/
theorem readName_read (safe : Safe m) (work : m.AtWork) :
    Client.readName.ensures (desk C role Safe)
      (Same C role s m.files inbox out fun result => ∀ filename, result = some filename →
        FileManager.isStringValid filename = true ∧ m.Types filename) s ⟨m, inbox, out⟩ := by
  refine ensures_seq (ask_line safe work) ?_
  rintro filename s _ ⟨types, rfl, rfl⟩
  by_cases valid : FileManager.isStringValid filename = true
  · rw [if_pos valid]
    refine ensures_pure ⟨?_, rfl, rfl⟩
    rintro _ ⟨⟩
    exact ⟨valid, types⟩
  · rw [if_neg valid]
    exact ensures_pure ⟨nofun, rfl, rfl⟩

/-- A frame that carries the plaintext under the session as it is. -/
def Carries (C : Crypto) (s : Session octets) (plaintext frame : Bytes) : Prop :=
  ∃ box, C.Seals s.m_session_key (Generic.aad s.m_counter) plaintext box ∧
    frame = Generic.serialize ⟨Generic.aad s.m_counter, box⟩

theorem Carries.length {plaintext frame : Bytes} (carries : Carries C s plaintext frame) :
    frame.length = Generic.getMessageSize plaintext.length := by
  obtain ⟨box, fits, rfl⟩ := carries
  have formed : Generic.WellFormed ⟨Generic.aad s.m_counter, box⟩ :=
    ⟨fits.iv, networkBytes_length _, fits.tag⟩
  exact formed.serialize_length.trans (congrArg _ fits.ciphertext)

/-- Sending succeeds and puts one frame on the channel. -/
def Sent (C : Crypto) (role : Role) (s : Session octets) (files : F.State) (inbox out : Bytes)
    (plaintext : Bytes) : Option Nat → Session octets → Desk (port C F role) → Prop :=
  fun failure t g => failure = none ∧ t = s ∧
    ∃ frame, Carries C s plaintext frame ∧ g = ⟨busy files, inbox, out ++ frame⟩

theorem encryptGeneric_sealed (safe : ∀ files, Safe (busy files)) {plaintext : Bytes}
    (short : plaintext.length < 2 ^ 31) :
    (encryptGeneric plaintext).ensures (desk C role Safe)
      (Same C role s files inbox out fun message => ∃ box,
        message = some ⟨Generic.aad s.m_counter, box⟩ ∧
        C.Seals s.m_session_key (Generic.aad s.m_counter) plaintext box) s
      ⟨busy files, inbox, out⟩ := by
  simp only [encryptGeneric, if_neg (Nat.not_le.mpr short)]
  refine ensures_get (ensures_seq (ask_ssl safe _) ?_)
  rintro _ _ _ ⟨⟨box, rfl, fits⟩, rfl, rfl⟩
  exact ensures_pure ⟨⟨box, rfl, fits⟩, rfl, rfl⟩

theorem sendGeneric_sent (safe : ∀ files, Safe (busy files)) {plaintext : Bytes}
    (short : plaintext.length < 2 ^ 31) :
    (sendGeneric plaintext).ensures (desk C role Safe)
      (Sent C role s files inbox out plaintext) s ⟨busy files, inbox, out⟩ := by
  refine ensures_seq (encryptGeneric_sealed safe short) ?_
  rintro _ _ _ ⟨⟨box, rfl, fits⟩, rfl, rfl⟩
  refine ensures_seq (ask_send safe _) ?_
  rintro _ _ _ ⟨rfl, rfl, rfl⟩
  exact ensures_pure ⟨rfl, rfl, _, ⟨box, fits, rfl⟩, rfl⟩

theorem sendSimple_sent (safe : ∀ files, Safe (busy files)) (here : Safe m)
    (work : m.AtWork) (code : UInt8) :
    (sendSimple code).ensures (desk C role Safe)
      (fun failure t g => ∃ filler, filler.length = fillerSize 1 ∧
        Sent C role s m.files inbox out (SimpleMessage.serialize ⟨code⟩ filler) failure t g) s
      ⟨m, inbox, out⟩ := by
  refine ensures_seq (ask_random here work _) ?_
  rintro filler _ _ ⟨length, rfl, rfl⟩
  have short : (SimpleMessage.serialize ⟨code⟩ filler).length < 2 ^ 31 := by
    simp [SimpleMessage.serialize, length, fillerSize, Config.MAX_PACKET_SIZE]
  refine ensures_mono ?_ (sendGeneric_sent safe short)
  exact fun failure t g sent => ⟨filler, length, sent⟩

/-- A frame under the session opens, and the counter is the expected one. -/
theorem openGeneric_opened (safe : ∀ files, Safe (busy files)) {plaintext : Bytes}
    {box : SealedBytes}
    (fits : C.Seals s.m_session_key (Generic.aad s.m_counter) plaintext box) :
    (openGeneric ⟨Generic.aad s.m_counter, box⟩).ensures (desk C role Safe)
      (Same C role s files inbox out fun result => result = .ok plaintext) s
      ⟨busy files, inbox, out⟩ := by
  refine ensures_get (ensures_seq (ask_ssl safe _) ?_)
  rintro _ s _ ⟨rfl, rfl, rfl⟩
  simp only [fits.opens]
  have counter : Generic.getCounter ⟨Generic.aad s.m_counter, box⟩ = s.m_counter :=
    Generic.getCounter_aad _ _
  refine ensures_seq (note_harmless (safe files) (busy_atWork files) counter.symm) ?_
  rintro _ s _ ⟨-, rfl, rfl⟩
  rw [counter, if_neg (not_not.mpr rfl)]
  refine ensures_seq (note_harmless (safe files) (busy_atWork files) trivial) ?_
  rintro _ s _ ⟨-, rfl, rfl⟩
  exact ensures_pure ⟨rfl, rfl, rfl⟩

/-- The frame is taken apart as it was put together, and opens. -/
theorem frame_opened (safe : ∀ files, Safe (busy files)) {plaintext frame : Bytes} {size : Nat}
    (carries : Carries C s plaintext frame) (length : plaintext.length = size) :
    (openGeneric (Generic.deserialize frame size)).ensures (desk C role Safe)
      (Same C role s files inbox out fun result => result = .ok plaintext) s
      ⟨busy files, inbox, out⟩ := by
  subst length
  obtain ⟨box, fits, rfl⟩ := carries
  have formed : Generic.WellFormed ⟨Generic.aad s.m_counter, box⟩ :=
    ⟨fits.iv, networkBytes_length _, fits.tag⟩
  have read := formed.deserialize_serialize
  simp only [fits.ciphertext] at read
  have opened : ∀ message, message = (⟨Generic.aad s.m_counter, box⟩ : Generic) →
      (openGeneric message).ensures (desk C role Safe)
        (Same C role s files inbox out fun result => result = .ok plaintext) s
        ⟨busy files, inbox, out⟩ := by
    rintro _ rfl
    exact openGeneric_opened safe fits
  exact opened _ read

/-- The frame that is waiting is received and opened. -/
theorem receiveGeneric_received (safe : ∀ files, Safe (busy files)) {plaintext frame rest : Bytes}
    {size : Nat} (carries : Carries C s plaintext frame) (length : plaintext.length = size)
    (arrived : inbox = frame ++ rest) :
    (receiveGeneric size).ensures (desk C role Safe)
      (Same C role s files rest out fun result => result = .ok plaintext) s
      ⟨busy files, inbox, out⟩ := by
  have whole : frame.length = Generic.getMessageSize size :=
    carries.length.trans (congrArg _ length)
  refine ensures_seq (ask_receive (safe files) rfl whole arrived nofun) ?_
  rintro _ s _ ⟨rfl, rfl, rfl⟩
  exact frame_opened safe carries length

end Party
end CloudStorage
