import CloudStorage.Dialogue.Server.Stages

/-! An upload: the chunks of the client are written in their order. -/
namespace CloudStorage
open Interaction Code Method Dialogue
namespace Server
variable {host : Endian} {key : Bytes} {known : Emission → Prop} {user : Bytes} {entry : Entry}
  {s : Session octets} {g : Ledger} {spent : Bool} {holds holds' : Bytes → Entry → Prop}
  {command : UInt8} {facts more : Bytes → Entry → Prop} {length : Nat} {plaintext : Bytes}

/-- So many chunks have been received and written. -/
def Receives (username : Bytes) (path : Bytes) (manager : FileManager) (place : Nat) (user : Bytes)
    (entry : Entry) : Prop :=
  user = username ∧ Created path manager.m_stream entry.deeds ∧
    (manager.m_stream ≠ none → entry.deeds.written.length = place)

theorem receiveChunks_loops {manager : FileManager} {username path : Bytes} {size : Nat}
    (place left : Nat) (writes : manager.m_open_mode = .WRITE) (rest : place + left = chunksOf size)
    (working : Working (charter host key known) false (Stage Message.UPLOAD_REQUEST.byte
      (fun user entry => Uploads host user size entry.talk entry.deeds) (place + 2)
      (Receives username path manager place)) s g) :
    (receiveChunks host manager left).wp (charter host key known).monitor (fun failure s' g' =>
      Resting (charter host key known) false s' g' ∧
      (failure = none → Working (charter host key known) false (Stage Message.UPLOAD_REQUEST.byte
        (fun user entry => Uploads host user size entry.talk entry.deeds) (chunksOf size + 2)
        (Receives username path manager (chunksOf size))) s' g')) s g := by
  have forms : Forms host Message.UPLOAD_REQUEST.byte fun user entry =>
      Uploads host user size entry.talk entry.deeds := fun _ _ => .upload size
  induction left generalizing place s g with
  | zero =>
      obtain rfl : place = chunksOf size := rest
      exact (wp_pure _).mpr ⟨working.resting, fun _ => working⟩
  | succ left ih =>
      obtain ⟨chunk_size, same⟩ : ∃ chunk_size, chunk_size =
        if left = 0 then manager.m_last_chunk_size else Config.CHUNK_SIZE := ⟨_, rfl⟩
      simp only [receiveChunks, ← same]
      refine wp_seq (hears (fun _ => forms) (fun text user entry =>
        Receives username path manager place user entry ∧
          ∃ e, entry.talk[place + 2]? = some ⟨.client, e⟩ ∧ e.plaintext = text ∧ e.size ≤ 1 + chunk_size) working ?_) ?_
      · intro text e user entry heard stage counter
        have spoken := stage.facts.spoken.say stage.length counter (.upload rfl (by omega))
          fun mine => absurd mine (Role.other_ne .server)
        have last : (entry.talk ++ [⟨.client, e⟩])[place + 2]? = some ⟨.client, e⟩ := by
          rw [← stage.length]
          exact List.getElem?_concat_length
        have begun : 0 < entry.talk.length := by rw [stage.length]; omega
        refine ⟨⟨stage.facts.asked.later begun, spoken, ?_, stage.facts.took, stage.facts.stores.say,
          Talk.unsaid (by simp [stage.length]; omega)⟩, stage.more, e, last, heard.text, heard.size⟩
        refine stage.facts.created.imp id ?_
        rintro ⟨name, asked, changes⟩
        exact ⟨name, asked.later begun, changes⟩
      rintro result s g' ⟨rfl, opened, stopped⟩
      cases result with
      | error code =>
          obtain ⟨rfl, -⟩ := stopped code rfl
          exact (wp_pure _).mpr ⟨working.resting, fun failed => absurd failed (Option.some_ne_none _)⟩
      | ok text =>
          refine wp_seq (increments (opened text rfl)) fun _ s g working => ?_
          refine wp_seq (writeChunk_stores (Stage Message.UPLOAD_REQUEST.byte
            (fun user entry => Uploads host user size entry.talk entry.deeds) (place + 1 + 2)
            (Receives username path manager (place + 1))) writes working ?_ ?_) ?_
          · intro closed entry stage
            obtain ⟨⟨own, created, -⟩, -⟩ := stage.more
            exact ⟨stage.command, stage.facts, stage.length, own, created,
              fun streams => absurd closed streams⟩
          · intro target position streams entry formed stage
            obtain ⟨⟨own, created, written⟩, e, last, rfl, fits⟩ := stage.more
            have count := written (by rw [streams]; exact Option.some_ne_none _)
            obtain ⟨rfl, changes⟩ := created.2 target position streams
            have stores := stage.facts.stores.write (changes ▸ List.mem_singleton_self _)
              (count.symm ▸ last) fits
            have facts : Uploads host s.m_username size entry.talk
                (entry.act (.write target (field 1 chunk_size e.plaintext)) ()).deeds :=
              ⟨stage.facts.asked, stage.facts.spoken, stage.facts.created, stage.facts.took, stores,
                Talk.unsaid (by rw [stage.length]; omega)⟩
            refine ⟨formed.act (forms _ _ stage.command facts), stage.command, facts, stage.length,
              own, created, fun _ => ?_⟩
            exact List.length_append.trans (congrArg (· + 1) count)
          rintro result s g ⟨rfl, working⟩
          refine wp_ite.mpr ⟨fun _ => (wp_pure _).mpr
            ⟨working.resting, fun failed => absurd failed (Option.some_ne_none _)⟩, fun _ => ?_⟩
          exact ih (place + 1) (by omega) working

theorem uploadRequest_rests
    (working : Working (charter host key known) true (Begun Message.UPLOAD_REQUEST.byte plaintext)
      s g) :
    (uploadRequest host plaintext).wp (charter host key known).monitor
      (Rests host key known) s g := by
  obtain ⟨message, made⟩ : ∃ message, message = UploadM1.deserialize host plaintext := ⟨_, rfl⟩
  refine wp_seq (increments working) fun _ s g working => wp_bind.mpr (wp_get.mpr ?_)
  refine wp_unlisted (cString_unlisted _ _) working.resting.good fun name named => ?_
  simp only [← made] at named ⊢
  have forms : Forms host Message.UPLOAD_REQUEST.byte fun user entry =>
      Uploads host user message.m_file_size.toNat entry.talk entry.deeds := fun _ _ => .upload _
  have start := begins (fun user entry =>
    Uploads host user message.m_file_size.toNat entry.talk entry.deeds)
    (fun e same => ⟨Talk.says_first (by rw [same, made]), spoken_request _ _ e,
      .inl rfl, .inl rfl, stores_none rfl, Talk.unsaid (by simp [Entry.begun])⟩) working
  refine wp_unlisted (isFilePresent_unlisted _) start.resting.good fun present _ => ?_
  obtain ⟨answer, chosen⟩ : ∃ answer, answer = if present then Result.NACK else Result.ACK := ⟨_, rfl⟩
  simp only [← chosen]
  have first : answer.byte ∈ firstAnswers Message.UPLOAD_REQUEST.byte := by
    rw [chosen]
    split_ifs <;> decide
  have listed : answer.byte ∈ answerCodes := by
    rw [chosen]
    split_ifs <;> decide
  refine said start (sendSimple_sent start fun filler => sends forms (fun user entry =>
    user = s.m_username ∧ entry.talk.Says 0 (·.plaintext = plaintext) ∧ entry.deeds = .none_)
    answer.byte start rfl listed ?_) fun t g working => ?_
  · intro e user entry text code stage counter
    obtain ⟨own, asked, none_⟩ := stage.more
    have begun : 0 < entry.talk.length := by rw [stage.length]; decide
    have spoken := stage.facts.spoken.say stage.length counter .answer fun _ =>
      (code ▸ first : e.code ∈ firstAnswers Message.UPLOAD_REQUEST.byte)
    exact ⟨⟨stage.facts.asked.later begun, spoken, .inl (congrArg Deeds.changes none_),
      stage.facts.took, stage.facts.stores.say, Talk.unsaid (by simp [stage.length])⟩, own,
      asked.later begun, none_⟩
  refine wp_ite.mpr ⟨fun _ => rested working, fun _ => ?_⟩
  refine wp_seq (openWrite_creates (Stage Message.UPLOAD_REQUEST.byte (fun user entry =>
    Uploads host user message.m_file_size.toNat entry.talk entry.deeds) 2 fun user entry =>
      user = s.m_username ∧ entry.deeds.written = []) working ?_ ?_) ?_
  · intro entry stage
    obtain ⟨own, -, none_⟩ := stage.more
    exact ⟨congrArg Deeds.changes none_, congrArg Deeds.effects none_, stage.command, stage.facts,
      stage.length, own, congrArg Deeds.written none_⟩
  · intro opened entry formed stage
    obtain ⟨own, asked, none_⟩ := stage.more
    have unwritten : (entry.act (.ofstream_open (storagePath s.m_username name)) opened).deeds.written =
        [] := congrArg Deeds.written none_
    have facts : Uploads host t.m_username message.m_file_size.toNat entry.talk
        (entry.act (.ofstream_open (storagePath s.m_username name)) opened).deeds := by
      refine ⟨stage.facts.asked, stage.facts.spoken, .inr ⟨name, ?_, ?_⟩, ?_, stores_none unwritten,
        Talk.unsaid (by simp [stage.length])⟩
      · refine asked.imp fun e same => ?_
        rw [same, ← made]
        exact named
      · simp [Entry.act, Deeds.observe, none_, Deeds.none_, own]
      · cases opened with
        | true => exact .inr (by simp [Entry.act, Deeds.observe, none_, Deeds.none_])
        | false => exact .inl (by simp [Entry.act, Deeds.observe, none_, Deeds.none_])
    exact ⟨formed.act (forms _ _ stage.command facts), stage.command, facts, stage.length, own,
      unwritten⟩
  rintro manager s' g ⟨rfl, writes, working⟩
  have created : Working (charter host key known) false (Stage Message.UPLOAD_REQUEST.byte
      (fun user entry => Uploads host user message.m_file_size.toNat entry.talk entry.deeds) (0 + 2)
      (Receives s.m_username (storagePath s.m_username name)
        (manager.initFileInfo message.m_file_size.toNat) 0)) s' g := by
    refine working.mono fun entry _ held => ?_
    obtain ⟨stage, created⟩ := held
    exact ⟨stage.command, stage.facts, stage.length, stage.more.1, created,
      fun _ => congrArg List.length stage.more.2⟩
  refine wp_seq (receiveChunks_loops 0 (chunksOf message.m_file_size.toNat) writes (Nat.zero_add _)
    created) ?_
  rintro failure t g ⟨resting, done⟩
  cases failure with
  | some code => exact (wp_pure _).mpr resting
  | none =>
      have working := done rfl
      refine said working (sendSimple_sent working fun filler => sends forms (fun _ _ => True)
        Result.ACK.byte working rfl (by decide) ?_) fun s g working => rested working
      intro e user entry text code stage counter
      obtain ⟨-, opened, written⟩ := stage.more
      have begun : 0 < entry.talk.length := by rw [stage.length]; omega
      have spoken := stage.facts.spoken.say stage.length counter (.uploaded rfl) fun _ => by
        rw [code, codes_later]
        exact List.mem_singleton_self _
      refine ⟨⟨stage.facts.asked.later begun, spoken, ?_, stage.facts.took, stage.facts.stores.say,
        Talk.says_here stage.length fun took => written fun closed => took (opened.1 closed)⟩, trivial⟩
      refine stage.facts.created.imp id ?_
      rintro ⟨name, asked, changes⟩
      exact ⟨name, asked.later begun, changes⟩

end Server
end CloudStorage
