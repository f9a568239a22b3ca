import CloudStorage.Dialogue.Client.Stages

/-! An upload: the chunks of the file are sent in their order. -/
namespace CloudStorage
open Interaction Code Method Dialogue
namespace Client
variable {host : Endian} {key : Bytes} {known : Emission → Prop}
  {s : Session octets} {g : Ledger} {spent : Bool} {holds holds' : Bytes → Entry → Prop}
  {command : UInt8} {names : List Bytes} {facts more : Entry → Prop} {length : Nat}
  {plaintext : Bytes}

/-- So many chunks have been read and sent. -/
theorem sendChunks_loops {manager : FileManager} {buffer name : Bytes} {size : Nat}
    (place left : Nat) (valid : FileManager.isStringValid name = true) (cuts : Cuts size manager)
    (rest : place + left = chunksOf size)
    (working : Working (charter host key known) false (Stage Message.UPLOAD_REQUEST.byte [name]
      (fun entry => Uploads host name size entry.talk entry.deeds entry.result) (place + 2) fun entry =>
        entry.talk.Says 1 (·.code = Result.ACK.byte) ∧
          Loads (localPath name) size place manager.m_stream entry.deeds) s g) :
    (sendChunks host manager buffer left).wp (charter host key known).monitor
      (Looped host key known (Stage Message.UPLOAD_REQUEST.byte [name]
        (fun entry => Uploads host name size entry.talk entry.deeds entry.result)
        (chunksOf size + 2) fun entry => entry.talk.Says 1 (·.code = Result.ACK.byte))) s g := by
  have forms : Forms host Message.UPLOAD_REQUEST.byte [name] fun entry =>
      Uploads host name size entry.talk entry.deeds entry.result :=
    fun _ command names => .upload name size command names valid
  induction left generalizing manager buffer place s g with
  | zero =>
      obtain rfl : place = chunksOf size := rest
      refine (wp_pure _).mpr ⟨nofun, fun _ => working.mono fun entry _ stage => ?_⟩
      exact ⟨stage.command, stage.names, stage.facts, stage.length, stage.unfinished, stage.more.1⟩
  | succ left ih =>
      simp only [sendChunks, cuts.chunk rest]
      have split : Working (charter host key known) false (fun user entry =>
          Stage Message.UPLOAD_REQUEST.byte [name] (fun entry =>
            Uploads host name size entry.talk entry.deeds entry.result) (place + 2) (fun entry =>
              entry.talk.Says 1 (·.code = Result.ACK.byte)) user entry ∧
          Loads (localPath name) size place manager.m_stream entry.deeds) s g := by
        refine working.mono fun entry _ stage => ?_
        exact ⟨⟨stage.command, stage.names, stage.facts, stage.length, stage.unfinished,
          stage.more.1⟩, stage.more.2⟩
      refine wp_seq (readChunk_loads cuts (by omega) split ?_) ?_
      · intro path position bytes content entry _ stage bound
        have facts : Uploads host name size entry.talk
            (entry.act (.read path position bytes) content).deeds entry.result :=
          ⟨stage.facts.spoken, stage.facts.asks, stage.facts.measured, stage.facts.goesOn,
            stage.facts.feeds.read (by omega) _, stage.unreported⟩
        exact ⟨forms _ stage.command stage.names facts, stage.command, stage.names, facts,
          stage.length, stage.unfinished, stage.more⟩
      rintro ⟨manager, buffer, result⟩ s g ⟨rfl, cuts, working⟩
      have follows : Message.UPLOAD_CHUNK.byte ∈ laterCodes := by decide
      have stage : Working (charter host key known) false (Stage Message.UPLOAD_REQUEST.byte [name]
          (fun entry => Uploads host name size entry.talk entry.deeds entry.result) (place + 2)
          fun entry => entry.talk.Says 1 (·.code = Result.ACK.byte) ∧
            Loaded (localPath name) size place manager.m_stream buffer entry.deeds) s g := by
        refine working.mono fun entry _ held => ?_
        obtain ⟨stage, loaded⟩ := held
        exact ⟨stage.command, stage.names, stage.facts, stage.length, stage.unfinished, stage.more,
          loaded⟩
      refine wp_seq (sends forms (fun entry => entry.talk.Says 1 (·.code = Result.ACK.byte) ∧
        Loads (localPath name) size (place + 1) manager.m_stream entry.deeds) stage
        (.inr follows) ?_) ?_
      · intro e user entry sent stage counter
        obtain ⟨acknowledged, loaded⟩ := stage.more
        have inside : 1 < entry.talk.length := by rw [stage.length]; omega
        have code : e.code = Message.UPLOAD_CHUNK.byte := code_of_text sent.text
        have spoken := stage.facts.spoken.say stage.length counter (.upload rfl (by omega)) fun _ =>
          List.mem_singleton.mpr code
        have begun : entry.talk ≠ [] := List.ne_nil_of_length_pos (by omega)
        exact ⟨⟨spoken, stage.facts.asks.later (by omega), fun _ => stage.facts.measured begun,
          fun _ => acknowledged.later inside, stage.facts.feeds.send stage.length loaded sent.text,
          stage.unreported⟩, acknowledged.later inside, loaded.1⟩
      rintro failure s g' ⟨rfl, stopped, spoken⟩
      cases failure with
      | some code =>
          obtain ⟨rfl, failure⟩ := stopped code rfl
          exact looped_failed stage failure
      | none =>
          refine wp_seq (increments (spoken rfl)) fun _ s g working => ?_
          exact ih (place + 1) cuts (by omega) working

theorem finishUpload_ends {name : Bytes} {size : Nat}
    (valid : FileManager.isStringValid name = true)
    (working : Working (charter host key known) false (Stage Message.UPLOAD_REQUEST.byte [name]
      (fun entry => Uploads host name size entry.talk entry.deeds entry.result) (chunksOf size + 2)
      fun entry => entry.talk.Says 1 (·.code = Result.ACK.byte)) s g) :
    (finishUpload host).wp (charter host key known).monitor (Ended host key known false) s g := by
  have forms : Forms host Message.UPLOAD_REQUEST.byte [name] fun entry =>
      Uploads host name size entry.talk entry.deeds entry.result :=
    fun _ command names => .upload name size command names valid
  refine heard working (hears (fun _ => forms)
    (fun text entry => entry.talk.Says (chunksOf size + 2) (·.plaintext = text)) working ?_)
    (fun _ => rfl) fun text g working => ?_
  · intro text e user entry hears stage counter
    have inside : 1 < entry.talk.length := by rw [stage.length]; omega
    have begun : entry.talk ≠ [] := List.ne_nil_of_length_pos (by omega)
    have spoken := stage.facts.spoken.say stage.length counter (.uploaded rfl) nofun
    exact ⟨⟨spoken, stage.facts.asks.later (by omega), fun _ => stage.facts.measured begun,
      fun _ => stage.more.later inside, stage.facts.feeds.hear nofun, stage.unreported⟩,
      Talk.says_here stage.length hears.text⟩
  refine wp_seq (increments working) fun _ s g working => ?_
  refine wp_ite.mpr ⟨fun _ => failed working (by decide), fun acknowledged => ?_⟩
  refine ended working fun entry _ stage => ?_
  refine forms _ stage.command stage.names ⟨stage.facts.spoken, stage.facts.asks,
    stage.facts.measured, stage.facts.goesOn, stage.facts.feeds, fun _ => ⟨stage.length, ?_⟩⟩
  exact stage.more.imp fun e same => (code_of_text same).trans (not_not.mp acknowledged)

theorem uploadRequest_ends {name : Bytes} (valid : FileManager.isStringValid name = true)
    (present : g.Present) (working : Working (charter host key known) false
      (fun _ entry => entry = .begun Message.UPLOAD_REQUEST.byte [name] []) s g) :
    (uploadRequest host name).wp (charter host key known).monitor
      (Ended host key known false) s g := by
  have forms : ∀ size, Forms host Message.UPLOAD_REQUEST.byte [name] fun entry =>
      Uploads host name size entry.talk entry.deeds entry.result :=
    fun size _ command names => .upload name size command names valid
  have unsaid : ∀ size deeds, deeds.reads = [] → Uploads host name size [] deeds none :=
    fun size deeds none_ => ⟨.nil, nofun, fun begun => absurd rfl begun, nofun,
      feeds_none none_ (by decide), nofun⟩
  have start := begins (fun entry => Uploads host name 0 entry.talk entry.deeds entry.result)
    (unsaid 0 _ rfl) working
  refine wp_unlisted (isFilePresent_unlisted _) start.resting.good fun there _ => ?_
  refine wp_ite.mpr ⟨fun _ => failed start (by decide), fun _ => ?_⟩
  refine wp_seq (openRead_measures (fun _ entry => entry.command = Message.UPLOAD_REQUEST.byte ∧
    entry.names = [name] ∧ entry.talk = [] ∧ entry.result = none ∧ entry.deeds.reads = [])
    start ?_ ?_) ?_
  · intro entry stage
    have none_ := stage.more
    exact ⟨congrArg Deeds.size none_, stage.command, stage.names,
      List.eq_nil_of_length_eq_zero stage.length,
      stage.unfinished, congrArg Deeds.reads none_⟩
  · intro answer entry _ stage
    have none_ := congrArg Deeds.reads stage.more
    have silent := List.eq_nil_of_length_eq_zero stage.length
    refine ⟨forms 0 _ stage.command stage.names ?_, stage.command, stage.names, silent,
      stage.unfinished, none_⟩
    have facts := unsaid 0 (entry.act (.seek_end (localPath name)) answer).deeds none_
    rw [← silent, ← stage.unfinished] at facts
    exact facts
  rintro manager s g' ⟨rfl, kept, found, opened, working⟩
  refine wp_ite.mpr ⟨fun _ => failed working (by decide), fun sized => ?_⟩
  cases found with
  | none => exact absurd (.inl opened) sized
  | some size =>
  obtain rfl : manager = _ := opened
  have positive : size ≠ 0 := fun zero => sized (.inl zero)
  have bounded : size ≤ Config.MAX_FILE_SIZE := Nat.not_lt.mp fun large => sized (.inr large)
  have measured : Working (charter host key known) false (Stage Message.UPLOAD_REQUEST.byte [name]
      (fun entry => Uploads host name size entry.talk entry.deeds entry.result) 0 fun entry =>
        entry.deeds.size = some size ∧ entry.deeds.reads = []) s g' := by
    refine working.mono fun entry _ held => ?_
    obtain ⟨⟨command, names, silent, unfinished, none_⟩, measured⟩ := held
    have facts := unsaid size entry.deeds none_
    rw [← silent, ← unfinished] at facts
    exact ⟨command, names, facts, by rw [silent]; rfl, unfinished, measured, none_⟩
  refine wp_unlisted (.invoke fun _ _ => rfl) measured.resting.good fun filler _ => ?_
  refine said measured (sends (forms size) (fun entry => entry.deeds.reads = []) measured
    (.inl (kept present)) ?_) fun s g working => ?_
  · intro e user entry sent stage counter
    have spoken := stage.facts.spoken.say stage.length counter .request fun _ =>
      List.mem_singleton.mpr (code_of_text sent.text)
    exact ⟨⟨spoken, Talk.says_here stage.length ⟨filler, sent.text⟩,
      fun _ => ⟨stage.more.1, positive, bounded⟩, fun long => absurd long (by simp [stage.length]),
      feeds_none stage.more.2 (by simp [stage.length]), stage.unreported⟩, stage.more.2⟩
  refine heard working (hears (fun _ => forms size) (fun text entry =>
    entry.talk.Says 1 (·.plaintext = text) ∧ entry.deeds.reads = []) working ?_) (fun _ => rfl)
    fun text g working => ?_
  · intro text e user entry hears stage counter
    have begun : entry.talk ≠ [] := List.ne_nil_of_length_pos (by rw [stage.length]; decide)
    have spoken := stage.facts.spoken.say stage.length counter .answer nofun
    exact ⟨⟨spoken, stage.facts.asks.later (by rw [stage.length]; decide),
      fun _ => stage.facts.measured begun, fun long => absurd long (by simp [stage.length]),
      feeds_none stage.more (by simp [stage.length]), stage.unreported⟩,
      Talk.says_here stage.length hears.text, stage.more⟩
  refine wp_seq (increments working) fun _ s g working => ?_
  refine wp_ite.mpr ⟨fun _ => failed working (by decide), fun _ => ?_⟩
  refine wp_ite.mpr ⟨fun _ => failed working (by decide), fun acknowledged => ?_⟩
  have code : text.headD 0 = Result.ACK.byte := not_not.mp acknowledged
  refine wp_unlisted (.invoke fun _ _ => rfl) working.resting.good fun buffer _ => ?_
  have begun : Working (charter host key known) false (Stage Message.UPLOAD_REQUEST.byte [name]
      (fun entry => Uploads host name size entry.talk entry.deeds entry.result) (0 + 2) fun entry =>
        entry.talk.Says 1 (·.code = Result.ACK.byte) ∧
          Loads (localPath name) size 0 (some (localPath name, 0)) entry.deeds) s g := by
    refine working.mono fun entry _ stage => ?_
    have none_ := congrArg List.length stage.more.2
    refine ⟨stage.command, stage.names, stage.facts, stage.length, stage.unfinished, ?_,
      Nat.le_of_eq none_, fun _ => ⟨none_, fun _ => by rw [Nat.zero_mul]⟩⟩
    exact stage.more.1.imp fun e same => (code_of_text same).trans code
  refine wp_seq (sendChunks_loops 0 (chunksOf size) valid ⟨rfl, rfl⟩ (Nat.zero_add _) begun) ?_
  rintro failure s g ⟨stopped, done⟩
  cases failure with
  | some code =>
      obtain ⟨never, working⟩ := stopped code rfl
      exact failed working never
  | none => exact finishUpload_ends valid (done rfl)

end Client
end CloudStorage
