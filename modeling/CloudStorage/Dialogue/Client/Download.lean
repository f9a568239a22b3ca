import CloudStorage.Dialogue.Client.Stages

/-! A download: the chunks of the server are written in their order. -/
namespace CloudStorage
open Interaction Code Method Dialogue
namespace Client
variable {host : Endian} {key : Bytes} {known : Emission → Prop}
  {s : Session octets} {g : Ledger} {spent : Bool} {holds holds' : Bytes → Entry → Prop}
  {command : UInt8} {names : List Bytes} {facts more : Entry → Prop} {length : Nat}
  {plaintext : Bytes}

/-- So many chunks have been received and written. -/
def Receives (path : Bytes) (manager : FileManager) (place : Nat) (entry : Entry) : Prop :=
  entry.talk.Says 1 (·.code = Message.DOWNLOAD_ACK.byte) ∧
    Created path manager.m_stream entry.deeds ∧
    (manager.m_stream ≠ none → entry.deeds.written.length = place)

theorem receiveChunks_loops {manager : FileManager} {name : Bytes} {size : Nat} (place left : Nat)
    (valid : FileManager.isStringValid name = true) (writes : manager.m_open_mode = .WRITE)
    (rest : place + left = chunksOf size)
    (working : Working (charter host key known) false (Stage Message.DOWNLOAD_REQUEST.byte [name]
      (fun entry => Downloads host name size entry.talk entry.deeds entry.result) (place + 2)
      (Receives (localPath name) manager place)) s g) :
    (receiveChunks host manager left).wp (charter host key known).monitor
      (Looped host key known (Stage Message.DOWNLOAD_REQUEST.byte [name]
        (fun entry => Downloads host name size entry.talk entry.deeds entry.result)
        (chunksOf size + 2) (Receives (localPath name) manager (chunksOf size)))) s g := by
  have forms : Forms host Message.DOWNLOAD_REQUEST.byte [name] fun entry =>
      Downloads host name size entry.talk entry.deeds entry.result :=
    fun _ command names => .download name size command names valid
  induction left generalizing place s g with
  | zero =>
      obtain rfl : place = chunksOf size := rest
      exact (wp_pure _).mpr ⟨nofun, fun _ => working⟩
  | succ left ih =>
      obtain ⟨chunk_size, same⟩ : ∃ chunk_size, chunk_size =
        if left = 0 then manager.m_last_chunk_size else Config.CHUNK_SIZE := ⟨_, rfl⟩
      simp only [receiveChunks, ← same]
      refine wp_seq (hears (fun _ => forms) (fun text entry =>
        Receives (localPath name) manager place entry ∧ ∃ e, entry.talk[place + 2]? = some ⟨.server, e⟩ ∧ e.plaintext = text ∧
          e.size ≤ 1 + chunk_size) working ?_) ?_
      · intro text e user entry hears stage counter
        obtain ⟨acknowledged, created, written⟩ := stage.more
        have inside : 1 < entry.talk.length := by rw [stage.length]; omega
        have spoken := stage.facts.spoken.say stage.length counter (.download rfl (by omega)) nofun
        have last : (entry.talk ++ [⟨.server, e⟩])[place + 2]? = some ⟨.server, e⟩ := by
          rw [← stage.length]
          exact List.getElem?_concat_length
        refine ⟨⟨spoken, stage.facts.asks.later (by omega), stage.facts.announced.later inside,
          fun _ => acknowledged.later inside, stage.facts.created, stage.facts.stores.say,
          stage.unreported⟩, ⟨acknowledged.later inside, created, written⟩, e, last, hears.text, hears.size⟩
      rintro result s g' ⟨rfl, opened, stopped⟩
      cases result with
      | error code =>
          obtain ⟨rfl, never⟩ := stopped code rfl
          exact looped_failed working never
      | ok text =>
          refine wp_seq (increments (opened text rfl)) fun _ s g working => ?_
          refine wp_ite.mpr ⟨fun _ => looped_failed working (by decide), fun _ => ?_⟩
          refine wp_seq (writeChunk_stores (Stage Message.DOWNLOAD_REQUEST.byte [name]
            (fun entry => Downloads host name size entry.talk entry.deeds entry.result)
            (place + 1 + 2) (Receives (localPath name) manager (place + 1))) writes working ?_ ?_) ?_
          · intro closed entry stage
            obtain ⟨⟨acknowledged, created, -⟩, -⟩ := stage.more
            exact ⟨stage.command, stage.names, stage.facts, stage.length, stage.unfinished,
              acknowledged, created, fun opened => absurd closed opened⟩
          · intro path position streams entry _ stage
            obtain ⟨⟨acknowledged, created, written⟩, e, last, rfl, fits⟩ := stage.more
            have count := written (by rw [streams]; nofun)
            obtain ⟨rfl, changes⟩ := created.2 path position streams
            have stores := stage.facts.stores.write (changes ▸ List.mem_singleton_self _)
              (count.symm ▸ last) fits
            have facts : Downloads host name size entry.talk
                (entry.act (.write (localPath name) (field 1 chunk_size e.plaintext)) ()).deeds
                entry.result :=
              ⟨stage.facts.spoken, stage.facts.asks, stage.facts.announced, stage.facts.goesOn,
                stage.facts.created, stores, stage.unreported⟩
            refine ⟨forms _ stage.command stage.names facts, stage.command, stage.names, facts,
              stage.length, stage.unfinished, acknowledged, created, fun _ => ?_⟩
            exact List.length_append.trans (congrArg (· + 1) count)
          rintro result s g ⟨rfl, working⟩
          refine wp_ite.mpr ⟨fun _ => looped_failed working (by decide), fun _ => ?_⟩
          exact ih (place + 1) (by omega) working

theorem downloadRequest_ends {name : Bytes} (valid : FileManager.isStringValid name = true)
    (present : g.Present) (working : Working (charter host key known) false
      (fun _ entry => entry = .begun Message.DOWNLOAD_REQUEST.byte [name] []) s g) :
    (downloadRequest host name).wp (charter host key known).monitor
      (Ended host key known false) s g := by
  have forms : ∀ size, Forms host Message.DOWNLOAD_REQUEST.byte [name] fun entry =>
      Downloads host name size entry.talk entry.deeds entry.result :=
    fun size _ command names => .download name size command names valid
  have start := begins (fun entry => Downloads host name 0 entry.talk entry.deeds entry.result)
    ⟨.nil, nofun, nofun, nofun, .inl rfl, stores_none rfl, nofun⟩ working
  refine wp_unlisted (isFilePresent_unlisted _) start.resting.good fun taken _ => ?_
  refine wp_ite.mpr ⟨fun _ => failed start (by decide), fun _ => ?_⟩
  refine wp_unlisted (.invoke fun _ _ => rfl) start.resting.good fun filler _ => ?_
  refine said start (sends (forms 0) (fun entry => entry.deeds = .none_) start (.inl present) ?_)
    fun s g working => ?_
  · intro e user entry sent stage counter
    have spoken := stage.facts.spoken.say stage.length counter .request fun _ =>
      List.mem_singleton.mpr (code_of_text sent.text)
    exact ⟨⟨spoken, Talk.says_here stage.length ⟨filler, sent.text⟩,
      Talk.unsaid (by simp [stage.length]),
      fun long => absurd long (by simp [stage.length]), stage.facts.created, stage.facts.stores.say,
      stage.unreported⟩, stage.more⟩
  refine heard working (hears (fun text => forms (DownloadM2.deserialize host text).m_file_size.toNat)
    (fun text entry => entry.talk.Says 1 (·.plaintext = text) ∧ entry.deeds = .none_) working ?_)
    (fun _ => rfl) fun text g working => ?_
  · intro text e user entry hears stage counter
    have spoken := (stage.facts.spoken.chunks_irrelevant
      (chunksOf (DownloadM2.deserialize host text).m_file_size.toNat)
      (by rw [stage.length]; decide)).say stage.length counter .answer nofun
    exact ⟨⟨spoken, stage.facts.asks.later (by rw [stage.length]; decide),
      Talk.says_here stage.length (by rw [hears.text]), fun long => absurd long (by simp [stage.length]),
      stage.facts.created, stage.facts.stores.say, stage.unreported⟩,
      Talk.says_here stage.length hears.text, stage.more⟩
  refine wp_seq (increments working) fun _ s g working => ?_
  refine wp_ite.mpr ⟨fun _ => failed working (by decide), fun _ => ?_⟩
  refine wp_ite.mpr ⟨fun _ => failed working (by decide), fun acknowledged => ?_⟩
  have code : text.headD 0 = Message.DOWNLOAD_ACK.byte := not_not.mp acknowledged
  obtain ⟨size, announced⟩ : ∃ size, size = (DownloadM2.deserialize host text).m_file_size.toNat :=
    ⟨_, rfl⟩
  simp only [← announced] at working ⊢
  refine wp_seq (openWrite_creates (Stage Message.DOWNLOAD_REQUEST.byte [name]
    (fun entry => Downloads host name size entry.talk entry.deeds entry.result) 2 fun entry =>
      entry.talk.Says 1 (·.code = Message.DOWNLOAD_ACK.byte) ∧ entry.deeds.written = [])
    working ?_ ?_) ?_
  · intro entry stage
    obtain ⟨same, none_⟩ := stage.more
    refine ⟨by rw [none_]; rfl, by rw [none_]; rfl, stage.command, stage.names, stage.facts,
      stage.length, stage.unfinished, same.imp fun e same => ?_, by rw [none_]; rfl⟩
    exact (code_of_text same).trans code
  · intro answer entry _ stage
    obtain ⟨same, none_⟩ := stage.more
    have written : (entry.act (.ofstream_open (localPath name)) answer).deeds.written = [] :=
      congrArg Deeds.written none_
    have changes : (entry.act (.ofstream_open (localPath name)) answer).deeds.changes =
        [.ofstream_open (localPath name)] := by
      simp only [Entry.act, Deeds.observe, none_]
      rfl
    have facts : Downloads host name size entry.talk
        (entry.act (.ofstream_open (localPath name)) answer).deeds entry.result :=
      ⟨stage.facts.spoken, stage.facts.asks, stage.facts.announced, stage.facts.goesOn,
        .inr changes, stores_none written, stage.unreported⟩
    refine ⟨forms size _ stage.command stage.names facts, stage.command, stage.names, facts,
      stage.length, stage.unfinished, same.imp fun e same => ?_, written⟩
    exact (code_of_text same).trans code
  rintro manager s g ⟨rfl, writes, working⟩
  have begun : Working (charter host key known) false (Stage Message.DOWNLOAD_REQUEST.byte [name]
      (fun entry => Downloads host name size entry.talk entry.deeds entry.result) (0 + 2)
      (Receives (localPath name) (manager.initFileInfo size) 0)) s g := by
    refine working.mono fun entry _ held => ?_
    obtain ⟨stage, created⟩ := held
    exact ⟨stage.command, stage.names, stage.facts, stage.length, stage.unfinished, stage.more.1,
      created, fun _ => congrArg List.length stage.more.2⟩
  refine wp_seq (receiveChunks_loops 0 (chunksOf size) valid writes (Nat.zero_add _) begun) ?_
  rintro failure s g ⟨stopped, done⟩
  cases failure with
  | some code =>
      obtain ⟨never, working⟩ := stopped code rfl
      exact failed working never
  | none =>
      refine ended (done rfl) fun entry _ stage => ?_
      obtain ⟨acknowledged, created, written⟩ := stage.more
      refine forms size _ stage.command stage.names ⟨stage.facts.spoken, stage.facts.asks,
        stage.facts.announced, stage.facts.goesOn, stage.facts.created, stage.facts.stores, fun _ => ?_⟩
      refine ⟨stage.length, acknowledged, fun took => written fun closed => ?_⟩
      exact took (created.1 closed)

end Client
end CloudStorage
