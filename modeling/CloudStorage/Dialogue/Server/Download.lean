import CloudStorage.Dialogue.Server.Stages

/-! A download: the chunks of the file are sent in their order. -/
namespace CloudStorage
open Interaction Code Method Dialogue
namespace Server
variable {host : Endian} {key : Bytes} {known : Emission → Prop} {user : Bytes} {entry : Entry}
  {s : Session octets} {g : Ledger} {spent : Bool} {holds holds' : Bytes → Entry → Prop}
  {command : UInt8} {facts more : Bytes → Entry → Prop} {length : Nat} {plaintext : Bytes}

theorem isDownloadable_unlisted (path : Bytes) :
    (isDownloadable path).Keeps (charter host key known).Unlisted := by
  refine .bind (isFilePresent_unlisted path) fun present _ => ?_
  refine .ite (fun _ => .pure trivial) fun _ => ?_
  refine .bind (.invoke (unlisted_look fun _ _ => rfl)) fun regular _ => ?_
  cases regular with
  | none => exact .throw
  | some regular =>
      refine .ite (fun _ => .pure trivial) fun _ => ?_
      refine .bind (.invoke (unlisted_look fun _ _ => rfl)) fun symlink _ => ?_
      cases symlink with
      | none => exact .throw
      | some symlink => exact .pure trivial

/-- A file is opened for a download, and its size is found. -/
theorem openDownload_measures {path : Bytes} (holds' : Bytes → Entry → Prop)
    (working : Working (charter host key known) spent holds s g)
    (unknown : ∀ entry, holds s.m_username entry → entry.deeds.size = none ∧ holds' s.m_username entry)
    (keeps : ∀ answer entry, Formed host s.m_username entry → holds s.m_username entry →
      Formed host s.m_username (entry.act (.seek_end path) answer) ∧
        holds' s.m_username (entry.act (.seek_end path) answer)) :
    (openDownload path).wp (charter host key known).monitor (fun opened s' g' => s' = s ∧
      ∃ found, (∀ manager, opened = some manager → OpenedAs path found manager) ∧
        (opened = none → found = none) ∧
        Working (charter host key known) spent (fun user entry => holds' user entry ∧
          entry.deeds.size = found) s g') s g := by
  refine wp_unlisted (isDownloadable_unlisted path) working.resting.good fun usable _ => ?_
  refine wp_ite.mpr ⟨fun _ => ?_, fun _ => ?_⟩
  · refine wp_seq (openRead_measures holds' working unknown keeps) ?_
    rintro manager s g ⟨rfl, -, found, opened, working⟩
    refine (wp_pure _).mpr ⟨rfl, found, ?_, nofun, working⟩
    rintro _ ⟨⟩
    exact opened
  · exact (wp_pure _).mpr ⟨rfl, none, nofun, fun _ => rfl,
      working.mono fun entry _ held => (unknown entry held).symm⟩

/-- The chunks of a download. -/
theorem sendChunks_rests {manager : FileManager} {buffer username name : Bytes} {size : Nat}
    (place left : Nat) (cuts : Cuts size manager) (rest : place + left = chunksOf size)
    (working : Working (charter host key known) false (Stage Message.DOWNLOAD_REQUEST.byte
      (fun user entry => Downloads host user name entry.talk entry.deeds) (place + 2) fun user entry =>
        user = username ∧ entry.deeds.size = some size ∧
          Loads (storagePath username name) size place manager.m_stream entry.deeds) s g) :
    (sendChunks host manager buffer left).wp (charter host key known).monitor
      (Rests host key known) s g := by
  have forms : Forms host Message.DOWNLOAD_REQUEST.byte fun user entry =>
      Downloads host user name entry.talk entry.deeds := fun _ _ => .download name
  induction left generalizing manager buffer place s g with
  | zero => exact rested working
  | succ left ih =>
      simp only [sendChunks, cuts.chunk rest]
      have split : Working (charter host key known) false (fun user entry =>
          Stage Message.DOWNLOAD_REQUEST.byte (fun user entry =>
            Downloads host user name entry.talk entry.deeds) (place + 2) (fun user entry =>
              user = username ∧ entry.deeds.size = some size) user entry ∧
          Loads (storagePath username name) size place manager.m_stream entry.deeds) s g := by
        refine working.mono fun entry _ stage => ?_
        obtain ⟨own, measured, loads⟩ := stage.more
        exact ⟨⟨stage.command, stage.facts, stage.length, own, measured⟩, loads⟩
      refine wp_seq (readChunk_loads cuts (by omega) split ?_) ?_
      · intro path position bytes content entry formed stage bound
        have feeds := stage.facts.feeds
        have facts : Downloads host s.m_username name entry.talk
            (entry.act (.read path position bytes) content).deeds :=
          ⟨stage.facts.asked, stage.facts.spoken, stage.facts.unchanged, stage.facts.announced,
            feeds.read (by rw [stage.more.2, Option.getD_some]; omega) _⟩
        exact ⟨formed.act (forms _ _ stage.command facts), stage.command, facts, stage.length,
          stage.more⟩
      rintro ⟨manager, buffer, result⟩ s g ⟨rfl, cuts, working⟩
      refine wp_ite.mpr ⟨fun _ => rested working, fun _ => ?_⟩
      have stage : Working (charter host key known) false (Stage Message.DOWNLOAD_REQUEST.byte
          (fun user entry => Downloads host user name entry.talk entry.deeds) (place + 2)
          fun user entry => user = username ∧ entry.deeds.size = some size ∧
            Loaded (storagePath username name) size place manager.m_stream buffer entry.deeds) s g := by
        refine working.mono fun entry _ held => ?_
        obtain ⟨stage, loaded⟩ := held
        exact ⟨stage.command, stage.facts, stage.length, stage.more.1, stage.more.2, loaded⟩
      refine wp_seq (sends forms (fun user entry => user = username ∧ entry.deeds.size = some size ∧
        Loads (storagePath username name) size (place + 1) manager.m_stream entry.deeds)
        Message.DOWNLOAD_CHUNK.byte stage rfl (by decide) ?_) ?_
      · intro e user entry text code stage counter
        obtain ⟨rfl, measured, loaded⟩ := stage.more
        have inside : 1 < entry.talk.length := by rw [stage.length]; omega
        have count : chunksOf (entry.deeds.size.getD 0) = chunksOf size := by rw [measured]; rfl
        have spoken := stage.facts.spoken.say stage.length counter (.download rfl (by omega)) fun _ => by
          rw [code]
          exact List.mem_singleton_self _
        have feeds := stage.facts.feeds
        rw [measured, Option.getD_some] at feeds
        have fed := feeds.send stage.length loaded text
        refine ⟨⟨stage.facts.asked.later (by omega), spoken, stage.facts.unchanged,
          stage.facts.announced.later inside, ?_⟩, rfl, measured, loaded.1⟩
        simp only [Entry.say, measured, Option.getD_some]
        exact fed
      rintro failure s g' ⟨rfl, stopped, spoken⟩
      cases failure with
      | some code =>
          obtain ⟨rfl, -⟩ := stopped code rfl
          exact rested stage
      | none =>
          refine wp_seq (increments (spoken rfl)) fun _ s g working => ?_
          exact ih (place + 1) cuts (by omega) working

theorem downloadRequest_rests
    (working : Working (charter host key known) true (Begun Message.DOWNLOAD_REQUEST.byte plaintext)
      s g) :
    (downloadRequest host plaintext).wp (charter host key known).monitor
      (Rests host key known) s g := by
  refine wp_seq (increments working) fun _ s g working => wp_bind.mpr (wp_get.mpr ?_)
  refine wp_unlisted (cString_unlisted _ _) working.resting.good fun name named => ?_
  have forms : Forms host Message.DOWNLOAD_REQUEST.byte fun user entry =>
      Downloads host user name entry.talk entry.deeds := fun _ _ => .download name
  have start := begins (fun user entry => Downloads host user name entry.talk entry.deeds)
    (fun e same => ⟨Talk.says_first (same ▸ named), spoken_request _ _ e, rfl,
      Talk.unsaid (Nat.le_refl _), feeds_none rfl (by simp [Entry.begun])⟩) working
  refine wp_seq (openDownload_measures (Stage Message.DOWNLOAD_REQUEST.byte (fun user entry =>
    Downloads host user name entry.talk entry.deeds) 1 fun user entry =>
      user = s.m_username ∧ entry.deeds.reads = []) start ?_ ?_) ?_
  · intro entry stage
    obtain ⟨own, -, none_⟩ := stage.more
    exact ⟨congrArg Deeds.size none_, stage.command, stage.facts, stage.length, own,
      congrArg Deeds.reads none_⟩
  · intro answer entry formed stage
    obtain ⟨own, -, none_⟩ := stage.more
    have unread : (entry.act (.seek_end (storagePath s.m_username name)) answer).deeds.reads = [] :=
      congrArg Deeds.reads none_
    have facts : Downloads host s.m_username name entry.talk
        (entry.act (.seek_end (storagePath s.m_username name)) answer).deeds :=
      ⟨stage.facts.asked, stage.facts.spoken.chunks_irrelevant _ (by rw [stage.length]; decide),
        stage.facts.unchanged, Talk.unsaid (by simp [stage.length]),
        feeds_none unread (by simp [stage.length])⟩
    exact ⟨formed.act (forms _ _ stage.command facts), stage.command, facts, stage.length, own, unread⟩
  rintro file_to_send t g ⟨rfl, found, opened, missing, working⟩
  have measured : Working (charter host key known) false (Stage Message.DOWNLOAD_REQUEST.byte
      (fun user entry => Downloads host user name entry.talk entry.deeds) 1 fun user entry =>
        user = t.m_username ∧ entry.deeds.reads = [] ∧ entry.deeds.size = found) t g := by
    refine working.mono fun entry _ held => ?_
    obtain ⟨stage, size⟩ := held
    exact ⟨stage.command, stage.facts, stage.length, stage.more.1, stage.more.2, size⟩
  cases file_to_send with
  | none =>
      refine said measured (sends forms (fun _ _ => True) Error.FILE_NOT_FOUND.byte measured rfl
        (by decide) ?_) fun s g working => wp_ite.mpr ⟨fun _ => rested working, fun _ => rested working⟩
      intro e user entry text code stage counter
      have spoken := stage.facts.spoken.say stage.length counter .answer fun _ => by
        rw [code]
        decide
      refine ⟨⟨stage.facts.asked.later (by rw [stage.length]; decide), spoken, stage.facts.unchanged,
        Talk.says_here stage.length fun acknowledges => ?_,
        feeds_none stage.more.2.1 (by simp [stage.length])⟩, trivial⟩
      rw [code] at acknowledges
      exact absurd acknowledges (by decide)
  | some manager =>
      have opened := opened manager rfl
      have announced : manager.m_file_size = found.getD 0 := by
        cases found with
        | none => exact opened
        | some size => exact congrArg FileManager.m_file_size opened
      refine said measured (sends forms (fun user entry => user = t.m_username ∧
        entry.deeds.reads = [] ∧ entry.deeds.size = found) Message.DOWNLOAD_ACK.byte measured rfl
        (by decide) ?_) fun s g working => ?_
      · intro e user entry text code stage counter
        obtain ⟨own, unread, measured⟩ := stage.more
        have spoken := stage.facts.spoken.say stage.length counter .answer fun _ => by
          rw [code]
          decide
        refine ⟨⟨stage.facts.asked.later (by rw [stage.length]; decide), spoken, stage.facts.unchanged,
          Talk.says_here stage.length fun _ => ?_, feeds_none unread (by simp [stage.length])⟩,
          own, unread, measured⟩
        have sized : manager.m_file_size = (entry.say ⟨.server, e⟩).deeds.size.getD 0 := by
          rw [announced, ← measured]
          rfl
        rw [← sized]
        exact text
      refine wp_ite.mpr ⟨fun _ => rested working, fun some_ => ?_⟩
      refine wp_unlisted (.invoke fun _ _ => rfl) working.resting.good fun buffer _ => ?_
      cases found with
      | none =>
          rw [DownloadM2.ofSize_size, announced] at some_
          exact absurd rfl some_
      | some size =>
      obtain rfl : manager = _ := opened
      have begun : Working (charter host key known) false (Stage Message.DOWNLOAD_REQUEST.byte
          (fun user entry => Downloads host user name entry.talk entry.deeds) (0 + 2) fun user entry =>
            user = t.m_username ∧ entry.deeds.size = some size ∧ Loads (storagePath t.m_username name)
              size 0 (some (storagePath t.m_username name, 0)) entry.deeds) s g := by
        refine working.mono fun entry _ stage => ?_
        obtain ⟨own, unread, measured⟩ := stage.more
        have none_ := congrArg List.length unread
        exact ⟨stage.command, stage.facts, stage.length, own, measured, Nat.le_of_eq none_,
          fun _ => ⟨none_, fun _ => by rw [Nat.zero_mul]⟩⟩
      refine wp_seq (sendChunks_rests 0 (chunksOf size) ⟨rfl, rfl⟩ (Nat.zero_add _) begun) ?_
      intro failure s g resting
      cases failure with
      | some code => exact (wp_pure _).mpr resting
      | none => exact (wp_pure _).mpr resting

end Server
end CloudStorage
