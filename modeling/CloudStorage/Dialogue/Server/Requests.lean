import CloudStorage.Dialogue.Server.Stages

/-! The handlers that move no file. -/
namespace CloudStorage
open Interaction Code Method Dialogue
namespace Server
variable {host : Endian} {key : Bytes} {known : Emission → Prop} {user : Bytes} {entry : Entry}
  {s : Session octets} {g : Ledger} {spent : Bool} {holds holds' : Bytes → Entry → Prop}
  {command : UInt8} {facts more : Bytes → Entry → Prop} {length : Nat} {plaintext : Bytes}

/-- The directory of the user is listed. -/
theorem getFilesList_lists {path : Bytes} (holds' : Bytes → Entry → Prop)
    (working : Working (charter host key known) spent holds s g)
    (goes : ∀ answer entry, Formed host s.m_username entry → holds s.m_username entry →
      Formed host s.m_username (entry.act (.directory_iterator path) answer) ∧
        holds' s.m_username (entry.act (.directory_iterator path) answer)) :
    (FileManager.getFilesList path).wp (charter host key known).monitor (fun files s' g' => s' = s ∧
      ((files = ascii "error" ∧ ∃ still, Working (charter host key known) spent still s g') ∨
        ∃ names, files = FileManager.joinedNames names ∧
          Working (charter host key known) spent (fun user entry => holds' user entry ∧
            entry.deeds.listing = some (path, names)) s g')) s g := by
  have look : (charter host key known).Unlisted (.file (.exists_ path)) := unlisted_look fun _ _ => rfl
  refine wp_unlisted (.invoke look) working.resting.good fun there _ => ?_
  split
  · refine wp_file (fun found user entry => holds' user entry ∧
      entry.deeds.listing = found.map (path, ·)) working ?_ ?_
    · intro found entry formed held
      obtain ⟨formed, still⟩ := goes found entry formed held
      exact ⟨formed, still, rfl⟩
    · intro found g' _ working
      cases found with
      | none => exact (wp_pure _).mpr ⟨rfl, .inl ⟨rfl, _, working⟩⟩
      | some names => exact (wp_pure _).mpr ⟨rfl, .inr ⟨names, rfl, working⟩⟩
  · exact (wp_pure _).mpr ⟨rfl, .inl ⟨rfl, _, working⟩⟩

theorem listRequest_rests
    (working : Working (charter host key known) true (Begun Message.LIST_REQUEST.byte plaintext)
      s g) :
    (listRequest host plaintext).wp (charter host key known).monitor (Rests host key known) s g := by
  have forms : Forms host Message.LIST_REQUEST.byte fun user entry =>
      Lists host user entry.talk entry.deeds := fun _ _ => .list
  refine wp_seq (increments working) fun _ s g working => wp_bind.mpr (wp_get.mpr ?_)
  have start := begins (fun user entry => Lists host user entry.talk entry.deeds)
    (fun e _ => ⟨spoken_request _ 0 e, rfl, Talk.unsaid (Nat.le_refl _),
      Talk.unsaid (by simp [Entry.begun])⟩) working
  refine wp_seq (getFilesList_lists (Stage Message.LIST_REQUEST.byte
    (fun user entry => Lists host user entry.talk entry.deeds) 1 fun user _ => user = s.m_username)
    start ?_) ?_
  · intro answer entry formed stage
    have facts : Lists host s.m_username entry.talk
        (entry.act (.directory_iterator (storageDirectory s.m_username)) answer).deeds :=
      ⟨stage.facts.spoken, stage.facts.unchanged, Talk.unsaid (by simp [stage.length]),
        Talk.unsaid (by simp [stage.length])⟩
    exact ⟨formed.act (forms _ _ stage.command facts), stage.command, facts, stage.length, rfl⟩
  rintro files s g ⟨rfl, listed⟩
  refine wp_ite.mpr ⟨fun _ => ?_, fun usable => ?_⟩
  · obtain ⟨-, _, working⟩ | ⟨_, -, working⟩ := listed
    · exact rested working
    · exact rested working
  obtain ⟨names, rfl, working⟩ := listed.resolve_left fun failed => usable failed.1
  have listing : Working (charter host key known) false (Stage Message.LIST_REQUEST.byte
      (fun user entry => Lists host user entry.talk entry.deeds) 1
      fun user entry => Listed user entry.deeds names) s g := by
    refine working.mono fun entry _ held => ?_
    obtain ⟨stage, listed⟩ := held
    exact ⟨stage.command, stage.facts, stage.length, stage.more ▸ listed⟩
  refine said listing (sends forms (fun user entry => Listed user entry.deeds names)
    Message.LIST_ACK.byte listing rfl (by decide) ?_) fun s g working => ?_
  · intro e user entry text code stage counter
    have spoken := stage.facts.spoken.say stage.length counter .answer fun _ => by
      rw [code]
      decide
    exact ⟨⟨spoken, stage.facts.unchanged, Talk.says_here stage.length ⟨names, stage.more, text⟩,
      Talk.unsaid (by simp [stage.length])⟩, stage.more⟩
  refine wp_ite.mpr ⟨fun _ => rested working, fun _ => ?_⟩
  refine said working (sends forms (fun _ _ => True) Message.LIST_RESPONSE.byte working rfl
    (by decide) ?_) fun s g working => rested working
  intro e user entry text code stage counter
  have spoken := stage.facts.spoken.say stage.length counter (.listing rfl) fun _ => by
    rw [code]
    decide
  exact ⟨⟨spoken, stage.facts.unchanged, stage.facts.announced.later (by rw [stage.length]; decide),
    Talk.says_here stage.length ⟨names, stage.more, text⟩⟩, trivial⟩

/-- A file is renamed if there is one and no other takes its place. -/
theorem renameFile_renames {old new : Bytes} (forms : Forms host Message.RENAME_REQUEST.byte
      fun user entry => Renames user entry.talk entry.deeds)
    (working : Working (charter host key known) false (Stage Message.RENAME_REQUEST.byte
      (fun user entry => Renames user entry.talk entry.deeds) 1 fun user entry => user = s.m_username ∧
        entry.talk.Says 0 (·.plaintext = plaintext) ∧ entry.deeds = .none_) s g)
    (first : Named ((Rename.deserialize plaintext).m_old_filename ++
      (Rename.deserialize plaintext).m_new_filename) old)
    (second : Named (Rename.deserialize plaintext).m_new_filename new) :
    (renameFile (storagePath s.m_username old) (storagePath s.m_username new)).wp
      (charter host key known).monitor (fun code s' g' => s' = s ∧ code ∈ renameCodes ∧
        Working (charter host key known) false (Stage Message.RENAME_REQUEST.byte
          (fun user entry => Renames user entry.talk entry.deeds) 1 fun _ entry =>
            code = Result.ACK.byte → entry.deeds.effects ≠ []) s g') s g := by
  have refuses : ∀ {code : UInt8}, code ∈ renameCodes → code ≠ Result.ACK.byte →
      (pure code : Method UInt8).wp (charter host key known).monitor (fun code s' g' =>
        s' = s ∧ code ∈ renameCodes ∧ Working (charter host key known) false
          (Stage Message.RENAME_REQUEST.byte (fun user entry => Renames user entry.talk entry.deeds) 1
            fun _ entry => code = Result.ACK.byte → entry.deeds.effects ≠ []) s g') s g :=
    fun member refused => (wp_pure _).mpr ⟨rfl, member, working.mono fun entry _ stage =>
      ⟨stage.command, stage.facts, stage.length, fun same => absurd same refused⟩⟩
  refine wp_unlisted (isFilePresent_unlisted _) working.resting.good fun present _ => ?_
  refine wp_ite.mpr ⟨fun _ => refuses (by decide) (by decide), fun _ => ?_⟩
  refine wp_unlisted (isFilePresent_unlisted _) working.resting.good fun taken _ => ?_
  refine wp_ite.mpr ⟨fun _ => refuses (by decide) (by decide), fun _ => ?_⟩
  refine wp_file (fun (result : Int) => Stage Message.RENAME_REQUEST.byte
    (fun user entry => Renames user entry.talk entry.deeds) 1 fun _ entry =>
      result = 0 → entry.deeds.effects ≠ []) working ?_ ?_
  · intro result entry formed stage
    obtain ⟨-, asked, none_⟩ := stage.more
    obtain ⟨call, called⟩ : ∃ call : FileCall, call =
      .rename (storagePath s.m_username old) (storagePath s.m_username new) := ⟨_, rfl⟩
    have changes : (entry.act (.rename (storagePath s.m_username old)
        (storagePath s.m_username new)) result).deeds.changes = [call] := by
      simp [Entry.act, Deeds.observe, none_, Deeds.none_, called]
    have effects : (entry.act (.rename (storagePath s.m_username old)
        (storagePath s.m_username new)) result).deeds.effects =
          if result = (0 : Int) then [call] else [] := by
      simp [Entry.act, Deeds.observe, none_, Deeds.none_, called]
    have facts : Renames s.m_username entry.talk (entry.act (.rename
        (storagePath s.m_username old) (storagePath s.m_username new)) result).deeds := by
      refine ⟨stage.facts.spoken, .inr ⟨old, new, ?_, called ▸ changes⟩, ?_,
        Talk.unsaid (Nat.le_of_eq stage.length)⟩
      · refine asked.imp fun e same => ?_
        rw [same]
        exact ⟨first, second⟩
      · rw [changes, effects]
        split_ifs
        · exact .inr rfl
        · exact .inl rfl
    refine ⟨formed.act (forms _ _ stage.command facts), stage.command, facts, stage.length,
      fun took => ?_⟩
    rw [effects, if_pos took]
    exact List.cons_ne_nil _ _
  · intro result g' _ working
    refine wp_ite.mpr ⟨fun _ => (wp_pure _).mpr ⟨rfl, by decide, ?_⟩, fun took => (wp_pure _).mpr
      ⟨rfl, by decide, ?_⟩⟩
    · exact working.mono fun entry _ stage => ⟨stage.command, stage.facts, stage.length,
        fun same => absurd same (by decide)⟩
    · exact working.mono fun entry _ stage => ⟨stage.command, stage.facts, stage.length,
        fun _ => stage.more (not_not.mp took)⟩

theorem renameRequest_rests
    (working : Working (charter host key known) true (Begun Message.RENAME_REQUEST.byte plaintext)
      s g) :
    (renameRequest host plaintext).wp (charter host key known).monitor
      (Rests host key known) s g := by
  have forms : Forms host Message.RENAME_REQUEST.byte fun user entry =>
      Renames user entry.talk entry.deeds := fun _ _ => .rename
  refine wp_seq (increments working) fun _ s g working => wp_bind.mpr (wp_get.mpr ?_)
  refine wp_unlisted (cString_unlisted _ _) working.resting.good fun old first => ?_
  refine wp_unlisted (cString_unlisted _ _) working.resting.good fun new second => ?_
  have start := begins (fun user entry => Renames user entry.talk entry.deeds)
    (fun e _ => ⟨spoken_request _ 0 e, .inl rfl, .inl rfl, Talk.unsaid (by simp [Entry.begun])⟩) working
  refine wp_seq (renameFile_renames forms start first second) ?_
  rintro code s g ⟨rfl, member, working⟩
  have listed : ∀ code ∈ renameCodes, code ∈ answerCodes := by decide +kernel
  refine said working (sendSimple_sent working fun filler => sends forms (fun _ _ => True)
    code working rfl (listed code member) ?_) fun s g working => rested working
  intro e user entry text same stage counter
  have begun : 0 < entry.talk.length := by rw [stage.length]; decide
  have spoken := stage.facts.spoken.say stage.length counter .answer fun _ =>
    (same ▸ member : e.code ∈ renameCodes)
  refine ⟨⟨spoken, ?_, stage.facts.took, Talk.says_here stage.length fun acknowledged =>
    stage.more (same ▸ acknowledged)⟩, trivial⟩
  refine stage.facts.renamed.imp id ?_
  rintro ⟨old, new, asked, changes⟩
  exact ⟨old, new, asked.later begun, changes⟩

theorem deleteRequest_rests
    (working : Working (charter host key known) true (Begun Message.DELETE_REQUEST.byte plaintext)
      s g) :
    (deleteRequest host plaintext).wp (charter host key known).monitor
      (Rests host key known) s g := by
  have forms : Forms host Message.DELETE_REQUEST.byte fun user entry =>
      Deletes user entry.talk entry.deeds := fun _ _ => .delete
  refine wp_seq (increments working) fun _ s g working => ?_
  have start := begins (fun user entry => Deletes user entry.talk entry.deeds)
    (fun e _ => ⟨spoken_request _ 0 e, Talk.unsaid (by simp [Entry.begun]), .inl rfl, .inl rfl,
      Talk.unsaid (by simp [Entry.begun])⟩) working
  refine said start (sendSimple_sent start fun filler => sends forms (fun user entry =>
    entry.talk.Says 0 (·.plaintext = plaintext) ∧ entry.deeds = .none_) Message.DELETE_ASK.byte start rfl
    (by decide) ?_) fun s g working => ?_
  · intro e user entry text code stage counter
    obtain ⟨-, asked, none_⟩ := stage.more
    have begun : 0 < entry.talk.length := by rw [stage.length]; decide
    have spoken := stage.facts.spoken.say stage.length counter .answer fun _ => by
      rw [code]
      exact List.mem_singleton_self _
    exact ⟨⟨spoken, Talk.unsaid (by simp [stage.length]), .inl (congrArg Deeds.changes none_),
      stage.facts.took, Talk.unsaid (by simp [stage.length])⟩, asked.later begun, none_⟩
  refine wp_seq (hears (fun _ => forms) (fun text user entry => entry.talk.Says 2 (·.plaintext = text) ∧
    entry.talk.Says 0 (·.plaintext = plaintext) ∧ entry.deeds = .none_) working ?_) ?_
  · intro text e user entry heard stage counter
    obtain ⟨asked, none_⟩ := stage.more
    have begun : 0 < entry.talk.length := by rw [stage.length]; decide
    have spoken := stage.facts.spoken.say stage.length counter (.confirmation rfl) nofun
    exact ⟨⟨spoken, Talk.says_here stage.length heard.size, .inl (congrArg Deeds.changes none_),
      stage.facts.took, Talk.unsaid (by simp [stage.length])⟩, Talk.says_here stage.length heard.text,
      asked.later begun, none_⟩
  rintro result s g' ⟨rfl, opened, stopped⟩
  cases result with
  | error code =>
      obtain ⟨rfl, -⟩ := stopped code rfl
      exact rested working
  | ok text =>
  refine wp_seq (increments (opened text rfl)) fun _ s g working => ?_
  refine wp_ite.mpr ⟨fun _ => rested working, fun confirmed => ?_⟩
  have code : text.headD 0 = Message.DELETE_CONFIRM.byte := not_not.mp confirmed
  refine wp_unlisted (cString_unlisted _ _) working.resting.good fun name named => ?_
  refine wp_bind.mpr (wp_get.mpr ?_)
  refine wp_unlisted (isFilePresent_unlisted _) working.resting.good fun present _ => ?_
  refine wp_ite.mpr ⟨fun _ => rested working, fun _ => ?_⟩
  refine wp_file (fun (result : Int) => Stage Message.DELETE_REQUEST.byte
    (fun user entry => Deletes user entry.talk entry.deeds) 3 fun _ entry =>
      result = 0 → entry.deeds.effects ≠ []) working ?_ ?_
  · intro result entry formed stage
    obtain ⟨answered, asked, none_⟩ := stage.more
    obtain ⟨call, called⟩ : ∃ call : FileCall, call = .remove (storagePath s.m_username name) := ⟨_, rfl⟩
    have changes :
        (entry.act (.remove (storagePath s.m_username name)) result).deeds.changes = [call] := by
      simp [Entry.act, Deeds.observe, none_, Deeds.none_, called]
    have effects : (entry.act (.remove (storagePath s.m_username name)) result).deeds.effects =
        if result = (0 : Int) then [call] else [] := by
      simp [Entry.act, Deeds.observe, none_, Deeds.none_, called]
    have facts : Deletes s.m_username entry.talk
        (entry.act (.remove (storagePath s.m_username name)) result).deeds := by
      refine ⟨stage.facts.spoken, stage.facts.short, .inr ⟨by rw [stage.length]; decide, ?_, name, ?_,
        called ▸ changes⟩, ?_, Talk.unsaid (Nat.le_of_eq stage.length)⟩
      · exact answered.imp fun e same => (code_of_text same).trans code
      · refine asked.imp fun e same => ?_
        rw [same]
        exact named
      · rw [changes, effects]
        split_ifs
        · exact .inr rfl
        · exact .inl rfl
    refine ⟨formed.act (forms _ _ stage.command facts), stage.command, facts, stage.length,
      fun took => ?_⟩
    rw [effects, if_pos took]
    exact List.cons_ne_nil _ _
  intro result g _ working
  refine wp_ite.mpr ⟨fun _ => rested working, fun took => ?_⟩
  refine said working (sendSimple_sent working fun filler => sends forms (fun _ _ => True)
    Result.ACK.byte working rfl (by decide) ?_) fun s g working => rested working
  intro e user entry text same stage counter
  have before : 2 < entry.talk.length := by rw [stage.length]; decide
  have spoken := stage.facts.spoken.say stage.length counter (.removal rfl) fun _ => by
    rw [same]
    exact List.mem_singleton_self _
  refine ⟨⟨spoken, stage.facts.short.later before, ?_, stage.facts.took,
    Talk.says_here stage.length (stage.more (not_not.mp took))⟩, trivial⟩
  refine stage.facts.removed.imp id ?_
  rintro ⟨long, answered, name, asked, changes⟩
  exact ⟨long.trans (by simp), answered.later before, name, asked.later (by omega), changes⟩

theorem deliver_closing {role : Role} {key : Bytes} {e : Emission} :
    Ledger.deliver role key { g with pending := some e, closing := true } =
      { Ledger.deliver role key { g with pending := some e } with closing := true } := by
  simp only [Ledger.deliver, Ledger.say, Ledger.extend]
  split_ifs
  · rfl
  · cases g.entries <;> rfl
  · rfl

/-- The epoch ends with the answer, which is sealed under the key and sent after it. -/
theorem logoutRequest_rests
    (working : Working (charter host key known) true (Begun Message.LOGOUT_REQUEST.byte plaintext)
      s g) :
    (logoutRequest host plaintext).wp (charter host key known).monitor
      (Rests host key known) s g := by
  refine wp_seq (increments working) fun _ s g working => ?_
  have start := begins (fun _ entry => LogsOut entry.talk entry.deeds)
    (fun e _ => ⟨spoken_request _ 0 e, rfl⟩) working
  refine wp_unlisted (.invoke fun _ _ => rfl) start.resting.good fun filler _ => ?_
  refine wp_seq (encryptGeneric_seals start.resting _) ?_
  rintro message s g' ⟨rfl, ⟨rfl, rfl⟩ | ⟨box, rfl, length, rfl⟩⟩
  · exact rested start
  obtain ⟨e, made⟩ : ∃ e, e = Emission.under s (SimpleMessage.serialize ⟨Result.ACK.byte⟩ filler) box :=
    ⟨_, rfl⟩
  have own : e.key = s.m_session_key := congrArg Emission.key made
  have code : e.code = Result.ACK.byte := made ▸ rfl
  have counter : e.counter = s.m_counter.toNat := made ▸ Emission.under_counter ..
  have whole : e.size = e.plaintext.length := by
    rw [made]
    exact length
  have lasts : Ledger.Good (charter host key known) (Ledger.deliver .server key
      { g with pending := some e }) := by
    have delivered : Ledger.deliver .server key { g with pending := some e } =
        if g.current = true then g.say ⟨.server, e⟩
        else if s.m_session_key = key then { g with outside := e :: g.outside } else g :=
      deliver_sealed start.resting own
    rw [delivered]
    split_ifs with current again
    · have sound : (charter host key known).Sound ⟨.server, e⟩ :=
        ⟨fun _ => whole, fun theirs => absurd theirs (Role.other_ne .client)⟩
      suffices said : Working (charter host key known) true (fun _ _ => True) s
          (g.say ⟨.server, e⟩) by exact said.resting.good
      refine start.say counter sound (fun _ => trivial) ?_ current
      intro entry formed stage next
      have facts : LogsOut (entry.say ⟨.server, e⟩).talk (entry.say ⟨.server, e⟩).deeds :=
        ⟨stage.facts.spoken.say stage.length next .answer fun _ => by
          rw [code]
          exact List.mem_singleton_self _, stage.facts.unchanged⟩
      exact ⟨formed.say (.logout stage.command facts), trivial⟩
    · have good := start.resting.good
      refine ⟨good.ordered, good.sound, good.formed, good.left_, fun other member => ?_⟩
      cases member with
      | head => exact .inl (code ▸ (by decide : Result.ACK.byte ∈ answerCodes))
      | tail _ old => exact good.outside other old
    · exact start.resting.good
  have unsent : ∀ e, (Ledger.deliver .server key { g with pending := some e }).pending = none := by
    intro e
    simp only [Ledger.deliver]
    split_ifs <;> rfl
  have ended : ∀ g' : Ledger, g'.Good (charter host key known) → g'.pending = none →
      Resting (charter host key known) false { s with m_session_key := erasedKey }
        { g' with current := false, closing := false } := fun g' good unsent =>
    ⟨good.same rfl rfl rfl rfl, fun now => absurd now Bool.false_ne_true, fun _ _ => trivial, unsent, rfl,
      fun now => absurd now Bool.false_ne_true⟩
  refine wp_bind.mpr (wp_modify.mpr (wp_listed fun answer _ =>
    ⟨start.resting.good.same rfl rfl rfl rfl, wp_listed fun sent _ => ?_⟩))
  rw [← made]
  have final : Resting (charter host key known) false { s with m_session_key := erasedKey }
      (Ledger.observe .server key { g with pending := some e, closing := true }
        (.send (Generic.serialize ⟨Generic.aad s.m_counter, box⟩)) sent) := by
    by_cases failed : sent = -1
    · have noted : Ledger.observe .server key { g with pending := some e, closing := true }
          (.send (Generic.serialize ⟨Generic.aad s.m_counter, box⟩)) sent =
            { g with pending := none, current := false, closing := false } := if_pos failed
      rw [noted]
      exact ended { g with pending := none } (start.resting.good.same rfl rfl rfl rfl) rfl
    · have noted : Ledger.observe .server key { g with pending := some e, closing := true }
          (.send (Generic.serialize ⟨Generic.aad s.m_counter, box⟩)) sent =
            { Ledger.deliver .server key { g with pending := some e } with
              current := false, closing := false } := by
        refine (if_neg failed).trans ?_
        rw [deliver_closing]
        rfl
      rw [noted]
      exact ended _ lasts (unsent e)
  exact ⟨final.good, wp_ite.mpr ⟨fun _ => (wp_pure _).mpr final, fun _ => (wp_pure _).mpr final⟩⟩

end Server
end CloudStorage
