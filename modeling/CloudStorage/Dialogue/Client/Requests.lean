import CloudStorage.Dialogue.Client.Stages

/-! The requests of a client that move no file. -/
namespace CloudStorage
open Interaction Code Method Dialogue
namespace Client
variable {host : Endian} {key : Bytes} {known : Emission → Prop}
  {s : Session octets} {g : Ledger} {spent : Bool} {holds holds' : Bytes → Entry → Prop}
  {command : UInt8} {names : List Bytes} {facts more : Entry → Prop} {length : Nat}
  {plaintext : Bytes}

theorem listRequest_ends (present : g.Present)
    (working : Working (charter host key known) false
      (fun _ entry => entry = .begun Message.LIST_REQUEST.byte [] []) s g) :
    (listRequest host).wp (charter host key known).monitor (Ended host key known false) s g := by
  have forms : Forms host Message.LIST_REQUEST.byte [] fun entry =>
      Lists host entry.talk entry.result := fun _ => .list
  have start := begins (fun entry => Lists host entry.talk entry.result) ⟨.nil, nofun, nofun⟩ working
  refine said start (sendSimple_sent start fun filler => sends forms (fun _ => True) start
    (.inl present) ?_) fun s g working => ?_
  · intro e user entry sent stage counter
    have spoken := stage.facts.spoken.say stage.length counter .request fun _ =>
      List.mem_singleton.mpr (code_of_text sent.text)
    exact ⟨⟨spoken, fun long => absurd long (by simp [stage.length]), stage.unreported⟩, trivial⟩
  refine heard working (hears (fun _ => forms) (fun text entry => entry.talk.Says 1 (·.plaintext = text))
    working ?_) (fun _ => rfl) fun text g working => ?_
  · intro text e user entry hears stage counter
    have spoken := stage.facts.spoken.say stage.length counter .answer nofun
    exact ⟨⟨spoken, fun long => absurd long (by simp [stage.length]), stage.unreported⟩,
      Talk.says_here stage.length hears.text⟩
  refine wp_seq (increments working) fun _ s g working => ?_
  refine wp_ite.mpr ⟨fun _ => failed working (by decide), fun listed => ?_⟩
  have code : text.headD 0 = Message.LIST_ACK.byte := not_not.mp listed
  refine wp_ite.mpr ⟨fun none_ => ended working fun entry _ stage => ?_, fun _ => ?_⟩
  · refine forms _ stage.command stage.names ⟨stage.facts.spoken, stage.facts.goesOn, fun _ => ?_⟩
    refine .inl ⟨stage.length, stage.more.imp fun e same => ?_⟩
    subst same
    exact ⟨code, none_⟩
  refine heard working (hears (fun _ => forms) (fun text entry => entry.talk.Says 2 (·.plaintext = text))
    working ?_) (fun _ => rfl) fun names g working => ?_
  · intro names e user entry hears stage counter
    have spoken := stage.facts.spoken.say stage.length counter (.listing rfl) nofun
    have acknowledged : entry.talk.Says 1 (·.code = Message.LIST_ACK.byte) :=
      stage.more.imp fun e same => (code_of_text same).trans code
    exact ⟨⟨spoken, fun _ => acknowledged.later (by rw [stage.length]; decide), stage.unreported⟩,
      Talk.says_here stage.length hears.text⟩
  refine wp_seq (increments working) fun _ s g working => ?_
  refine wp_ite.mpr ⟨fun _ => failed working (by decide), fun answered => ?_⟩
  refine ended working fun entry _ stage => ?_
  refine forms _ stage.command stage.names ⟨stage.facts.spoken, stage.facts.goesOn, fun _ => ?_⟩
  refine .inr ⟨stage.length, stage.more.imp fun e same => ?_⟩
  exact (code_of_text same).trans (not_not.mp answered)

theorem renameRequest_ends {old new : Bytes} (first : FileManager.isStringValid old = true)
    (second : FileManager.isStringValid new = true) (present : g.Present)
    (working : Working (charter host key known) false
      (fun _ entry => entry = .begun Message.RENAME_REQUEST.byte [old, new] []) s g) :
    (renameRequest host old new).wp (charter host key known).monitor
      (Ended host key known false) s g := by
  have forms : Forms host Message.RENAME_REQUEST.byte [old, new] fun entry =>
      Renames old new entry.talk entry.result :=
    fun _ command names => .rename old new command names first second
  have start := begins (fun entry => Renames old new entry.talk entry.result)
    ⟨.nil, nofun, nofun⟩ working
  refine said start (sends forms (fun _ => True) start (.inl present) ?_) fun s g working => ?_
  · intro e user entry sent stage counter
    have spoken := stage.facts.spoken.say stage.length counter .request fun _ =>
      List.mem_singleton.mpr (code_of_text sent.text)
    exact ⟨⟨spoken, Talk.says_here stage.length sent.text, stage.unreported⟩, trivial⟩
  refine heard working (hears (fun _ => forms) (fun text entry => entry.talk.Says 1 (·.plaintext = text))
    working ?_) (fun _ => rfl) fun text g working => ?_
  · intro text e user entry hears stage counter
    have spoken := stage.facts.spoken.say stage.length counter .answer nofun
    exact ⟨⟨spoken, stage.facts.asks.later (by rw [stage.length]; decide), stage.unreported⟩,
      Talk.says_here stage.length hears.text⟩
  refine wp_seq (increments working) fun _ s g working => ?_
  refine wp_ite.mpr ⟨fun _ => failed working (by decide), fun missing => ?_⟩
  refine wp_ite.mpr ⟨fun _ => failed working (by decide), fun taken => ?_⟩
  refine wp_ite.mpr ⟨fun _ => failed working (by decide), fun refused => ?_⟩
  refine ended working fun entry _ stage => ?_
  refine forms _ stage.command stage.names ⟨stage.facts.spoken, stage.facts.asks, fun _ =>
    ⟨stage.length, stage.more.imp fun e same => ?_⟩⟩
  rw [code_of_text same]
  intro member
  simp only [refusals, List.mem_cons, List.not_mem_nil, or_false] at member
  rcases member with code | code | code
  · exact missing code
  · exact taken code
  · exact refused code

/-- The answer of the user to the question. -/
theorem wp_choice {β : Type} {f : Nat → Method β} {post : β → Session octets → Ledger → Prop}
    (holds' : Nat → Bytes → Entry → Prop)
    (working : Working (charter host key known) spent holds s g)
    (goes : ∀ choice user entry, Formed host entry → holds user entry →
      Formed host (entry.confirm choice) ∧ holds' choice user (entry.confirm choice))
    (rest : ∀ choice g', Working (charter host key known) spent (holds' choice) s g' →
      (f choice).wp (charter host key known).monitor post s g') :
    (ask (.getValidCode 1 2) >>= f).wp (charter host key known).monitor post s g := by
  refine wp_listed fun choice _ => ?_
  have chosen : Working (charter host key known) spent (holds' choice) s
      (Ledger.observe .client key g (.getValidCode 1 2) choice) := by
    by_cases current : g.current = true
    · have noted : Ledger.observe .client key g (.getValidCode 1 2) choice =
          g.extend (·.confirm choice) := if_pos current
      rw [noted]
      exact working.extend (fun _ => rfl) (goes choice g.user) current
    · have noted : Ledger.observe .client key g (.getValidCode 1 2) choice = g := if_neg current
      rw [noted]
      exact working.past current
  exact ⟨chosen.resting.good, rest choice _ chosen⟩

theorem deleteRequest_ends {name : Bytes} (valid : FileManager.isStringValid name = true)
    (present : g.Present) (working : Working (charter host key known) false
      (fun _ entry => entry = .begun Message.DELETE_REQUEST.byte [name] []) s g) :
    (deleteRequest host name).wp (charter host key known).monitor
      (Ended host key known false) s g := by
  have forms : Forms host Message.DELETE_REQUEST.byte [name] fun entry =>
      Deletes name entry.confirmed entry.talk entry.result :=
    fun _ command names => .delete name command names valid
  have start := begins (fun entry => Deletes name entry.confirmed entry.talk entry.result)
    ⟨.nil, nofun, nofun, nofun, nofun⟩ working
  refine wp_unlisted (.invoke fun _ _ => rfl) start.resting.good fun filler _ => ?_
  refine said start (sends forms (fun _ => True) start (.inl present) ?_) fun s g working => ?_
  · intro e user entry sent stage counter
    have spoken := stage.facts.spoken.say stage.length counter .request fun _ =>
      List.mem_singleton.mpr (code_of_text sent.text)
    exact ⟨⟨spoken, Talk.says_here stage.length ⟨filler, sent.text⟩,
      fun long => absurd long (by simp [stage.length]), Talk.unsaid (by simp [stage.length]),
      stage.unreported⟩, trivial⟩
  refine heard working (hears (fun _ => forms) (fun text entry => entry.talk.Says 1 (·.plaintext = text))
    working ?_) (fun _ => rfl) fun text g working => ?_
  · intro text e user entry hears stage counter
    have spoken := stage.facts.spoken.say stage.length counter .answer nofun
    exact ⟨⟨spoken, stage.facts.asks.later (by rw [stage.length]; decide),
      fun long => absurd long (by simp [stage.length]), Talk.unsaid (by simp [stage.length]),
      stage.unreported⟩, Talk.says_here stage.length hears.text⟩
  refine wp_seq (increments working) fun _ s g working => ?_
  refine wp_ite.mpr ⟨fun _ => failed working (by decide), fun asked => ?_⟩
  have code : text.headD 0 = Message.DELETE_ASK.byte := not_not.mp asked
  refine wp_choice (fun choice => Stage Message.DELETE_REQUEST.byte [name] (fun entry =>
    Deletes name entry.confirmed entry.talk entry.result) 2 fun entry =>
      entry.talk.Says 1 (·.code = Message.DELETE_ASK.byte) ∧ entry.confirmed = decide (choice = 1))
    working ?_ ?_
  · intro choice user entry _ stage
    have facts : Deletes name (entry.confirm choice).confirmed entry.talk entry.result :=
      ⟨stage.facts.spoken, stage.facts.asks, stage.facts.goesOn,
        Talk.unsaid (Nat.le_of_eq stage.length), stage.unreported⟩
    refine ⟨forms _ stage.command stage.names facts, stage.command, stage.names, facts, stage.length,
      stage.unfinished, ?_, rfl⟩
    exact stage.more.imp fun e same => (code_of_text same).trans code
  intro choice g working
  obtain ⟨message, chosen⟩ : ∃ message, message = if choice = 1 then Message.DELETE_CONFIRM
      else Message.NO_DELETE_CONFIRM := ⟨_, rfl⟩
  simp only [← chosen]
  have answer : message.byte ∈ followCodes Message.DELETE_REQUEST.byte := by
    rw [chosen]
    split_ifs <;> decide
  refine said working (sendSimple_sent working fun filler => sends forms (fun _ => True) working
    (.inr (later_of_followCodes answer)) ?_) fun s g working => ?_
  · intro e user entry sent stage counter
    obtain ⟨asked, confirmed⟩ := stage.more
    have own : e.code = message.byte := code_of_text sent.text
    have spoken := stage.facts.spoken.say stage.length counter (.confirmation rfl) fun _ =>
      (own ▸ answer : e.code ∈ followCodes Message.DELETE_REQUEST.byte)
    refine ⟨⟨spoken, stage.facts.asks.later (by rw [stage.length]; decide),
      fun _ => asked.later (by rw [stage.length]; decide), Talk.says_here stage.length fun yes => ?_,
      stage.unreported⟩, trivial⟩
    have choose : choice = 1 := by
      by_contra other
      rw [if_neg other] at chosen
      rw [own, chosen] at yes
      exact absurd yes (by decide)
    exact confirmed.trans (decide_eq_true choose)
  refine wp_ite.mpr ⟨fun _ => failed working (by decide), fun _ => ?_⟩
  refine heard working (hears (fun _ => forms) (fun text entry => entry.talk.Says 3 (·.plaintext = text))
    working ?_) (fun _ => rfl) fun text g working => ?_
  · intro text e user entry hears stage counter
    have spoken := stage.facts.spoken.say stage.length counter (.removal rfl) nofun
    have acknowledged := stage.facts.goesOn (by rw [stage.length]; decide)
    exact ⟨⟨spoken, stage.facts.asks.later (by rw [stage.length]; decide),
      fun _ => acknowledged.later (by rw [stage.length]; decide),
      stage.facts.confirms.later (by rw [stage.length]; decide), stage.unreported⟩,
      Talk.says_here stage.length hears.text⟩
  refine wp_seq (increments working) fun _ s g working => ?_
  refine wp_ite.mpr ⟨fun _ => failed working (by decide), fun removed => ?_⟩
  refine ended working fun entry _ stage => ?_
  refine forms _ stage.command stage.names ⟨stage.facts.spoken, stage.facts.asks, stage.facts.goesOn,
    stage.facts.confirms, fun _ => ⟨stage.length, stage.more.imp fun e same => ?_⟩⟩
  exact (code_of_text same).trans (not_not.mp removed)

/-- The counter is not advanced after the answer. -/
theorem logoutRequest_ends (present : g.Present)
    (working : Working (charter host key known) false
      (fun _ entry => entry = .begun Message.LOGOUT_REQUEST.byte [] []) s g) :
    (logoutRequest host).wp (charter host key known).monitor
      (fun code s' g' => ∃ spent, Ended host key known spent code s' g') s g := by
  have forms : Forms host Message.LOGOUT_REQUEST.byte [] fun entry =>
      LogsOut entry.talk entry.result := fun _ => .logout
  have start := begins (fun entry => LogsOut entry.talk entry.result) ⟨.nil, nofun⟩ working
  have stops : ∀ {spent : Bool} {holds : Bytes → Entry → Prop} {s g} {code : Nat},
      Working (charter host key known) spent holds s g → code ≠ Return.SUCCESS.val →
      (pure code : Method Nat).wp (charter host key known).monitor
        (fun code s' g' => ∃ spent, Ended host key known spent code s' g') s g :=
    fun working failure => wp_mono (fun _ _ _ ends => ⟨_, ends⟩) (failed working failure)
  refine wp_seq (sendSimple_sent start fun filler => sends forms (fun _ => True) start
    (.inl present) ?_) ?_
  · intro e user entry sent stage counter
    have spoken := stage.facts.spoken.say stage.length counter .request fun _ =>
      List.mem_singleton.mpr (code_of_text sent.text)
    exact ⟨⟨spoken, stage.unreported⟩, trivial⟩
  rintro failure s g' ⟨rfl, stopped, spoken⟩
  cases failure with
  | some code =>
      obtain ⟨rfl, failure⟩ := stopped code rfl
      exact stops start failure
  | none =>
  refine wp_seq (increments (spoken rfl)) fun _ s g working => ?_
  refine wp_seq (hears (fun _ => forms) (fun text entry => entry.talk.Says 1 (·.plaintext = text))
    working ?_) ?_
  · intro text e user entry hears stage counter
    have spoken := stage.facts.spoken.say stage.length counter .answer nofun
    exact ⟨⟨spoken, stage.unreported⟩, Talk.says_here stage.length hears.text⟩
  rintro result s g' ⟨rfl, opened, stopped⟩
  cases result with
  | error code =>
      obtain ⟨rfl, never⟩ := stopped code rfl
      exact stops working never
  | ok text =>
      have working := opened text rfl
      refine wp_ite.mpr ⟨fun _ => stops working (by decide), fun acknowledged => ?_⟩
      refine wp_mono (fun _ _ _ ends => ⟨_, ends⟩) (ended working fun entry _ stage => ?_)
      refine forms _ stage.command stage.names ⟨stage.facts.spoken, fun _ =>
        ⟨stage.length, stage.more.imp fun e same => ?_⟩⟩
      exact (code_of_text same).trans (not_not.mp acknowledged)

end Client
end CloudStorage
