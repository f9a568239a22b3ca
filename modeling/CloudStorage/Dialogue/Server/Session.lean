import CloudStorage.Dialogue.Server.Download
import CloudStorage.Dialogue.Server.Requests
import CloudStorage.Dialogue.Server.Upload

/-! The ledger of a server stays good in every run: the talk of every request goes by the
script, and what is done to files is what the request asks for. -/
namespace CloudStorage
open Interaction Code Method Dialogue
namespace Server
variable {host : Endian} {key : Bytes} {known : Emission → Prop} {user : Bytes} {entry : Entry}
  {s : Session octets} {g : Ledger} {spent : Bool} {holds holds' : Bytes → Entry → Prop}
  {command : UInt8} {facts more : Bytes → Entry → Prop} {length : Nat} {plaintext : Bytes}

section Dispatch
variable {request : Bytes → Method Nat}

theorem answers_begun (handles : handler host command = some request) (user : Bytes)
    (e : Emission) :
    Answers host user command [⟨.client, e⟩] .none_ := by
  have later : ∀ {place : Nat} {P : Emission → Prop}, 1 ≤ place → Talk.Says [⟨.client, e⟩] place P :=
    fun long => Talk.unsaid long
  have first : ∀ {P : Emission → Prop}, P e → Talk.Says [⟨.client, e⟩] 0 P :=
    fun holds => Talk.says_first holds
  unfold handler at handles
  split_ifs at handles with list download upload rename delete logout
  · exact .list list ⟨spoken_request _ 0 e, rfl, later (by decide), later (by decide)⟩
  · exact .download (cPrefix (NameRequest.deserialize e.plaintext).m_filename) download
      ⟨first (named_terminated _), spoken_request _ _ e, rfl, later (by decide),
        feeds_none rfl (by simp)⟩
  · exact .upload (UploadM1.deserialize host e.plaintext).m_file_size.toNat upload
      ⟨first rfl, spoken_request _ _ e, .inl rfl, .inl rfl, stores_none rfl, later (by omega)⟩
  · exact .rename rename ⟨spoken_request _ 0 e, .inl rfl, .inl rfl, later (by decide)⟩
  · exact .delete delete ⟨spoken_request _ 0 e, later (by decide), .inl rfl, .inl rfl, later (by decide)⟩
  · exact .logout logout ⟨spoken_request _ 0 e, rfl⟩

theorem handler_rests (handles : handler host command = some request)
    (working : Working (charter host key known) true (Begun command plaintext) s g) :
    (request plaintext).wp (charter host key known).monitor (Rests host key known) s g := by
  unfold handler at handles
  split_ifs at handles with list download upload rename delete logout
  · obtain rfl := Option.some.inj handles
    exact listRequest_rests (list ▸ working)
  · obtain rfl := Option.some.inj handles
    exact downloadRequest_rests (download ▸ working)
  · obtain rfl := Option.some.inj handles
    exact uploadRequest_rests (upload ▸ working)
  · obtain rfl := Option.some.inj handles
    exact renameRequest_rests (rename ▸ working)
  · obtain rfl := Option.some.inj handles
    exact deleteRequest_rests (delete ▸ working)
  · obtain rfl := Option.some.inj handles
    exact logoutRequest_rests (logout ▸ working)

/-- A frame has been accepted as a command; its handler has not been started. -/
structure Awaited (host : Endian) (key : Bytes) (known : Emission → Prop) (plaintext : Bytes)
    (s : Session octets) (g : Ledger) : Prop where
  resting : Resting (charter host key known) false s g
  busy : g.waiting = false
  accepted : g.current = true → ∃ e rest, g.unhandled = e :: rest ∧
    Hears s Config.MAX_PACKET_SIZE plaintext e ∧ known e

/-- The handler is started for the frame. -/
theorem Awaited.starts (awaited : Awaited host key known plaintext s g)
    (handles : handler host command = some request) (code : plaintext.headD 0 = command) :
    Working (charter host key known) true (Begun command plaintext) s (g.handle command) := by
  obtain ⟨resting, busy, accepted⟩ := awaited
  by_cases current : g.current = true
  · obtain ⟨e, rest, waits, heard, known_⟩ := accepted current
    have noted : g.handle command = { g with
        unhandled := rest, entries := .begun command [] [⟨.client, e⟩] :: g.entries } := by
      simp [Ledger.handle, waits, current]
    have talks : Ledger.talks { g with
        unhandled := rest, entries := .begun command [] [⟨.client, e⟩] :: g.entries } =
          g.talks ++ [⟨.client, e⟩] := by
      simp [Ledger.talks, Entry.begun]
    have counter : e.counter = s.m_counter.toNat := heard.counter
    have behind : ∀ turn ∈ g.talks, turn.counter < e.counter := by
      rw [counter]
      exact resting.behind current
    have good : Ledger.Good (charter host key known) { g with
        unhandled := rest, entries := .begun command [] [⟨.client, e⟩] :: g.entries } := by
      constructor
      · rw [talks]
        exact resting.good.ordered.concat behind
      · rw [talks]
        intro turn member
        cases List.mem_append.mp member with
        | inl old => exact resting.good.sound turn old
        | inr new =>
            rw [List.mem_singleton.mp new]
            exact ⟨fun mine => absurd mine (Role.other_ne .server), fun _ => known_⟩
      · intro entry member
        cases member with
        | head =>
            refine ⟨List.cons_ne_nil _ _, Talk.says_first ⟨?_, heard.size⟩,
              answers_begun handles g.user e⟩
            exact (code_of_text heard.text).trans code
        | tail _ old => exact resting.good.formed entry old
      · exact resting.good.left_
      · exact resting.good.outside
    rw [noted]
    refine ⟨⟨good, resting.same, resting.lapsed, resting.unsent, resting.stays, ?_⟩, busy, fun _ => .inr
      ⟨_, g.entries, rfl, ⟨e, rfl, heard.text⟩, fun _ => ?_⟩⟩
    · intro _ turn member
      rw [talks] at member
      cases List.mem_append.mp member with
      | inl old => exact Nat.lt_succ_of_lt (resting.behind current turn old)
      | inr new =>
          rw [List.mem_singleton.mp new]
          exact Nat.lt_succ_of_le (Nat.le_of_eq counter)
    · exact congrArg (· + 1) counter.symm
  · have noted : g.handle command = g := by
      unfold Ledger.handle
      split
      · rfl
      · exact if_neg current
    have past := Bool.eq_false_iff.mpr current
    rw [noted]
    exact ⟨⟨resting.good, resting.same, resting.lapsed, resting.unsent, resting.stays,
      fun now => absurd now current⟩, busy, fun now => absurd now current⟩

theorem dispatch_rests (awaited : Awaited host key known plaintext s g) :
    (dispatch host plaintext).wp (charter host key known).monitor (Rests host key known) s g := by
  simp only [dispatch]
  cases handles : handler host (plaintext.headD 0) with
  | none => exact (wp_pure _).mpr awaited.resting
  | some request =>
      have working := awaited.starts handles rfl
      refine wp_listed fun answer _ => ⟨working.resting.good, ?_⟩
      refine wp_seq (handler_rests handles working) fun code s g (resting : Resting _ false s g) => ?_
      refine wp_invoke.mpr ?_
      rintro _ rfl answer -
      have finished : Resting (charter host key known) false s
          (Ledger.observe .server key g (.note (.finished code)) answer) := by
        by_cases current : g.current = true
        · have noted : Ledger.observe .server key g (.note (.finished code)) answer =
              g.extend (·.finish code) := if_pos current
          rw [noted]
          refine ⟨resting.good.extend (fun _ => rfl) fun entry rest listed => ?_, ?_, ?_, ?_, ?_, ?_⟩
          · exact (resting.good.formed entry (listed ▸ List.mem_cons_self ..)).finish code
          · simpa using resting.same
          · simpa using resting.lapsed
          · simpa using resting.unsent
          · simpa using resting.stays
          · have talks : (g.extend (·.finish code)).talks = g.talks := Ledger.talks_extend fun _ => rfl
            rw [talks, Ledger.extend_current]
            exact resting.behind
        · have noted : Ledger.observe .server key g (.note (.finished code)) answer = g := if_neg current
          rw [noted]
          exact resting
      exact ⟨finished.good, finished⟩

theorem receiveCommand_awaits (resting : Resting (charter host key known) false s g) :
    receiveCommand.wp (charter host key known).monitor (fun result s' g' =>
      ∀ plaintext, result = some plaintext → Awaited host key known plaintext s' g') s g := by
  refine wp_bind.mpr (wp_get.mpr (wp_listed fun answer _ => ?_))
  have waits : Resting (charter host key known) false s { g with waiting := true } :=
    ⟨resting.good.same rfl rfl rfl rfl, resting.same, resting.lapsed, resting.unsent, resting.stays,
      resting.behind⟩
  refine ⟨waits.good, wp_unlisted (.invoke fun _ _ => rfl) waits.good ?_⟩
  rintro ⟨result, buffer⟩ -
  refine wp_ite.mpr ⟨fun _ => (wp_pure _).mpr nofun, fun _ => ?_⟩
  refine wp_ite.mpr ⟨fun _ => (wp_pure _).mpr nofun, fun _ => ?_⟩
  refine wp_seq (openGeneric_lists (c := charter host key known) (g := { g with waiting := true })
    (fun plaintext g' => Awaited host key known plaintext s g') waits.good ?_) ?_
  · intro plaintext e heard known_
    simp only [charter]
    by_cases current : g.current = true
    · have noted : Ledger.hear .server { g with waiting := true } e =
          { g with waiting := false, unhandled := e :: g.unhandled } := by
        simp [Ledger.hear, current]
      have good : Ledger.Good (charter host key known)
          { g with waiting := false, unhandled := e :: g.unhandled } :=
        resting.good.same rfl rfl rfl rfl
      rw [noted]
      exact ⟨good, ⟨good, resting.same, resting.lapsed, resting.unsent, resting.stays, resting.behind⟩,
        rfl, fun _ => ⟨e, g.unhandled, rfl, heard, known_ (resting.same current).1⟩⟩
    · have noted : Ledger.hear .server { g with waiting := true } e = { g with waiting := false } := by
        simp [Ledger.hear, current]
      have good : Ledger.Good (charter host key known) { g with waiting := false } :=
        resting.good.same rfl rfl rfl rfl
      rw [noted]
      exact ⟨good, ⟨good, resting.same, resting.lapsed, resting.unsent, resting.stays, resting.behind⟩,
        rfl, fun now => absurd now current⟩
  rintro result s g ⟨rfl, opened, -⟩
  cases result with
  | error code => exact wp_ite.mpr ⟨fun _ => wp_throw.mpr trivial, fun _ => (wp_pure _).mpr nofun⟩
  | ok plaintext =>
      refine (wp_pure _).mpr ?_
      rintro _ ⟨⟩
      exact opened plaintext rfl

end Dispatch

theorem serve_lists (rounds : Nat) (resting : Resting (charter host key known) false s g) :
    (serve host rounds).wp (charter host key known).monitor (fun _ _ _ => True) s g := by
  induction rounds generalizing s g with
  | zero => exact (wp_pure _).mpr trivial
  | succ rounds ih =>
      refine wp_seq (receiveCommand_awaits resting) fun result s g awaited => ?_
      cases result with
      | none => exact (wp_pure _).mpr trivial
      | some plaintext =>
          refine wp_seq (dispatch_rests (awaited plaintext rfl)) fun _ s g resting => ?_
          exact ih resting

theorem session_lists (rounds : Nat) :
    (session host rounds).wp (charter host key known).monitor (fun _ _ _ => True) s .start := by
  refine wp_seq (authenticate_enters (c := charter host key known) negotiates Ledger.good_start
    rfl rfl rfl)
    fun code s g success => ?_
  refine wp_ite.mpr ⟨fun _ => (wp_pure _).mpr trivial, fun same => ?_⟩
  exact serve_lists rounds (success (not_not.mp same)).resting

/-- In every run of a server the ledger of every epoch is good. -/
theorem ledger_good {rounds : Nat} {s : Session octets} {trace : List (Event Op Op.Ans)}
    {result : Option Unit} (execution : Runs (run host rounds s) trace result)
    (legal : ∀ e ∈ trace, (charter host key known).Legal e.op e.answer) :
    (ledger .server key trace).Good (charter host key known) := by
  have whole : (run host rounds s).wp (charter host key known).monitor (fun _ _ => True) .start := by
    refine Program.wp_bind.mpr (Program.wp_mono ?_ (session_lists rounds))
    rintro ⟨ended | code, t⟩ g - <;> trivial
  exact Program.keeping_sound whole Ledger.good_start execution legal

end Server
end CloudStorage
