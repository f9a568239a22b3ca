import CloudStorage.Dialogue.Client.Download
import CloudStorage.Dialogue.Client.Requests
import CloudStorage.Dialogue.Client.Upload

/-! The ledger of a client stays good in every run: the talk of every request goes by the
script, and whatever is reported as a success was answered as one. -/
namespace CloudStorage
open Interaction Code Method Dialogue
namespace Client
variable {host : Endian} {key : Bytes} {known : Emission → Prop}
  {s : Session octets} {g : Ledger} {spent : Bool} {holds holds' : Bytes → Entry → Prop}
  {command : UInt8} {names : List Bytes} {facts more : Entry → Prop} {length : Nat}
  {plaintext : Bytes}

/-- Between two operations, the last of which may have been the logout. -/
def Rests (host : Endian) (key : Bytes) (known : Emission → Prop) (quits : Prop)
    (s : Session octets) (g : Ledger) : Prop :=
  ∃ spent, (spent = true → quits) ∧ Resting (charter host key known) spent s g

/-- An operation has been chosen; the program ends with it or goes on. -/
def Chosen (host : Endian) (key : Bytes) (known : Emission → Prop) (ended : Option Int)
    (s : Session octets) (g : Ledger) : Prop :=
  Rests host key known (ended.isSome = true) s g

/-- An operation is invoked, and its end is remarked. -/
theorem invoke_rests {quits : Prop} {operation : Method Nat}
    (resting : Resting (charter host key known) false s g)
    (formed : Formed host (.begun command names []))
    (operates : ∀ g', g'.Present → Working (charter host key known) false
      (fun _ entry => entry = .begun command names []) s g' →
      operation.wp (charter host key known).monitor (fun code s' g' => ∃ spent,
        (spent = true → quits) ∧ Ended host key known spent code s' g') s g') :
    (invoke command names operation).wp (charter host key known).monitor
      (fun _ => Rests host key known quits) s g := by
  refine wp_listed fun answer _ => ?_
  obtain ⟨opened, present, working⟩ : (g.open_ (.begun command names [])).Good (charter host key known) ∧
      (g.open_ (.begun command names [])).Present ∧ Working (charter host key known) false
        (fun _ entry => entry = .begun command names []) s (g.open_ (.begun command names [])) := by
    by_cases current : g.current = true
    · have noted : g.open_ (.begun command names []) =
          { g with waiting := false, entries := .begun command names [] :: g.entries } := if_pos current
      have talks : Ledger.talks
          { g with waiting := false, entries := .begun command names [] :: g.entries } =
          g.talks := by
        simp [Ledger.talks, Entry.begun]
      have good : Ledger.Good (charter host key known)
          { g with waiting := false, entries := .begun command names [] :: g.entries } := by
        refine ⟨talks ▸ resting.good.ordered, talks ▸ resting.good.sound, ?_, resting.good.left_,
          resting.good.outside⟩
        intro entry member
        cases member with
        | head => exact formed
        | tail _ old => exact resting.good.formed entry old
      rw [noted]
      refine ⟨good, fun _ => List.cons_ne_nil _ _, ⟨good, resting.same, resting.lapsed, resting.unsent,
        resting.stays, ?_⟩, rfl, fun _ => .inr ⟨_, g.entries, rfl, rfl, fun begun => absurd rfl begun⟩⟩
      rw [talks]
      exact resting.behind
    · have noted : g.open_ (.begun command names []) = { g with waiting := false } := if_neg current
      have good : Ledger.Good (charter host key known) { g with waiting := false } :=
        resting.good.same rfl rfl rfl rfl
      rw [noted]
      exact ⟨good, fun now => absurd now current, ⟨good, resting.same, resting.lapsed, resting.unsent,
        resting.stays, resting.behind⟩, rfl, fun now => absurd now current⟩
  refine ⟨opened, wp_seq (operates _ present working) ?_⟩
  rintro code s g ⟨spent, last, ends⟩
  refine wp_listed fun answer _ => ?_
  have finished : Resting (charter host key known) spent s
      (Ledger.observe .client key g (.note (.finished code)) answer) := by
    by_cases current : g.current = true
    · have noted : Ledger.observe .client key g (.note (.finished code)) answer =
          g.extend (·.finish code) := if_pos current
      have extended : Working (charter host key known) spent (fun _ _ => True) s
          (g.extend (·.finish code)) :=
        ends.extend (fun _ => rfl) (fun entry _ held => ⟨held, trivial⟩) current
      rw [noted]
      exact extended.resting
    · have noted : Ledger.observe .client key g (.note (.finished code)) answer = g := if_neg current
      rw [noted]
      exact ends.resting
  exact ⟨finished.good, (wp_pure _).mpr ⟨spent, last, finished⟩⟩

theorem readName_unlisted : readName.Keeps (charter host key known).Unlisted fun result =>
    ∀ name, result = some name → FileManager.isStringValid name = true := by
  refine .bind (.invoke fun _ _ => rfl) fun name _ => .ite (fun valid => .pure ?_) fun _ => .pure nofun
  rintro _ ⟨⟩
  exact valid

theorem nothing_chosen (resting : Resting (charter host key known) false s g) :
    (pure none : Method (Option Int)).wp (charter host key known).monitor (Chosen host key known) s g :=
  (wp_pure _).mpr ⟨false, nofun, resting⟩

/-- An operation after which the menu goes on. -/
theorem operation_rests {operation : Method Nat}
    (resting : Resting (charter host key known) false s g)
    (formed : Formed host (.begun command names []))
    (operates : ∀ g', g'.Present → Working (charter host key known) false
      (fun _ entry => entry = .begun command names []) s g' →
      operation.wp (charter host key known).monitor (Ended host key known false) s g') :
    (do let _ ← invoke command names operation
        return none : Method (Option Int)).wp (charter host key known).monitor
      (Chosen host key known) s g := by
  have invoked : (invoke command names operation).wp (charter host key known).monitor
      (fun _ => Rests host key known False) s g :=
    invoke_rests resting formed fun g' present working => wp_mono
      (fun _ _ _ ends => ⟨false, nofun, ends⟩) (operates g' present working)
  refine wp_seq invoked ?_
  rintro code s g ⟨spent, last, resting⟩
  exact (wp_pure _).mpr ⟨spent, fun used => (last used).elim, resting⟩

theorem logout_rests (resting : Resting (charter host key known) false s g) :
    (invoke Message.LOGOUT_REQUEST.byte [] (logoutRequest host)).wp (charter host key known).monitor
      (fun _ => Rests host key known True) s g := by
  refine invoke_rests resting (.logout rfl rfl ⟨.nil, nofun⟩) fun g' present working => ?_
  refine wp_mono ?_ (logoutRequest_ends present working)
  rintro code s g ⟨spent, ends⟩
  exact ⟨spent, fun _ => trivial, ends⟩

theorem operate_rests (operationCode : Nat) (resting : Resting (charter host key known) false s g) :
    (operate host operationCode).wp (charter host key known).monitor (Chosen host key known) s g := by
  match operationCode with
  | 1 => exact operation_rests resting (.list rfl rfl ⟨.nil, nofun, nofun⟩) fun _ present working =>
      listRequest_ends present working
  | 2 =>
      refine wp_unlisted readName_unlisted resting.good fun result valid => ?_
      cases result with
      | none => exact nothing_chosen resting
      | some name =>
      refine operation_rests resting (.download name 0 rfl rfl (valid _ rfl) ⟨.nil, nofun, nofun, nofun,
        .inl rfl, stores_none rfl, nofun⟩) fun _ present working => ?_
      exact downloadRequest_ends (valid _ rfl) present working
  | 3 =>
      refine wp_unlisted readName_unlisted resting.good fun result valid => ?_
      cases result with
      | none => exact nothing_chosen resting
      | some name =>
      refine operation_rests resting (.upload name 0 rfl rfl (valid _ rfl) ⟨.nil, nofun,
        fun begun => absurd rfl begun, nofun, feeds_none rfl (Nat.zero_le _), nofun⟩)
        fun _ present working => ?_
      exact uploadRequest_ends (valid _ rfl) present working
  | 4 =>
      refine wp_unlisted readName_unlisted resting.good fun result first => ?_
      cases result with
      | none => exact nothing_chosen resting
      | some old =>
      refine wp_unlisted readName_unlisted resting.good fun result second => ?_
      cases result with
      | none => exact nothing_chosen resting
      | some new =>
      refine operation_rests resting (.rename old new rfl rfl (first _ rfl) (second _ rfl)
        ⟨.nil, nofun, nofun⟩) fun _ present working => ?_
      exact renameRequest_ends (first _ rfl) (second _ rfl) present working
  | 5 =>
      refine wp_unlisted readName_unlisted resting.good fun result valid => ?_
      cases result with
      | none => exact nothing_chosen resting
      | some name =>
      refine wp_bind.mpr (wp_get.mpr ?_)
      refine wp_unlisted (isFilePresent_unlisted _) resting.good fun there _ => ?_
      refine wp_ite.mpr ⟨fun _ => nothing_chosen resting, fun _ => ?_⟩
      refine operation_rests resting (.delete name rfl rfl (valid _ rfl) ⟨.nil, nofun, nofun, nofun,
        nofun⟩) fun _ present working => ?_
      exact deleteRequest_ends (valid _ rfl) present working
  | 6 =>
      refine wp_seq (logout_rests resting) ?_
      rintro code s g ⟨spent, -, resting⟩
      exact (wp_pure _).mpr ⟨spent, fun _ => rfl, resting⟩
  | 7 =>
      refine wp_seq (logout_rests resting) ?_
      rintro code s g ⟨spent, -, resting⟩
      exact wp_ite.mpr ⟨fun _ => (wp_pure _).mpr ⟨spent, fun _ => rfl, resting⟩,
        fun _ => (wp_pure _).mpr ⟨spent, fun _ => rfl, resting⟩⟩
  | 0 => exact nothing_chosen resting
  | _ + 8 => exact nothing_chosen resting

theorem menu_lists (rounds : Nat) (resting : Resting (charter host key known) false s g) :
    (menu host rounds).wp (charter host key known).monitor (fun _ _ _ => True) s g := by
  induction rounds generalizing s g with
  | zero => exact (wp_pure _).mpr trivial
  | succ rounds ih =>
      refine wp_bind.mpr (wp_get.mpr (wp_listed fun answer _ => ?_))
      have waits : Resting (charter host key known) false s { g with waiting := true } :=
        ⟨resting.good.same rfl rfl rfl rfl, resting.same, resting.lapsed, resting.unsent,
          resting.stays, resting.behind⟩
      refine ⟨waits.good, wp_unlisted (.invoke fun _ _ => rfl) waits.good fun operationCode _ => ?_⟩
      refine wp_seq (operate_rests operationCode waits) ?_
      rintro ended s g ⟨spent, last, resting⟩
      cases ended with
      | some code => exact (wp_pure _).mpr trivial
      | none =>
          cases spent with
          | true => exact absurd (last rfl) nofun
          | false => exact ih resting

theorem login_unlisted :
    login.wp (charter host key known).monitor (fun _ _ g' => g' = .start) s .start := by
  have asks : ∀ (op : Op) {β : Type} {f : op.Ans → Method β} {s : Session octets},
      (charter host key known).Unlisted op →
      (∀ answer, (f answer).wp (charter host key known).monitor (fun _ _ g' => g' = .start) s .start) →
      (ask op >>= f).wp (charter host key known).monitor (fun _ _ g' => g' = .start) s .start :=
    fun op _ _ _ none_ rest => wp_unlisted (.invoke none_) Ledger.good_start fun answer _ => rest answer
  refine asks .getline (fun _ _ => rfl) fun m_username => wp_bind.mpr (wp_modify.mpr ?_)
  refine asks .getline (fun _ _ => rfl) fun password => ?_
  refine wp_ite.mpr ⟨fun _ => (wp_pure _).mpr rfl, fun _ => ?_⟩
  refine asks (.unlock _ _) (fun _ _ => rfl) fun file => ?_
  cases file with
  | missing => exact (wp_pure _).mpr rfl
  | unreadable => exact (wp_pure _).mpr rfl
  | key _ => exact asks .connect (fun _ _ => rfl) fun connected => (wp_pure _).mpr rfl

theorem session_lists (rounds : Nat) :
    (session host rounds).wp (charter host key known).monitor (fun _ _ _ => True) s .start := by
  refine wp_seq login_unlisted ?_
  rintro logged s g rfl
  refine wp_ite.mpr ⟨fun _ => (wp_pure _).mpr trivial, fun _ => ?_⟩
  refine wp_seq (authenticate_enters (c := charter host key known) negotiates Ledger.good_start
    rfl rfl rfl)
    fun code s g success => ?_
  refine wp_ite.mpr ⟨fun _ => (wp_pure _).mpr trivial, fun same => ?_⟩
  exact menu_lists rounds (success (not_not.mp same)).resting

/-- In every run of a client the ledger of every epoch is good. -/
theorem ledger_good {rounds : Nat} {s : Session octets} {trace : List (Event Op Op.Ans)}
    {result : Option (Option Int)} (execution : Runs (run host rounds s) trace result)
    (legal : ∀ e ∈ trace, (charter host key known).Legal e.op e.answer) :
    (ledger .client key trace).Good (charter host key known) := by
  have whole : (run host rounds s).wp (charter host key known).monitor (fun _ _ => True) .start := by
    refine Program.wp_bind.mpr (Program.wp_mono ?_ (session_lists rounds))
    rintro ⟨ended | code, t⟩ g - <;> trivial
  exact Program.keeping_sound whole Ledger.good_start execution legal

end Client
end CloudStorage
