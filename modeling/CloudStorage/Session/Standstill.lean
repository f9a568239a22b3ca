import CloudStorage.Session.Cargo
import CloudStorage.Session.Synchrony

/-! Whether a session can come to a standstill: the client waits for a message while the
server waits for a request or has returned. -/
namespace CloudStorage
open Interaction Code Method

namespace Loose
open Lockstep (served reported)

variable {C : Crypto} {H J : Habit} {α β γ δ : Type} {ends : Pair C H J α β → Prop}
  {host : Endian} {b b' : Bench}

/-- The client uploads no file of exactly `MAX_FILE_SIZE` bytes. -/
def Entry.Measured : Entry → Prop
  | ⟨_, .seek_end _, answer⟩ => answer ≠ some Config.MAX_FILE_SIZE
  | _ => True

/-- The files of the server answer so that every handler has something to say: the
directory can be listed, the kind of a file can be told, its size fits its field, and a file
whose deletion has been confirmed is still there and can be removed. -/
def Entry.Obliging : Entry → Prop
  | ⟨_, .exists_ _, answer⟩ => answer = some true
  | ⟨_, .directory_iterator _, answer⟩ => ∃ names, answer = some names ∧
      Lockstep.Listable (names.map (· ++ ascii ",")).flatten.dropLast
  | ⟨_, .is_regular_file _, answer⟩ | ⟨_, .is_symlink _, answer⟩ => answer.isSome = true
  | ⟨_, .seek_end _, answer⟩ => ∀ file_size, answer = some file_size → Fits file_size
  | ⟨scene, .ifstream_open _, answer⟩ =>
      scene.command = some Message.DELETE_REQUEST.byte → answer = true
  | ⟨_, .remove _, answer⟩ => answer = 0
  | _ => True

/-- A machine on which every answer is of the kind. -/
def Habit.only (keep : Entry → Prop) (possible : ∀ scene call, ∃ answer, keep ⟨scene, call, answer⟩)
    (keyFile : KeyFile Unit) : Habit where
  Files b call answer := keep ⟨b.scene, call, answer⟩
  files b call := possible b.scene call
  keyFile := keyFile

theorem measured_possible (scene : Scene) (call : FileCall) :
    ∃ answer, Entry.Measured ⟨scene, call, answer⟩ := by
  cases call with
  | seek_end path => exact ⟨none, nofun⟩
  | write path chunk => exact ⟨(), trivial⟩
  | ifstream_open path => exact ⟨true, trivial⟩
  | ofstream_open path => exact ⟨true, trivial⟩
  | read path position size => exact ⟨[], trivial⟩
  | exists_ path => exact ⟨none, trivial⟩
  | directory_iterator path => exact ⟨none, trivial⟩
  | is_regular_file path => exact ⟨none, trivial⟩
  | is_symlink path => exact ⟨none, trivial⟩
  | rename old_path new_path => exact ⟨(0 : Int), trivial⟩
  | remove path => exact ⟨(0 : Int), trivial⟩

theorem obliging_possible (scene : Scene) (call : FileCall) :
    ∃ answer, Entry.Obliging ⟨scene, call, answer⟩ := by
  cases call with
  | seek_end path => exact ⟨none, nofun⟩
  | write path chunk => exact ⟨(), trivial⟩
  | ifstream_open path => exact ⟨true, fun _ => rfl⟩
  | ofstream_open path => exact ⟨true, trivial⟩
  | read path position size => exact ⟨[], trivial⟩
  | exists_ path => exact ⟨some true, rfl⟩
  | directory_iterator path => exact ⟨some [], [], rfl, by decide⟩
  | is_regular_file path => exact ⟨some true, rfl⟩
  | is_symlink path => exact ⟨some true, rfl⟩
  | rename old_path new_path => exact ⟨(0 : Int), trivial⟩
  | remove path => exact ⟨(0 : Int), rfl⟩

/-- A client with measured files and a server with obliging ones. -/
abbrev measured (keyFile : KeyFile Unit) : Habit :=
  .only Entry.Measured measured_possible keyFile

abbrev obliging (keyFile : KeyFile Unit) : Habit :=
  .only Entry.Obliging obliging_possible keyFile

section Menu
variable {right : Program Op Op.Ans β} {s : Session octets}
  {kC : Except Thrown γ × Session octets → Program Op Op.Ans α}
  {kS : Except Thrown Unit × Session octets → Program Op Op.Ans β} {rounds : Nat}
  {username key : Bytes} {m_counter : UInt32}

theorem invoked {command : UInt8} {names : List Bytes} {operation : Method Nat}
    {f : Nat → Method γ}
    (next : At ends (((operation >>= reported f) s).bind kC) right b b') :
    At ends (((Client.invoke command names operation >>= f) s).bind kC) right b b' := by
  rw [Client.invoke]
  simp only [Code.bind_assoc]
  apply ask_left rfl rfl
  intro _ _
  exact next

theorem report {code : Nat} {f : Nat → Method γ} (next : At ends ((f code s).bind kC) right b b') :
    At ends ((reported f code s).bind kC) right b b' := by
  apply ask_left rfl rfl
  intro _ _
  exact next

theorem named {f : Option Bytes → Method γ} (none_ : At ends ((f none s).bind kC) right b b')
    (some_ : ∀ filename, FileManager.isStringValid filename = true →
      At ends ((f (some filename) s).bind kC) right b b') :
    At ends (((Client.readName >>= f) s).bind kC) right b b' := by
  rw [Client.readName, Code.bind_assoc]
  apply ask_left rfl rfl
  intro filename _
  by_cases valid : FileManager.isStringValid filename = true
  · rw [if_pos valid]
    exact some_ filename valid
  · rw [if_neg valid]
    exact none_

/-- The choices of the menu. Each leads back to it or ends the program. -/
theorem operate {own : KeyFile Unit}
    {ends : Pair C (measured own) (obliging (.key ())) α β → Prop} {choice : Nat}
    {f : Option Int → Method γ}
    (quits : ∀ e t, ∃ value, kS (.error e, t) = .done value)
    (name : FileManager.isStringValid username = true)
    (again : ∀ left, rounds ≤ left → ∀ m_counter key b b',
      Waiting ends host kS ((f none ⟨username, m_counter, key⟩).bind kC) left
        ⟨username, m_counter, key⟩ b b')
    (over_ : ∀ code s t b b', Waiting ends host kS ((f (some code) s).bind kC) rounds t b b') :
    Waiting ends host kS (((Client.operate host choice >>= f) ⟨username, m_counter, key⟩).bind kC)
      (rounds + 1) ⟨username, m_counter, key⟩ b b' := by
  have tells : Tells (obliging (.key ())) := fun _ _ _ known => known.elim id id
  have fits : ∀ b path file_size, (obliging (.key ())).Files b (.seek_end path) (some file_size) →
      Fits file_size := fun _ _ file_size known => known file_size rfl
  have carried : ∀ b path,
      ¬(measured own).Files b (.seek_end path) (some Config.MAX_FILE_SIZE) := fun _ _ known => known rfl
  have kept : ∀ b path answer, b.scene.command = some Message.DELETE_REQUEST.byte →
      (obliging (.key ())).Files b (.ifstream_open path) answer → answer = true :=
    fun _ _ _ request known => known request
  have same := Nat.le_refl rounds
  have more := Nat.le_succ rounds
  unfold Client.operate
  split
  · simp only [Code.bind_assoc]
    apply invoked
    apply list rfl name (fun _ _ _ known => known) fun _ _ _ known => known
    intro m_counter key b b'
    exact report (again rounds same m_counter key b b')
  · simp only [Code.bind_assoc]
    apply named (again _ more m_counter key b b')
    intro filename valid
    simp only [Code.bind_assoc]
    apply invoked
    apply download rfl name valid
      (fun _ _ _ known unfit => absurd (fits _ _ _ known) unfit) quits (absurd tells)
    intro code _ _ _ after after' _ _ left enough m_counter key
    exact report (again left enough m_counter key after after')
  · simp only [Code.bind_assoc]
    apply named (again _ more m_counter key b b')
    intro filename valid
    simp only [Code.bind_assoc]
    apply invoked
    apply upload rfl name valid carried
    intro code _ _ _ after after' _ _ left enough m_counter key
    exact report (again left enough m_counter key after after')
  · simp only [Code.bind_assoc]
    apply named (again _ more m_counter key b b')
    intro old_file_name old
    simp only [Code.bind_assoc]
    apply named (again _ more m_counter key b b')
    intro new_file_name new
    simp only [Code.bind_assoc]
    apply invoked
    apply rename rfl name old new
    intro code m_counter key b b'
    exact report (again rounds same m_counter key b b')
  · simp only [Code.bind_assoc]
    apply named (again _ more m_counter key b b')
    intro filename valid
    simp only [Code.bind_assoc]
    rw [run_get]
    apply local_left (isFilePresent_filed calm_left _)
    intro present _ _ _
    cases present with
    | false => exact again _ more m_counter key _ b'
    | true =>
        rw [if_neg (not_not.mpr rfl), Code.bind_assoc]
        apply invoked
        apply delete rfl name valid kept fun _ _ _ known => known
        intro code m_counter key b b'
        exact report (again rounds same m_counter key b b')
  · simp only [Code.bind_assoc]
    apply invoked
    apply logout rfl name
    intro s t b b'
    exact report (over_ 0 s t b b')
  · simp only [Code.bind_assoc]
    apply invoked
    apply logout rfl name
    intro s t b b'
    exact report (over_ 1 s t b b')
  · exact again _ more m_counter key b b'

end Menu

/-- The client has come to its end. -/
def Finished (c : Pair C H J α β) : Prop := ∃ value, c.left = .done value

section Menu
variable {kS : Except Thrown Unit × Session octets → Program Op Op.Ans β} {username : Bytes}

/-- The client comes to its menu: both are at the top of their loops. -/
theorem menu {own : KeyFile Unit} {n left : Nat} (quits : ∀ e t, ∃ value, kS (.error e, t) = .done value)
    (enough : n ≤ left) (name : FileManager.isStringValid username = true) {m_counter : UInt32}
    {key : Bytes} {b b' : Bench} :
    Waiting (Finished (C := C) (H := measured own) (J := obliging (.key ()))) host kS
      ((Client.menu host n ⟨username, m_counter, key⟩).bind Lockstep.reports) left
      ⟨username, m_counter, key⟩ b b' := by
  induction n generalizing left m_counter key b b' with
  | zero => exact closed ⟨_, rfl⟩
  | succ n ih =>
      obtain ⟨left, rfl⟩ : ∃ rest, left = rest + 1 := ⟨left - 1, by omega⟩
      rw [Client.menu, run_get]
      apply ask_left rfl rfl
      intro _ _
      apply ask_left rfl rfl
      intro choice _
      apply operate quits name
      · intro left' more m_counter key b b'
        exact ih (Nat.le_trans (Nat.le_of_succ_le_succ enough) more)
      · intro code s t b b'
        exact closed ⟨_, rfl⟩

end Menu

/-- Both programs before their first call. -/
def opening (C : Crypto) (H J : Habit) (host : Endian) (rounds : Nat) (s t : Session octets)
    (b b' : Bench) : Pair C H J (Option Int) Unit :=
  ⟨Client.run host rounds s, Server.run host (rounds + 1) t, b, b', [], []⟩

/-- The program waits in `receive` for more bytes than have come. -/
def Blocked (p : Program Op Op.Ans α) (arrived : Bytes) : Prop :=
  ∃ size next, p = .call (.receive size) next ∧ arrived.length < size

/-- The client waits for a server that has returned. -/
theorem stopped {p : Program Op Op.Ans α} {q : Program Op Op.Ans β} (waits : Blocked p [])
    (returned : ∃ value, q = .done value) (ends_ : ends ⟨p, q, b, b', [], []⟩) :
    At ends p q b b' := by
  obtain ⟨size, next, rfl, few⟩ := waits
  obtain ⟨value, rfl⟩ := returned
  apply Link.Good.stop trivial trivial
  · rintro ⟨_, _, ⟨⟩, enough⟩
    exact absurd enough (Nat.not_le.mpr few)
  · rintro ⟨_, _, ⟨⟩, -⟩
  · exact fun resting => resting.elim
  · exact ends_

section Login
variable {s t : Session octets} {username : Bytes}

/-- Bytes that go over the wire and the filler among them. -/
def OnWire : Op → Prop
  | .send _ | .receive _ | .random _ => True
  | _ => False

theorem onWire_fileFree (op : Op) (isOnWire : OnWire op) : FileFree op := by
  cases op with
  | file call => exact isOnWire
  | note remark => exact isOnWire.elim
  | _ => trivial

/-- A client that does not get through its login leaves the server waiting for M1. -/
theorem unconnected {value : Option Int} {rounds : Nat} :
    At (Finished (C := C) (H := H) (J := J)) (.done value) (Server.run host rounds t) b b' := by
  apply Link.Good.stop trivial trivial
  · rintro ⟨_, _, ⟨⟩, -⟩
  · rintro ⟨_, _, ⟨⟩, enough⟩
    exact absurd enough (Nat.not_succ_le_zero _)
  · exact fun resting => resting.elim
  · exact ⟨value, rfl⟩

section Refused
variable {kC : Except Thrown γ × Session octets → Program Op Op.Ans α}
  {kS : Except Thrown δ × Session octets → Program Op Op.Ans β}
  {left : Program Op Op.Ans α} {right : Program Op Op.Ans β}

theorem ssl_left {call : Ssl octets} {f : call.Ans → Auth octets γ}
    (next : ∀ answer, Answers C H .client b (.ssl call) [] answer →
      At ends ((Auth.onWire (f answer) s).bind kC) right b b') :
    At ends ((Auth.onWire (Negotiation.ssl call >>= f) s).bind kC) right b b' :=
  Link.Good.call_left (carefree ends) rfl rfl next

theorem ssl_right {call : Ssl octets} {f : call.Ans → Auth octets δ}
    (next : ∀ answer, Answers C J .server b' (.ssl call) [] answer →
      At ends left ((Auth.onWire (f answer) t).bind kS) b b') :
    At ends left ((Auth.onWire (Negotiation.ssl call >>= f) t).bind kS) b b' :=
  Link.Good.call_right (carefree ends) rfl rfl next

theorem exchange_m1 {m : AuthenticationM1 octets} {f : Int → Auth octets γ}
    {g : Int × AuthenticationM1 octets → Auth octets δ} (formed : m.WellFormed)
    (next : ∀ memory memory', At ends ((Auth.onWire (f 0) s).bind kC)
      ((Auth.onWire (g (0, m)) t).bind kS) (b.forget memory) (b'.forget memory')) :
    At ends ((Auth.onWire (Negotiation.ask (.sendM1 m) >>= f) s).bind kC)
      ((Auth.onWire (Negotiation.ask .receiveM1 >>= g) t).bind kS) b b' := by
  have ahead : Link.Good
      (Lockstep.pact (Leaves (C := C) fun sent u received v =>
        (sent = 0 ∧ u = s) ∧ received = (0, m) ∧ v = t))
      ⟨(Auth.onWire (Negotiation.ask (.sendM1 m) >>= pure) s).bind .done,
        (Auth.onWire (Negotiation.ask .receiveM1 >>= pure) t).bind .done, Party.busy (),
        Party.busy (), [], []⟩ :=
    Lockstep.exchange_m1 formed (left_off rfl rfl rfl ⟨⟨rfl, rfl⟩, rfl, rfl⟩)
  rw [Auth.onWire_ask, Auth.onWire_ask] at ahead ⊢
  apply both onWire_fileFree (fun _ isQuiet => isQuiet.elim) _ _ _ ahead
  · rintro _ _ _ _ memory memory' ⟨⟨rfl, rfl⟩, rfl, rfl⟩
    exact next memory memory'
  · exact fun _ _ _ _ _ => ⟨trivial, trivial⟩
  · exact fun _ _ _ _ _ => ⟨trivial, trivial⟩

theorem exchange_m2 {message_code : UInt8} {f : Int × UInt8 → Auth octets γ}
    {g : Int → Auth octets δ}
    (next : ∀ memory memory', At ends ((Auth.onWire (f (0, message_code)) s).bind kC)
      ((Auth.onWire (g 0) t).bind kS) (b.forget memory) (b'.forget memory')) :
    At ends ((Auth.onWire (Negotiation.ask .receiveM2 >>= f) s).bind kC)
      ((Auth.onWire (Negotiation.ask (.sendM2 message_code) >>= g) t).bind kS) b b' := by
  have ahead : Link.Good
      (Lockstep.pact (Leaves (C := C) fun received u sent v =>
        (received = (0, message_code) ∧ u = s) ∧ sent = 0 ∧ v = t))
      ⟨(Auth.onWire (Negotiation.ask .receiveM2 >>= pure) s).bind .done,
        (Auth.onWire (Negotiation.ask (.sendM2 message_code) >>= pure) t).bind .done,
        Party.busy (), Party.busy (), [], []⟩ :=
    Lockstep.exchange_m2 (left_off rfl rfl rfl ⟨⟨rfl, rfl⟩, rfl, rfl⟩)
  rw [Auth.onWire_ask, Auth.onWire_ask] at ahead ⊢
  apply both onWire_fileFree (fun _ isQuiet => isQuiet.elim) _ _ _ ahead
  · rintro _ _ _ _ memory memory' ⟨⟨rfl, rfl⟩, rfl, rfl⟩
    exact next memory memory'
  · exact fun _ _ _ _ _ => ⟨trivial, trivial⟩
  · exact fun _ _ _ _ _ => ⟨trivial, fun _ _ _ _ => ⟨trivial, trivial⟩⟩

/-- M1, and what the server makes of the key file of the user. -/
theorem introduced {kC : Except Thrown Nat × Session octets → Program Op Op.Ans α}
    {kS : Except Thrown Nat × Session octets → Program Op Op.Ans β}
    (name : FileManager.isStringValid username = true) {m_counter : UInt32} {key : Bytes}
    (next : ∀ (answered : Int × UInt8 → Auth octets Nat) (sought : KeyFile Bytes → Auth octets Nat)
      found memory memory', found = J.found C .server →
      (∀ code, code ≠ Result.ACK.byte →
        answered (0, code) = pure Error.USERNAME_NOT_FOUND.val) →
      sought .missing = pure Return.AUTHENTICATION_FAILURE.val →
      (sought .unreadable = do
        modify fun s => { s with m_username := username }
        let sent ← Negotiation.ask (.sendM2 Result.NACK.byte)
        if sent = -1 then return Return.SEND_FAILURE.val
        return Error.USERNAME_NOT_FOUND.val) →
      At ends
        ((Auth.onWire (Negotiation.ask .receiveM2 >>= answered) ⟨username, m_counter, key⟩).bind kC)
        ((Auth.onWire (sought found) t).bind kS) (b.forget memory)
        (b'.forget memory')) :
    At ends
      ((Auth.onWire (Client.authenticationRequest host) ⟨username, m_counter, key⟩).bind kC)
      ((Auth.onWire (Server.authenticationRequest host) t).bind kS) b b' := by
  obtain ⟨clean, short⟩ := FileManager.clean_of_valid name
  apply ssl_left
  intro exponent _
  apply ssl_left
  rintro _ rfl
  apply exchange_m1 (AuthenticationM1.formed_ofKey username (C.text_fits exponent))
  intro memory memory'
  have named : Negotiation.usernameText
      (AuthenticationM1.ofKey (P := octets) (C.publicText exponent) username).m_username =
        (pure username : Auth octets Bytes) :=
    (Negotiation.usernameText_terminated (mem_strncpy short)).trans
      (congrArg pure (cPrefix_strncpy clean short))
  rw [if_neg Lockstep.sent_fine]
  dsimp only
  rw [if_neg Lockstep.result_fine, named, Code.pure_bind]
  apply ssl_right
  intro found known
  apply next _ _ found memory memory' known
  · intro code differs
    exact if_pos differs
  · rfl
  · rfl

/-- A user whose key cannot be read is told so. -/
theorem turned_down {f : Nat → Method γ} {g : Nat → Method δ}
    (unreadable : J.keyFile = .unreadable) (name : FileManager.isStringValid username = true)
    {m_counter : UInt32} {key : Bytes}
    (next : ∀ u b b', At ends
      ((f Error.USERNAME_NOT_FOUND.val ⟨username, m_counter, key⟩).bind kC)
      ((g Error.USERNAME_NOT_FOUND.val u).bind kS) b b') :
    At ends (((Client.authenticate host >>= f) ⟨username, m_counter, key⟩).bind kC)
      (((Server.authenticate host >>= g) t).bind kS) b b' := by
  rw [Client.authenticate, Server.authenticate, Code.bind_assoc, Code.bind_assoc, run_bind,
    run_bind, Program.bind_assoc, Program.bind_assoc]
  apply introduced name
  intro answered sought found _ _ known refused _ told
  rw [Habit.found, unreadable] at known
  rw [known, told]
  apply exchange_m2
  intro _ _
  rw [refused _ (by decide)]
  exact next _ _ _

/-- A user whose key file is missing is told nothing: the server returns, the client waits
for M2. -/
theorem unanswered {f : Nat → Method γ} {g : Nat → Method δ} (missing : J.keyFile = .missing)
    (name : FileManager.isStringValid username = true) {m_counter : UInt32} {key : Bytes}
    (returns : ∀ u, ∃ value, (g Return.AUTHENTICATION_FAILURE.val u).bind kS = .done value)
    (ends_ : ∀ c : Pair C H J α β, Blocked c.left c.toLeft → (∃ value, c.right = .done value) →
      c.toLeft = [] → c.toRight = [] → ends c) :
    At ends (((Client.authenticate host >>= f) ⟨username, m_counter, key⟩).bind kC)
      (((Server.authenticate host >>= g) t).bind kS) b b' := by
  rw [Client.authenticate, Server.authenticate, Code.bind_assoc, Code.bind_assoc, run_bind,
    run_bind, Program.bind_assoc, Program.bind_assoc]
  apply introduced name
  intro answered sought found _ _ known _ told _
  rw [Habit.found, missing] at known
  rw [known, told]
  have few : ([] : Bytes).length < SimpleMessage.getMessageSize := by decide
  apply stopped ⟨_, _, rfl, few⟩ (returns t)
  exact ends_ _ ⟨_, _, rfl, few⟩ (returns t) rfl rfl

end Refused

theorem session {own keyFile : KeyFile Unit} {rounds : Nat} (known : keyFile ≠ .missing) :
    Link.Good (pact Finished) (opening C (measured own) (obliging keyFile) host rounds s t b b') := by
  have quits : ∀ e t, ∃ value, (fun _ : Except Thrown Unit × Session octets =>
      (.done () : Program Op Op.Ans Unit)) (.error e, t) = .done value := fun _ _ => ⟨_, rfl⟩
  rw [opening, Lockstep.run_eq, Client.session, Client.login]
  simp only [Code.bind_assoc]
  apply ask_left rfl rfl
  intro m_username _
  rw [run_modify]
  apply ask_left rfl rfl
  intro password _
  by_cases refused : ¬FileManager.isStringValid m_username = true ∨
      ¬FileManager.isStringValid password = true
  · rw [if_pos refused]
    exact unconnected
  rw [if_neg refused]
  have name : FileManager.isStringValid m_username = true := by
    by_cases valid : FileManager.isStringValid m_username = true
    · exact valid
    · exact absurd (.inl valid) refused
  simp only [Code.bind_assoc]
  apply ask_left rfl rfl
  intro found _
  cases found with
  | missing => exact unconnected
  | unreadable => exact unconnected
  | key =>
      apply ask_left rfl rfl
      intro connected _
      cases connected with
      | false => exact unconnected
      | true =>
          rw [if_neg (not_not.mpr rfl), Server.run, Server.session]
          cases keyFile with
          | missing => exact absurd rfl known
          | unreadable =>
              apply turned_down rfl name
              intro u b b'
              rw [if_pos (by decide), if_pos (by decide)]
              apply Link.Good.stop trivial trivial
              · rintro ⟨_, _, ⟨⟩, -⟩
              · rintro ⟨_, _, ⟨⟩, -⟩
              · exact fun resting => resting.elim
              · exact ⟨_, rfl⟩
          | key =>
              apply authenticate rfl name
              intro key _ _
              rw [if_neg (not_not.mpr rfl), if_neg (not_not.mpr rfl)]
              apply settle
              exact menu quits (Nat.le_refl _) name

end Login
/-- The client waits, the server waits too or has returned, and nothing is in flight. -/
structure Standstill (c : Pair C H J α β) : Prop where
  left : Blocked c.left c.toLeft
  right : Blocked c.right c.toRight ∨ ∃ value, c.right = .done value
  toLeft : c.toLeft = []
  toRight : c.toRight = []

theorem Standstill.stuck {c : Pair C H J α β} (standstill : Standstill c) :
    ¬Link.CanLeft c ∧ ¬Link.CanRight c := by
  obtain ⟨left, right, -, -⟩ := standstill
  constructor
  · obtain ⟨size, next, waits, few⟩ := left
    rintro ⟨op, later, calls, enough⟩
    rw [waits] at calls
    injection calls with same
    subst same
    exact absurd enough (Nat.not_le.mpr few)
  · rintro ⟨op, later, calls, enough⟩
    change c.right = .call op later at calls
    cases right with
    | inl blocked =>
        obtain ⟨size, next, waits, few⟩ := blocked
        rw [waits] at calls
        injection calls with same
        subst same
        exact absurd enough (Nat.not_le.mpr few)
    | inr returned =>
        obtain ⟨value, ended⟩ := returned
        rw [ended] at calls
        exact nomatch calls

/-- The same state between machines of other habits. -/
def recast {H' J' : Habit} (c : Pair C H J α β) : Pair C H' J' α β :=
  ⟨c.left, c.right, c.here, c.there, c.toLeft, c.toRight⟩

theorem answers_only {role : Role} {keep : Entry → Prop}
    (possible : ∀ scene call, ∃ answer, keep ⟨scene, call, answer⟩) {op : Op} {arrived : Bytes}
    {answer : op.Ans} (answers : Answers C H role b op arrived answer)
    (kept : ∀ entry ∈ (b.next op answer).diary, keep entry) :
    Answers C (.only keep possible H.keyFile) role b op arrived answer := by
  cases op with
  | file call => exact kept _ (List.mem_append_right _ (List.mem_singleton.mpr rfl))
  | ssl call =>
      cases call with
      | readPublicKey path =>
          cases role with
          | client => exact answers
          | server => exact answers
      | _ => exact answers
  | _ => exact answers

theorem next_kept {role : Role} {keep : Entry → Prop} {keyFile : KeyFile Unit}
    {possible : ∀ scene call, ∃ answer, keep ⟨scene, call, answer⟩} {op : Op} {arrived : Bytes}
    {answer : op.Ans} (answers : Answers C (.only keep possible keyFile) role b op arrived answer)
    (kept : ∀ entry ∈ b.diary, keep entry) : ∀ entry ∈ (b.next op answer).diary, keep entry := by
  cases op with
  | file call =>
      intro entry member
      cases List.mem_append.mp member with
      | inl old => exact kept entry old
      | inr new =>
          obtain rfl := List.mem_singleton.mp new
          exact answers
  | note remark =>
      cases remark with
      | _ => exact kept
  | _ => exact kept

theorem next_grows {op : Op} {answer : op.Ans} : b.diary <+: (b.next op answer).diary := by
  cases op with
  | file call => exact List.prefix_append ..
  | note remark =>
      cases remark with
      | _ => exact List.prefix_rfl
  | _ => exact List.prefix_rfl

section Kept
variable {keep keep' : Entry → Prop} {possible : ∀ scene call, ∃ answer, keep ⟨scene, call, answer⟩}
  {possible' : ∀ scene call, ∃ answer, keep' ⟨scene, call, answer⟩} {c d : Pair C H J α β}

theorem step_grows (step : Link.Step c d) :
    c.here.diary <+: d.here.diary ∧ c.there.diary <+: d.there.diary := by
  cases step with
  | left step =>
      obtain ⟨op, next, answer, -, -, -, rfl⟩ := step
      exact ⟨next_grows, List.prefix_rfl⟩
  | right step =>
      obtain ⟨op, next, answer, -, -, -, moved⟩ := step
      obtain rfl : d = Link.swap _ := congrArg Link.swap moved
      exact ⟨List.prefix_rfl, next_grows⟩

theorem reaches_grows (run : Link.Reaches c d) :
    c.here.diary <+: d.here.diary ∧ c.there.diary <+: d.there.diary := by
  induction run with
  | refl => exact ⟨List.prefix_rfl, List.prefix_rfl⟩
  | next step _ ih =>
      obtain ⟨here, there⟩ := step_grows step
      exact ⟨here.trans ih.1, there.trans ih.2⟩

/-- A run whose answers are all of the kind is one between machines of that kind. -/
theorem recast_step (step : Link.Step c d) (kept : ∀ entry ∈ d.here.diary, keep entry)
    (kept' : ∀ entry ∈ d.there.diary, keep' entry) :
    Link.Step (recast c : Pair C (.only keep possible H.keyFile)
      (.only keep' possible' J.keyFile) α β) (recast d) := by
  cases step with
  | left step =>
      obtain ⟨op, next, answer, calls, enough, answers, rfl⟩ := step
      exact .left ⟨op, next, answer, calls, enough, answers_only possible answers kept, rfl⟩
  | right step =>
      obtain ⟨op, next, answer, calls, enough, answers, moved⟩ := step
      obtain rfl : d = Link.swap _ := congrArg Link.swap moved
      exact .right ⟨op, next, answer, calls, enough, answers_only possible' answers kept', rfl⟩

theorem recast_reaches (run : Link.Reaches c d) (kept : ∀ entry ∈ d.here.diary, keep entry)
    (kept' : ∀ entry ∈ d.there.diary, keep' entry) :
    Link.Reaches (recast c : Pair C (.only keep possible H.keyFile)
      (.only keep' possible' J.keyFile) α β) (recast d) := by
  induction run with
  | refl => exact .refl _
  | next step run ih =>
      obtain ⟨here, there⟩ := reaches_grows run
      refine .next (recast_step step ?_ ?_) (ih kept kept')
      · exact fun entry member => kept entry (here.subset member)
      · exact fun entry member => kept' entry (there.subset member)

/-- Between machines of one kind all answers are of that kind. -/
theorem reaches_kept {k k' : KeyFile Unit}
    {c d : Pair C (.only keep possible k) (.only keep' possible' k') α β}
    (run : Link.Reaches c d) (kept : ∀ entry ∈ c.here.diary, keep entry)
    (kept' : ∀ entry ∈ c.there.diary, keep' entry) :
    (∀ entry ∈ d.here.diary, keep entry) ∧ ∀ entry ∈ d.there.diary, keep' entry := by
  induction run with
  | refl => exact ⟨kept, kept'⟩
  | @next c d e step _ ih =>
      cases step with
      | left step =>
          obtain ⟨op, next, answer, -, -, answers, rfl⟩ := step
          exact ih (next_kept answers kept) kept'
      | right step =>
          obtain ⟨op, next, answer, -, -, answers, moved⟩ := step
          obtain rfl : d = Link.swap _ := congrArg Link.swap moved
          exact ih kept (next_kept answers kept')

end Kept

/-- Whatever the files of both sides may do: where the key file of the user is not missing, a
run in which the files answer so that every handler has something to say never comes to a
standstill. -/
theorem never_standstill (C : Crypto) (H J : Habit) (host : Endian) (rounds : Nat)
    (s t : Session octets) (b b' : Bench) (known : J.keyFile ≠ .missing)
    {c : Pair C H J (Option Int) Unit}
    (run : Link.Reaches (opening C H J host rounds s t b b') c)
    (measured_ : ∀ entry ∈ c.here.diary, entry.Measured)
    (obliging_ : ∀ entry ∈ c.there.diary, entry.Obliging) : ¬Standstill c := by
  intro standstill
  have recast_ : Link.Reaches
      (opening C (measured H.keyFile) (obliging J.keyFile) host rounds s t b b') (recast c) :=
    recast_reaches run measured_ obliging_
  obtain ⟨left, right⟩ := standstill.stuck
  obtain ⟨value, ended⟩ := ((session known).reaches recast_).ends left right
  obtain ⟨size, next, waits, -⟩ := standstill.left
  exact nomatch waits.symm.trans ended

section Sample

/-- Machines whose files may do anything. -/
abbrev anything (keyFile : KeyFile Unit) : Habit :=
  .only (fun _ => True) (fun scene call => (measured_possible scene call).imp fun _ _ => trivial)
    keyFile

def start : Bench := ⟨⟨none, []⟩, []⟩

/-- A directory of one file. -/
def shelved : (call : FileCall) → call.Ans
  | .ifstream_open _ | .ofstream_open _ => true
  | .seek_end _ => some 2
  | .read _ _ _ => [1, 2]
  | .write _ _ => ()
  | .exists_ _ | .is_regular_file _ => some true
  | .is_symlink _ => some false
  | .directory_iterator _ => some [ascii "notes.txt"]
  | .rename _ _ | .remove _ => 0

theorem shelved_measured (scene : Scene) (call : FileCall) :
    Entry.Measured ⟨scene, call, shelved call⟩ := by
  cases call with
  | seek_end path => exact (by decide : some 2 ≠ some Config.MAX_FILE_SIZE)
  | _ => trivial

theorem shelved_obliging (scene : Scene) (call : FileCall) :
    Entry.Obliging ⟨scene, call, shelved call⟩ := by
  cases call with
  | seek_end path =>
      rintro _ ⟨⟩
      exact .inl (by decide)
  | ifstream_open path => exact fun _ => rfl
  | directory_iterator path => exact ⟨_, rfl, by decide⟩
  | exists_ path | is_regular_file path | is_symlink path | remove path => rfl
  | _ => trivial

/-- Luca at a machine with these files. -/
def clerk (role : Role) {keep : Entry → Prop}
    {possible : ∀ scene call, ∃ answer, keep ⟨scene, call, answer⟩}
    (keeps : ∀ scene call, keep ⟨scene, call, shelved call⟩) :
    (loose Sample.crypto (.only keep possible (.key ())) role).Clerk where
  reply _ := Sample.reply role (ascii "luca") shelved
  answers b op arrived := by
    have usual := Sample.reply_answers (m := (Party.busy () : Machine blank)) (ascii "luca")
      (fun _ _ ordered => ⟨Nat.le_refl _, ordered⟩) (fun _ _ => nofun) role op arrived
    cases op with
    | file call => exact keeps b.scene call
    | ssl call =>
        cases call with
        | readPublicKey path => cases role <;> rfl
        | _ => exact usual
    | _ => exact usual

/-- Luca logs in, lists the directory and leaves. -/
def visit : Pair Sample.crypto (measured (.key ())) (obliging (.key ())) (Option Int) Unit :=
  opening _ _ _ .little 1 ⟨[], 0, []⟩ ⟨[], 0, []⟩ start start

def visited : Pair Sample.crypto (measured (.key ())) (obliging (.key ())) (Option Int) Unit :=
  visit.play (clerk .client shelved_measured) (clerk .server shelved_obliging) 100

/-- The directory is listed, and then neither side can go on. -/
theorem never_standstill_sample :
    Link.Reaches visit visited ∧ visited.there.diary.map Entry.call =
        [.exists_ (ascii "../data/luca"), .directory_iterator (ascii "../data/luca")] ∧
      ¬Link.CanLeft visited ∧ ¬Link.CanRight visited ∧ ¬Standstill visited := by
  have run : Link.Reaches visit visited := Link.play_reaches 100 _
  have calls : visited.there.diary.map Entry.call =
      [.exists_ (ascii "../data/luca"), .directory_iterator (ascii "../data/luca")] := by
    decide +kernel
  have ended : (visited.turn (clerk .client shelved_measured)
      (clerk .server shelved_obliging)).isNone = true := by decide +kernel
  obtain ⟨left, right⟩ := Link.turn_none (Option.isNone_iff_eq_none.mp ended)
  -- from here on it does not matter which run it is
  generalize visited = c at run calls left right ⊢
  obtain ⟨kept, kept'⟩ := reaches_kept run (List.forall_mem_nil _) (List.forall_mem_nil _)
  have known : KeyFile.key () ≠ .missing := nofun
  exact ⟨run, calls, left, right, never_standstill _ _ _ _ _ _ _ _ _ known run kept kept'⟩

/-- The server knows no key of the user who logs in. -/
theorem unknown_user_standstill :
    ∃ c : Pair Sample.crypto (anything (.key ())) (anything .missing) (Option Int) Unit,
      Link.Reaches (opening _ _ _ .little 10 ⟨[], 0, []⟩ ⟨[], 0, []⟩ start start) c ∧
        Standstill c := by
  have name : FileManager.isStringValid (ascii "luca") = true := by decide
  have good : Link.Good (pact Standstill)
      (⟨(((Client.authenticate .little >>= fun result =>
            if result ≠ Return.AUTHENTICATION_SUCCESS.val then pure (some (-1))
            else Client.menu .little 10) : Method (Option Int)) ⟨ascii "luca", 0, []⟩).bind
          Lockstep.reports, Server.run .little 11 ⟨[], 0, []⟩, start, start, [], []⟩ :
        Pair Sample.crypto (anything (.key ())) (anything .missing) (Option Int) Unit) :=
    unanswered rfl name (fun _ => ⟨_, rfl⟩) fun _ waits returned toLeft toRight =>
      ⟨waits, .inr returned, toLeft, toRight⟩
  obtain ⟨c, run, left, right⟩ := good.halts
  refine ⟨c, ?_, (good.reaches run).ends left right⟩
  refine .next (.left ⟨.getline, _, ascii "luca", rfl, Nat.zero_le _, fun _ => nofun, rfl⟩) ?_
  refine .next (.left ⟨.getline, _, ascii "luca", rfl, Nat.zero_le _, fun _ => nofun, rfl⟩) ?_
  refine .next (.left ⟨.unlock _ _, _, .key (), rfl, Nat.zero_le _, trivial, rfl⟩) ?_
  refine .next (.left ⟨.connect, _, true, rfl, Nat.zero_le _, trivial, rfl⟩) ?_
  exact run

end Sample

end Loose
end CloudStorage
