import CloudStorage.Session.Menu
import CloudStorage.Session.Sample

/-! One operation from two counters: wherever a re-authentication falls, the operation
returns and leaves what it does without one. -/
namespace CloudStorage
open Interaction Code Method Party

/-- An operation of the client with its names. -/
inductive Errand where
  | list
  | download (filename : Bytes)
  | upload (filename : Bytes)
  | rename (old_file_name new_file_name : Bytes)
  | delete (filename : Bytes)
  deriving DecidableEq, Repr

namespace Errand

def names : Errand → List Bytes
  | .list => []
  | .download filename | .upload filename | .delete filename => [filename]
  | .rename old_file_name new_file_name => [old_file_name, new_file_name]

def request (host : Endian) : Errand → Method Nat
  | .list => Client.listRequest host
  | .download filename => Client.downloadRequest host filename
  | .upload filename => Client.uploadRequest host filename
  | .rename old_file_name new_file_name => Client.renameRequest host old_file_name new_file_name
  | .delete filename => Client.deleteRequest host filename

end Errand

namespace Lockstep
variable {C : Crypto} {F G : Computer} {host : Endian}

/-- A client with one operation to do and a server at the start of its loop. -/
abbrev Trip (C : Crypto) (F G : Computer) :=
  Pair C F G (Except Thrown Nat × Session octets) (Except Thrown Unit × Session octets)

def departure (C : Crypto) (F G : Computer) (host : Endian) (rounds : Nat) (errand : Errand)
    (s : Session octets) (files : F.State) (storage : G.State) : Trip C F G :=
  ⟨errand.request host s, Server.serve host (rounds + 2) s, busy files, busy storage, [], []⟩

/-- The client has returned the code, the server is back at the top of its loop with the
same key and counter, and nothing is in flight. -/
structure Completed (code : Nat) (files : F.State) (storage : G.State) (c : Trip C F G) :
    Prop where
  returned : ∃ s, c.left = .done (.ok code, s) ∧
    c.there.idle = some (s.m_session_key, s.m_counter)
  here : c.here.files = files
  there : c.there.files = storage
  toLeft : c.toLeft = []
  toRight : c.toRight = []

/-- What an operation returns and leaves if it comes to its end. -/
def outcome (username : Bytes) (choice : Nat) (files : F.State) (storage : G.State) :
    Errand → Option (Nat × F.State × G.State)
  | .list =>
      let found := G.listing storage (storageDirectory username)
      if Listable found then some (Return.SUCCESS.val, files, storage) else none
  | .download filename =>
      let result := downloads files storage (Client.localPath filename)
        (storagePath username filename)
      some (result.1, result.2, storage)
  | .upload filename =>
      let result := uploads files storage (Client.localPath filename)
        (storagePath username filename)
      some (result.1, files, result.2)
  | .rename old_file_name new_file_name =>
      let result := G.renames storage (storagePath username old_file_name)
        (storagePath username new_file_name)
      some (renameCode result.1, files, result.2)
  | .delete filename =>
      if choice = 1 then
        (removes storage (storagePath username filename)).map (Return.SUCCESS.val, files, ·)
      else some (Return.NO_DELETE_CONFIRM.val, files, storage)

/-- A run that cannot go on has come to the outcome, or the client is still waiting. -/
def Arrived (result : Option (Nat × F.State × G.State)) (c : Trip C F G) : Prop :=
  match result with
  | some (code, files, storage) => Completed code files storage c
  | none => Unfinished c

section Errands
variable {files : F.State} {storage : G.State} {username key : Bytes} {m_counter : UInt32}
  {rounds : Nat}

/-- The client has returned while the server waits. -/
theorem back {ends : Trip C F G → Prop} {code left : Nat} {s : Session octets}
    (ends_ : ∀ c, Completed code files storage c → ends c) :
    Waiting ends host .done (((pure code : Method Nat) s).bind .done) left s files storage :=
  closed (ends_ _ ⟨⟨s, rfl, rfl⟩, rfl, rfl, rfl, rfl⟩)

/-- Every operation with its handler, in one rule. -/
theorem errand {γ α β : Type} {errand : Errand} {choice : Nat} {f : Nat → Method γ}
    {ends : Pair C F G α β → Prop} {kC : Except Thrown γ × Session octets → Program Op Op.Ans α}
    {kS : Except Thrown Unit × Session octets → Program Op Op.Ans β}
    (name : FileManager.isStringValid username = true)
    (names : ∀ filename ∈ errand.names, FileManager.isStringValid filename = true)
    (small : ∀ filename, errand = .download filename →
      G.downloadable storage (storagePath username filename) = true →
        (G.reader storage (storagePath username filename)).m_file_size < 2 ^ 32)
    (carried : ∀ filename, errand = .upload filename →
      F.present files (Client.localPath filename) = true →
        F.size files (Client.localPath filename) ≠ some Config.MAX_FILE_SIZE)
    (decision : ∀ c, F.chooses 1 2 c → c = choice)
    (stops : outcome username choice files storage errand = none →
      ∀ c : Pair C F G α β, Unfinished c → ends c)
    (next : ∀ code files' storage',
      outcome username choice files storage errand = some (code, files', storage') →
        ∀ left, rounds ≤ left → ∀ m_counter key,
          Waiting ends host kS ((f code ⟨username, m_counter, key⟩).bind kC) left
            ⟨username, m_counter, key⟩ files' storage') :
    Waiting ends host kS (((errand.request host >>= f) ⟨username, m_counter, key⟩).bind kC)
      (rounds + 1) ⟨username, m_counter, key⟩ files storage := by
  cases errand with
  | list =>
      rw [Errand.request, Client.listRequest]
      refine list name (fun unlistable => stops (if_neg unlistable)) fun listable => ?_
      exact next _ _ _ (if_pos listable) rounds (Nat.le_refl _)
  | download filename =>
      exact download name (names filename (List.mem_cons_self ..)) (small filename rfl) rfl
        (next _ _ _ rfl)
  | upload filename =>
      exact upload name (names filename (List.mem_cons_self ..)) (carried filename rfl) rfl
        (next _ _ _ rfl)
  | rename old_file_name new_file_name =>
      exact rename name (names old_file_name (List.mem_cons_self ..))
        (names new_file_name (List.mem_cons_of_mem _ (List.mem_cons_self ..))) rfl
        (next _ _ _ rfl rounds (Nat.le_refl _))
  | delete filename =>
      refine delete name (names filename (List.mem_cons_self ..)) ?_ ?_ ?_
      · intro confirmed kept
        refine stops ?_
        rw [outcome, if_pos (decision 1 confirmed).symm, kept]
        rfl
      · intro c chosen refused
        refine next _ _ _ (if_neg fun confirmed => ?_) rounds (Nat.le_refl _)
        exact refused ((decision _ chosen).trans confirmed)
      · intro confirmed storage' removed
        refine next _ _ _ ?_ rounds (Nat.le_refl _)
        rw [outcome, if_pos (decision 1 confirmed).symm, removed]
        rfl

theorem errand_arrives {errand : Errand} {choice : Nat}
    (name : FileManager.isStringValid username = true)
    (names : ∀ filename ∈ errand.names, FileManager.isStringValid filename = true)
    (small : Small storage)
    (carried : ∀ path, F.size files path ≠ some Config.MAX_FILE_SIZE)
    (decision : ∀ c, F.chooses 1 2 c → c = choice) :
    Link.Good (pact (Arrived (outcome username choice files storage errand)))
      (departure C F G host rounds errand ⟨username, m_counter, key⟩ files storage) := by
  have client : errand.request host ⟨username, m_counter, key⟩ =
      ((errand.request host >>= pure) ⟨username, m_counter, key⟩).bind .done := by
    rw [Code.bind_pure, Program.bind_done]
  have server : Server.serve host (rounds + 2) ⟨username, m_counter, key⟩ =
      (Server.serve host (rounds + 2) ⟨username, m_counter, key⟩).bind .done :=
    (Program.bind_done _).symm
  rw [departure, client, server]
  refine settle (Lockstep.errand name names (fun _ _ => reader_small small)
    (fun _ _ _ => carried _) decision ?_ ?_)
  · intro stops c unfinished
    rw [stops]
    exact unfinished
  · intro code files' storage' result _ _ _ _
    refine back fun c completed => ?_
    rw [result]
    exact completed

end Errands

/-- If an operation completes from the counter 0, then every run of it from any counter can
go on until it has completed with the same code and files on both sides. -/
theorem reauthentication_transparent (C : Crypto) (F G : Computer) (host : Endian) (rounds : Nat)
    (errand : Errand) (username : Bytes) (files : F.State) (storage : G.State) (choice : Nat)
    (name : FileManager.isStringValid username = true)
    (names : ∀ filename ∈ errand.names, FileManager.isStringValid filename = true)
    (small : ∀ length, G.Holds storage length → length < 2 ^ 32)
    (carried : ∀ path, F.size files path ≠ some Config.MAX_FILE_SIZE)
    (decision : ∀ c, F.chooses 1 2 c → c = choice) {key₀ : Bytes} {code : Nat}
    {files' : F.State} {storage' : G.State} {c : Trip C F G}
    (run : Link.Reaches
      (departure C F G host rounds errand ⟨username, 0, key₀⟩ files storage) c)
    (completed : Completed code files' storage' c) (m_counter : UInt32) (key : Bytes)
    {d : Trip C F G}
    (other : Link.Reaches
      (departure C F G host rounds errand ⟨username, m_counter, key⟩ files storage) d) :
    ∃ e, Link.Reaches d e ∧ Completed code files' storage' e := by
  have arrives : ∀ m_counter key, Link.Good _
      (departure C F G host rounds errand ⟨username, m_counter, key⟩ files storage) :=
    fun m_counter key => errand_arrives name names small carried decision
  have ended : Arrived (outcome username choice files storage errand) c := by
    obtain ⟨s, returned, idle⟩ := completed.returned
    refine ((arrives 0 key₀).reaches run).rested ?_ ?_ completed.toRight
    · rintro ⟨_, _, calls, -⟩
      exact nomatch returned.symm.trans calls
    · exact (congrArg Option.isSome idle).trans rfl
  obtain ⟨e, further, left, right⟩ := ((arrives m_counter key).reaches other).halts
  refine ⟨e, further, ?_⟩
  have arrived := (((arrives m_counter key).reaches other).reaches further).ends left right
  generalize outcome username choice files storage errand = result at ended arrived
  match result with
  | none =>
      obtain ⟨_, _, calls⟩ := ended
      obtain ⟨s, returned, -⟩ := completed.returned
      exact nomatch returned.symm.trans calls
  | some (code', files'', storage'') =>
      have same : code = code' ∧ files' = files'' ∧ storage' = storage'' := by
        obtain ⟨s, returned, -⟩ := completed.returned
        obtain ⟨s', returned', -⟩ := (show Completed code' files'' storage'' c from ended).returned
        have equal := returned.symm.trans returned'
        injection equal with equal
        injection equal with equal _
        injection equal with equal
        exact ⟨equal, completed.here.symm.trans ended.here, completed.there.symm.trans ended.there⟩
      obtain ⟨rfl, rfl, rfl⟩ := same
      exact arrived

/-- A rename whose first message needs a new key. -/
theorem rename_transparent :
    ∃ e, Link.Reaches (departure Sample.crypto Sample.computer Sample.computer .little 0
        (.rename (ascii "a") (ascii "b")) ⟨ascii "luca", Config.MAX_COUNTER_VALUE, []⟩ Sample.empty
        (Sample.single (ascii "../data/luca/a"))) e ∧
      Completed Return.SUCCESS.val Sample.empty (Sample.single (ascii "../data/luca/b")) e := by
  have name : FileManager.isStringValid (ascii "luca") = true := by decide
  have names : ∀ filename ∈ (Errand.rename (ascii "a") (ascii "b")).names,
      FileManager.isStringValid filename = true := by decide
  have carried : ∀ path, Sample.computer.size Sample.empty path ≠ some Config.MAX_FILE_SIZE :=
    fun _ => nofun
  have decision : ∀ c, Sample.computer.chooses 1 2 c → c = 1 := fun _ chosen => chosen
  have good : Link.Good _ (departure Sample.crypto Sample.computer Sample.computer .little 0
      (.rename (ascii "a") (ascii "b")) ⟨ascii "luca", 0, []⟩ Sample.empty
      (Sample.single (ascii "../data/luca/a"))) :=
    errand_arrives name names (fun _ => Sample.single_holds) carried decision
  obtain ⟨c, run, left, right⟩ := good.halts
  have result : outcome (ascii "luca") 1 Sample.empty (Sample.single (ascii "../data/luca/a"))
      (.rename (ascii "a") (ascii "b")) =
        some (Return.SUCCESS.val, Sample.empty, Sample.single (ascii "../data/luca/b")) := by
    rfl
  have arrived := (good.reaches run).ends left right
  rw [result] at arrived
  exact reauthentication_transparent _ _ _ _ _ _ _ _ _ 1 name names (fun _ => Sample.single_holds)
    carried decision run arrived _ _ (.refl _)

end Lockstep
end CloudStorage
