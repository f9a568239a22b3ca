import CloudStorage.Server.Binding

/-! A takeover of a request: Luca lists his files until the counter is about to wrap and
asks for a deletion; Francesco logs in when the counter has wrapped and confirms it. -/
namespace CloudStorage
open Interaction Code Method
namespace Server
open Rehearsal

namespace Takeover

def host : Endian := .little

def luca : Bytes := ascii "Luca"

def francesco : Bytes := ascii "Francesco"

/-- Luca's session at a counter. -/
def sessionAt (counter : UInt32) : Session octets := ⟨luca, counter, sampleKey⟩

def deletion : Bytes := packet (8 :: strncpy (ascii "notes.txt") Config.FILE_NAME_LEN)

def otherKey : Bytes := List.replicate Config.AES_KEY_LEN 6

/-- Luca's deletion, the login of Francesco and his confirmation. -/
def lastScene : Scene where
  inbox := [frame sampleKey (Config.MAX_COUNTER_VALUE - 1) deletion] ++
    login host francesco otherKey ++ [frame otherKey 0 (packet [10])]
  keys := [otherKey]
  present := []

def listing : Bytes := packet [11]

/-- One list request at the counter; the directory is empty. -/
def listScene (counter : UInt32) : Scene where
  inbox := [frame sampleKey counter listing]
  keys := []
  present := []

abbrev observer := Binding.lenient host sampleDirectory

/-- After a login of Luca. -/
def loggedIn : Binding := ⟨some (luca, []), some luca, some luca, none, false, false, []⟩

/-- During a list request of Luca, before and after the directory is read. -/
def listedTo (touched : Bool) : Binding :=
  ⟨some (luca, []), some luca, some luca, some luca, true, touched, listing⟩

/-- A list request is accepted whatever the counter is. -/
theorem list_received (counter : UInt32) {g : Binding}
    (start : g = loggedIn ∨ g = listedTo true) :
    ∃ trace, receiveCommand.Returns (sessionAt counter) trace (some listing)
        (sessionAt counter) ∧
      observer.LegalTrace g trace ∧
      observer.after g trace = listedTo false := by
  have opened : Generic.deserialize (frame sampleKey counter listing) Config.MAX_PACKET_SIZE = _ :=
    deserialize_frame rfl counter
  have executed := Program.execute_runs Scene.respond (receiveCommand (sessionAt counter))
    (listScene counter)
  have outcome : ((receiveCommand (sessionAt counter)).execute Scene.respond
      (listScene counter)).2 = (.ok (some listing), sessionAt counter) := by
    simp [receiveCommand, awaitCommand, openGeneric, opened, sessionAt, listScene, Program.execute,
      Scene.respond, Scene.ssl, run_bind, Code.run_pure, Code.get, note, ask, invoke, ssl]
  rw [outcome] at executed
  refine ⟨_, executed, ?_⟩
  have fields : nameFields host listing = [] := by decide +kernel
  rcases start with rfl | rfl
  · simp [receiveCommand, awaitCommand, openGeneric, opened, sessionAt, listScene, Program.execute,
      Scene.respond, Scene.ssl, run_bind, Code.run_pure, Code.get, note, ask, invoke, ssl,
      Monitor.LegalTrace, Monitor.after, Binding.proper, Binding.observe, loggedIn, listedTo,
      Request.namesGood, fields]
  · simp [receiveCommand, awaitCommand, openGeneric, opened, sessionAt, listScene, Program.execute,
      Scene.respond, Scene.ssl, run_bind, Code.run_pure, Code.get, note, ask, invoke, ssl,
      Monitor.LegalTrace, Monitor.after, Binding.proper, Binding.observe, listedTo,
      Request.namesGood, fields]

/-- It counts two steps, unless the counter wraps. -/
theorem list_answered {counter : UInt32} (first : counter ≠ Config.MAX_COUNTER_VALUE)
    (second : counter + 1 ≠ Config.MAX_COUNTER_VALUE) :
    ∃ trace, (dispatch host listing).Returns (sessionAt counter) trace ()
        (sessionAt (counter + 1 + 1)) ∧
      observer.LegalTrace (listedTo false) trace ∧
      observer.after (listedTo false) trace = listedTo true := by
  have command : listing.head?.getD 0 = 11 := rfl
  have handled : handler host 11 = some (listRequest host) := rfl
  have named : ascii "error" ≠ [] := by decide
  have executed := Program.execute_runs Scene.respond (dispatch host listing (sessionAt counter))
    (listScene counter)
  have outcome : ((dispatch host listing (sessionAt counter)).execute Scene.respond
      (listScene counter)).2 = (.ok (), sessionAt (counter + 1 + 1)) := by
    simp [dispatch, command, handled, listRequest, incrementCounter, FileManager.getFilesList,
      sendGeneric, encryptGeneric, sessionAt, listScene, first, second, named.symm,
      Program.execute, Scene.respond, Scene.ssl, Scene.file, run_bind, Code.run_pure, Code.get,
      Code.modify, note, ask, invoke, ssl, file, ListM2.getMessageSize]
  rw [outcome] at executed
  refine ⟨_, executed, ?_⟩
  simp [dispatch, command, handled, listRequest, incrementCounter, FileManager.getFilesList,
    sendGeneric, encryptGeneric, sessionAt, listScene, first, second, named.symm,
    Program.execute, Scene.respond, Scene.ssl, Scene.file, run_bind, Code.run_pure, Code.get,
    Code.modify, note, ask, invoke, ssl, file, ListM2.getMessageSize, Monitor.LegalTrace,
    Monitor.after, Binding.proper, Binding.observe, listedTo]

/-- From this counter on the session can still go wrong. -/
def Exposed (counter : UInt32) (g : Binding) : Prop :=
  ∃ rounds trace value, Runs (serve host rounds (sessionAt counter)) trace (some value) ∧
    observer.LegalTrace g trace ∧ ¬ observer.SafeTrace g trace

theorem Exposed.list {counter : UInt32} (first : counter ≠ Config.MAX_COUNTER_VALUE)
    (second : counter + 1 ≠ Config.MAX_COUNTER_VALUE) {g : Binding}
    (start : g = loggedIn ∨ g = listedTo true)
    (later : Exposed (counter + 1 + 1) (listedTo true)) : Exposed counter g := by
  obtain ⟨rounds, rest, result, run, legal, unsafe_⟩ := later
  obtain ⟨received, receives, receivedLegal, receivedTo⟩ := list_received counter start
  obtain ⟨answered, answers, answeredLegal, answeredTo⟩ := list_answered first second
  refine ⟨rounds + 1, received ++ (answered ++ rest), result, ?_, ?_, ?_⟩
  · exact Runs.bind receives (Runs.bind answers run)
  · refine Monitor.LegalTrace.append.mpr ⟨receivedLegal, ?_⟩
    rw [receivedTo]
    refine Monitor.LegalTrace.append.mpr ⟨answeredLegal, ?_⟩
    rw [answeredTo]
    exact legal
  · intro safe
    have second := (Monitor.SafeTrace.append.mp safe).2
    rw [receivedTo] at second
    have third := (Monitor.SafeTrace.append.mp second).2
    rw [answeredTo] at third
    exact unsafe_ third

/-- Francesco's login makes Luca's deletion one in the storage of Francesco. -/
theorem exposed_last : Exposed (Config.MAX_COUNTER_VALUE - 1) (listedTo true) :=
  ⟨1, _, _, Program.execute_runs Scene.respond _ lastScene, by decide +kernel,
    by decide +kernel⟩

/-- Any number of list requests before that changes nothing. -/
theorem exposed_before (rounds : Nat) (bound : 2 * rounds ≤ 2 ^ 32 - 4) :
    Exposed (2 ^ 32 - 2 - 2 * rounds).toUInt32 (listedTo true) := by
  induction rounds with
  | zero => exact exposed_last
  | succ rounds ih =>
      have value : ∀ k, k < 2 ^ 32 → k.toUInt32.toNat = k := fun k small =>
        UInt32.toNat_ofNat_of_lt' small
      have next : ∀ k, k + 1 < 2 ^ 32 → k.toUInt32 + 1 = (k + 1).toUInt32 := by
        intro k small
        apply UInt32.toNat_inj.mp
        rw [UInt32.toNat_add, value k (by omega), value (k + 1) small]
        exact Nat.mod_eq_of_lt small
      have below : ∀ k, k < 2 ^ 32 - 1 → k.toUInt32 ≠ Config.MAX_COUNTER_VALUE := by
        intro k small same
        have equal := congrArg UInt32.toNat same
        rw [value k (by omega)] at equal
        exact absurd equal (by change k ≠ 2 ^ 32 - 1; omega)
      obtain ⟨counter, top⟩ : ∃ counter, 2 ^ 32 - 2 - 2 * (rounds + 1) = counter := ⟨_, rfl⟩
      have after : 2 ^ 32 - 2 - 2 * rounds = counter + 1 + 1 := by omega
      have later := ih (by omega)
      rw [after, ← next _ (by omega), ← next _ (by omega)] at later
      rw [top]
      refine .list (below _ (by omega)) ?_ (.inr rfl) later
      rw [next _ (by omega)]
      exact below _ (by omega)

/-- Luca logs in and counts up from 0. -/
theorem exposed_first : Exposed 0 loggedIn := by
  have later := exposed_before (2 ^ 31 - 2) (by omega)
  exact .list (by decide) (by decide) (.inl rfl) later

def loginScene : Scene where
  inbox := login host luca sampleKey
  keys := [sampleKey]
  present := []

theorem luca_logs_in :
    ∃ trace, (authenticate host).Returns newcomer trace Return.AUTHENTICATION_SUCCESS.val
        (sessionAt 0) ∧
      observer.LegalTrace .start trace ∧ observer.after .start trace = loggedIn := by
  have executed := Program.execute_runs Scene.respond (authenticate host newcomer) loginScene
  have outcome : ((authenticate host newcomer).execute Scene.respond loginScene).2 =
      (.ok Return.AUTHENTICATION_SUCCESS.val, sessionAt 0) := by decide +kernel
  rw [outcome] at executed
  refine ⟨_, executed, by decide +kernel, by decide +kernel⟩

end Takeover

/-- Nobody asks who logs in when the counter wraps: a request of Luca deletes a file of
Francesco. -/
theorem request_changes_hands :
    ¬ ∀ (host : Endian) (cwd : List Bytes) (rounds : Nat) (s : Session octets)
      (trace : List (Event Op Op.Ans)) (result : Option Unit),
      Runs (run host rounds s) trace result →
        (Binding.lenient host cwd).LegalTrace .start trace →
          (Binding.lenient host cwd).SafeTrace .start trace := by
  intro claim
  obtain ⟨rounds, rest, result, run, legal, unsafe_⟩ := Takeover.exposed_first
  obtain ⟨login, logs, loginLegal, loggedIn⟩ := Takeover.luca_logs_in
  have served : Runs (session Takeover.host rounds newcomer) (login ++ rest) (some result) :=
    Runs.bind logs run
  have whole : Runs (Server.run Takeover.host rounds newcomer) ((login ++ rest) ++ []) (some ()) :=
    Runs.bind served (.done ())
  rw [List.append_nil] at whole
  have admitted : Takeover.observer.LegalTrace .start (login ++ rest) := by
    refine Monitor.LegalTrace.append.mpr ⟨loginLegal, ?_⟩
    rw [loggedIn]
    exact legal
  have safe := claim _ _ rounds _ _ _ whole admitted
  have second := (Monitor.SafeTrace.append.mp safe).2
  rw [loggedIn] at second
  exact unsafe_ second

end Server
end CloudStorage
