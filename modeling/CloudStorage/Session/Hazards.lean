import CloudStorage.Session.Unsteady

/-! Every operation of the client with its handler on the server over such files: as long
as the handler answers, the client comes to the end of its operation. -/
namespace CloudStorage
open Interaction Code Method

namespace Loose
open Lockstep (served handled)

variable {C : Crypto} {H J : Habit} {α β γ δ : Type} {ends : Pair C H J α β → Prop}
  {host : Endian} {b b' : Bench} {s t : Session octets} {rounds : Nat}
  {left : Program Op Op.Ans α} {right : Program Op Op.Ans β}
  {kC : Except Thrown γ × Session octets → Program Op Op.Ans α}

section Rules
variable {kS : Except Thrown δ × Session octets → Program Op Op.Ans β} {η : Type}

theorem local_left {c : Method η} {f : η → Method γ} {known : η → List Entry → Prop}
    (quiet : c.ensures
      ((loose C H .client).desk fun world => (pact ends).SafeLeft world ∧
        ¬(loose C H .client).Rests world)
      (Filed C H .client s b known) s ⟨b, [], []⟩)
    (next : ∀ answer entries, known answer entries →
      (∀ entry ∈ entries, H.Allows b.scene.command entry) →
      At ends ((f answer s).bind kC) right (b.wrote entries) b') :
    At ends (((c >>= f) s).bind kC) right b b' := by
  apply Link.Good.code_left trivial quiet
  rintro answer _ _ ⟨rfl, entries, holds, allowed, rfl⟩
  exact next answer entries holds allowed

theorem local_right {c : Method η} {f : η → Method δ} {known : η → List Entry → Prop}
    (quiet : c.ensures ((loose C J .server).desk (pact ends).SafeRight)
      (Filed C J .server t b' known) t ⟨b', [], []⟩)
    (next : ∀ answer entries, known answer entries →
      (∀ entry ∈ entries, J.Allows b'.scene.command entry) →
      At ends left ((f answer t).bind kS) b (b'.wrote entries)) :
    At ends left (((c >>= f) t).bind kS) b b' := by
  apply Link.Good.code_right trivial quiet
  rintro answer _ _ ⟨rfl, entries, holds, allowed, rfl⟩
  exact next answer entries holds allowed

theorem calm_left (b : Bench) :
    (pact ends).SafeLeft b ∧ ¬(loose C H .client).Rests b := ⟨trivial, not_false⟩

theorem calm_right (b : Bench) : (pact ends).SafeRight b := trivial

end Rules

section Loop
variable {kS : Except Thrown Unit × Session octets → Program Op Op.Ans β}

/-- The server waits for a request. -/
abbrev Waiting (ends : Pair C H J α β → Prop) (host : Endian)
    (kS : Except Thrown Unit × Session octets → Program Op Op.Ans β) (left : Program Op Op.Ans α)
    (rounds : Nat) (s : Session octets) (b b' : Bench) : Prop :=
  At ends left (((Server.awaitCommand >>= served host rounds) s).bind kS) b b'

theorem settle (next : Waiting ends host kS left rounds s b b') :
    At ends left ((Server.serve host (rounds + 1) s).bind kS) b b' := by
  rw [Lockstep.serve_succ, Server.receiveCommand, Code.bind_assoc, run_get, Code.bind_assoc]
  apply ask_right rfl rfl
  intro _ _
  exact next

theorem leave {code : Nat} (next : Waiting ends host kS left rounds s b b') :
    At ends left ((handled host (rounds + 1) code s).bind kS) b b' := by
  apply ask_right rfl rfl
  intro _ _
  exact settle next

/-- The client has come to its end. -/
theorem closed {value : α}
    (ends_ : ends ⟨.done value, ((Server.awaitCommand >>= served host rounds) s).bind kS, b, b',
      [], []⟩) :
    Waiting ends host kS (.done value) rounds s b b' := by
  apply Link.Good.stop trivial trivial
  · rintro ⟨_, _, ⟨⟩, -⟩
  · rintro ⟨_, _, ⟨⟩, enough⟩
    exact absurd enough (by simp [Link.swap, Generic.getMessageSize, Config.MAX_PACKET_SIZE])
  · exact fun resting => resting.elim
  · exact ends_

variable (registered : J.keyFile = .key ())
include registered

/-- The first message of an operation. -/
theorem request {plaintext : Bytes} {f : Option Nat → Method γ} (handler : Bytes → Method Nat)
    (length : plaintext.length = Config.MAX_PACKET_SIZE)
    (known : Server.handler host (plaintext.headD 0) = some handler)
    (next : ∀ memory memory', At ends ((f none s).bind kC)
      (((handler plaintext >>= handled host rounds) s).bind kS) (b.forget memory)
      ((b'.forget memory').serving (plaintext.headD 0))) :
    Waiting ends host kS (((sendGeneric plaintext >>= f) s).bind kC) rounds s b b' := by
  apply both (fun _ isQuiet => isQuiet) (fun _ _ => registered)
    (fun failure u command v => failure = none ∧ u = s ∧ command = some plaintext ∧ v = s)
    confined_sendGeneric Server.confined_awaitCommand
    (Lockstep.to_command length (left_off rfl rfl rfl ⟨rfl, rfl, rfl, rfl⟩))
  rintro _ _ _ _ memory memory' ⟨rfl, rfl, rfl, rfl⟩
  rw [served, Server.dispatch, known, Code.bind_assoc]
  apply ask_right rfl rfl
  intro _ _
  rw [Code.bind_assoc]
  exact next memory memory'

variable {username key : Bytes} {m_counter : UInt32} {f : Nat → Method γ}

theorem list (name : FileManager.isStringValid username = true)
    (there : ∀ b path answer, J.Files b (.exists_ path) answer → answer = some true)
    (listable : ∀ b path answer, J.Files b (.directory_iterator path) answer → ∃ names,
      answer = some names ∧
        Lockstep.Listable (names.map (· ++ ascii ",")).flatten.dropLast)
    (next : ∀ m_counter key b b',
      Waiting ends host kS ((f Return.SUCCESS.val ⟨username, m_counter, key⟩).bind kC) rounds
        ⟨username, m_counter, key⟩ b b') :
    Waiting ends host kS (((Client.listRequest host >>= f) ⟨username, m_counter, key⟩).bind kC)
      (rounds + 1) ⟨username, m_counter, key⟩ b b' := by
  rw [Client.listRequest, Client.listRequestWith]
  simp only [sendSimple, Code.bind_assoc]
  apply ask_left rfl rfl
  intro filler length
  apply request registered (Server.listRequest host)
    (by simp [SimpleMessage.serialize, show filler.length = _ from length, fillerSize,
      Config.MAX_PACKET_SIZE]) rfl
  intro _ _
  simp only [Server.listRequest, Code.bind_assoc]
  apply increments registered name
  intro m_counter key _ _
  rw [run_get]
  apply local_right (getFilesList_filed calm_right _)
  intro found entries lists allowed
  obtain ⟨readable, sealable⟩ : Lockstep.Listable found := by
    cases lists with
    | missing answer absent =>
        obtain ⟨_, -, files⟩ := allowed _ (List.mem_cons_self ..)
        exact absurd (there _ _ answer files) absent
    | unreadable =>
        obtain ⟨_, -, files⟩ := allowed _ (List.mem_cons_of_mem _ (List.mem_cons_self ..))
        obtain ⟨names, known, -⟩ := listable _ _ none files
        cases known
    | listed names =>
        obtain ⟨_, -, files⟩ := allowed _ (List.mem_cons_of_mem _ (List.mem_cons_self ..))
        obtain ⟨_, ⟨⟩, fits⟩ := listable _ _ (some names) files
        exact fits
  rw [if_neg readable, Lockstep.listSize_eq, Code.bind_assoc]
  apply to_client registered (by rw [ListM2.serialize_length]; decide)
    (ListM2.serialize_length _ _)
  intro _ _
  dsimp only
  rw [ListM2.deserialize_serialize, Code.bind_assoc, Code.bind_assoc]
  apply increments registered name
  intro m_counter key _ _
  rw [ListM2.ofSize, if_neg (not_not.mpr rfl)]
  dsimp only
  by_cases empty : Lockstep.listSize found = 0
  · rw [if_pos empty, if_pos empty]
    exact leave (next m_counter key _ _)
  rw [if_neg empty, if_neg empty, Code.bind_assoc, Code.bind_assoc]
  have content := Lockstep.fileList_length found
  have length : (ListM3.ofList ((found ++ [0]).take
      (Lockstep.listSize found).toNat)).serialize.length =
      ListM3.getMessageSize (Lockstep.listSize found).toNat := by
    rw [Block.serialize_length, ListM3.getMessageSize, ListM3.ofList, content]
  apply to_client registered (length ▸ sealable) length
  intro _ _
  dsimp only
  rw [Code.bind_assoc, Code.bind_assoc]
  apply increments registered name
  intro m_counter key _ _
  have read := Block.deserialize_serialize
    (ListM3.ofList ((found ++ [0]).take (Lockstep.listSize found).toNat))
  rw [show (ListM3.ofList _).m_content = (found ++ [0]).take (Lockstep.listSize found).toNat
    from rfl, content] at read
  rw [read, ListM3.ofList, if_neg (not_not.mpr rfl)]
  exact leave (next m_counter key _ _)

theorem rename {old_file_name new_file_name : Bytes}
    (name : FileManager.isStringValid username = true)
    (old : FileManager.isStringValid old_file_name = true)
    (new : FileManager.isStringValid new_file_name = true)
    (next : ∀ code m_counter key b b',
      Waiting ends host kS ((f code ⟨username, m_counter, key⟩).bind kC) rounds
        ⟨username, m_counter, key⟩ b b') :
    Waiting ends host kS
      (((Client.renameRequest host old_file_name new_file_name >>= f)
        ⟨username, m_counter, key⟩).bind kC)
      (rounds + 1) ⟨username, m_counter, key⟩ b b' := by
  have oldLength := strncpy_length old_file_name Config.FILE_NAME_LEN
  have newLength := strncpy_length new_file_name Config.FILE_NAME_LEN
  have whole : (Rename.ofNames old_file_name new_file_name).serialize.length =
      Config.MAX_PACKET_SIZE := Rename.serialize_length oldLength newLength
  have read : Rename.deserialize (Rename.ofNames old_file_name new_file_name).serialize =
      Rename.ofNames old_file_name new_file_name := Rename.deserialize_serialize oldLength newLength
  rw [Client.renameRequest, Code.bind_assoc]
  apply request registered (Server.renameRequest host) whole rfl
  intro _ _
  rw [Server.renameRequest, read]
  simp only [Code.bind_assoc]
  apply increments registered name
  intro m_counter key _ _
  rw [run_get, Rename.ofNames]
  dsimp only
  rw [Lockstep.cString_name old, Code.pure_bind, Lockstep.cString_last new, Code.pure_bind]
  apply local_right (renameFile_filed calm_right _ _)
  intro message_code _ _ _
  apply simple_to_client registered
  intro filler _ _
  dsimp only
  rw [Code.bind_assoc, Code.bind_assoc]
  apply increments registered name
  intro m_counter key _ _
  rw [SimpleMessage.deserialize_serialize]
  apply leave
  dsimp only
  split_ifs
  all_goals exact next _ m_counter key _ _

/-- A deletion that is confirmed succeeds if the file is there and can be removed. -/
theorem delete {filename : Bytes} (name : FileManager.isStringValid username = true)
    (valid : FileManager.isStringValid filename = true)
    (there : ∀ b path answer, b.scene.command = some Message.DELETE_REQUEST.byte →
      J.Files b (.ifstream_open path) answer → answer = true)
    (removable : ∀ b path answer, J.Files b (.remove path) answer → answer = 0)
    (next : ∀ code m_counter key b b',
      Waiting ends host kS ((f code ⟨username, m_counter, key⟩).bind kC) rounds
        ⟨username, m_counter, key⟩ b b') :
    Waiting ends host kS
      (((Client.deleteRequest host filename >>= f) ⟨username, m_counter, key⟩).bind kC)
      (rounds + 1) ⟨username, m_counter, key⟩ b b' := by
  have width := strncpy_length filename Config.FILE_NAME_LEN
  rw [Client.deleteRequest, Code.bind_assoc]
  apply ask_left rfl rfl
  intro filler length
  have whole : ((Delete.ofName filename).serialize filler).length = Config.MAX_PACKET_SIZE :=
    NameRequest.serialize_length width length
  have read : NameRequest.deserialize ((Delete.ofName filename).serialize filler) =
      Delete.ofName filename := NameRequest.deserialize_serialize width
  rw [Code.bind_assoc]
  apply request registered (Server.deleteRequest host) whole rfl
  intro _ _
  dsimp only
  rw [Server.deleteRequest, read]
  simp only [Code.bind_assoc]
  apply increments registered name
  intro m_counter key _ _
  apply simple_to_client registered
  intro filler _ _
  dsimp only
  simp only [Code.bind_assoc]
  apply increments registered name
  intro m_counter key _ _
  rw [SimpleMessage.deserialize_serialize, if_neg (not_not.mpr rfl), Code.bind_assoc]
  apply ask_left rfl rfl
  intro choice _
  rw [Code.bind_assoc]
  apply simple_to_server registered
  intro filler _ _
  dsimp only
  simp only [Code.bind_assoc]
  apply increments registered name
  intro m_counter key _ _
  rw [SimpleMessage.deserialize_serialize]
  by_cases confirmed : choice = 1
  · subst confirmed
    rw [if_pos rfl, if_neg (by decide), if_neg (not_not.mpr rfl), Delete.ofName, NameRequest.ofName]
    dsimp only
    rw [Lockstep.cString_last valid, Code.pure_bind, Client.finishDelete]
    simp only [Code.bind_assoc]
    rw [run_get]
    apply local_right (isFilePresent_filed calm_right _)
    rintro present _ rfl allowed
    obtain ⟨_, request, files⟩ := allowed _ (List.mem_singleton.mpr rfl)
    obtain rfl := there _ _ present request files
    rw [if_neg (not_not.mpr rfl), Code.bind_assoc]
    apply local_right (filed_file calm_right _)
    rintro gone _ rfl allowed
    obtain ⟨_, -, files⟩ := allowed _ (List.mem_singleton.mpr rfl)
    obtain rfl := removable _ _ gone files
    rw [if_neg (not_not.mpr rfl), Code.bind_assoc]
    apply simple_to_client registered
    intro filler _ _
    dsimp only
    simp only [Code.bind_assoc]
    apply increments registered name
    intro m_counter key _ _
    rw [SimpleMessage.deserialize_serialize, if_neg (not_not.mpr rfl)]
    exact leave (next _ m_counter key _ _)
  · rw [if_neg confirmed, if_pos rfl, if_pos (by decide)]
    exact leave (next _ m_counter key _ _)

theorem logout (name : FileManager.isStringValid username = true)
    (next : ∀ s t b b', Waiting ends host kS ((f Return.SUCCESS.val s).bind kC) rounds t b b') :
    Waiting ends host kS (((Client.logoutRequest host >>= f) ⟨username, m_counter, key⟩).bind kC)
      (rounds + 1) ⟨username, m_counter, key⟩ b b' := by
  rw [Client.logoutRequest]
  simp only [sendSimple, Code.bind_assoc]
  apply ask_left rfl rfl
  intro filler length
  apply request registered (Server.logoutRequest host)
    (by simp [SimpleMessage.serialize, show filler.length = _ from length, fillerSize,
      Config.MAX_PACKET_SIZE]) rfl
  intro _ _
  simp only [Server.logoutRequest, Code.bind_assoc]
  apply increments registered name
  intro m_counter key _ _
  apply ask_right rfl rfl
  intro filler length
  have whole : (SimpleMessage.serialize ⟨Result.ACK.byte⟩ filler).length =
      SimpleMessage.getMessageSize := by
    simp [SimpleMessage.serialize, show filler.length = _ from length, fillerSize,
      SimpleMessage.getMessageSize, Config.MAX_PACKET_SIZE]
  apply both (fun _ isQuiet => isQuiet) (fun _ _ => registered)
    (fun result _ _ _ => result = .ok (SimpleMessage.serialize ⟨Result.ACK.byte⟩ filler))
    confined_receiveGeneric Server.confined_dismiss
    (Lockstep.dismissal (by rw [whole]; decide) whole fun _ => left_off rfl rfl rfl rfl)
  rintro _ _ _ _ _ _ rfl
  dsimp only
  rw [SimpleMessage.deserialize_serialize, if_neg (not_not.mpr rfl)]
  exact leave (next _ _ _ _)

end Loop
end Loose
end CloudStorage
