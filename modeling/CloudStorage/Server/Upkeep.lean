import CloudStorage.Storage.Access

/-! What a property of a server session has to show about single steps, and why that
is enough for the whole run. The walk through the handlers is made once, here; each
property says what its invariant is and that the steps of `Upkeep` keep it. -/
namespace CloudStorage
open Interaction Code Method
namespace Server

/-- The arrays that the handler of a request reads as file names, each with what is
known to follow it in memory. -/
def nameFields (host : Endian) (plaintext : Bytes) : List (NameField × Bytes) :=
  let command := plaintext.headD 0
  let single := (NameRequest.deserialize plaintext).m_filename
  let upload := UploadM1.deserialize host plaintext
  let rename := Rename.deserialize plaintext
  if command = Message.DOWNLOAD_REQUEST.byte then [(.m_filename, single)]
  else if command = Message.UPLOAD_REQUEST.byte then
    [(.m_filename, upload.m_filename ++ host.bytes upload.m_file_size)]
  else if command = Message.RENAME_REQUEST.byte then
    [(.m_old_filename, rename.m_old_filename ++ rename.m_new_filename),
      (.m_new_filename, rename.m_new_filename)]
  else if command = Message.DELETE_REQUEST.byte then [(.m_filename, single)]
  else []

/-- The codes that open the plaintexts of the server. -/
def answerCodes : List UInt8 :=
  [Result.ACK.byte, Result.NACK.byte, Message.DOWNLOAD_ACK.byte, Message.DOWNLOAD_CHUNK.byte,
    Message.DELETE_ASK.byte, Message.LIST_ACK.byte, Message.LIST_RESPONSE.byte,
    Error.FILE_NOT_FOUND.byte, Return.FILE_NOT_FOUND.byte, Return.FILE_ALREADY_EXISTS.byte]

/-- Calls that concern neither files nor keys. -/
inductive Plain : Op → Prop where
  | random (size : Nat) : Plain (.random size)
  | memory (size : Nat) : Plain (.memory size)
  | receive (size : Nat) : Plain (.receive size)

/-- An invariant of server sessions, by the step of a request it holds at: `Idle` at
the top of the loop, `Busy` in a handler and `Left` when the handler has returned.
`spent` says that the counter was used by a frame and not yet advanced, `touched` that
the handler has accessed a file. Whose request it is (`Owner`) does not change while the
handler runs; names and paths are judged against it. -/
structure Invariant (μ : Monitor Op Op.Ans) where
  Owner : Type
  Idle : Session octets → μ.State → Prop
  Left : Session octets → μ.State → Prop
  Busy : (spent touched : Bool) → Owner → Bytes → Session octets → μ.State → Prop
  Name : Owner → Bytes → Prop
  Path : Owner → Bytes → Prop

/-- The obligations of an invariant, one for each kind of step. -/
structure Upkeep (host : Endian) {μ : Monitor Op Op.Ans} (I : Invariant μ) : Prop where
  command {s g} : I.Idle s g →
    receiveCommand.wp μ (fun received s' g' => ∀ plaintext, received = some plaintext →
      match handler host (plaintext.headD 0) with
      | none => I.Idle s' g'
      | some _ => (note (.started (plaintext.headD 0))).wp μ
          (fun _ s' g' => ∃ owner, I.Busy true false owner plaintext s' g') s' g') s g
  leave {touched owner plaintext s g} : I.Busy false touched owner plaintext s g → I.Left s g
  finish {code s g} : I.Left s g →
    (note (.finished code)).wp μ (fun _ s' g' => I.Idle s' g') s g
  increment {spent touched owner plaintext s g} : I.Busy spent touched owner plaintext s g →
    (incrementCounter host).wp μ (fun _ s' g' => I.Busy false touched owner plaintext s' g') s g
  emit {touched owner plaintext s g message} : I.Busy false touched owner plaintext s g →
    message.headD 0 ∈ answerCodes →
    (sendGeneric message).wp μ (fun failure s' g' =>
      I.Busy failure.isNone touched owner plaintext s' g') s g
  accept {touched owner plaintext s g frame} : I.Busy false touched owner plaintext s g →
    (openGeneric frame).wp μ (fun opened s' g' =>
      I.Busy opened.toBool touched owner plaintext s' g') s g
  dismiss {owner plaintext s g message} : I.Busy false false owner plaintext s g →
    plaintext.headD 0 = Message.LOGOUT_REQUEST.byte → message.headD 0 ∈ answerCodes →
    (dismiss message).wp μ (fun _ s' g' => I.Left s' g') s g
  plain {spent touched owner plaintext s g h} : I.Busy spent touched owner plaintext s g →
    μ.Rely g h → ∀ op, Plain op → ∀ answer, μ.Legal h op answer →
      μ.Safe h op answer ∧ I.Busy spent touched owner plaintext s (μ.step h op answer)
  stray {spent owner plaintext s g h array memory} : I.Busy spent false owner plaintext s g →
    μ.Rely g h → (array, memory) ∈ nameFields host plaintext → 0 ∉ memory →
    ∀ beyond, μ.Legal h (.stray array) beyond →
      μ.Safe h (.stray array) beyond ∧ I.Name owner (memory ++ cPrefix beyond) ∧
        I.Busy spent false owner plaintext s (μ.step h (.stray array) beyond)
  file {spent touched owner plaintext s g h call} : I.Busy spent touched owner plaintext s g →
    μ.Rely g h → (∀ path ∈ call.paths, I.Path owner path) →
    ∀ answer, μ.Legal h (.file call) answer →
      μ.Safe h (.file call) answer ∧
        I.Busy spent true owner plaintext s (μ.step h (.file call) answer)
  named {spent owner plaintext s g array memory} : I.Busy spent false owner plaintext s g →
    (array, memory) ∈ nameFields host plaintext → 0 ∈ memory → I.Name owner (cPrefix memory)
  storage {owner plaintext s g name} : I.Busy false false owner plaintext s g →
    I.Name owner name → I.Path owner (storagePath s.m_username name)
  directory {owner plaintext s g} : I.Busy false false owner plaintext s g →
    I.Path owner (storageDirectory s.m_username)

namespace Upkeep
variable {host : Endian} {μ : Monitor Op Op.Ans} {I : Invariant μ} (up : Upkeep host I)
  {spent touched : Bool} {owner : I.Owner} {plaintext : Bytes} {s : Session octets} {g : μ.State}
include up

theorem ask (busy : I.Busy spent touched owner plaintext s g) {op : Op} (isPlain : Plain op) :
    (ask op).wp μ (fun _ s' g' => I.Busy spent touched owner plaintext s' g') s g :=
  wp_invoke.mpr fun _ others answer legal => up.plain busy others op isPlain answer legal

/-- Storage functions leave the handler in a state that has touched files. -/
theorem access (busy : I.Busy spent touched owner plaintext s g) {α : Type} {c : Method α}
    {ends : α → Prop} (keeps : c.Keeps (FileAccess (I.Path owner)) ends) :
    c.wp μ (fun value s' g' => s' = s ∧ ends value ∧
      ∃ touched, I.Busy spent touched owner plaintext s' g') s g := by
  have stable : μ.Stable (FileAccess (I.Path owner)) fun g' =>
      ∃ touched, I.Busy spent touched owner plaintext s g' := by
    rintro g h ⟨touched, busy⟩ others op isFile answer legal
    obtain ⟨allowed⟩ := isFile
    obtain ⟨safe, kept⟩ := up.file busy others allowed answer legal
    exact ⟨safe, true, kept⟩
  apply wp_mono _ (keeps.invariant stable ⟨touched, busy⟩)
  rintro value t g' ⟨rfl, ending, busy⟩
  exact ⟨rfl, ending, busy⟩

theorem cString (busy : I.Busy spent false owner plaintext s g) {array : NameField}
    {memory : Bytes} (member : (array, memory) ∈ nameFields host plaintext) :
    (cString array memory).wp μ (fun name s' g' => s' = s ∧ I.Name owner name ∧
      I.Busy spent false owner plaintext s' g') s g := by
  refine wp_ite.mpr ⟨fun terminated => ?_, fun open_ => ?_⟩
  · exact (wp_pure _).mpr ⟨rfl, up.named busy member terminated, busy⟩
  · have read : (Method.ask (.stray array)).wp μ (fun beyond t g' => t = s ∧
        I.Name owner (memory ++ cPrefix beyond) ∧ I.Busy spent false owner plaintext t g') s g := by
      apply wp_invoke.mpr
      intro h others beyond legal
      obtain ⟨safe, name, kept⟩ := up.stray busy others member open_ beyond legal
      exact ⟨safe, rfl, name, kept⟩
    apply wp_seq read
    intro beyond t g' ended
    exact (wp_pure _).mpr ended

theorem sendSimple (busy : I.Busy false touched owner plaintext s g) {code : UInt8}
    (known : code ∈ answerCodes) :
    (sendSimple code).wp μ (fun failure s' g' =>
      I.Busy failure.isNone touched owner plaintext s' g') s g :=
  wp_seq (up.ask busy (.random _)) fun _ _ _ busy => up.emit busy known

theorem receiveGeneric (busy : I.Busy false touched owner plaintext s g) (size : Nat) :
    (receiveGeneric size).wp μ (fun opened s' g' =>
      I.Busy opened.toBool touched owner plaintext s' g') s g := by
  refine wp_seq (up.ask busy (.receive _)) ?_
  rintro ⟨result, buffer⟩ t g' busy
  refine wp_ite.mpr ⟨fun _ => (wp_pure _).mpr busy, fun _ => up.accept busy⟩

/-- The state in which every handler but `logoutRequest` returns. -/
def Returned (I : Invariant μ) (owner : I.Owner) (plaintext : Bytes) (_code : Nat)
    (s : Session octets) (g : μ.State) : Prop :=
  ∃ touched, I.Busy false touched owner plaintext s g

omit up in
theorem returned (busy : I.Busy false touched owner plaintext s g) (code : Nat) :
    (pure code : Method Nat).wp μ (Returned I owner plaintext) s g :=
  (wp_pure _).mpr ⟨touched, busy⟩

/-- A step that may fail: the failure is returned, and otherwise the counter has to be
advanced before anything else. -/
theorem sent {sending : Method (Option Nat)} {next : Method Nat}
    (emitted : sending.wp μ (fun failure s' g' =>
      I.Busy failure.isNone touched owner plaintext s' g') s g)
    (rest : ∀ s' g', I.Busy false touched owner plaintext s' g' →
      next.wp μ (Returned I owner plaintext) s' g') :
    (do if let some code ← sending then return code
        incrementCounter host
        next).wp μ (Returned I owner plaintext) s g := by
  refine wp_seq emitted ?_
  intro failure t g' busy
  cases failure with
  | some code => exact returned busy code
  | none => exact wp_seq (up.increment busy) fun _ t g' busy => rest t g' busy

theorem listRequest (busy : I.Busy true false owner plaintext s g) :
    (listRequest host plaintext).wp μ (Returned I owner plaintext) s g := by
  refine wp_seq (up.increment busy) fun _ s g busy => wp_bind.mpr (wp_get.mpr ?_)
  refine wp_seq (up.access busy (FileManager.getFilesList_keeps (up.directory busy))) ?_
  rintro files _ g ⟨rfl, -, touched, busy⟩
  refine wp_ite.mpr ⟨fun _ => returned busy _, fun _ => ?_⟩
  have ack : Message.LIST_ACK.byte ∈ answerCodes := by decide
  have response : Message.LIST_RESPONSE.byte ∈ answerCodes := by decide
  refine up.sent (up.emit busy ack) fun s g busy => ?_
  refine wp_ite.mpr ⟨fun _ => returned busy _, fun _ => ?_⟩
  exact up.sent (up.emit busy response) fun s g busy => returned busy _

/-- Either way out of the loop leaves the counter advanced. -/
theorem sendChunks {manager : FileManager} (stays : manager.Over (I.Path owner)) (buffer : Bytes)
    (left : Nat) (busy : I.Busy false touched owner plaintext s g) :
    (sendChunks host manager buffer left).wp μ (fun _ s' g' =>
      ∃ touched, I.Busy false touched owner plaintext s' g') s g := by
  induction left generalizing manager buffer touched s g with
  | zero => exact (wp_pure _).mpr ⟨_, busy⟩
  | succ left ih =>
      have chunk : Message.DOWNLOAD_CHUNK.byte ∈ answerCodes := by decide
      refine wp_seq (up.access busy (FileManager.readChunk_keeps stays _ _)) ?_
      rintro ⟨manager, buffer, result⟩ _ g ⟨rfl, stays, touched, busy⟩
      refine wp_ite.mpr ⟨fun _ => (wp_pure _).mpr ⟨_, busy⟩, fun _ => ?_⟩
      refine wp_seq (up.emit busy chunk) ?_
      intro failure s g busy
      cases failure with
      | some code => exact (wp_pure _).mpr ⟨_, busy⟩
      | none => exact wp_seq (up.increment busy) fun _ s g busy => ih stays _ busy

theorem downloadRequest (command : plaintext.headD 0 = Message.DOWNLOAD_REQUEST.byte)
    (busy : I.Busy true false owner plaintext s g) :
    (downloadRequest host plaintext).wp μ (Returned I owner plaintext) s g := by
  have name : (NameField.m_filename, (NameRequest.deserialize plaintext).m_filename) ∈
      nameFields host plaintext := by
    simp only [nameFields, command, if_true, List.mem_singleton]
  refine wp_seq (up.increment busy) fun _ s g busy => wp_bind.mpr (wp_get.mpr ?_)
  refine wp_seq (up.cString busy name) ?_
  rintro filename _ g ⟨rfl, good, busy⟩
  refine wp_seq (up.access busy (openDownload_keeps (up.storage busy good))) ?_
  rintro opened _ g ⟨rfl, stays, touched, busy⟩
  have ack : Message.DOWNLOAD_ACK.byte ∈ answerCodes := by decide
  have missing : Error.FILE_NOT_FOUND.byte ∈ answerCodes := by decide
  refine up.sent (up.emit busy ?_) fun s g busy => ?_
  · cases opened with
    | some manager => exact ack
    | none => exact missing
  refine wp_ite.mpr ⟨fun _ => returned busy _, fun _ => ?_⟩
  cases opened with
  | none => exact returned busy _
  | some manager =>
      refine wp_seq (up.ask busy (.memory _)) fun buffer s g busy => ?_
      refine wp_seq (up.sendChunks (stays manager rfl) buffer _ busy) ?_
      rintro failure s g ⟨touched, busy⟩
      cases failure with
      | some code => exact returned busy code
      | none => exact returned busy _

theorem receiveChunks {manager : FileManager} (stays : manager.Over (I.Path owner)) (left : Nat)
    (busy : I.Busy false touched owner plaintext s g) :
    (receiveChunks host manager left).wp μ (fun _ s' g' =>
      ∃ touched, I.Busy false touched owner plaintext s' g') s g := by
  induction left generalizing touched s g with
  | zero => exact (wp_pure _).mpr ⟨_, busy⟩
  | succ left ih =>
      refine wp_seq (up.receiveGeneric busy _) ?_
      intro opened s g busy
      cases opened with
      | error code => exact (wp_pure _).mpr ⟨_, busy⟩
      | ok chunk =>
          refine wp_seq (up.increment busy) fun _ s g busy => ?_
          refine wp_seq (up.access busy (FileManager.writeChunk_keeps stays _)) ?_
          rintro result _ g ⟨rfl, -, touched, busy⟩
          exact wp_ite.mpr ⟨fun _ => (wp_pure _).mpr ⟨_, busy⟩, fun _ => ih busy⟩

theorem uploadRequest (command : plaintext.headD 0 = Message.UPLOAD_REQUEST.byte)
    (busy : I.Busy true false owner plaintext s g) :
    (uploadRequest host plaintext).wp μ (Returned I owner plaintext) s g := by
  have name : (NameField.m_filename, (UploadM1.deserialize host plaintext).m_filename ++
      host.bytes (UploadM1.deserialize host plaintext).m_file_size) ∈
        nameFields host plaintext := by
    have other : Message.UPLOAD_REQUEST.byte ≠ Message.DOWNLOAD_REQUEST.byte := by decide
    simp only [nameFields, command, other, if_true, if_false, List.mem_singleton]
  have ack : Result.ACK.byte ∈ answerCodes := by decide
  have nack : Result.NACK.byte ∈ answerCodes := by decide
  have known : ∀ present : Bool,
      (if present then Result.NACK else Result.ACK).byte ∈ answerCodes := by
    rintro ⟨_ | _⟩
    · exact ack
    · exact nack
  refine wp_seq (up.increment busy) fun _ s g busy => wp_bind.mpr (wp_get.mpr ?_)
  refine wp_seq (up.cString busy name) ?_
  rintro filename _ g ⟨rfl, good, busy⟩
  have allowed := up.storage busy good
  refine wp_seq (up.access busy (FileManager.isFilePresent_keeps allowed)) ?_
  rintro present _ g ⟨rfl, -, touched, busy⟩
  refine up.sent (up.sendSimple busy (known present)) fun s g busy => ?_
  refine wp_ite.mpr ⟨fun _ => returned busy _, fun _ => ?_⟩
  refine wp_seq (up.access busy (FileManager.openWrite_keeps allowed)) ?_
  rintro manager _ g ⟨rfl, stays, touched, busy⟩
  refine wp_seq (up.receiveChunks (stays.initFileInfo _) _ busy) ?_
  rintro failure s g ⟨touched, busy⟩
  cases failure with
  | some code => exact returned busy code
  | none => exact up.sent (up.sendSimple busy ack) fun s g busy => returned busy _

theorem renameRequest (command : plaintext.headD 0 = Message.RENAME_REQUEST.byte)
    (busy : I.Busy true false owner plaintext s g) :
    (renameRequest host plaintext).wp μ (Returned I owner plaintext) s g := by
  have fields : nameFields host plaintext =
      [(.m_old_filename, (Rename.deserialize plaintext).m_old_filename ++
          (Rename.deserialize plaintext).m_new_filename),
        (.m_new_filename, (Rename.deserialize plaintext).m_new_filename)] := by
    have first : Message.RENAME_REQUEST.byte ≠ Message.DOWNLOAD_REQUEST.byte := by decide
    have second : Message.RENAME_REQUEST.byte ≠ Message.UPLOAD_REQUEST.byte := by decide
    simp only [nameFields, command, first, second, if_true, if_false]
  refine wp_seq (up.increment busy) fun _ s g busy => wp_bind.mpr (wp_get.mpr ?_)
  refine wp_seq (up.cString busy (fields ▸ List.mem_cons_self)) ?_
  rintro old _ g ⟨rfl, oldGood, busy⟩
  refine wp_seq (up.cString busy (fields ▸ List.mem_cons_of_mem _ List.mem_cons_self)) ?_
  rintro new _ g ⟨rfl, newGood, busy⟩
  have answers : ∀ code ∈ renameCodes, code ∈ answerCodes := by
    intro code one
    simp only [renameCodes, List.mem_cons, List.not_mem_nil, or_false] at one
    rcases one with rfl | rfl | rfl | rfl <;> decide
  refine wp_seq (up.access busy (renameFile_keeps (up.storage busy oldGood)
    (up.storage busy newGood))) ?_
  rintro code _ g ⟨rfl, one, touched, busy⟩
  exact up.sent (up.sendSimple busy (answers code one)) fun s g busy => returned busy _

theorem deleteRequest (command : plaintext.headD 0 = Message.DELETE_REQUEST.byte)
    (busy : I.Busy true false owner plaintext s g) :
    (deleteRequest host plaintext).wp μ (Returned I owner plaintext) s g := by
  have name : (NameField.m_filename, (NameRequest.deserialize plaintext).m_filename) ∈
      nameFields host plaintext := by
    have first : Message.DELETE_REQUEST.byte ≠ Message.DOWNLOAD_REQUEST.byte := by decide
    have second : Message.DELETE_REQUEST.byte ≠ Message.UPLOAD_REQUEST.byte := by decide
    have third : Message.DELETE_REQUEST.byte ≠ Message.RENAME_REQUEST.byte := by decide
    simp only [nameFields, command, first, second, third, if_true, if_false, List.mem_singleton]
  have ack : Result.ACK.byte ∈ answerCodes := by decide
  have question : Message.DELETE_ASK.byte ∈ answerCodes := by decide
  refine wp_seq (up.increment busy) fun _ s g busy => ?_
  refine up.sent (up.sendSimple busy question) fun s g busy => ?_
  refine wp_seq (up.receiveGeneric busy _) ?_
  intro opened s g busy
  cases opened with
  | error code => exact returned busy _
  | ok confirmation =>
      refine wp_seq (up.increment busy) fun _ s g busy => ?_
      refine wp_ite.mpr ⟨fun _ => returned busy _, fun _ => ?_⟩
      refine wp_seq (up.cString busy name) ?_
      rintro filename _ g ⟨rfl, good, busy⟩
      refine wp_bind.mpr (wp_get.mpr ?_)
      have allowed := up.storage busy good
      refine wp_seq (up.access busy (FileManager.isFilePresent_keeps allowed)) ?_
      rintro present _ g ⟨rfl, -, touched, busy⟩
      refine wp_ite.mpr ⟨fun _ => returned busy _, fun _ => ?_⟩
      refine wp_seq (up.access busy (.invoke (.single rfl allowed))) ?_
      rintro result _ g ⟨rfl, -, touched, busy⟩
      refine wp_ite.mpr ⟨fun _ => returned busy _, fun _ => ?_⟩
      exact up.sent (up.sendSimple busy ack) fun s g busy => returned busy _

theorem logoutRequest (command : plaintext.headD 0 = Message.LOGOUT_REQUEST.byte)
    (busy : I.Busy true false owner plaintext s g) :
    (logoutRequest host plaintext).wp μ (fun _ s' g' => I.Left s' g') s g := by
  have ack : Result.ACK.byte ∈ answerCodes := by decide
  refine wp_seq (up.increment busy) fun _ s g busy => ?_
  exact wp_seq (up.ask busy (.random _)) fun filler s g busy => up.dismiss busy command ack

/-- Whatever the `switch` selects leaves the handler properly. -/
theorem dispatch {command : UInt8} {request : Bytes → Method Nat}
    (first : plaintext.headD 0 = command) (handled : handler host command = some request)
    (busy : I.Busy true false owner plaintext s g) :
    (request plaintext).wp μ (fun _ s' g' => I.Left s' g') s g := by
  have leave : ∀ {request : Method Nat}, request.wp μ (Returned I owner plaintext) s g →
      request.wp μ (fun _ s' g' => I.Left s' g') s g :=
    wp_mono fun _ _ _ ⟨_, busy⟩ => up.leave busy
  simp only [handler] at handled
  split_ifs at handled with list download upload rename delete logout
  · obtain ⟨rfl⟩ := handled
    exact leave (up.listRequest busy)
  · obtain ⟨rfl⟩ := handled
    exact leave (up.downloadRequest (first.trans download) busy)
  · obtain ⟨rfl⟩ := handled
    exact leave (up.uploadRequest (first.trans upload) busy)
  · obtain ⟨rfl⟩ := handled
    exact leave (up.renameRequest (first.trans rename) busy)
  · obtain ⟨rfl⟩ := handled
    exact leave (up.deleteRequest (first.trans delete) busy)
  · obtain ⟨rfl⟩ := handled
    exact up.logoutRequest (first.trans logout) busy

/-- The command loop keeps the invariant for any number of rounds. -/
theorem serve (rounds : Nat) (idle : I.Idle s g) :
    (serve host rounds).wp μ (fun _ _ _ => True) s g := by
  induction rounds generalizing s g with
  | zero => exact (wp_pure _).mpr trivial
  | succ rounds ih =>
      refine wp_seq (up.command idle) ?_
      intro received s g next
      cases received with
      | none => exact (wp_pure _).mpr trivial
      | some plaintext =>
          have next := next plaintext rfl
          have dispatched : (Server.dispatch host plaintext).wp μ (fun _ s' g' => I.Idle s' g')
              s g := by
            simp only [Server.dispatch]
            cases handled : handler host (plaintext.headD 0) with
            | none =>
                rw [handled] at next
                exact (wp_pure _).mpr next
            | some request =>
                rw [handled] at next
                apply wp_seq next
                rintro _ s g ⟨owner, busy⟩
                exact wp_seq (up.dispatch rfl handled busy) fun code s g left => up.finish left
          exact wp_seq dispatched fun _ s g idle => ih idle

/-- A property whose steps are kept up holds of every execution of `Server::run`. -/
theorem run (alone : ∀ g, μ.Rely g g) {rounds : Nat} {trace : List (Event Op Op.Ans)}
    {result : Option Unit}
    (login : (authenticate host).wp μ (fun code s' g' =>
      code = Return.AUTHENTICATION_SUCCESS.val → I.Idle s' g') s g)
    (execution : Runs (run host rounds s) trace result) (legal : μ.LegalTrace g trace) :
    μ.SafeTrace g trace := by
  have session : (session host rounds).wp μ (fun _ _ _ => True) s g := by
    refine wp_seq login fun code s g idle => ?_
    refine wp_ite.mpr ⟨fun _ => (wp_pure _).mpr trivial, fun success => ?_⟩
    exact up.serve rounds (idle (not_not.mp success))
  have whole : (Server.run host rounds s).wp μ (fun _ _ => True) g :=
    Program.wp_bind.mpr (Program.wp_mono (fun _ _ _ => trivial) session)
  exact (Program.wp_sound alone whole execution legal).1

end Upkeep
end Server
end CloudStorage
