import CloudStorage.Session.Attention

/-! Which failed receives are treated as failures: the walk through the operations of
both programs. -/
namespace CloudStorage
open Interaction Code Program Method

namespace Method
variable {α : Type} {Fails : α → Prop}

theorem minds_received {plaintext_len : Nat} {f : Except Return Bytes → Method α}
    (stops : Stops Fails (f (.error .RECEIVE_FAILURE)))
    (error : ∀ code, Minds Fails (f (.error code)))
    (ok : ∀ plaintext, Minds Fails (f (.ok plaintext))) :
    Minds Fails (receiveGeneric plaintext_len >>= f) := by
  refine minds_seq minds_receiveGeneric ?_ ?_
  · rintro _ rfl
    exact stops
  · intro received
    cases received with
    | error code => exact error code
    | ok plaintext => exact ok plaintext

theorem minds_unless {c : Method (Option Nat)} {f : Option Nat → Method α} (first : Quiet c)
    (failed : ∀ code, Minds Fails (f (some code))) (rest : Minds Fails (f none)) :
    Minds Fails (c >>= f) := by
  apply minds_then first
  intro failure
  cases failure with
  | some code => exact failed code
  | none => exact rest

theorem quiet_cString {array : NameField} {memory : Bytes} : Quiet (cString array memory) := by
  apply minds_ite minds_pure
  apply minds_ask id
  intro beyond
  exact minds_pure

end Method

namespace FileManager
open Method
variable {manager : FileManager} {path buffer chunk : Bytes} {size : Nat}

theorem quiet_file {call : FileCall} : Quiet (file call) := fun _ => ⟨trivial, fun _ => trivial⟩

theorem quiet_openRead : Quiet (openRead path) := by
  apply minds_then quiet_file
  intro opened
  apply minds_ite
  · apply minds_then quiet_file
    intro size
    cases size with
    | some file_size => exact minds_pure
    | none => exact minds_pure
  · exact minds_pure

theorem quiet_openWrite : Quiet (openWrite path) := by
  apply minds_then quiet_file
  intro present
  apply minds_ite minds_pure
  apply minds_then quiet_file
  intro opened
  exact minds_ite minds_pure minds_pure

theorem quiet_readChunk : Quiet (manager.readChunk buffer size) := by
  apply minds_ite minds_pure
  cases manager.m_stream with
  | none => exact minds_pure
  | some stream =>
      apply minds_then quiet_file
      intro content
      exact minds_pure

theorem quiet_writeChunk : Quiet (manager.writeChunk chunk) := by
  apply minds_ite minds_pure
  cases manager.m_stream with
  | none => exact minds_pure
  | some stream =>
      apply minds_then quiet_file
      intro _
      exact minds_pure

theorem quiet_getFilesList : Quiet (getFilesList path) := by
  apply minds_then quiet_file
  intro there
  obtain _ | _ | _ := there
  · exact minds_pure
  · exact minds_pure
  · apply minds_then quiet_file
    intro names
    cases names with
    | some names => exact minds_pure
    | none => exact minds_pure

end FileManager

namespace Server
open FileManager
variable {host : Endian} {plaintext : Bytes}

theorem minds_authenticate :
    Minds (· = Return.RECEIVE_FAILURE.val) (authenticate host) := by
  refine minds_seq (minds_onWire minds_authenticationRequest) ?_ ?_
  · rintro _ rfl
    exact stops_pure rfl
  · intro result
    apply minds_ite minds_pure
    apply minds_get
    intro s
    apply minds_ask id
    intro _
    exact minds_pure

/-- A negotiation that fails is thrown. -/
theorem quiet_incrementCounter : Quiet (incrementCounter host) := by
  apply minds_get
  intro s
  apply minds_ite
  · refine minds_seq minds_authenticate ?_ ?_
    · rintro _ rfl
      exact stops_throw
    · intro result
      exact minds_ite minds_throw minds_pure
  · exact quiet_modify

theorem minds_listRequest (plaintext : Bytes) :
    Minds (· = Return.RECEIVE_FAILURE.val) (listRequest host plaintext) := by
  apply minds_then quiet_incrementCounter
  intro _
  apply minds_get
  intro s
  apply minds_then quiet_getFilesList
  intro files
  apply minds_ite minds_pure
  refine minds_unless quiet_sendGeneric (fun _ => minds_pure) ?_
  apply minds_then quiet_incrementCounter
  intro _
  apply minds_ite minds_pure
  refine minds_unless quiet_sendGeneric (fun _ => minds_pure) ?_
  apply minds_then quiet_incrementCounter
  intro _
  exact minds_pure

theorem quiet_isDownloadable {file_path : Bytes} : Quiet (isDownloadable file_path) := by
  apply minds_then quiet_file
  intro present
  apply minds_ite minds_pure
  apply minds_then quiet_file
  intro regular
  cases regular with
  | none => exact minds_throw
  | some regular =>
      apply minds_ite minds_pure
      apply minds_then quiet_file
      intro symlink
      cases symlink with
      | none => exact minds_throw
      | some symlink => exact minds_pure

theorem quiet_openDownload {file_path : Bytes} : Quiet (openDownload file_path) := by
  apply minds_then quiet_isDownloadable
  intro downloadable
  apply minds_ite
  · apply minds_then quiet_openRead
    intro manager
    exact minds_pure
  · exact minds_pure

theorem quiet_sendChunks {left : Nat} {manager : FileManager} {chunk : Bytes} :
    Quiet (sendChunks host manager chunk left) := by
  induction left generalizing manager chunk with
  | zero => exact minds_pure
  | succ left ih =>
      apply minds_then quiet_readChunk
      rintro ⟨manager, chunk, result⟩
      apply minds_ite minds_pure
      refine minds_unless quiet_sendGeneric (fun _ => minds_pure) ?_
      apply minds_then quiet_incrementCounter
      intro _
      exact ih

theorem minds_downloadRequest :
    Minds (· = Return.RECEIVE_FAILURE.val) (downloadRequest host plaintext) := by
  apply minds_then quiet_incrementCounter
  intro _
  apply minds_get
  intro s
  apply minds_then quiet_cString
  intro filename
  apply minds_then quiet_openDownload
  intro file_to_send
  refine minds_unless quiet_sendGeneric (fun _ => minds_pure) ?_
  apply minds_then quiet_incrementCounter
  intro _
  apply minds_ite minds_pure
  cases file_to_send with
  | none => exact minds_pure
  | some manager =>
      apply minds_ask id
      intro current_chunk
      exact minds_unless quiet_sendChunks (fun _ => minds_pure) minds_pure

/-- The code of a chunk that was not received is passed on. -/
theorem minds_receiveChunks {left : Nat} {manager : FileManager} :
    Minds (· = some Return.RECEIVE_FAILURE.val) (receiveChunks host manager left) := by
  induction left with
  | zero => exact minds_pure
  | succ left ih =>
      refine minds_received (stops_pure rfl) (fun _ => minds_pure) ?_
      intro plaintext
      apply minds_then quiet_incrementCounter
      intro _
      apply minds_then quiet_writeChunk
      intro result
      exact minds_ite minds_pure ih

theorem minds_uploadRequest :
    Minds (· = Return.RECEIVE_FAILURE.val) (uploadRequest host plaintext) := by
  apply minds_then quiet_incrementCounter
  intro _
  apply minds_get
  intro s
  apply minds_then quiet_cString
  intro filename
  apply minds_then quiet_file
  intro present
  refine minds_unless quiet_sendSimple (fun _ => minds_pure) ?_
  apply minds_then quiet_incrementCounter
  intro _
  apply minds_ite minds_pure
  apply minds_then quiet_openWrite
  intro manager
  refine minds_seq minds_receiveChunks ?_ ?_
  · rintro _ rfl
    exact stops_pure rfl
  · intro failure
    cases failure with
    | some code => exact minds_pure
    | none =>
        refine minds_unless quiet_sendSimple (fun _ => minds_pure) ?_
        apply minds_then quiet_incrementCounter
        intro _
        exact minds_pure

theorem quiet_renameFile {old_path new_path : Bytes} :
    Quiet (renameFile old_path new_path) := by
  apply minds_then quiet_file
  intro present
  apply minds_ite minds_pure
  apply minds_then quiet_file
  intro taken
  apply minds_ite minds_pure
  apply minds_then quiet_file
  intro result
  exact minds_ite minds_pure minds_pure

theorem minds_renameRequest :
    Minds (· = Return.RECEIVE_FAILURE.val) (renameRequest host plaintext) := by
  apply minds_then quiet_incrementCounter
  intro _
  apply minds_get
  intro s
  apply minds_then quiet_cString
  intro old_file_name
  apply minds_then quiet_cString
  intro new_file_name
  apply minds_then quiet_renameFile
  intro message_code
  refine minds_unless quiet_sendSimple (fun _ => minds_pure) ?_
  apply minds_then quiet_incrementCounter
  intro _
  exact minds_pure

theorem minds_deleteRequest :
    Minds (· = Return.RECEIVE_FAILURE.val) (deleteRequest host plaintext) := by
  apply minds_then quiet_incrementCounter
  intro _
  refine minds_unless quiet_sendSimple (fun _ => minds_pure) ?_
  apply minds_then quiet_incrementCounter
  intro _
  refine minds_received (stops_pure rfl) (fun _ => minds_pure) ?_
  intro plaintext
  apply minds_then quiet_incrementCounter
  intro _
  apply minds_ite minds_pure
  apply minds_then quiet_cString
  intro file_name
  apply minds_get
  intro s
  apply minds_then quiet_file
  intro present
  apply minds_ite minds_pure
  apply minds_then quiet_file
  intro result
  apply minds_ite minds_pure
  refine minds_unless quiet_sendSimple (fun _ => minds_pure) ?_
  apply minds_then quiet_incrementCounter
  intro _
  exact minds_pure

theorem minds_logoutRequest (plaintext : Bytes) :
    Minds (· = Return.RECEIVE_FAILURE.val) (logoutRequest host plaintext) := by
  apply minds_then quiet_incrementCounter
  intro _
  apply minds_ask id
  intro filler
  apply minds_then quiet_encryptGeneric
  intro message
  cases message with
  | none => exact minds_pure
  | some message =>
      apply minds_then quiet_modify
      intro _
      apply minds_ask id
      intro _
      apply minds_ask id
      intro sent
      exact minds_ite minds_pure minds_pure

/-- The command loop ends, and with it the session. -/
theorem minds_receiveCommand : Minds (· = none) receiveCommand := by
  apply minds_get
  intro s
  apply minds_ask id
  intro _ s
  have ends (outcome : Int) (next : Int × Bytes → Program Op Op.Ans _)
      (returns : ∀ buffer, next (outcome, buffer) = .done (.ok none, s)) :
      Heeds (· = (none : Option Bytes)) next outcome := by
    refine ⟨_, ?_, returns⟩
    rintro _ ⟨⟩
    rfl
  refine ⟨⟨ends _ _ fun _ => rfl, .inl (ends _ _ fun _ => rfl)⟩, ?_⟩
  rintro ⟨result, buffer⟩
  refine minds_ite minds_pure (minds_ite minds_pure ?_) s
  apply minds_then quiet_openGeneric
  intro opened
  cases opened with
  | error code => exact minds_ite minds_throw minds_pure
  | ok plaintext => exact minds_pure

end Server

namespace Client
open FileManager
variable {host : Endian} {filename : Bytes}

theorem minds_authenticate :
    Minds (· = Return.RECEIVE_FAILURE.val) (authenticate host) := by
  refine minds_seq (minds_onWire minds_authenticationRequest) ?_ ?_
  · rintro _ rfl
    exact stops_pure rfl
  · intro result
    apply minds_ite minds_pure
    apply minds_get
    intro s
    apply minds_ask id
    intro _
    exact minds_pure

theorem quiet_incrementCounter : Quiet (incrementCounter host) := by
  apply minds_get
  intro s
  apply minds_ite
  · refine minds_seq minds_authenticate ?_ ?_
    · rintro _ rfl
      exact stops_throw
    · intro result
      exact minds_ite minds_throw minds_pure
  · exact quiet_modify

theorem minds_listRequest : Minds (· = Return.RECEIVE_FAILURE.val) (listRequest host) := by
  refine minds_unless quiet_sendSimple (fun _ => minds_pure) ?_
  apply minds_then quiet_incrementCounter
  intro _
  refine minds_received (stops_pure rfl) (fun _ => minds_pure) ?_
  intro plaintext
  apply minds_then quiet_incrementCounter
  intro _
  apply minds_ite minds_pure
  apply minds_ite minds_pure
  refine minds_received (stops_pure rfl) (fun _ => minds_pure) ?_
  intro plaintext
  apply minds_then quiet_incrementCounter
  intro _
  exact minds_ite minds_pure minds_pure

theorem minds_receiveChunks {left : Nat} {manager : FileManager} :
    Minds (· = some Return.RECEIVE_FAILURE.val) (receiveChunks host manager left) := by
  induction left with
  | zero => exact minds_pure
  | succ left ih =>
      refine minds_received (stops_pure rfl) (fun _ => minds_pure) ?_
      intro plaintext
      apply minds_then quiet_incrementCounter
      intro _
      apply minds_ite minds_pure
      apply minds_then quiet_writeChunk
      intro result
      exact minds_ite minds_pure ih

theorem minds_downloadRequest :
    Minds (· = Return.RECEIVE_FAILURE.val) (downloadRequest host filename) := by
  apply minds_then quiet_file
  intro present
  apply minds_ite minds_pure
  apply minds_ask id
  intro filler
  refine minds_unless quiet_sendGeneric (fun _ => minds_pure) ?_
  apply minds_then quiet_incrementCounter
  intro _
  refine minds_received (stops_pure rfl) (fun _ => minds_pure) ?_
  intro plaintext
  apply minds_then quiet_incrementCounter
  intro _
  apply minds_ite minds_pure
  apply minds_ite minds_pure
  apply minds_then quiet_openWrite
  intro manager
  refine minds_seq minds_receiveChunks ?_ ?_
  · rintro _ rfl
    exact stops_pure rfl
  · intro failure
    cases failure with
    | some code => exact minds_pure
    | none => exact minds_pure

theorem quiet_sendChunks {left : Nat} {manager : FileManager} {chunk : Bytes} :
    Quiet (sendChunks host manager chunk left) := by
  induction left generalizing manager chunk with
  | zero => exact minds_pure
  | succ left ih =>
      apply minds_then quiet_readChunk
      rintro ⟨manager, chunk, result⟩
      refine minds_unless quiet_sendGeneric (fun _ => minds_pure) ?_
      apply minds_then quiet_incrementCounter
      intro _
      exact ih

theorem minds_finishUpload : Minds (· = Return.RECEIVE_FAILURE.val) (finishUpload host) := by
  refine minds_received (stops_pure rfl) (fun _ => minds_pure) ?_
  intro plaintext
  apply minds_then quiet_incrementCounter
  intro _
  exact minds_ite minds_pure minds_pure

theorem minds_uploadRequest :
    Minds (· = Return.RECEIVE_FAILURE.val) (uploadRequest host filename) := by
  apply minds_then quiet_file
  intro present
  apply minds_ite minds_pure
  apply minds_then quiet_openRead
  intro file_to_upload
  apply minds_ite minds_pure
  apply minds_ask id
  intro filler
  refine minds_unless quiet_sendGeneric (fun _ => minds_pure) ?_
  apply minds_then quiet_incrementCounter
  intro _
  refine minds_received (stops_pure rfl) (fun _ => minds_pure) ?_
  intro plaintext
  apply minds_then quiet_incrementCounter
  intro _
  apply minds_ite minds_pure
  apply minds_ite minds_pure
  apply minds_ask id
  intro chunk_buffer
  exact minds_unless quiet_sendChunks (fun _ => minds_pure) minds_finishUpload

theorem minds_renameRequest {old_file_name new_file_name : Bytes} :
    Minds (· = Return.RECEIVE_FAILURE.val) (renameRequest host old_file_name new_file_name) := by
  refine minds_unless quiet_sendGeneric (fun _ => minds_pure) ?_
  apply minds_then quiet_incrementCounter
  intro _
  refine minds_received (stops_pure rfl) (fun _ => minds_pure) ?_
  intro plaintext
  apply minds_then quiet_incrementCounter
  intro _
  apply minds_ite minds_pure
  apply minds_ite minds_pure
  exact minds_ite minds_pure minds_pure

theorem minds_logoutRequest : Minds (· = Return.RECEIVE_FAILURE.val) (logoutRequest host) := by
  refine minds_unless quiet_sendSimple (fun _ => minds_pure) ?_
  apply minds_then quiet_incrementCounter
  intro _
  refine minds_received (stops_pure rfl) (fun _ => minds_pure) ?_
  intro plaintext
  exact minds_ite minds_pure minds_pure

theorem minds_finishDelete : Minds (· = Return.RECEIVE_FAILURE.val) (finishDelete host) := by
  refine minds_received (stops_pure rfl) (fun _ => minds_pure) ?_
  intro plaintext
  apply minds_then quiet_incrementCounter
  intro _
  exact minds_ite minds_pure minds_pure

theorem minds_deleteRequest :
    Minds (· = Return.RECEIVE_FAILURE.val) (deleteRequest host filename) := by
  apply minds_ask id
  intro filler
  refine minds_unless quiet_sendGeneric (fun _ => minds_pure) ?_
  apply minds_then quiet_incrementCounter
  intro _
  refine minds_received (stops_pure rfl) (fun _ => minds_pure) ?_
  intro plaintext
  apply minds_then quiet_incrementCounter
  intro _
  apply minds_ite minds_pure
  apply minds_ask id
  intro confirmation_code
  refine minds_unless quiet_sendSimple (fun _ => minds_pure) ?_
  apply minds_then quiet_incrementCounter
  intro _
  exact minds_ite minds_pure minds_finishDelete

end Client

/-- The operations of both programs, a request of the server with its plaintext. -/
inductive Operation where
  | authenticateClient
  | authenticateServer
  | list
  | download (filename : Bytes)
  | upload (filename : Bytes)
  | rename (old_file_name new_file_name : Bytes)
  | delete (filename : Bytes)
  | logout
  | serveList (plaintext : Bytes)
  | serveDownload (plaintext : Bytes)
  | serveUpload (plaintext : Bytes)
  | serveRename (plaintext : Bytes)
  | serveDelete (plaintext : Bytes)
  | serveLogout (plaintext : Bytes)

namespace Operation

def body (host : Endian) : Operation → Method Nat
  | authenticateClient => Client.authenticate host
  | authenticateServer => Server.authenticate host
  | list => Client.listRequest host
  | download filename => Client.downloadRequest host filename
  | upload filename => Client.uploadRequest host filename
  | rename old_file_name new_file_name => Client.renameRequest host old_file_name new_file_name
  | delete filename => Client.deleteRequest host filename
  | logout => Client.logoutRequest host
  | serveList plaintext => Server.listRequest host plaintext
  | serveDownload plaintext => Server.downloadRequest host plaintext
  | serveUpload plaintext => Server.uploadRequest host plaintext
  | serveRename plaintext => Server.renameRequest host plaintext
  | serveDelete plaintext => Server.deleteRequest host plaintext
  | serveLogout plaintext => Server.logoutRequest host plaintext

/-- The codes that report no error. -/
def Reports (code : Nat) : Prop :=
  code ≠ Return.SUCCESS.val ∧ code ≠ Return.AUTHENTICATION_SUCCESS.val

theorem minds_body (host : Endian) (operation : Operation) :
    Minds (· = Return.RECEIVE_FAILURE.val) (operation.body host) := by
  cases operation with
  | authenticateClient => exact Client.minds_authenticate
  | authenticateServer => exact Server.minds_authenticate
  | list => exact Client.minds_listRequest
  | download filename => exact Client.minds_downloadRequest
  | upload filename => exact Client.minds_uploadRequest
  | rename old_file_name new_file_name => exact Client.minds_renameRequest
  | delete filename => exact Client.minds_deleteRequest
  | logout => exact Client.minds_logoutRequest
  | serveList plaintext => exact Server.minds_listRequest plaintext
  | serveDownload plaintext => exact Server.minds_downloadRequest
  | serveUpload plaintext => exact Server.minds_uploadRequest
  | serveRename plaintext => exact Server.minds_renameRequest
  | serveDelete plaintext => exact Server.minds_deleteRequest
  | serveLogout plaintext => exact Server.minds_logoutRequest plaintext

end Operation

namespace Method
variable {α : Type} {Fails : α → Prop}

theorem Heeds.mono {Weaker : α → Prop} {outcome : Int}
    {next : Int × Bytes → Program Op Op.Ans (Except Thrown α × Session octets)}
    (weaker : ∀ value, Fails value → Weaker value) (heeds : Heeds Fails next outcome) :
    Heeds Weaker next outcome := by
  obtain ⟨ending, failed, ends⟩ := heeds
  refine ⟨ending, ?_, ends⟩
  intro value returned
  exact weaker value (failed value returned)

/-- There a closed connection is taken for a message. -/
theorem TestsErrorOnly.not_heeds {size : Nat}
    {next : Int × Bytes → Program Op Op.Ans (Except Thrown α × Session octets)}
    (tests : TestsErrorOnly (.call (.receive size) next)) : ¬Heeds Fails next (-2) := by
  rintro ⟨ending, -, ends⟩
  obtain ⟨plaintext_len, s, f, here⟩ | ⟨host, key, text, s, f, here⟩ := tests
  · cases here
    exact nomatch ends []
  · cases here
    exact nomatch ends [Result.ACK.byte]

/-- Wherever the method receives, this is when a failed receive is treated as a failure. -/
def HeedsExactly (Fails : α → Prop) (c : Method α) : Prop :=
  ∀ s trace size next, Leads (c s) trace (.call (.receive size) next) →
    ∀ outcome : Int, outcome = -1 ∨ outcome = -2 →
      (Heeds Fails next outcome ↔
        outcome = -1 ∨ ¬TestsErrorOnly (.call (.receive size) next))

theorem heedsExactly_of_minds {Weaker : α → Prop} {c : Method α}
    (weaker : ∀ value, Fails value → Weaker value) (minds : Minds Fails c) :
    HeedsExactly Weaker c := by
  intro s trace size next leads outcome possible
  obtain ⟨error, closed⟩ := (Everywhere.after leads (minds s)).1
  constructor
  · intro heeds
    cases possible with
    | inl error => exact .inl error
    | inr closed =>
        subst closed
        exact .inr fun tests => tests.not_heeds heeds
  · rintro (rfl | careful)
    · exact error.mono weaker
    · obtain rfl | rfl := possible
      · exact error.mono weaker
      · exact (closed.resolve_right careful).mono weaker

end Method

/-- Every operation, and the server between two of them. -/
theorem failed_receive_heeded_iff (host : Endian) :
    (∀ operation : Operation, HeedsExactly Operation.Reports (operation.body host)) ∧
      HeedsExactly (· = none) Server.receiveCommand := by
  constructor
  · intro operation
    refine heedsExactly_of_minds ?_ (operation.minds_body host)
    rintro _ rfl
    constructor
    · decide
    · decide
  · exact heedsExactly_of_minds (fun _ none => none) Server.minds_receiveCommand

/-- The connection is closed instead of M2: whether the client goes on to M3 depends on
what its buffer held before. -/
theorem closed_at_m2 :
    ∃ trace size next,
      Leads (Operation.authenticateClient.body .little ⟨[], 0, []⟩) trace
        (.call (.receive size) next) ∧
      ¬Heeds Operation.Reports next (-2) ∧
      (∃ t, next (-2, [Result.NACK.byte]) = .done (.ok Error.USERNAME_NOT_FOUND.val, t)) ∧
      ∀ ending, next (-2, [Result.ACK.byte]) ≠ .done ending := by
  apply Exists.intro
  apply Exists.intro
  apply Exists.intro
  apply And.intro
  · apply Leads.call ([] : Bytes)
    apply Leads.call (some ([] : Bytes))
    apply Leads.call (0 : Int)
    exact .here _
  · refine ⟨?_, ⟨_, rfl⟩, ?_⟩
    · rintro ⟨ending, -, ends⟩
      exact nomatch ends [Result.ACK.byte]
    · intro ending same
      exact nomatch same

end CloudStorage
