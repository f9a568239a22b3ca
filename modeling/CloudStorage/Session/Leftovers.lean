import CloudStorage.Interaction.Returns
import CloudStorage.Session.FileFree
import CloudStorage.Storage.Volume

/-! What a transfer that fails leaves in the directory it writes to. -/
namespace CloudStorage
open Interaction Code Method

namespace FileMap

/-- The files after a call that was answered so. What cannot be opened is not there. -/
def after (files : FileMap) : (call : FileCall) → call.Ans → FileMap
  | .ofstream_open path, true => files.put path []
  | .write path chunk, _ =>
      match files path with
      | some held => files.put path (held ++ chunk)
      | none => files
  | .rename old_path new_path, answer =>
      match files old_path with
      | some held => if answer = 0 then files.move old_path new_path held else files
      | none => files
  | .remove path, answer => if answer = 0 then files.drop path else files
  | _, _ => files

end FileMap

/-- A file that was opened for writing. -/
def FileCall.creates : (call : FileCall) → call.Ans → Bool
  | .ofstream_open _, answer => answer
  | _, _ => false

/-- The files of one machine, and whether one has been opened for writing. -/
structure Watch where
  files : FileMap
  created : Bool

namespace Watch

/-- Files that are there can be opened, and others cannot. -/
@[reducible] def monitor : Monitor Op Op.Ans where
  State := Watch
  Legal
    | g, .file (.ifstream_open path), answer => answer = (g.files path).isSome
    | _, _, _ => True
  Safe := fun _ _ _ => True
  step
    | g, .file call, answer => ⟨g.files.after call answer, g.created || call.creates answer⟩
    | g, _, _ => g

/-- Nothing was changed, or there is a file that was not there before. -/
def Kept (files : FileMap) (target : Option Bytes) (g : Watch) : Prop :=
  match target with
  | none => g = ⟨files, false⟩
  | some path => g.created = true ∧ files path = none ∧ (g.files path).isSome

theorem Kept.unchanged_iff {files : FileMap} {target : Option Bytes} {g : Watch}
    (kept : Kept files target g) : g.files = files ↔ g.created = false := by
  cases target with
  | none =>
      obtain rfl := kept
      exact ⟨fun _ => rfl, fun _ => rfl⟩
  | some path =>
      obtain ⟨created, absent, there⟩ := kept
      constructor
      · rintro rfl
        rw [absent] at there
        cases there
      · intro untouched
        rw [created] at untouched
        cases untouched

/-- How a transfer may end. -/
def Ends (files : FileMap) (g : Watch) : Prop := ∃ target, Kept files target g

/-- Calls that only append to the target. -/
def Appends (target : Option Bytes) : Op → Prop
  | .file (.write path _) => target = some path
  | .file _ => False
  | _ => True

theorem appends_stable (files : FileMap) (target : Option Bytes) :
    monitor.Stable (Appends target) (Kept files target) := by
  rintro g _ kept rfl op appends answer -
  refine ⟨trivial, ?_⟩
  cases op with
  | file call =>
      cases call with
      | write path chunk =>
          obtain rfl := appends
          obtain ⟨created, absent, there⟩ := kept
          obtain ⟨held, known⟩ := Option.isSome_iff_exists.mp there
          refine ⟨by simp [created], absent, ?_⟩
          simp only [FileMap.after, known, FileMap.put_self, Option.isSome_some]
      | _ => exact appends.elim
  | _ => exact kept

theorem fileFree_appends {target : Option Bytes} (op : Op) (isFree : FileFree op) :
    Appends target op := by
  cases op with
  | file call => exact isFree.elim
  | _ => trivial

section Steps
variable {target : Option Bytes} {α β : Type}

theorem kept_seq (target : Option Bytes) {files : FileMap} {c : Method α} {f : α → Method β} {s : Session octets}
    {g : Watch} {post : β → Session octets → Watch → Prop} (confined : c.Confined (Appends target))
    (start : Kept files target g)
    (rest : ∀ value t g', Kept files target g' → (f value).triple monitor post (Ends files) t g') :
    (c >>= f).triple monitor post (Ends files) s g := by
  have first := confined.triple (appends_stable files target) start (s := s)
  have weaker : c.triple monitor (fun _ _ g' => Kept files target g') (Ends files) s g :=
    triple_mono (fun _ _ _ kept => kept) (fun _ kept => ⟨target, kept⟩) first
  exact triple_seq weaker rest

/-- A manager writes to the stream it was opened on. -/
theorem confined_writeChunk {manager : FileManager} {chunk : Bytes}
    (streams : manager.m_stream.map Prod.fst = target) :
    (manager.writeChunk chunk).Confined (Appends target) := by
  apply confined_ite confined_pure
  cases opened : manager.m_stream with
  | none => exact confined_pure
  | some stream =>
      apply confined_invoke
      · rw [opened] at streams
        exact streams.symm
      · intro _
        exact confined_pure

end Steps
/-- Creating the destination: from here on there is a file that was not there before. -/
theorem openWrite_triple {files : FileMap} {path : Bytes} (absent : files path = none)
    {s : Session octets} :
    (FileManager.openWrite path).triple monitor (fun manager _ g =>
      Kept files (manager.m_stream.map Prod.fst) g) (Ends files) s ⟨files, false⟩ := by
  apply triple_invoke
  rintro _ rfl present -
  refine ⟨trivial, ?_⟩
  apply triple_ite
  · intro _
    exact triple_pure rfl
  · intro _
    apply triple_invoke
    rintro _ rfl created -
    refine ⟨trivial, ?_⟩
    cases created with
    | false => exact triple_pure rfl
    | true =>
        refine triple_pure ⟨rfl, absent, ?_⟩
        simp only [FileMap.after, FileMap.put_self, Option.isSome_some]

end Watch

namespace Server
open Watch
variable {host : Endian} {target : Option Bytes}

theorem confined_receiveChunks {left : Nat} {manager : FileManager}
    (streams : manager.m_stream.map Prod.fst = target) :
    (receiveChunks host manager left).Confined (Appends target) := by
  induction left with
  | zero => exact confined_pure
  | succ left ih =>
      apply confined_seq (confined_receiveGeneric.mono fileFree_appends)
      intro received
      cases received with
      | error code => exact confined_pure
      | ok plaintext =>
          apply confined_seq (confined_incrementCounter.mono fileFree_appends)
          intro _
          apply confined_seq (confined_writeChunk streams)
          intro result
          exact confined_ite confined_pure ih

/-- `uploadRequest` up to the final ACK: `none` if that was sent. -/
def acceptUpload (host : Endian) (plaintext : Bytes) : Method (Option Nat) := do
  let upload_msg1 := UploadM1.deserialize host plaintext
  incrementCounter host
  let s ← get
  let filename ← cString .m_filename
    (upload_msg1.m_filename ++ host.bytes upload_msg1.m_file_size)
  let file_path := storagePath s.m_username filename
  let present ← FileManager.isFilePresent file_path
  let upload_msg2 := if present then Result.NACK else Result.ACK
  if let some code ← sendSimple upload_msg2.byte then return some code
  incrementCounter host
  if upload_msg2 = .NACK then return some Error.FILENAME_ALREADY_EXISTS.val
  let manager ← FileManager.openWrite file_path
  let file_to_upload := manager.initFileInfo upload_msg1.m_file_size.toNat
  if let some code ← receiveChunks host file_to_upload file_to_upload.m_chunks_num then
    return some code
  sendSimple Result.ACK.byte

/-- `uploadRequest` from there on. -/
def closeUpload (host : Endian) (failure : Option Nat) : Method Nat := do
  if let some code := failure then return code
  incrementCounter host
  return Return.SUCCESS.val

theorem uploadRequest_eq (host : Endian) (plaintext : Bytes) :
    uploadRequest host plaintext = acceptUpload host plaintext >>= closeUpload host := by
  simp only [uploadRequest, acceptUpload, Code.bind_assoc]
  refine congrArg _ (funext fun _ => congrArg _ (funext fun s => congrArg _ (funext fun name =>
    congrArg _ (funext fun present => congrArg _ (funext fun failure => ?_)))))
  cases failure with
  | some code => rfl
  | none =>
      dsimp only
      rw [Code.bind_assoc]
      refine congrArg _ (funext fun _ => ?_)
      cases present with
      | true => rfl
      | false =>
          simp only [Bool.false_eq_true, if_false, reduceCtorEq]
          rw [Code.bind_assoc]
          refine congrArg _ (funext fun manager => ?_)
          rw [Code.bind_assoc]
          refine congrArg _ (funext fun failure => ?_)
          cases failure with
          | some code => rfl
          | none => rfl

/-- However the part before the final ACK ends. -/
theorem acceptUpload_triple (plaintext : Bytes) (files : FileMap) (s : Session octets) :
    (acceptUpload host plaintext).triple monitor (fun _ _ g => Ends files g) (Ends files) s
      ⟨files, false⟩ := by
  refine kept_seq none (confined_incrementCounter.mono fileFree_appends) rfl ?_
  rintro _ s _ rfl
  apply triple_get
  refine kept_seq none (confined_cString.mono fileFree_appends) rfl ?_
  rintro filename s _ rfl
  apply triple_invoke
  rintro _ rfl present known
  refine ⟨trivial, ?_⟩
  refine kept_seq none (confined_sendSimple.mono fileFree_appends) rfl ?_
  rintro failure s _ rfl
  cases failure with
  | some code => exact triple_pure ⟨none, rfl⟩
  | none =>
  refine kept_seq none (confined_incrementCounter.mono fileFree_appends) rfl ?_
  rintro _ s _ rfl
  cases present with
  | true => exact triple_pure ⟨none, rfl⟩
  | false =>
  have absent := Option.not_isSome_iff_eq_none.mp (Bool.eq_false_iff.mp known.symm)
  refine triple_seq (openWrite_triple absent) ?_
  intro manager s g kept
  refine kept_seq _ (confined_receiveChunks rfl) kept ?_
  intro failure s g kept
  cases failure with
  | some code => exact triple_pure ⟨_, kept⟩
  | none =>
      refine triple_mono ?_ ?_ ((confined_sendSimple.mono fileFree_appends).triple (appends_stable files _) kept)
      · exact fun _ _ _ kept => ⟨_, kept⟩
      · exact fun _ kept => ⟨_, kept⟩

end Server

namespace Client
open Watch
variable {host : Endian} {target : Option Bytes}

theorem confined_receiveChunks {left : Nat} {manager : FileManager}
    (streams : manager.m_stream.map Prod.fst = target) :
    (receiveChunks host manager left).Confined (Appends target) := by
  induction left with
  | zero => exact confined_pure
  | succ left ih =>
      apply confined_seq (confined_receiveGeneric.mono fileFree_appends)
      intro received
      cases received with
      | error code => exact confined_pure
      | ok plaintext =>
          apply confined_seq (confined_incrementCounter.mono fileFree_appends)
          intro _
          apply confined_ite confined_pure
          apply confined_seq (confined_writeChunk streams)
          intro result
          exact confined_ite confined_pure ih

/-- However a download ends. -/
theorem downloadRequest_triple (filename : Bytes) (files : FileMap) (s : Session octets) :
    (downloadRequest host filename).triple monitor (fun _ _ g => Ends files g) (Ends files) s
      ⟨files, false⟩ := by
  apply triple_invoke
  rintro _ rfl present known
  refine ⟨trivial, ?_⟩
  cases present with
  | true => exact triple_pure ⟨none, rfl⟩
  | false =>
  have absent := Option.not_isSome_iff_eq_none.mp (Bool.eq_false_iff.mp known.symm)
  apply triple_invoke
  rintro _ rfl filler -
  refine ⟨trivial, ?_⟩
  refine kept_seq none (confined_sendGeneric.mono fileFree_appends) rfl ?_
  rintro failure s _ rfl
  cases failure with
  | some code => exact triple_pure ⟨none, rfl⟩
  | none =>
  refine kept_seq none (confined_incrementCounter.mono fileFree_appends) rfl ?_
  rintro _ s _ rfl
  refine kept_seq none (confined_receiveGeneric.mono fileFree_appends) rfl ?_
  rintro received s _ rfl
  cases received with
  | error code => exact triple_pure ⟨none, rfl⟩
  | ok plaintext =>
  refine kept_seq none (confined_incrementCounter.mono fileFree_appends) rfl ?_
  rintro _ s _ rfl
  apply triple_ite
  · intro _
    exact triple_pure ⟨none, rfl⟩
  · intro _
    apply triple_ite
    · intro _
      exact triple_pure ⟨none, rfl⟩
    · intro _
      refine triple_seq (openWrite_triple absent) ?_
      intro manager s g kept
      refine kept_seq _ (confined_receiveChunks rfl) kept ?_
      intro failure s g kept
      cases failure with
      | some code => exact triple_pure ⟨_, kept⟩
      | none => exact triple_pure ⟨_, kept⟩

end Client

namespace Watch
variable {host : Endian} {files : FileMap} {s t : Session octets}
  {trace : List (Event Op Op.Ans)}

/-- The run has got past the final ACK. -/
def FinalAckSent (host : Endian) (plaintext : Bytes) (s : Session octets)
    (trace : List (Event Op Op.Ans)) : Prop :=
  ∃ first rest t, trace = first ++ rest ∧
    (Server.acceptUpload host plaintext).Returns s first none t

/-- The files after a run that started with these. -/
def left (files : FileMap) (trace : List (Event Op Op.Ans)) : FileMap :=
  (monitor.after ⟨files, false⟩ trace).files

/-- The run has opened a file for writing. -/
def Creates (trace : List (Event Op Op.Ans)) : Prop :=
  ∃ path, ⟨.file (.ofstream_open path), true⟩ ∈ trace

theorem created_step (g : Watch) (e : Event Op Op.Ans) :
    (monitor.step g e.op e.answer).created = true ↔
      g.created = true ∨ ∃ path, ⟨.file (.ofstream_open path), true⟩ = e := by
  obtain ⟨op, answer⟩ := e
  cases op with
  | file call =>
      cases call with
      | ofstream_open path =>
          cases answer with
          | true => simp [FileCall.creates]
          | false => simp [FileCall.creates]
      | _ => simp [FileCall.creates]
  | _ => simp

theorem created_after (g : Watch) :
    (monitor.after g trace).created = true ↔ g.created = true ∨ Creates trace := by
  induction trace generalizing g with
  | nil => simp [Monitor.after, Creates]
  | cons e rest ih =>
      have later : Creates (e :: rest) ↔
          (∃ path, ⟨.file (.ofstream_open path), true⟩ = e) ∨ Creates rest := by
        simp only [Creates, List.mem_cons, exists_or]
      rw [Monitor.after, ih, created_step, later, or_assoc]

theorem left_eq_iff (ends : Ends files (monitor.after ⟨files, false⟩ trace)) :
    left files trace = files ↔ ¬Creates trace := by
  obtain ⟨target, kept⟩ := ends
  rw [left, kept.unchanged_iff, ← Bool.not_eq_true, created_after]
  simp only [Bool.false_eq_true, false_or]

/-- Runs of the two receiving ends of a transfer that fail. -/
theorem failed_transfer_unchanged_iff (host : Endian) (files : FileMap) (s t : Session octets)
    (trace : List (Event Op Op.Ans)) (result : Except Thrown Nat)
    (legal : monitor.LegalTrace ⟨files, false⟩ trace) :
    (∀ plaintext, Runs (Server.uploadRequest host plaintext s) trace (some (result, t)) →
      ¬FinalAckSent host plaintext s trace → (left files trace = files ↔ ¬Creates trace)) ∧
    ∀ filename, Runs (Client.downloadRequest host filename s) trace (some (result, t)) →
      result ≠ .ok Return.SUCCESS.val → (left files trace = files ↔ ¬Creates trace) := by
  constructor
  · intro plaintext run unsent
    rw [Server.uploadRequest_eq, run_bind] at run
    obtain ⟨first, ⟨ending, mid⟩, rest, rfl, start, onward⟩ := Runs.of_bind run
    have sound := triple_sound (fun _ => rfl) (Server.acceptUpload_triple plaintext files s) start
      (Monitor.LegalTrace.append.mp legal).1
    cases ending with
    | error e =>
        cases onward
        rw [List.append_nil]
        exact left_eq_iff (sound.2 e rfl)
    | ok failure =>
        cases failure with
        | none => exact absurd ⟨first, rest, mid, rfl, start⟩ unsent
        | some code =>
            cases onward
            rw [List.append_nil]
            exact left_eq_iff (sound.1 _ rfl)
  · intro filename run _
    obtain ⟨returned, thrown⟩ :=
      triple_sound (fun _ => rfl) (Client.downloadRequest_triple filename files s) run legal
    cases result with
    | ok code => exact left_eq_iff (returned code rfl)
    | error e => exact left_eq_iff (thrown e rfl)

end Watch

namespace Sample
open Watch

/-- The request to upload one byte under the name "a". -/
def uploadOfOneByte : Bytes :=
  Message.UPLOAD_REQUEST.byte :: 97 :: List.replicate 34 0 ++ networkBytes 1

def uploadPath : Bytes := storagePath (ascii "luca") (ascii "a")

/-- The connection breaks before the chunk arrives. -/
def brokenUpload : List (Event Op Op.Ans) :=
  [⟨.file (.ifstream_open uploadPath), false⟩, ⟨.random 70, ([] : Bytes)⟩,
    ⟨.ssl (.encrypt [] (Generic.aad 1) [0]), some ⟨[], [], []⟩⟩,
    ⟨.send (Generic.serialize ⟨Generic.aad 1, ⟨[], [], []⟩⟩), (0 : Int)⟩,
    ⟨.file (.ifstream_open uploadPath), false⟩, ⟨.file (.ofstream_open uploadPath), true⟩,
    ⟨.receive (Generic.getMessageSize 2), (-1, [])⟩]

theorem brokenUpload_returns :
    (Server.acceptUpload .big uploadOfOneByte).Returns ⟨ascii "luca", 0, []⟩ brokenUpload
      (some Return.RECEIVE_FAILURE.val) ⟨ascii "luca", 2, []⟩ := by
  exact .call _ (.call _ (.call _ (.call _ (.call _ (.call _ (.call _ (.done _)))))))

theorem brokenUpload_run :
    Runs (Server.uploadRequest .big uploadOfOneByte ⟨ascii "luca", 0, []⟩) brokenUpload
      (some (.ok Return.RECEIVE_FAILURE.val, ⟨ascii "luca", 2, []⟩)) := by
  rw [Server.uploadRequest_eq, run_bind]
  exact Runs.bind brokenUpload_returns (.done _)

theorem brokenUpload_unsent :
    ¬FinalAckSent .big uploadOfOneByte ⟨ascii "luca", 0, []⟩ brokenUpload := by
  rintro ⟨first, rest, t, split, sent⟩
  have both := brokenUpload_returns
  rw [split] at both
  exact nomatch (Runs.determined sent both).2

theorem brokenUpload_legal : monitor.LegalTrace ⟨fun _ => none, false⟩ brokenUpload :=
  ⟨rfl, trivial, trivial, trivial, rfl, trivial, trivial, trivial⟩

end Sample

/-- The empty file stays, and the next upload under its name is refused. -/
theorem broken_upload_leaves_file :
    Runs (Server.uploadRequest .big Sample.uploadOfOneByte ⟨ascii "luca", 0, []⟩)
      Sample.brokenUpload (some (.ok Return.RECEIVE_FAILURE.val, ⟨ascii "luca", 2, []⟩)) ∧
    ¬Watch.FinalAckSent .big Sample.uploadOfOneByte ⟨ascii "luca", 0, []⟩ Sample.brokenUpload ∧
    Watch.left (fun _ => none) Sample.brokenUpload Sample.uploadPath = some [] := by
  refine ⟨Sample.brokenUpload_run, Sample.brokenUpload_unsent, ?_⟩
  have created : Watch.left (fun _ => none) Sample.brokenUpload =
      FileMap.put (fun _ => none) Sample.uploadPath [] := rfl
  rw [created, FileMap.put_self]

theorem broken_upload_creates :
    Watch.left (fun _ => none) Sample.brokenUpload = (fun _ => none) ↔
      ¬Watch.Creates Sample.brokenUpload :=
  (Watch.failed_transfer_unchanged_iff .big (fun _ => none) ⟨ascii "luca", 0, []⟩
    ⟨ascii "luca", 2, []⟩ Sample.brokenUpload (.ok Return.RECEIVE_FAILURE.val)
    Sample.brokenUpload_legal).1 Sample.uploadOfOneByte Sample.brokenUpload_run
    Sample.brokenUpload_unsent

end CloudStorage
