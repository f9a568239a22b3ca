import CloudStorage.Session.Losses
import CloudStorage.Session.Oversize
import CloudStorage.Session.Standstill

/-! What a reported success of an upload or a download is worth when files may fail: whether
the target holds the bytes of the source follows from the diaries of both sides. -/
namespace CloudStorage
open Interaction Code Method

namespace Loose

variable {C : Crypto} {H J : Habit} {host : Endian} {username filename key : Bytes}
  {m_counter : UInt32} {rounds : Nat} {scene scene' : Scene}

inductive Transfer where
  | upload
  | download
  deriving DecidableEq, Repr

/-- A client with one transfer to do and a server at the start of its loop. -/
abbrev Trip (C : Crypto) (H J : Habit) :=
  Pair C H J (Except Thrown Nat × Session octets) (Except Thrown Unit × Session octets)

namespace Transfer

def request (host : Endian) (filename : Bytes) : Transfer → Method Nat
  | .upload => Client.uploadRequest host filename
  | .download => Client.downloadRequest host filename

/-- The diary of the side that reads. -/
def source (c : Trip C H J) : Transfer → List Entry
  | .upload => c.here.diary
  | .download => c.there.diary

/-- The diary of the side that writes. -/
def target (c : Trip C H J) : Transfer → List Entry
  | .upload => c.there.diary
  | .download => c.here.diary

/-- The path at the side that reads. -/
def origin (username filename : Bytes) : Transfer → Bytes
  | .upload => Client.localPath filename
  | .download => storagePath username filename

/-- The path at the side that writes. -/
def goal (username filename : Bytes) : Transfer → Bytes
  | .upload => storagePath username filename
  | .download => Client.localPath filename

/-- The size of the file fits the field of the request that carries it. -/
def Carries : Transfer → Entry → Prop
  | .upload => Entry.Measured
  | .download => fun _ => True

/-- What both sides have done when the client returns the code. -/
def Ends (username filename : Bytes) (code : Nat) (source target : List Entry) : Transfer → Prop
  | .upload => Uploaded (Client.localPath filename) (storagePath username filename) code source target
  | .download => code = Return.SUCCESS.val →
      Downloaded (Client.localPath filename) (storagePath username filename) target source ∨
        ∃ file_size, ¬Fits file_size ∧ Measures (storagePath username filename) file_size source

end Transfer

def departure (C : Crypto) (H J : Habit) (host : Endian) (rounds : Nat) (transfer : Transfer)
    (filename : Bytes) (s : Session octets) (scene scene' : Scene) : Trip C H J :=
  ⟨transfer.request host filename s, Server.serve host (rounds + 2) s, ⟨scene, []⟩, ⟨scene', []⟩,
    [], []⟩

/-- A client that has returned leaves both diaries as the transfer says. -/
def Arrived (transfer : Transfer) (username filename : Bytes) (c : Trip C H J) : Prop :=
  ∀ code t, c.left = .done (.ok code, t) →
    transfer.Ends username filename code (transfer.source c) (transfer.target c)

theorem upload_arrives (registered : J.keyFile = .key ())
    (name : FileManager.isStringValid username = true)
    (valid : FileManager.isStringValid filename = true)
    (carried : ∀ b path, ¬H.Files b (.seek_end path) (some Config.MAX_FILE_SIZE)) :
    Link.Good (pact fun c => (∃ code t, c.left = .done (.ok code, t)) ∧
        Arrived .upload username filename c)
      (departure C H J host rounds .upload filename ⟨username, m_counter, key⟩ scene scene') := by
  have good : Waiting (fun c : Trip C H J => (∃ code t, c.left = .done (.ok code, t)) ∧
      Arrived .upload username filename c) host .done
      (((Client.uploadRequest host filename >>= pure) ⟨username, m_counter, key⟩).bind .done)
      (rounds + 1) ⟨username, m_counter, key⟩ ⟨scene, []⟩ ⟨scene', []⟩ := by
    apply upload (C := C) (H := H) registered name valid carried
    intro code entries entries' outcome after after' diary diary' left _ m_counter key
    apply closed
    refine ⟨⟨code, _, rfl⟩, ?_⟩
    rintro _ _ ⟨⟩
    change Uploaded _ _ _ after.diary after'.diary
    rw [diary, diary']
    exact outcome
  have started := settle good
  rw [Code.bind_pure, Program.bind_done, Program.bind_done] at started
  exact started

theorem download_arrives (registered : J.keyFile = .key ())
    (name : FileManager.isStringValid username = true)
    (valid : FileManager.isStringValid filename = true) :
    Link.Good (pact (Arrived .download username filename))
      (departure C H J host rounds .download filename ⟨username, m_counter, key⟩ scene scene') := by
  have good : Waiting (Arrived (C := C) (H := H) (J := J) .download username filename) host .done
      (((Client.downloadRequest host filename >>= pure) ⟨username, m_counter, key⟩).bind .done)
      (rounds + 1) ⟨username, m_counter, key⟩ ⟨scene, []⟩ ⟨scene', []⟩ := by
    apply download (C := C) (H := H) registered name valid
    · intro _ _ file_size _ unfit c entries' measures diary
      apply Link.Good.anyhow (carefree _)
      intro d run _ _ code t _ _
      obtain ⟨more, grown⟩ := (reaches_grows run).2
      obtain ⟨first, second, later, rfl⟩ := measures
      refine .inr ⟨file_size, unfit, first, second, later ++ more, ?_⟩
      change d.there.diary = _
      rw [← grown, diary]
      rfl
    · exact fun e t => ⟨_, rfl⟩
    · rintro - c ⟨op, next, calls⟩ code t ended
      exact nomatch calls.symm.trans ended
    · intro code entries entries' outcome after after' diary diary' left _ m_counter key
      apply closed
      rintro _ _ ⟨⟩ success
      refine .inl ?_
      change Downloaded _ _ after.diary after'.diary
      rw [diary, diary']
      exact outcome success
  have started := settle good
  rw [Code.bind_pure, Program.bind_done, Program.bind_done] at started
  exact started

/-- A client that reports a download as successful has filled its file, whatever came. -/
theorem download_filled {d : Trip C H J} {t : Session octets}
    (run : Link.Reaches (departure C H J host rounds .download filename ⟨username, m_counter, key⟩
      scene scene') d)
    (success : d.left = .done (.ok Return.SUCCESS.val, t)) :
    Filled (Client.localPath filename) d.here.diary := by
  have alone : (Client.downloadRequest host filename).wp (loose C H .client).alone
      (fun code _ after => code = Return.SUCCESS.val → ∃ entries,
        after.diary = [] ++ entries ∧ Filled (Client.localPath filename) entries)
      ⟨username, m_counter, key⟩ ⟨scene, []⟩ := downloadRequest_alone
  have owes := run.left_alone alone
  rw [success] at owes
  obtain ⟨entries, diary, filled⟩ := owes _ rfl rfl
  rw [diary]
  exact filled

/-- A file whose size does not fit is never downloaded: what is written is shorter. -/
theorem Filled.short {here held : Bytes} {target source : List Entry} {file_size : Nat}
    {taken : Nat → Nat} {map : FileMap} (filled : Filled here target)
    (length : held.length = file_size) (unfit : ¬Fits file_size) :
    replay taken 0 map target here = some held ↔ Delivers taken map here held source target := by
  obtain ⟨scene, scene', writer, creating, writes, chunks, rfl, creates, puts, few⟩ := filled
  have large : 2 ^ 32 ≤ held.length := length ▸ Nat.not_lt.mp fun small => unfit (.inl small)
  cases creates with
  | present =>
      obtain rfl := puts.none_
      exact Iff.rfl
  | refused =>
      obtain rfl := puts.none_
      exact Iff.rfl
  | created =>
      constructor
      · intro holds
        obtain ⟨content, same, short, -, -⟩ := puts.content (FileMap.put_self map here [])
        have left : replay taken 0 map (⟨scene, .ifstream_open here, false⟩ ::
            ([⟨scene', .ifstream_open here, false⟩, ⟨scene', .ofstream_open here, true⟩] ++ writes))
            here = some content := same
        obtain rfl := Option.some.inj (left.symm.trans holds)
        rw [List.length_nil, Nat.zero_add] at short
        exact absurd (Nat.le_trans large short) (Nat.not_le.mpr few)
      · rintro ⟨-, rfl⟩
        have short := buffers_length (chunkSizes (told source).toUInt32.toNat) (stale source)
          (readings source)
        rw [chunkSizes_sum] at short
        exact absurd (Nat.le_trans large short) (Nat.not_le.mpr (told source).toUInt32.toNat_lt)

/-- From the diaries of a transfer: the file that was opened, and when the target holds it. -/
theorem Carried.true_iff {path other : Bytes} {source target early early' : List Entry}
    {taken taken' : Nat → Nat} {map map' : FileMap} {keyFile : KeyFile Unit}
    (carried : Carried path other source target)
    (legal : Legal (faulty taken map keyFile) (early ++ source))
    (looks : ∀ entry ∈ early, entry.call.Looks)
    (looks' : ∀ entry ∈ early', entry.call.Looks) (plain : early.filterMap Entry.size = [])
    (unread : early.filterMap Entry.reading = []) (found : (map path).isSome = true) :
    ∃ held, map path = some held ∧
      (replay taken' 0 map' (early' ++ target) other = some held ↔
        Delivers taken' map' other held (early ++ source) (early' ++ target)) := by
  obtain ⟨held, there⟩ := Option.isSome_iff_exists.mp found
  exact ⟨held, there,
    carried.delivered looks' plain unread (carried.told_le legal looks plain there)⟩

theorem uploaded_carried {here there : Bytes} {source target : List Entry}
    (uploaded : Uploaded here there Return.SUCCESS.val source target) :
    ∃ scene scene' later later', source = ⟨scene, .ifstream_open here, true⟩ :: later ∧
      target = ⟨scene', .ifstream_open there, false⟩ :: later' ∧ Carried here there later later' := by
  generalize succeeded : Return.SUCCESS.val = code at uploaded
  cases uploaded with
  | absent => exact absurd succeeded (by decide)
  | unfit => exact absurd succeeded (by decide)
  | refused => exact absurd succeeded (by decide)
  | carried scene scene' carried => exact ⟨scene, scene', _, _, rfl, rfl, carried⟩

namespace Transfer

/-- The side that reads, of a pair given for the client and the server. -/
def reading {α : Type} (client server : α) : Transfer → α
  | .upload => client
  | .download => server

/-- The side that writes. -/
def writing {α : Type} (client server : α) : Transfer → α
  | .upload => server
  | .download => client

end Transfer

/-- When the client reports success and the server is at rest again: the target holds the
bytes that the file of the source had, if and only if it could be created, every chunk has
arrived whole and the chunk buffer held those bytes whenever it was sent, or the target had
them already. -/
theorem reported_success (C : Crypto) (host : Endian) (transfer : Transfer)
    (username filename key : Bytes) (m_counter : UInt32) (rounds : Nat) (files storage : FileMap)
    (taken taken' : Nat → Nat) (own : KeyFile Unit) (scene scene' : Scene)
    (name : FileManager.isStringValid username = true)
    (valid : FileManager.isStringValid filename = true)
    {d : Trip C (faulty taken files own) (faulty taken' storage (.key ()))} {t : Session octets}
    (run : Link.Reaches
      (departure C _ _ host rounds transfer filename ⟨username, m_counter, key⟩ scene scene') d)
    (success : d.left = .done (.ok Return.SUCCESS.val, t)) (rest : ¬Link.CanRight d)
    (carries : ∀ entry ∈ transfer.source d, transfer.Carries entry) :
    ∃ held, transfer.reading files storage (transfer.origin username filename) = some held ∧
      (replay (transfer.writing taken taken') 0 (transfer.writing files storage)
          (transfer.target d) (transfer.goal username filename) = some held ↔
        Delivers (transfer.writing taken taken') (transfer.writing files storage)
          (transfer.goal username filename) held (transfer.source d) (transfer.target d)) := by
  obtain ⟨legal, legal'⟩ := reaches_legal run legal_nil legal_nil
  have ended : ¬Link.CanLeft d := by
    rintro ⟨op, next, calls, -⟩
    exact nomatch success.symm.trans calls
  cases transfer with
  | upload =>
      have good : Link.Good (pact fun c => (∃ code t, c.left = .done (.ok code, t)) ∧
          Arrived .upload username filename c)
          (departure C (measured own) (anything (.key ())) host rounds .upload filename
            ⟨username, m_counter, key⟩ scene scene') :=
        upload_arrives rfl name valid fun _ _ known => known rfl
      have recast_ : Link.Reaches (departure C (measured own) (anything (.key ())) host rounds
          .upload filename ⟨username, m_counter, key⟩ scene scene') (recast d) :=
        recast_reaches run carries fun _ _ => trivial
      obtain ⟨scene, scene', source, target, diary, diary', carried⟩ :=
        uploaded_carried (((good.reaches recast_).ends ended rest).2 _ _ success)
      change d.here.diary = _ at diary
      change d.there.diary = _ at diary'
      change ∃ held, files (Client.localPath filename) = some held ∧
        (replay taken' 0 storage d.there.diary (storagePath username filename) = some held ↔
          Delivers taken' storage (storagePath username filename) held d.here.diary d.there.diary)
      rw [diary] at legal
      rw [diary, diary']
      have found : (files (Client.localPath filename)).isSome = true := legal [] _ source rfl rfl
      have looks : ∀ entry ∈ [(⟨scene, .ifstream_open (Client.localPath filename), true⟩ : Entry)],
          entry.call.Looks := fun entry member => List.mem_singleton.mp member ▸ trivial
      have looks' : ∀ entry ∈
          [(⟨scene', .ifstream_open (storagePath username filename), false⟩ : Entry)],
          entry.call.Looks := fun entry member => List.mem_singleton.mp member ▸ trivial
      exact carried.true_iff legal looks looks' rfl rfl found
  | download =>
      change ∃ held, storage (storagePath username filename) = some held ∧
        (replay taken 0 files d.here.diary (Client.localPath filename) = some held ↔
          Delivers taken files (Client.localPath filename) held d.there.diary d.here.diary)
      have good : Link.Good (pact (Arrived .download username filename))
          (departure C (faulty taken files own) (faulty taken' storage (.key ())) host rounds
            .download filename ⟨username, m_counter, key⟩ scene scene') :=
        download_arrives rfl name valid
      have filled := download_filled run success
      cases (good.reaches run).ends ended rest _ _ success rfl with
      | inl downloaded =>
          obtain ⟨scene, scene', source, target, diary, diary', carried⟩ := downloaded
          change d.here.diary = _ at diary
          change d.there.diary = _ at diary'
          rw [diary'] at legal'
          rw [diary, diary']
          have found : (storage (storagePath username filename)).isSome = true :=
            legal' [] _ _ rfl rfl
          have looks : ∀ entry ∈
              [(⟨scene, .ifstream_open (Client.localPath filename), false⟩ : Entry)],
              entry.call.Looks := fun entry member => List.mem_singleton.mp member ▸ trivial
          have looks' : ∀ entry ∈
              [(⟨scene', .ifstream_open (storagePath username filename), true⟩ : Entry),
                ⟨scene', .is_regular_file (storagePath username filename), some true⟩,
                ⟨scene', .is_symlink (storagePath username filename), some false⟩],
              entry.call.Looks := by
            simp [FileCall.Looks]
          exact carried.true_iff legal' looks' looks rfl rfl found
      | inr oversized =>
          obtain ⟨file_size, unfit, scene, scene', later, diary'⟩ := oversized
          change d.there.diary = _ at diary'
          rw [diary'] at legal' ⊢
          have measured : (storage (storagePath username filename)).map List.length =
              some file_size := legal' [_, _, _, _] _ later rfl file_size rfl
          obtain ⟨held, there, length⟩ := Option.map_eq_some_iff.mp measured
          exact ⟨held, there, filled.short length unfit⟩

theorem answers_widen {H' : Habit} {role : Role} {b : Bench} {op : Op} {arrived : Bytes}
    {answer : op.Ans} (files : ∀ b call answer, H.Files b call answer → H'.Files b call answer)
    (same : H.keyFile = H'.keyFile) (answers : Answers C H role b op arrived answer) :
    Answers C H' role b op arrived answer := by
  cases op with
  | file call => exact files b call answer answers
  | ssl call =>
      cases call with
      | readPublicKey path =>
          have found : H'.found C role = H.found C role := by
            cases role with
            | client => rfl
            | server => rw [Habit.found, Habit.found, same]
          exact answers.trans found.symm
      | _ => exact answers
  | _ => exact answers

/-- Machines whose files may do more can do all that others do. -/
theorem widen_reaches {H' J' : Habit} {α β : Type} {c d : Pair C H J α β}
    (files : ∀ b call answer, H.Files b call answer → H'.Files b call answer)
    (files' : ∀ b call answer, J.Files b call answer → J'.Files b call answer)
    (same : H.keyFile = H'.keyFile) (same' : J.keyFile = J'.keyFile) (run : Link.Reaches c d) :
    Link.Reaches (recast c : Pair C H' J' α β) (recast d) := by
  induction run with
  | refl => exact .refl _
  | @next c d e step _ ih =>
      refine .next ?_ ih
      cases step with
      | left step =>
          obtain ⟨op, next, answer, calls, enough, answers, rfl⟩ := step
          exact .left ⟨op, next, answer, calls, enough, answers_widen files same answers, rfl⟩
      | right step =>
          obtain ⟨op, next, answer, calls, enough, answers, moved⟩ := step
          obtain rfl : d = Link.swap _ := congrArg Link.swap moved
          exact .right ⟨op, next, answer, calls, enough, answers_widen files' same' answers, rfl⟩

section Sample

/-- What files answer that only differ in whether new ones can be created. They tell the size
of small files only. -/
def reply (creatable : Bool) (map : FileMap) : (call : FileCall) → call.Ans
  | .ifstream_open path => (map path).isSome
  | .ofstream_open _ => creatable
  | .seek_end path => ((map path).map List.length).filter (· < Config.MAX_FILE_SIZE)
  | .read path position size => (((map path).getD []).drop position).take size
  | .write _ _ => ()
  | .exists_ _ => some true
  | .directory_iterator _ => none
  | .is_regular_file _ => some true
  | .is_symlink _ => some false
  | .rename _ _ | .remove _ => (0 : Int)

theorem reply_possible (creatable : Bool) (map : FileMap) (scene : Scene) (call : FileCall) :
    Entry.Possible map ⟨scene, call, reply creatable map call⟩ := by
  cases call with
  | ifstream_open path => exact id
  | seek_end path => exact fun _ told => (Option.filter_eq_some_iff.mp told).1
  | read path position size => exact List.prefix_rfl
  | _ => trivial

def steady (creatable : Bool) (map : FileMap) : Habit where
  Files b call answer :=
    answer = reply creatable (replay (fun _ => Config.CHUNK_SIZE) 0 map b.diary) call
  files _ _ := ⟨_, rfl⟩
  keyFile := .key ()

theorem steady_faulty {creatable : Bool} {map : FileMap} (b : Bench) (call : FileCall)
    (answer : call.Ans) (files : (steady creatable map).Files b call answer) :
    (faulty (fun _ => Config.CHUNK_SIZE) map (.key ())).Files b call answer := by
  cases files with
  | refl => exact reply_possible creatable _ b.scene call

theorem steady_small {creatable : Bool} {map : FileMap} (b : Bench) (path : Bytes) :
    ¬(steady creatable map).Files b (.seek_end path) (some Config.MAX_FILE_SIZE) := by
  intro told
  have below := (Option.filter_eq_some_iff.mp (Eq.symm told)).2
  exact absurd (of_decide_eq_true below) (Nat.lt_irrefl _)

theorem steady_measured {creatable : Bool} {map : FileMap} {diary : List Entry}
    (legal : Legal (steady creatable map) diary) : ∀ entry ∈ diary, entry.Measured := by
  intro entry member
  obtain ⟨before, after, parts⟩ := List.append_of_mem member
  have answered := legal before entry after parts
  obtain ⟨scene, call, answer⟩ := entry
  cases call with
  | seek_end path =>
      intro limit
      exact steady_small _ path (limit ▸ answered)
  | _ => trivial

def vacant : FileMap := fun _ => none

/-- One file of two bytes at the client. -/
def folder : FileMap := vacant.put (Client.localPath (ascii "f")) [1, 2]

/-- The client uploads its file. -/
theorem uploads (creatable : Bool) :
    ∃ (d : Trip Sample.crypto (faulty (fun _ => Config.CHUNK_SIZE) folder (.key ()))
        (faulty (fun _ => Config.CHUNK_SIZE) vacant (.key ()))) (t : Session octets),
      Link.Reaches (departure _ _ _ .little 8 .upload (ascii "f") ⟨ascii "luca", 0, []⟩
        start.scene start.scene) d ∧ d.left = .done (.ok Return.SUCCESS.val, t) ∧
      ¬Link.CanRight d ∧ Legal (steady true folder) d.here.diary ∧
      Legal (steady creatable vacant) d.there.diary ∧
      ∃ scene scene' source target, d.here.diary =
          ⟨scene, .ifstream_open (Client.localPath (ascii "f")), true⟩ :: source ∧
        d.there.diary =
          ⟨scene', .ifstream_open (storagePath (ascii "luca") (ascii "f")), false⟩ :: target ∧
        Carried (Client.localPath (ascii "f")) (storagePath (ascii "luca") (ascii "f"))
          source target := by
  have name : FileManager.isStringValid (ascii "luca") = true := by decide
  have valid : FileManager.isStringValid (ascii "f") = true := by decide
  have good : Link.Good (pact fun c => (∃ code t, c.left = .done (.ok code, t)) ∧
      Arrived .upload (ascii "luca") (ascii "f") c)
      (departure Sample.crypto (steady true folder) (steady creatable vacant) .little 8 .upload
        (ascii "f") ⟨ascii "luca", 0, []⟩ start.scene start.scene) :=
    upload_arrives rfl name valid steady_small
  obtain ⟨c, run, left, right⟩ := good.halts
  obtain ⟨⟨code, t, ended⟩, arrived⟩ := (good.reaches run).ends left right
  obtain ⟨legal, legal'⟩ := reaches_legal run legal_nil legal_nil
  have uploaded := arrived code t ended
  change Uploaded _ _ _ c.here.diary c.there.diary at uploaded
  generalize here : c.here.diary = source at uploaded legal
  generalize there : c.there.diary = target at uploaded legal'
  cases uploaded with
  | absent scene =>
      have answer : false = (folder (Client.localPath (ascii "f"))).isSome := legal [] _ [] rfl
      exact nomatch answer
  | @unfit scene scene' reader opening opens wrong =>
      cases opens with
      | refused =>
          have answer : false = (folder (Client.localPath (ascii "f"))).isSome :=
            legal [_] _ [] rfl
          exact nomatch answer
      | unsized =>
          have answer : none = some 2 := legal [_, _] _ [] rfl
          exact nomatch answer
      | sized file_size =>
          have answer : some file_size = some 2 := legal [_, _] _ [] rfl
          obtain rfl := Option.some.inj answer
          exact absurd wrong (by decide)
  | refused scene =>
      have answer : true = (vacant (storagePath (ascii "luca") (ascii "f"))).isSome :=
        legal' [] _ [] rfl
      exact nomatch answer
  | carried scene scene' carried =>
      exact ⟨recast c, t, widen_reaches steady_faulty steady_faulty rfl rfl run, ended, right,
        here.symm ▸ legal, there.symm ▸ legal', scene, scene', _, _, here, there, carried⟩

theorem reported_success_sample :
    ∃ (d : Trip Sample.crypto (faulty (fun _ => Config.CHUNK_SIZE) folder (.key ()))
        (faulty (fun _ => Config.CHUNK_SIZE) vacant (.key ()))) (t : Session octets),
      d.left = .done (.ok Return.SUCCESS.val, t) ∧
      ∃ held, folder (Client.localPath (ascii "f")) = some held ∧
        (replay (fun _ => Config.CHUNK_SIZE) 0 vacant d.there.diary
            (storagePath (ascii "luca") (ascii "f")) = some held ↔
          Delivers (fun _ => Config.CHUNK_SIZE) vacant (storagePath (ascii "luca") (ascii "f"))
            held d.here.diary d.there.diary) := by
  obtain ⟨d, t, run, success, rest, legal, -⟩ := uploads true
  have name : FileManager.isStringValid (ascii "luca") = true := by decide
  have valid : FileManager.isStringValid (ascii "f") = true := by decide
  exact ⟨d, t, success, reported_success Sample.crypto .little .upload (ascii "luca") (ascii "f") []
    0 8 folder vacant _ _ (.key ()) _ _ name valid run success rest (steady_measured legal)⟩

/-- The file could not be created at the server, and nothing holds the two bytes. -/
theorem uncreated_reported :
    ∃ (d : Trip Sample.crypto (faulty (fun _ => Config.CHUNK_SIZE) folder (.key ()))
        (faulty (fun _ => Config.CHUNK_SIZE) vacant (.key ()))) (t : Session octets),
      Link.Reaches (departure _ _ _ .little 8 .upload (ascii "f") ⟨ascii "luca", 0, []⟩
        start.scene start.scene) d ∧ d.left = .done (.ok Return.SUCCESS.val, t) ∧
      ¬Link.CanRight d ∧ folder (Client.localPath (ascii "f")) = some [1, 2] ∧
      replay (fun _ => Config.CHUNK_SIZE) 0 vacant d.there.diary
        (storagePath (ascii "luca") (ascii "f")) = none := by
  obtain ⟨d, t, run, success, rest, -, legal, scene, scene', source, target, -, there, carried⟩ :=
    uploads false
  refine ⟨d, t, run, success, rest, rfl, ?_⟩
  rw [there] at legal ⊢
  obtain ⟨_, later, _, _, _, _, writer, creating, reads, writes, chunks, -, creates, -, puts, -, -,
    rfl⟩ := carried
  cases creates with
  | present =>
      have answer : true = (vacant (storagePath (ascii "luca") (ascii "f"))).isSome :=
        legal [_] _ writes rfl
      exact nomatch answer
  | refused =>
      obtain rfl := puts.none_
      rfl
  | created =>
      have answer : true = false := legal [_, _] _ writes rfl
      exact nomatch answer

end Sample

end Loose
end CloudStorage
