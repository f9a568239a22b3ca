import CloudStorage.Session.Transparency
import CloudStorage.Storage.Volume

/-! A session of one user as operations on two maps of files. -/
namespace CloudStorage
open Interaction Code Method Party

/-- The files of the client and those of the server. -/
structure Maps where
  files : FileMap
  storage : FileMap

namespace Maps
variable (username : Bytes)

/-- What an operation returns and leaves; `confirms` is the decision of the user. -/
def perform (maps : Maps) (confirms : Bool) : Errand → Nat × Maps
  | .list => (Return.SUCCESS.val, maps)
  | .download filename =>
      match maps.files (Client.localPath filename) with
      | some _ => (Return.FILE_ALREADY_EXISTS.val, maps)
      | none =>
          match maps.storage (storagePath username filename) with
          | none => (Return.FILE_NOT_FOUND.val, maps)
          | some content =>
              (Return.SUCCESS.val,
                { maps with files := maps.files.put (Client.localPath filename) content })
  | .upload filename =>
      match maps.files (Client.localPath filename) with
      | none => (Return.FILE_NOT_FOUND.val, maps)
      | some content =>
          if content.length = 0 ∨ Config.MAX_FILE_SIZE < content.length then
            (Return.WRONG_FILE_SIZE.val, maps)
          else
            match maps.storage (storagePath username filename) with
            | some _ => (Return.FILE_ALREADY_EXISTS.val, maps)
            | none =>
                (Return.SUCCESS.val,
                  { maps with storage := maps.storage.put (storagePath username filename) content })
  | .rename old_file_name new_file_name =>
      match maps.storage (storagePath username old_file_name) with
      | none => (Return.FILE_NOT_FOUND.val, maps)
      | some content =>
          match maps.storage (storagePath username new_file_name) with
          | some _ => (Return.FILE_ALREADY_EXISTS.val, maps)
          | none =>
              let moved := maps.storage.move (storagePath username old_file_name)
                (storagePath username new_file_name) content
              (Return.SUCCESS.val, { maps with storage := moved })
  | .delete filename =>
      if confirms then
        (Return.SUCCESS.val,
          { maps with storage := maps.storage.drop (storagePath username filename) })
      else (Return.NO_DELETE_CONFIRM.val, maps)

/-- Uploads of a size that travels, and deletions of files that are there. -/
def Allows (maps : Maps) : Errand → Prop
  | .list => False
  | .download _ | .rename _ _ => True
  | .upload filename => ∀ content, maps.files (Client.localPath filename) = some content →
      content.length ≠ Config.MAX_FILE_SIZE
  | .delete filename => maps.storage (storagePath username filename) ≠ none

/-- The codes of operations that follow one another and what they leave. -/
def performAll (maps : Maps) : List (Errand × Bool) → List Nat × Maps
  | [] => ([], maps)
  | (errand, confirms) :: rest =>
      let result := maps.perform username confirms errand
      let later := result.2.performAll rest
      (result.1 :: later.1, later.2)

def AllowsAll (maps : Maps) : List (Errand × Bool) → Prop
  | [] => True
  | (errand, confirms) :: rest =>
      (∀ filename ∈ errand.names, FileManager.isStringValid filename = true) ∧
        maps.Allows username errand ∧ (maps.perform username confirms errand).2.AllowsAll rest

variable {username} {maps : Maps} {before after : List (Errand × Bool)}

theorem AllowsAll.first (allows : maps.AllowsAll username (before ++ after)) :
    maps.AllowsAll username before := by
  induction before generalizing maps with
  | nil => trivial
  | cons order before ih =>
      obtain ⟨names, allowed, later⟩ := allows
      exact ⟨names, allowed, ih later⟩

theorem AllowsAll.rest (allows : maps.AllowsAll username (before ++ after)) :
    (maps.performAll username before).2.AllowsAll username after := by
  induction before generalizing maps with
  | nil => exact allows
  | cons order before ih =>
      obtain ⟨names, allowed, later⟩ := allows
      exact ih later

variable (username)

/-- Every file of the user is shorter than 2^32 bytes. -/
def Short (maps : Maps) : Prop :=
  ∀ filename content, maps.storage (storagePath username filename) = some content →
    content.length < 2 ^ 32

end Maps

namespace Lockstep
variable {C : Crypto} {F G : Computer} {host : Endian} {username : Bytes}
  {V : Volume F.toFileStore} {W : Volume G.toFileStore} {maps : Maps} {files : F.State}
  {storage : G.State}

/-- No operation makes a file of the user longer than the protocol carries. -/
theorem short_perform (short : maps.Short username) (confirms : Bool)
    (errand : Errand) : (maps.perform username confirms errand).2.Short username := by
  have placed : ∀ (map : FileMap) filename content, content.length < 2 ^ 32 →
      (∀ other held, map (storagePath username other) = some held → held.length < 2 ^ 32) →
      ∀ other held, map.put (storagePath username filename) content (storagePath username other) =
        some held → held.length < 2 ^ 32 := by
    intro map filename content limit short other held found
    simp only [FileMap.put, Function.update_apply] at found
    split at found
    · rw [← Option.some.inj found]
      exact limit
    · exact short other held found
  have dropped : ∀ filename other held,
      maps.storage.drop (storagePath username filename) (storagePath username other) =
        some held → held.length < 2 ^ 32 := by
    intro filename other held found
    simp only [FileMap.drop, Function.update_apply] at found
    split at found
    · cases found
    · exact short other held found
  cases errand with
  | list => exact short
  | download filename =>
      simp only [Maps.perform]
      split
      · exact short
      · split
        · exact short
        · exact short
  | upload filename =>
      simp only [Maps.perform]
      split
      · exact short
      · rename_i content _
        split
        · exact short
        · rename_i fits
          split
          · exact short
          · refine placed _ _ _ ?_ short
            have limit : Config.MAX_FILE_SIZE = 4000000000 := rfl
            omega
  | rename old_file_name new_file_name =>
      simp only [Maps.perform]
      split
      · exact short
      · rename_i content there
        split
        · exact short
        · exact placed _ _ _ (short _ _ there) (dropped _)
  | delete filename =>
      simp only [Maps.perform]
      split
      · exact dropped filename
      · exact short

section Outcome
variable {filename : Bytes}

/-- A download between two file systems is a download between their maps. -/
theorem downloads_performs (here : V.Plain (Client.localPath filename))
    (there : W.Plain (storagePath username filename)) (shows : V.Shows files maps.files)
    (shows' : W.Shows storage maps.storage) (confirms : Bool) :
    let result := downloads files storage (Client.localPath filename)
      (storagePath username filename)
    let performed := maps.perform username confirms (.download filename)
    result.1 = performed.1 ∧ V.Shows result.2 performed.2.files ∧
      W.Shows storage performed.2.storage := by
  simp only [downloads, Maps.perform, shows.present here]
  cases absent : maps.files (Client.localPath filename) with
  | some held => exact ⟨rfl, shows, shows'⟩
  | none =>
      rw [if_neg (by exact Bool.false_ne_true)]
      simp only [shows'.downloadable there]
      cases found : maps.storage (storagePath username filename) with
      | none => exact ⟨rfl, shows, shows'⟩
      | some content => exact ⟨rfl, shows.copied here absent shows' there found, shows'⟩

theorem uploads_performs (here : V.Plain (Client.localPath filename))
    (there : W.Plain (storagePath username filename)) (shows : V.Shows files maps.files)
    (shows' : W.Shows storage maps.storage) (confirms : Bool) :
    let result := uploads files storage (Client.localPath filename)
      (storagePath username filename)
    let performed := maps.perform username confirms (.upload filename)
    result.1 = performed.1 ∧ V.Shows files performed.2.files ∧
      W.Shows result.2 performed.2.storage := by
  simp only [uploads, Maps.perform, shows.present here, shows'.present there]
  cases found : maps.files (Client.localPath filename) with
  | none => exact ⟨rfl, shows, shows'⟩
  | some content =>
      have size : (F.reader files (Client.localPath filename)).m_file_size = content.length := by
        rw [shows.reader here found]
        rfl
      dsimp only [Option.isSome_some]
      rw [if_pos rfl, size]
      by_cases wrong : content.length = 0 ∨ Config.MAX_FILE_SIZE < content.length
      · rw [if_pos wrong, if_pos wrong]
        exact ⟨rfl, shows, shows'⟩
      · rw [if_neg wrong, if_neg wrong]
        cases absent : maps.storage (storagePath username filename) with
        | some held => exact ⟨rfl, shows, shows'⟩
        | none => exact ⟨rfl, shows, shows'.copied there absent shows here found⟩

theorem renames_performs {old_file_name new_file_name : Bytes}
    (from_ : W.Plain (storagePath username old_file_name))
    (to_ : W.Plain (storagePath username new_file_name)) (shows : V.Shows files maps.files)
    (shows' : W.Shows storage maps.storage) (confirms : Bool) :
    let result := G.renames storage (storagePath username old_file_name)
      (storagePath username new_file_name)
    let performed := maps.perform username confirms (.rename old_file_name new_file_name)
    renameCode result.1 = performed.1 ∧ V.Shows files performed.2.files ∧
      W.Shows result.2 performed.2.storage := by
  simp only [FileStore.renames, Maps.perform, shows'.present from_, shows'.present to_]
  cases found : maps.storage (storagePath username old_file_name) with
  | none => exact ⟨rfl, shows, shows'⟩
  | some content =>
      cases absent : maps.storage (storagePath username new_file_name) with
      | some held => exact ⟨rfl, shows, shows'⟩
      | none =>
          obtain ⟨answer, moved⟩ := shows'.after_rename from_ to_ found absent
          dsimp only [Option.isSome_some, Option.isSome_none]
          rw [if_pos rfl, if_neg Bool.false_ne_true, if_pos answer]
          exact ⟨rfl, shows, moved⟩

theorem removes_performs (there : W.Plain (storagePath username filename))
    (shows' : W.Shows storage maps.storage)
    (present : maps.storage (storagePath username filename) ≠ none) :
    ∃ storage', removes storage (storagePath username filename) = some storage' ∧
      W.Shows storage' (maps.storage.drop (storagePath username filename)) := by
  obtain ⟨held, found⟩ := Option.ne_none_iff_exists'.mp present
  obtain ⟨answer, gone⟩ := shows'.after_remove there found
  have opened : G.present storage (storagePath username filename) = true := by
    rw [shows'.present there, found]
    rfl
  exact ⟨_, if_pos ⟨opened, answer⟩, gone⟩

/-- What both programs come to is what the operation does to the maps. -/
theorem outcome_performs {errand : Errand} (confirms : Bool)
    (here : ∀ filename, FileManager.isStringValid filename = true →
      V.Plain (Client.localPath filename))
    (there : ∀ filename, FileManager.isStringValid filename = true →
      W.Plain (storagePath username filename))
    (names : ∀ filename ∈ errand.names, FileManager.isStringValid filename = true)
    (shows : V.Shows files maps.files) (shows' : W.Shows storage maps.storage)
    (allows : maps.Allows username errand) :
    let performed := maps.perform username confirms errand
    ∃ files' storage', outcome username (if confirms then 1 else 2) files storage errand =
        some (performed.1, files', storage') ∧
      V.Shows files' performed.2.files ∧ W.Shows storage' performed.2.storage := by
  cases errand with
  | list => exact allows.elim
  | download filename =>
      have valid := names filename (List.mem_cons_self ..)
      obtain ⟨code, left, right⟩ :=
        downloads_performs (here _ valid) (there _ valid) shows shows' confirms
      exact ⟨_, _, congrArg (fun code => some (code, _, _)) code, left, right⟩
  | upload filename =>
      have valid := names filename (List.mem_cons_self ..)
      obtain ⟨code, left, right⟩ :=
        uploads_performs (here _ valid) (there _ valid) shows shows' confirms
      exact ⟨_, _, congrArg (fun code => some (code, _, _)) code, left, right⟩
  | rename old_file_name new_file_name =>
      have old := names old_file_name (List.mem_cons_self ..)
      have new := names new_file_name (List.mem_cons_of_mem _ (List.mem_cons_self ..))
      obtain ⟨code, left, right⟩ :=
        renames_performs (there _ old) (there _ new) shows shows' confirms
      exact ⟨_, _, congrArg (fun code => some (code, _, _)) code, left, right⟩
  | delete filename =>
      have valid := names filename (List.mem_cons_self ..)
      cases confirms with
      | true =>
          obtain ⟨storage', removed, right⟩ := removes_performs (there _ valid) shows' allows
          refine ⟨files, storage', ?_, shows, right⟩
          rw [if_pos rfl, outcome, if_pos rfl, removed]
          rfl
      | false => exact ⟨files, storage, rfl, shows, shows'⟩

end Outcome

end Lockstep

/-- The same machine with a user who answers as given when asked to confirm. -/
@[reducible] def Computer.deciding (F : Computer) (confirms : Bool) : Computer where
  toFileSystem := F.toFileSystem
  chooses lowerBound upperBound choice :=
    if lowerBound = 1 ∧ upperBound = 2 then choice = if confirms then 1 else 2
    else F.chooses lowerBound upperBound choice
  bounded lowerBound upperBound choice := by
    intro chosen ordered
    split at chosen
    · rename_i asked
      obtain ⟨rfl, rfl⟩ := asked
      subst chosen
      cases confirms with
      | true => decide
      | false => decide
    · exact F.bounded lowerBound upperBound choice chosen ordered
  decided lowerBound upperBound := by
    by_cases asked : lowerBound = 1 ∧ upperBound = 2
    · exact ⟨if confirms then 1 else 2, by rw [if_pos asked]⟩
    · obtain ⟨choice, chosen⟩ := F.decided lowerBound upperBound
      exact ⟨choice, by rw [if_neg asked]; exact chosen⟩

namespace Lockstep
variable {C : Crypto} {F G : Computer} {host : Endian} {username : Bytes}

/-- A session between two operations: what the server goes on with, what both sides keep
and their files. -/
structure Stage (F G : Computer) where
  server : Program Op Op.Ans (Except Thrown Unit × Session octets)
  session : Session octets
  files : F.State
  storage : G.State

/-- The server waits for a request and has that many rounds left. -/
def Stage.Ready (host : Endian) (rounds : Nat) (stage : Stage F G) : Prop :=
  ∃ left, rounds ≤ left ∧ stage.server = (Server.awaitCommand >>= served host left) stage.session

/-- The client runs a program beside the server. -/
def aboard (C : Crypto) (F G : Computer) (stage : Stage F G)
    (program : Program Op Op.Ans (Except Thrown Nat × Session octets)) : Trip C F G :=
  ⟨program, stage.server, busy stage.files, atTop stage.storage stage.session, [], []⟩

/-- The client starts an operation. -/
def embark (C : Crypto) (F G : Computer) (host : Endian) (stage : Stage F G) (errand : Errand) :
    Trip C F G :=
  aboard C F G stage (errand.request host stage.session)

/-- The client has returned and the server is back at the top of its loop. -/
def moored (C : Crypto) (F G : Computer) (stage : Stage F G) (code : Nat) : Trip C F G :=
  aboard C F G stage (.done (.ok code, stage.session))

/-- The user of the stage decides as given. -/
@[reducible] def Stage.deciding (stage : Stage F G) (confirms : Bool) :
    Stage (F.deciding confirms) G :=
  ⟨stage.server, stage.session, stage.files, stage.storage⟩

/-- Operations that follow one another, each with the decision of the user, and the codes
that they return. -/
inductive Voyage (C : Crypto) (host : Endian) :
    Stage F G → List (Errand × Bool) → List Nat → Stage F G → Prop where
  | stay (stage) : Voyage C host stage [] [] stage
  | sail {stage middle last errand confirms rest code codes} :
      Link.Reaches (embark C (F.deciding confirms) G host (stage.deciding confirms) errand)
        (moored C (F.deciding confirms) G (middle.deciding confirms) code) →
      Voyage C host middle rest codes last →
      Voyage C host stage ((errand, confirms) :: rest) (code :: codes) last

/-- One operation comes to its outcome. -/
theorem errand_moors (stage : Stage F G) {errand : Errand} {choice code rounds : Nat}
    {files' : F.State} {storage' : G.State} {ends : Trip C F G → Prop}
    (name : FileManager.isStringValid stage.session.m_username = true)
    (names : ∀ filename ∈ errand.names, FileManager.isStringValid filename = true)
    (small : ∀ filename, errand = .download filename →
      G.downloadable stage.storage (storagePath stage.session.m_username filename) = true →
        (G.reader stage.storage (storagePath stage.session.m_username filename)).m_file_size <
          2 ^ 32)
    (carried : ∀ filename, errand = .upload filename →
      F.present stage.files (Client.localPath filename) = true →
        F.size stage.files (Client.localPath filename) ≠ some Config.MAX_FILE_SIZE)
    (decision : ∀ c, F.chooses 1 2 c → c = choice) (ready : stage.Ready host (rounds + 1))
    (result : outcome stage.session.m_username choice stage.files stage.storage errand =
      some (code, files', storage'))
    (next : ∀ middle : Stage F G, middle.Ready host rounds →
      middle.session.m_username = stage.session.m_username → middle.files = files' →
        middle.storage = storage' → ends (moored C F G middle code)) :
    Link.Good (pact ends) (embark C F G host stage errand) := by
  obtain ⟨waiting, ⟨username, m_counter, key⟩, files, storage⟩ := stage
  obtain ⟨left, enough, waits⟩ := ready
  dsimp only at waits
  subst waits
  obtain ⟨left, rfl⟩ : ∃ before, left = before + 1 := ⟨left - 1, by omega⟩
  have client : errand.request host ⟨username, m_counter, key⟩ =
      ((errand.request host >>= pure) ⟨username, m_counter, key⟩).bind .done := by
    rw [Code.bind_pure, Program.bind_done]
  have server : (Server.awaitCommand >>= served host (left + 1)) ⟨username, m_counter, key⟩ =
      ((Server.awaitCommand >>= served host (left + 1)) ⟨username, m_counter, key⟩).bind .done :=
    (Program.bind_done _).symm
  rw [embark, client, aboard, server]
  refine Lockstep.errand name names small carried decision ?_ ?_
  · intro stops
    exact nomatch result.symm.trans stops
  · intro code' files'' storage'' result' left' more m_counter key
    obtain ⟨rfl, rfl, rfl⟩ : code = code' ∧ files' = files'' ∧ storage' = storage'' := by
      simpa only [Option.some.injEq, Prod.mk.injEq] using result.symm.trans result'
    have arrived := next ⟨(Server.awaitCommand >>= served host left') ⟨username, m_counter, key⟩,
      ⟨username, m_counter, key⟩, files', storage'⟩ ⟨left', by omega, rfl⟩ rfl rfl rfl
    rw [moored, aboard] at arrived
    refine closed ?_
    rw [Program.bind_done]
    exact arrived

theorem moored_inj {stage other : Stage F G} {code code' : Nat}
    (same : moored C F G stage code = moored C F G other code') :
    stage = other ∧ code = code' := by
  obtain ⟨server, session, files, storage⟩ := stage
  obtain ⟨server', session', files', storage'⟩ := other
  simp only [moored, aboard, busy, atTop, Link.mk.injEq, Program.done.injEq, Prod.mk.injEq,
    Except.ok.injEq, Machine.mk.injEq] at same
  obtain ⟨⟨rfl, rfl⟩, rfl, ⟨rfl, -⟩, ⟨rfl, -⟩, -⟩ := same
  exact ⟨rfl, rfl⟩

theorem deciding_inj {stage other : Stage F G} {confirms : Bool}
    (same : stage.deciding confirms = other.deciding confirms) : stage = other := by
  obtain ⟨server, session, files, storage⟩ := stage
  obtain ⟨server', session', files', storage'⟩ := other
  simp only [Stage.deciding, Stage.mk.injEq] at same
  obtain ⟨rfl, rfl, rfl, rfl⟩ := same
  rfl

/-- Nothing more happens once the client has returned and the server waits. -/
theorem moored_ends {ends : Trip C F G → Prop} {stage : Stage F G} {code : Nat}
    (good : Link.Good (pact ends) (moored C F G stage code)) : ends (moored C F G stage code) := by
  refine good.rested ?_ rfl rfl
  rintro ⟨_, _, calls, -⟩
  exact nomatch calls

section Sequence
variable {V : Volume F.toFileStore} {W : Volume G.toFileStore} {maps : Maps} {rounds : Nat}
  {stage : Stage F G}

/-- Between two operations the files are what the maps say. -/
structure Afloat (V : Volume F.toFileStore) (W : Volume G.toFileStore) (host : Endian)
    (username : Bytes) (rounds : Nat) (maps : Maps) (stage : Stage F G) : Prop where
  user : stage.session.m_username = username
  ready : stage.Ready host rounds
  files : V.Shows stage.files maps.files
  storage : W.Shows stage.storage maps.storage
  short : maps.Short username

/-- One operation does to the files what it does to the maps. -/
theorem Afloat.embark {errand : Errand} {confirms : Bool}
    (name : FileManager.isStringValid username = true)
    (here : ∀ filename, FileManager.isStringValid filename = true →
      V.Plain (Client.localPath filename))
    (there : ∀ filename, FileManager.isStringValid filename = true →
      W.Plain (storagePath username filename))
    (names : ∀ filename ∈ errand.names, FileManager.isStringValid filename = true)
    (allows : maps.Allows username errand)
    (afloat : Afloat V W host username (rounds + 1) maps stage) :
    Link.Good (pact fun c => ∃ middle : Stage F G,
        c = moored C (F.deciding confirms) G (middle.deciding confirms)
          (maps.perform username confirms errand).1 ∧
        Afloat V W host username rounds (maps.perform username confirms errand).2 middle)
      (Lockstep.embark C (F.deciding confirms) G host (stage.deciding confirms) errand) := by
  obtain ⟨rfl, ready, files, storage, short⟩ := afloat
  obtain ⟨files', storage', result, shows, shows'⟩ :=
    outcome_performs confirms here there names files storage allows
  have small : ∀ filename, errand = .download filename →
      G.downloadable stage.storage (storagePath stage.session.m_username filename) = true →
        (G.reader stage.storage (storagePath stage.session.m_username filename)).m_file_size <
          2 ^ 32 := by
    rintro filename rfl found
    have plain := there filename (names filename (List.mem_cons_self ..))
    rw [storage.downloadable plain] at found
    obtain ⟨held, known⟩ := Option.isSome_iff_exists.mp found
    rw [storage.reader plain known]
    exact short filename held known
  have carried : ∀ filename, errand = .upload filename →
      F.present stage.files (Client.localPath filename) = true →
        F.size stage.files (Client.localPath filename) ≠ some Config.MAX_FILE_SIZE := by
    rintro filename rfl found limit
    have plain := here filename (names filename (List.mem_cons_self ..))
    rw [files.present plain] at found
    obtain ⟨held, known⟩ := Option.isSome_iff_exists.mp found
    have size := V.measures _ _ held plain ((files _ plain).trans known)
    exact allows held known (Option.some.inj (size.symm.trans limit))
  have decision : ∀ c, (F.deciding confirms).chooses 1 2 c → c = if confirms then 1 else 2 :=
    fun c chosen => by simpa using chosen
  refine errand_moors (stage.deciding confirms) name names small carried decision ready result ?_
  intro middle ready' user files storage
  refine ⟨⟨middle.server, middle.session, middle.files, middle.storage⟩, rfl, user, ready', ?_, ?_,
    short_perform short confirms errand⟩
  · exact files ▸ shows
  · exact storage ▸ shows'

/-- So do all operations of a voyage, one after the other. -/
theorem Afloat.voyage {orders : List (Errand × Bool)} {codes : List Nat} {last : Stage F G}
    (name : FileManager.isStringValid username = true)
    (here : ∀ filename, FileManager.isStringValid filename = true →
      V.Plain (Client.localPath filename))
    (there : ∀ filename, FileManager.isStringValid filename = true →
      W.Plain (storagePath username filename))
    (voyage : Voyage C host stage orders codes last) (allows : maps.AllowsAll username orders)
    (afloat : Afloat V W host username (orders.length + rounds) maps stage) :
    codes = (maps.performAll username orders).1 ∧
      Afloat V W host username rounds (maps.performAll username orders).2 last := by
  induction voyage generalizing maps with
  | stay stage =>
      rw [List.length_nil, Nat.zero_add] at afloat
      exact ⟨rfl, afloat⟩
  | sail run _ ih =>
      obtain ⟨names, allowed, later⟩ := allows
      rw [List.length_cons, Nat.add_right_comm] at afloat
      have good := (afloat.embark name here there names allowed).reaches run
      obtain ⟨middle, arrived, onward⟩ := moored_ends good
      obtain ⟨same, rfl⟩ := moored_inj arrived
      obtain rfl := deciding_inj same
      obtain ⟨codes, last⟩ := ih later onward
      exact ⟨congrArg _ codes, last⟩

end Sequence

/-- Whatever the operations are, in any order, every run of each of them can go on until it
has returned, and then the codes and the files on both sides are those of the maps. -/
theorem protocol_refines_file_map (C : Crypto) (F G : Computer) (host : Endian)
    (username : Bytes) (V : Volume F.toFileStore) (W : Volume G.toFileStore)
    (name : FileManager.isStringValid username = true)
    (here : ∀ filename, FileManager.isStringValid filename = true →
      V.Plain (Client.localPath filename))
    (there : ∀ filename, FileManager.isStringValid filename = true →
      W.Plain (storagePath username filename))
    (maps : Maps) (stage : Stage F G) (orders : List (Errand × Bool))
    (user : stage.session.m_username = username) (ready : stage.Ready host orders.length)
    (files : V.Shows stage.files maps.files) (storage : W.Shows stage.storage maps.storage)
    (short : maps.Short username) (allows : maps.AllowsAll username orders) :
    (∀ done_ rest codes middle, orders = done_ ++ rest → Voyage C host stage done_ codes middle →
      codes = (maps.performAll username done_).1 ∧
        V.Shows middle.files (maps.performAll username done_).2.files ∧
        W.Shows middle.storage (maps.performAll username done_).2.storage) ∧
    ∀ done_ errand confirms rest codes middle, orders = done_ ++ (errand, confirms) :: rest →
      Voyage C host stage done_ codes middle → ∀ c,
        Link.Reaches (embark C (F.deciding confirms) G host (middle.deciding confirms) errand) c →
          ∃ code last, Link.Reaches c
            (moored C (F.deciding confirms) G (Stage.deciding last confirms) code) := by
  have afloat : Afloat V W host username orders.length maps stage :=
    ⟨user, ready, files, storage, short⟩
  constructor
  · rintro done_ rest codes middle rfl voyage
    rw [List.length_append] at afloat
    obtain ⟨same, onward⟩ := afloat.voyage name here there voyage allows.first
    exact ⟨same, onward.files, onward.storage⟩
  · rintro done_ errand confirms rest codes middle rfl voyage c run
    rw [List.length_append] at afloat
    obtain ⟨-, onward⟩ := afloat.voyage name here there voyage allows.first
    obtain ⟨names, allowed, -⟩ := allows.rest
    have good := (onward.embark name here there names allowed).reaches run
    obtain ⟨d, further, left, right⟩ := good.halts
    obtain ⟨last, rfl, -⟩ := (good.reaches further).ends left right
    exact ⟨_, last, further⟩

end Lockstep

namespace Sample.Disk
variable (disk : Disk) {path old new held : Bytes}

theorem written (chunk : Bytes) (found : disk.lookup path = some held) (other : Bytes) :
    (respond disk (.write path chunk)).2.lookup other =
      if other = path then some (held ++ chunk) else disk.lookup other := by
  simp only [respond, found, lookup_put]

theorem renamed (found : disk.lookup old = some held) :
    (respond disk (.rename old new)).1 = 0 ∧ ∀ other,
      (respond disk (.rename old new)).2.lookup other =
        if other = new then some held else if other = old then none else disk.lookup other := by
  simp only [respond, found, lookup_put, lookup_drop, implies_true, and_self]

theorem removed (found : disk.lookup path = some held) :
    (respond disk (.remove path)).1 = 0 ∧ ∀ other,
      (respond disk (.remove path)).2.lookup other =
        if other = path then none else disk.lookup other := by
  simp only [respond, found, Option.isSome_some, if_true, lookup_drop, implies_true, and_self]

end Sample.Disk

/-- The small disk as a map. -/
def Sample.volume : Volume Sample.computer.toFileStore where
  Plain _ := True
  content disk path := List.lookup path disk
  opens _ _ _ := rfl
  measures disk path held _ found := congrArg (Option.map List.length) found
  reads disk path held position count _ found :=
    congrArg (fun file => ((Option.getD file []).drop position).take count) found
  regular disk path held _ found := congrArg (fun file => some (Option.isSome file)) found
  symlink _ _ _ _ _ := rfl
  creates disk path _ _ := by
    refine ⟨rfl, fun other _ => ?_⟩
    rw [FileMap.put, Function.update_apply]
    exact Disk.lookup_put disk path [] other
  writes disk path held chunk _ found other _ := by
    rw [FileMap.put, Function.update_apply]
    exact Disk.written disk chunk found other
  renames disk old new held _ _ found _ := by
    obtain ⟨answer, moved⟩ := Disk.renamed disk found
    refine ⟨answer, fun other _ => ?_⟩
    simp only [FileMap.move, FileMap.put, FileMap.drop, Function.update_apply]
    exact moved other
  removes disk path held _ found := by
    obtain ⟨answer, gone⟩ := Disk.removed disk found
    refine ⟨answer, fun other _ => ?_⟩
    simp only [FileMap.drop, Function.update_apply]
    exact gone other

namespace Lockstep

/-- Luca has one local file and a server with four rounds left. -/
def lucaAboard : Stage Sample.computer Sample.computer :=
  ⟨(Server.awaitCommand >>= served .little 4) ⟨ascii "luca", 0, []⟩, ⟨ascii "luca", 0, []⟩,
    Sample.single (ascii "../files/a"), Sample.empty⟩

/-- An upload, and a rename of what was uploaded. -/
theorem upload_then_rename : ∃ middle, Voyage Sample.crypto .little lucaAboard
    [(.upload (ascii "a"), true), (.rename (ascii "a") (ascii "b"), true)]
      [Return.SUCCESS.val, Return.SUCCESS.val] middle ∧
    Sample.volume.content middle.storage (ascii "../data/luca/b") = some [1, 2] := by
  have travels : ∀ content,
      Sample.volume.content (Sample.single (ascii "../files/a")) (ascii "../files/a") =
        some content → content.length ≠ Config.MAX_FILE_SIZE := by
    intro content found
    obtain rfl : [1, 2] = content := Option.some.inj found
    decide
  obtain ⟨outcome, progress⟩ := protocol_refines_file_map Sample.crypto Sample.computer
    Sample.computer .little (ascii "luca") Sample.volume Sample.volume (by decide)
    (fun _ _ => trivial) (fun _ _ => trivial)
    ⟨Sample.volume.content lucaAboard.files, Sample.volume.content lucaAboard.storage⟩ lucaAboard
    [(.upload (ascii "a"), true), (.rename (ascii "a") (ascii "b"), true)] rfl
    ⟨4, by decide, rfl⟩ (fun _ _ => rfl) (fun _ _ => rfl) (fun _ _ => nofun)
    ⟨by decide, travels, by decide, trivial, trivial⟩
  obtain ⟨_, uploaded, first⟩ := progress [] _ _ _ _ _ rfl (.stay _) _ (.refl _)
  obtain ⟨_, renamed, second⟩ :=
    progress [(.upload (ascii "a"), true)] _ _ _ _ _ rfl (.sail first (.stay _)) _ (.refl _)
  have voyage := Voyage.sail first (.sail second (.stay _))
  obtain ⟨codes, -, shows⟩ := outcome _ [] _ _ rfl voyage
  rw [codes] at voyage
  exact ⟨renamed, voyage, shows _ trivial⟩

end Lockstep
end CloudStorage
