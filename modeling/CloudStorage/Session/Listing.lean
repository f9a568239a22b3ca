import CloudStorage.Session.Menu
import CloudStorage.Session.Sample

/-! The list of a directory on its way to the user: the names are joined into one text,
sent behind their length, and taken apart again. -/
namespace CloudStorage
open Interaction Code Method Party

/-- The text that `getFilesList` returns for a directory it can read. -/
def FileManager.joinedNames (names : List Bytes) : Bytes :=
  (names.map (· ++ ascii ",")).flatten.dropLast

namespace FileManager

theorem joinedNames_single (name : Bytes) : joinedNames [name] = name := by
  simp [joinedNames, ascii]

theorem joinedNames_cons (name next : Bytes) (rest : List Bytes) :
    joinedNames (name :: next :: rest) = name ++ 44 :: joinedNames (next :: rest) := by
  have some_ : ((next :: rest).map (· ++ ascii ",")).flatten ≠ [] := by
    simp [ascii]
  rw [joinedNames, List.map_cons, List.flatten_cons, List.dropLast_append_of_ne_nil some_,
    List.append_assoc]
  rfl

/-- No byte is added but the comma. -/
theorem mem_joinedNames {names : List Bytes} {byte : UInt8} (member : byte ∈ joinedNames names) :
    byte = 44 ∨ ∃ name ∈ names, byte ∈ name := by
  have whole := List.dropLast_subset _ member
  simp only [List.mem_flatten, List.mem_map] at whole
  obtain ⟨_, ⟨name, listed, rfl⟩, within⟩ := whole
  rcases List.mem_append.mp within with inside | comma
  · exact .inr ⟨name, listed, inside⟩
  · exact .inl (List.mem_singleton.mp comma)

theorem joinedNames_intercalate (names : List Bytes) :
    joinedNames names = [44].intercalate names := by
  induction names with
  | nil => rfl
  | cons name rest ih =>
      cases rest with
      | nil => rw [joinedNames_single, List.intercalate_singleton]
      | cons next rest =>
          rw [joinedNames_cons, ih, List.intercalate_cons_cons, List.append_assoc]
          rfl

/-- Splitting undoes the join if no name has a comma. -/
theorem splitOn_joinedNames {names : List Bytes} (some_ : names ≠ [])
    (clean : ∀ name ∈ names, 44 ∉ name) : (joinedNames names).splitOn 44 = names := by
  rw [joinedNames_intercalate, List.splitOn_intercalate 44 clean some_]

/-- A text has room for all names that are read from it. -/
theorem joinedNames_fileNames (text : Bytes) :
    (joinedNames (Client.fileNames text)).length ≤ text.length := by
  have whole : joinedNames (text.splitOn 44) = text := by
    rw [joinedNames_intercalate, List.intercalate_splitOn]
  unfold Client.fileNames
  dsimp only
  split
  · rename_i last
    obtain ⟨names, parts⟩ := List.getLast?_eq_some_iff.mp last
    rw [parts] at whole ⊢
    rw [List.dropLast_concat, ← whole]
    simp [joinedNames, ascii]
  · rw [whole]

variable {names : List Bytes}

theorem clean_of_names (valid : ∀ name ∈ names, isStringValid name = true) :
    ∀ name ∈ names, 44 ∉ name := by
  intro name listed comma
  obtain ⟨allowed, -, -⟩ := proper_of_valid (valid name listed)
  exact absurd (allowed 44 comma) (by decide)

theorem joinedNames_noNull (valid : ∀ name ∈ names, isStringValid name = true) :
    (0 : UInt8) ∉ joinedNames names := by
  intro member
  rcases mem_joinedNames member with comma | ⟨name, listed, inside⟩
  · exact absurd comma (by decide)
  · exact (clean_of_valid (valid name listed)).1 inside

theorem joinedNames_ne_nil (some_ : names ≠ [])
    (valid : ∀ name ∈ names, isStringValid name = true) : joinedNames names ≠ [] := by
  intro empty
  have parts := splitOn_joinedNames some_ (clean_of_names valid)
  rw [empty, List.splitOn_nil] at parts
  have listed : [] ∈ names := parts ▸ List.mem_singleton.mpr rfl
  exact (proper_of_valid (valid [] listed)).2.1 rfl

end FileManager

namespace Client

/-- The client prints the names that the server joined. -/
theorem fileNames_joinedNames {names : List Bytes} (some_ : names ≠ [])
    (valid : ∀ name ∈ names, FileManager.isStringValid name = true) :
    fileNames (FileManager.joinedNames names) = names := by
  rw [fileNames, FileManager.splitOn_joinedNames some_ (FileManager.clean_of_names valid)]
  refine if_neg fun last => ?_
  have listed : [] ∈ names := List.mem_of_getLast? last
  exact (FileManager.proper_of_valid (valid [] listed)).2.1 rfl

end Client

/-- The one directory whose text is the text of an error. -/
theorem joinedNames_error {names : List Bytes}
    (valid : ∀ name ∈ names, FileManager.isStringValid name = true) :
    FileManager.joinedNames names = ascii "error" ↔ names = [ascii "error"] := by
  constructor
  · intro collides
    have some_ : names ≠ [] := by
      rintro rfl
      exact absurd collides (by decide)
    rw [← Client.fileNames_joinedNames some_ valid, collides]
    decide
  · rintro rfl
    exact FileManager.joinedNames_single _

namespace Lockstep
variable {C : Crypto} {F G : Computer} {host : Endian}

theorem listSize_short {files : Bytes} (some_ : files ≠ []) (short : files.length + 1 < 2 ^ 32) :
    (listSize files).toNat = files.length + 1 := by
  have value : files.length.toUInt32.toNat = files.length :=
    UInt32.toNat_ofNat_of_lt' (show files.length < 2 ^ 32 by omega)
  have proper : files.length.toUInt32 ≠ 0 := by
    intro zero
    rw [zero] at value
    exact some_ (List.eq_nil_of_length_eq_zero value.symm)
  rw [listSize, if_pos proper, UInt32.toNat_add, value]
  exact Nat.mod_eq_of_lt short

/-- Nothing or the whole text with its terminator arrives. -/
theorem fileList_joinedNames {names : List Bytes}
    (valid : ∀ name ∈ names, FileManager.isStringValid name = true)
    (short : (FileManager.joinedNames names).length + 1 < 2 ^ 32) (beyond : Bytes) :
    Client.printedNames beyond (fileList (FileManager.joinedNames names)) = names := by
  by_cases empty : names = []
  · subst empty
    rfl
  have some_ := FileManager.joinedNames_ne_nil empty valid
  have size := listSize_short some_ short
  have proper : ¬listSize (FileManager.joinedNames names) = 0 := by
    intro zero
    rw [zero] at size
    exact absurd size.symm (Nat.succ_ne_zero _)
  rw [fileList, if_neg proper, size, List.take_of_length_le (by simp), Client.printedNames,
    List.append_assoc, List.singleton_append,
    cPrefix_terminated (FileManager.joinedNames_noNull valid)]
  exact Client.fileNames_joinedNames empty valid

/-- A list whose size is cut to 32 bits does not arrive whole. -/
theorem fileList_cut {names : List Bytes}
    (valid : ∀ name ∈ names, FileManager.isStringValid name = true)
    (long : 2 ^ 31 ≤ (FileManager.joinedNames names).length)
    (listable : Listable (FileManager.joinedNames names)) :
    ∃ beyond, Client.printedNames beyond (fileList (FileManager.joinedNames names)) ≠ names := by
  have size : (listSize (FileManager.joinedNames names)).toNat <
      (FileManager.joinedNames names).length := by
    have sealable := listable.2
    rw [ListM3.getMessageSize] at sealable
    omega
  refine ⟨[0], fun shown => ?_⟩
  rw [fileList] at shown
  split at shown
  · rw [Client.printedNames] at shown
    rw [← shown] at size
    exact absurd size (Nat.not_lt_zero _)
  · have clean : (0 : UInt8) ∉ (FileManager.joinedNames names).take
        (listSize (FileManager.joinedNames names)).toNat := fun member =>
      FileManager.joinedNames_noNull valid (List.mem_of_mem_take member)
    rw [Client.printedNames, List.take_append_of_le_length (Nat.le_of_lt size),
      cPrefix_terminated clean] at shown
    have room := FileManager.joinedNames_fileNames ((FileManager.joinedNames names).take
      (listSize (FileManager.joinedNames names)).toNat)
    rw [shown, List.length_take] at room
    omega

theorem listable_joinedNames {names : List Bytes}
    (valid : ∀ name ∈ names, FileManager.isStringValid name = true)
    (short : (FileManager.joinedNames names).length < 2 ^ 31) :
    Listable (FileManager.joinedNames names) ↔
      names ≠ [ascii "error"] ∧ (FileManager.joinedNames names).length + 2 < 2 ^ 31 := by
  rw [Listable, ne_eq, joinedNames_error valid]
  refine and_congr_right fun _ => ?_
  by_cases empty : names = []
  · subst empty
    decide
  · rw [ListM3.getMessageSize,
      listSize_short (FileManager.joinedNames_ne_nil empty valid) (by omega)]
    omega

/-- A client that is to show a list and a server at the start of its loop. -/
abbrev Look (C : Crypto) (F G : Computer) :=
  Pair C F G (Except Thrown (Nat × Option Bytes) × Session octets)
    (Except Thrown Unit × Session octets)

def inquiry (C : Crypto) (F G : Computer) (host : Endian) (rounds : Nat) (s : Session octets)
    (files : F.State) (storage : G.State) : Look C F G :=
  ⟨Client.showList host s, Server.serve host (rounds + 2) s, busy files, busy storage, [], []⟩

/-- The client has returned `SUCCESS` and printed the names, whatever its memory holds
behind the list. -/
def Shown (names : List Bytes) (c : Look C F G) : Prop :=
  ∃ file_list s, c.left = .done (.ok (Return.SUCCESS.val, file_list), s) ∧
    ∀ beyond, Client.printedNames beyond file_list = names

/-- What the end of a listing is like. -/
def Listed (found : Bytes) (c : Look C F G) : Prop :=
  if Listable found then
    ∃ s, c.left = .done (.ok (Return.SUCCESS.val, fileList found), s)
  else Unfinished c

theorem inquiry_listed {rounds : Nat} {username key : Bytes} {m_counter : UInt32}
    {files : F.State} {storage : G.State} (name : FileManager.isStringValid username = true) :
    Link.Good (pact (Listed (G.listing storage (storageDirectory username))))
      (inquiry C F G host rounds ⟨username, m_counter, key⟩ files storage) := by
  have client : Client.showList host ⟨username, m_counter, key⟩ =
      ((Client.showList host >>= pure) ⟨username, m_counter, key⟩).bind .done := by
    rw [Code.bind_pure, Program.bind_done]
  have server : Server.serve host (rounds + 2) ⟨username, m_counter, key⟩ =
      (Server.serve host (rounds + 2) ⟨username, m_counter, key⟩).bind .done :=
    (Program.bind_done _).symm
  rw [inquiry, client, server]
  refine settle (list name ?_ fun listable m_counter key => ?_)
  · intro unlistable c unfinished
    rw [Listed, if_neg unlistable]
    exact unfinished
  · refine closed ?_
    rw [Listed, if_pos listable]
    exact ⟨_, rfl⟩

/-- A run that cannot go on stays where it is. -/
theorem stays {α β : Type} {c d : Pair C F G α β} (left : ¬Link.CanLeft c)
    (right : ¬Link.CanRight c) (run : Link.Reaches c d) : d = c := by
  cases run with
  | refl => rfl
  | next step =>
      cases step with
      | left step => exact absurd step.can left
      | right step => exact absurd (Link.LeftStep.can step) right

/-- Every run of the listing can go on until the names are shown. -/
def ShowsDirectory (C : Crypto) (F G : Computer) (host : Endian) (rounds : Nat)
    (s : Session octets) (files : F.State) (storage : G.State) (names : List Bytes) : Prop :=
  ∀ c, Link.Reaches (inquiry C F G host rounds s files storage) c →
    ∃ d, Link.Reaches c d ∧ Shown names d

section Directory
variable {rounds : Nat} {username key : Bytes} {m_counter : UInt32} {files : F.State}
  {storage : G.State} {names : List Bytes}

theorem listing_yields
    (exists_ : (G.respond storage (.exists_ (storageDirectory username))).1 = some true)
    (yields : (G.respond storage (.directory_iterator (storageDirectory username))).1 =
      some names) :
    G.listing storage (storageDirectory username) = FileManager.joinedNames names := by
  rw [FileStore.listing, exists_]
  dsimp only
  rw [yields]
  rfl

/-- All runs show what arrives, if a list arrives. -/
theorem showsDirectory_iff (name : FileManager.isStringValid username = true)
    (found : G.listing storage (storageDirectory username) = FileManager.joinedNames names) :
    ShowsDirectory C F G host rounds ⟨username, m_counter, key⟩ files storage names ↔
      Listable (FileManager.joinedNames names) ∧
        ∀ beyond, Client.printedNames beyond (fileList (FileManager.joinedNames names)) = names := by
  have good : Link.Good (pact (Listed (FileManager.joinedNames names)))
      (inquiry C F G host rounds ⟨username, m_counter, key⟩ files storage) :=
    found ▸ inquiry_listed name
  constructor
  · intro shows
    obtain ⟨c, run, left, right⟩ := good.halts
    obtain ⟨d, further, file_list, s, returned, printed⟩ := shows c run
    obtain rfl := stays left right further
    have listed : Listed _ d := (good.reaches run).ends left right
    rw [Listed] at listed
    split at listed
    · rename_i listable
      obtain ⟨t, same⟩ := listed
      have equal := returned.symm.trans same
      injection equal with equal
      injection equal with equal _
      injection equal with equal
      injection equal with _ equal
      exact ⟨listable, equal ▸ printed⟩
    · obtain ⟨_, _, calls⟩ := listed
      exact nomatch returned.symm.trans calls
  · rintro ⟨listable, printed⟩ c run
    obtain ⟨d, further, left, right⟩ := (good.reaches run).halts
    have listed : Listed _ d := ((good.reaches run).reaches further).ends left right
    rw [Listed, if_pos listable] at listed
    obtain ⟨s, returned⟩ := listed
    exact ⟨d, further, _, s, returned, printed⟩

end Directory

/-- Whatever the valid names in a directory are and in whichever order they come, the user
is shown exactly these, unless the only name reads like an error or the text is too long
to be sealed. -/
theorem list_shows_directory (C : Crypto) (F G : Computer) (host : Endian) (rounds : Nat)
    (username key : Bytes) (m_counter : UInt32) (files : F.State) (storage : G.State)
    (names : List Bytes) (name : FileManager.isStringValid username = true)
    (exists_ : (G.respond storage (.exists_ (storageDirectory username))).1 = some true)
    (yields : (G.respond storage (.directory_iterator (storageDirectory username))).1 = some names)
    (valid : ∀ entry ∈ names, FileManager.isStringValid entry = true) :
    ShowsDirectory C F G host rounds ⟨username, m_counter, key⟩ files storage names ↔
      names ≠ [ascii "error"] ∧ (FileManager.joinedNames names).length + 2 < 2 ^ 31 := by
  rw [showsDirectory_iff name (listing_yields exists_ yields)]
  by_cases short : (FileManager.joinedNames names).length < 2 ^ 31
  · rw [← listable_joinedNames valid short]
    constructor
    · rintro ⟨listable, -⟩
      exact listable
    · intro listable
      exact ⟨listable, fileList_joinedNames valid (by omega)⟩
  · constructor
    · rintro ⟨listable, printed⟩
      obtain ⟨beyond, cut⟩ := fileList_cut valid (Nat.not_lt.mp short) listable
      exact absurd (printed beyond) cut
    · rintro ⟨-, sealable⟩
      omega

/-- A disk with two files of one directory. -/
def shelf : Sample.computer.State :=
  ([(ascii "../data/luca/notes.txt", [1, 2]), (ascii "../data/luca/draft.md", [])] : Sample.Disk)

/-- A directory with two files. -/
theorem directory_of_two_files :
    ShowsDirectory Sample.crypto Sample.computer Sample.computer .little 0
      ⟨ascii "luca", 0, []⟩ Sample.empty shelf [ascii "notes.txt", ascii "draft.md"] := by
  have valid : ∀ entry ∈ [ascii "notes.txt", ascii "draft.md"],
      FileManager.isStringValid entry = true := by decide
  exact (list_shows_directory Sample.crypto Sample.computer Sample.computer .little 0
    (ascii "luca") [] 0 Sample.empty shelf [ascii "notes.txt", ascii "draft.md"]
    (by decide) rfl rfl valid).mpr ⟨by decide, by decide⟩

/-- The name "error" passes the check, but a directory with this one file is not shown. -/
theorem file_named_error :
    FileManager.isStringValid (ascii "error") = true ∧
    (Sample.computer.respond (Sample.single (ascii "../data/luca/error"))
      (.directory_iterator (ascii "../data/luca"))).1 = some [ascii "error"] ∧
    ¬ShowsDirectory Sample.crypto Sample.computer Sample.computer .little 0
      ⟨ascii "luca", 0, []⟩ Sample.empty (Sample.single (ascii "../data/luca/error"))
      [ascii "error"] := by
  refine ⟨by decide, rfl, fun shows => ?_⟩
  have arrives := (showsDirectory_iff (by decide) (listing_yields rfl rfl)).mp shows
  exact arrives.1.1 rfl

end Lockstep
end CloudStorage
