import CloudStorage.Session.Transfers

/-! The menu of the client over a server that waits for requests, and what holds whenever
both are back at the top of their loops. -/
namespace CloudStorage
open Interaction Code Method Party

namespace Party
variable {C : Crypto} {F : Computer} {role : Role} {Safe : Machine F → Prop} {files : F.State}
  {inbox out : Bytes} {s : Session octets}

/-- The answer to a logout is sealed before the key is erased and sent after it. -/
theorem dismiss_sent (safe : ∀ files, Safe (busy files)) {plaintext : Bytes}
    (short : plaintext.length < 2 ^ 31) :
    (Server.dismiss plaintext).ensures (desk C role Safe)
      (fun _ t g => t = { s with m_session_key := Server.erasedKey } ∧
        ∃ frame, Carries C s plaintext frame ∧ g = ⟨busy files, inbox, out ++ frame⟩) s
      ⟨busy files, inbox, out⟩ := by
  refine ensures_seq (encryptGeneric_sealed safe short) ?_
  rintro _ s _ ⟨⟨box, rfl, fits⟩, rfl, rfl⟩
  refine ensures_modify (ensures_seq (note_harmless (safe files) (busy_atWork files) trivial) ?_)
  rintro _ _ _ ⟨-, rfl, rfl⟩
  refine ensures_seq (ask_send safe _) ?_
  rintro _ _ _ ⟨rfl, rfl, rfl⟩
  exact ensures_pure ⟨rfl, _, ⟨box, fits, rfl⟩, rfl⟩

end Party

namespace Lockstep
variable {C : Crypto} {F G : Computer} {α β γ δ : Type} {ends : Pair C F G α β → Prop}
  {host : Endian} {files : F.State} {storage : G.State} {there : Machine G}
  {right : Program Op Op.Ans β}
  {kC : Except Thrown γ × Session octets → Program Op Op.Ans α}
  {kS : Except Thrown Unit × Session octets → Program Op Op.Ans β} {rounds : Nat}
  {username : Bytes}

/-- The server dismisses the client. -/
theorem dismissal {s : Session octets} {plaintext : Bytes} {size : Nat}
    {fC : Except Return Bytes → Method γ} {fS : Nat → Method δ}
    {kS : Except Thrown δ × Session octets → Program Op Op.Ans β}
    (short : plaintext.length < 2 ^ 31) (whole : plaintext.length = size)
    (next : ∀ code, At ends ((fC (.ok plaintext) s).bind kC)
      ((fS code { s with m_session_key := Server.erasedKey }).bind kS) files storage) :
    At ends (((receiveGeneric size >>= fC) s).bind kC)
      (((Server.dismiss plaintext >>= fS) s).bind kS) files storage := by
  refine .code_right (safe_left files).1 (dismiss_sent safe_right short) ?_
  rintro code _ _ ⟨rfl, frame, carries, rfl⟩
  refine .code_left (safe_right storage)
    (receiveGeneric_received safe_left carries whole (List.append_nil frame).symm) ?_
  rintro _ _ _ ⟨rfl, rfl, rfl⟩
  exact next code

/-- After a logout the keys differ, and the client goes on without the server. -/
theorem logout {key : Bytes} {m_counter : UInt32} {f : Nat → Method γ}
    (name : FileManager.isStringValid username = true)
    (next : ∀ m_counter key, Waiting ends host kS
      ((f Return.SUCCESS.val ⟨username, m_counter, key⟩).bind kC) rounds
      ⟨username, m_counter, Server.erasedKey⟩ files storage) :
    Waiting ends host kS (((Client.logoutRequest host >>= f) ⟨username, m_counter, key⟩).bind kC)
      (rounds + 1) ⟨username, m_counter, key⟩ files storage := by
  rw [Client.logoutRequest]
  simp only [sendSimple, Code.bind_assoc]
  refine local_left rfl (ask_random (safe_left files) (busy_atWork files) _) fun filler length => ?_
  refine request (Server.logoutRequest host)
    (by simp [SimpleMessage.serialize, length, fillerSize, Config.MAX_PACKET_SIZE]) rfl ?_
  simp only [Server.logoutRequest, Code.bind_assoc]
  refine increments name fun m_counter key => ?_
  refine local_right (ask_random (safe_right storage) (busy_atWork storage) _) fun filler length => ?_
  have whole : (SimpleMessage.serialize ⟨Result.ACK.byte⟩ filler).length =
      SimpleMessage.getMessageSize := by
    simp [SimpleMessage.serialize, length, fillerSize, SimpleMessage.getMessageSize,
      Config.MAX_PACKET_SIZE]
  refine dismissal (by rw [whole]; decide) whole fun code => ?_
  dsimp only
  rw [SimpleMessage.deserialize_serialize, if_neg (not_not.mpr rfl)]
  exact leave (next m_counter key)

/-- What an invocation ends with. -/
def reported (f : Nat → Method γ) (code : Nat) : Method γ := do
  note (.finished code)
  f code

theorem invoked {m : Machine F} {s : Session octets} {command : UInt8} {names : List Bytes}
    {operation : Method Nat} {f : Nat → Method γ} (fine : there.sound = true)
    (work : m.AtWork)
    (next : Beside ends (((operation >>= reported f) s).bind kC) right m.files there) :
    Link.Good (pact ends) ⟨((Client.invoke command names operation >>= f) s).bind kC, right, m,
      there, [], []⟩ := by
  rw [Client.invoke]
  simp only [Code.bind_assoc]
  refine .code_left fine (note_harmless (at_work work) work trivial) ?_
  rintro _ s _ ⟨-, rfl, rfl⟩
  exact next

theorem report {s : Session octets} {code : Nat} {f : Nat → Method γ} (fine : there.sound = true)
    (next : Beside ends ((f code s).bind kC) right files there) :
    Beside ends ((reported f code s).bind kC) right files there :=
  local_left fine (note_harmless (safe_left files) (busy_atWork files) trivial) fun _ _ => next

/-- A name is read while the server waits. -/
theorem named {m : Machine F} {s : Session octets} {f : Option Bytes → Method γ}
    (fine : there.sound = true) (work : m.AtWork)
    (none_ : Beside ends ((f none s).bind kC) right m.files there)
    (some_ : ∀ filename, FileManager.isStringValid filename = true → m.Types filename →
      Beside ends ((f (some filename) s).bind kC) right m.files there) :
    Link.Good (pact ends) ⟨((Client.readName >>= f) s).bind kC, right, m, there, [], []⟩ := by
  refine .code_left fine (readName_read (at_work work) work) ?_
  rintro result s _ ⟨known, rfl, rfl⟩
  cases result with
  | none => exact none_
  | some filename =>
      obtain ⟨valid, types⟩ := known filename rfl
      exact some_ filename valid types

/-- The choices of the menu. Each leads back to it or ends the program. -/
theorem operate {key : Bytes} {m_counter : UInt32} {choice : Nat}
    {f : Option Int → Method γ} (free : ∀ c : Pair C F G α β, ends c)
    (name : FileManager.isStringValid username = true) (small : Small storage)
    (again : ∀ left, rounds ≤ left → ∀ m_counter key files storage, Small storage →
      Waiting ends host kS ((f none ⟨username, m_counter, key⟩).bind kC) left
        ⟨username, m_counter, key⟩ files storage)
    (over_ : ∀ code s t left, Waiting ends host kS ((f (some code) s).bind kC) left t files storage)
    (bounds : 1 ≤ choice ∧ choice ≤ 7) :
    Link.Good (pact ends)
      ⟨((Client.operate host choice >>= f) ⟨username, m_counter, key⟩).bind kC,
        ((Server.awaitCommand >>= served host (rounds + 1)) ⟨username, m_counter, key⟩).bind kS,
        ⟨files, true, none, some choice⟩, atTop storage ⟨username, m_counter, key⟩, [], []⟩ := by
  have cases_ : choice = 1 ∨ choice = 2 ∨ choice = 3 ∨ choice = 4 ∨ choice = 5 ∨ choice = 6 ∨
      choice = 7 := by omega
  have same := Nat.le_refl rounds
  have more := Nat.le_succ rounds
  rcases cases_ with rfl | rfl | rfl | rfl | rfl | rfl | rfl <;> rw [Client.operate] <;>
    simp only [Code.bind_assoc]
  · refine invoked rfl ⟨rfl, rfl⟩ (list name (fun _ c _ => free c) fun _ m_counter key => ?_)
    exact report rfl (again rounds same m_counter key files storage small)
  · refine named rfl ⟨rfl, rfl⟩ (again _ more m_counter key files storage small)
      fun filename valid _ => ?_
    simp only [Code.bind_assoc]
    refine invoked rfl ⟨rfl, rfl⟩
      (download name valid (reader_small small) rfl fun left enough m_counter key => ?_)
    exact report rfl (again left enough m_counter key _ storage small)
  · refine named rfl ⟨rfl, rfl⟩ (again _ more m_counter key files storage small)
      fun filename valid types => ?_
    simp only [Code.bind_assoc]
    refine invoked rfl ⟨rfl, rfl⟩
      (upload name valid (fun _ => types rfl valid) rfl fun left enough m_counter key => ?_)
    exact report rfl (again left enough m_counter key files _ small.after_upload)
  · refine named rfl ⟨rfl, rfl⟩ (again _ more m_counter key files storage small)
      fun old_file_name old _ => ?_
    simp only [Code.bind_assoc]
    refine named rfl ⟨rfl, rfl⟩ (again _ more m_counter key files storage small)
      fun new_file_name new _ => ?_
    simp only [Code.bind_assoc]
    refine invoked rfl ⟨rfl, rfl⟩ (rename name old new rfl fun m_counter key => ?_)
    exact report rfl (again rounds same m_counter key files _ (small.after_rename _ _))
  · refine named rfl ⟨rfl, rfl⟩ (again _ more m_counter key files storage small)
      fun filename valid _ => ?_
    simp only [Code.bind_assoc]
    rw [run_get]
    refine local_left rfl (isFilePresent_found safe_left _) fun present _ => ?_
    cases present with
    | false => exact again _ more m_counter key files storage small
    | true =>
        rw [if_neg (not_not.mpr rfl), Code.bind_assoc]
        refine invoked rfl ⟨rfl, rfl⟩ (delete name valid (fun _ _ c _ => free c)
          (fun _ _ _ m_counter key => ?_) fun _ storage' removed m_counter key => ?_)
        · exact report rfl (again rounds same m_counter key files storage small)
        · exact report rfl (again rounds same m_counter key files storage'
            (small.after_remove removed))
  · refine invoked rfl ⟨rfl, rfl⟩ (logout name fun m_counter key => ?_)
    exact report rfl (over_ 0 _ _ rounds)
  · refine invoked rfl ⟨rfl, rfl⟩ (logout name fun m_counter key => ?_)
    exact report rfl (over_ 1 _ _ rounds)

/-- The client has come to its end. -/
theorem closed {s : Session octets} {value : α}
    (ends_ : ends ⟨.done value, ((Server.awaitCommand >>= served host rounds) s).bind kS,
      busy files, atTop storage s, [], []⟩) :
    Waiting ends host kS (.done value) rounds s files storage := by
  refine .stop rfl rfl ?_ ?_ nofun ends_
  · rintro ⟨_, _, ⟨⟩, -⟩
  · rintro ⟨_, _, ⟨⟩, enough⟩
    exact absurd enough (by simp [Link.swap, Generic.getMessageSize, Config.MAX_PACKET_SIZE])

/-- `Client::run` after its session. -/
def reports : Except Thrown (Option Int) × Session octets → Program Op Op.Ans (Option Int)
  | (.ok code, _) => .done code
  | (.error _, _) => .done (some 0)

variable {ends : Pair C F G (Option Int) β → Prop}

/-- The client comes to its menu: both are at the top of their loops. -/
theorem menu {n left : Nat} (free : ∀ c, ends c) (enough : n ≤ left)
    (name : FileManager.isStringValid username = true) {m_counter : UInt32} {key : Bytes}
    {files : F.State} {storage : G.State} (small : Small storage) :
    Waiting ends host kS ((Client.menu host n ⟨username, m_counter, key⟩).bind reports) left
      ⟨username, m_counter, key⟩ files storage := by
  induction n generalizing left m_counter key files storage with
  | zero => exact closed (free _)
  | succ n ih =>
      obtain ⟨left, rfl⟩ : ∃ rest, left = rest + 1 := ⟨left - 1, by omega⟩
      have remark : (note (.idle key m_counter)).ensures
          ((port C F .client).desk fun m =>
            (pact ends).SafeLeft m ∧ ¬(port C F .client).Rests m)
          (fun _ t g => t = ⟨username, m_counter, key⟩ ∧
            g = ⟨⟨files, true, some (key, m_counter), none⟩, [], []⟩)
          ⟨username, m_counter, key⟩ ⟨busy files, [], []⟩ := by
        rintro _ rfl answer -
        exact ⟨⟨safe_left files, Nat.zero_le _, nofun⟩, answer, _, rfl, rfl, rfl⟩
      rw [Client.menu, run_get]
      refine .code_left rfl remark ?_
      rintro _ _ _ ⟨rfl, rfl⟩
      refine .left rfl rfl ⟨_, _, rfl, Nat.zero_le _⟩ (fun _ => ⟨?_, fun _ => rfl⟩) ?_
      · rintro ⟨_, _, ⟨⟩, enough⟩
        exact absurd enough (by simp [Link.swap, Generic.getMessageSize, Config.MAX_PACKET_SIZE])
      rintro _ ⟨_, _, choice, ⟨⟩, -, chosen, rfl⟩
      refine operate free name small ?_ (fun code s t left => closed (free _))
        (F.bounded 1 7 choice chosen (by decide))
      intro left' more m_counter key files storage small
      exact ih (Nat.le_trans (Nat.le_of_succ_le_succ enough) more) small

end Lockstep
end CloudStorage
