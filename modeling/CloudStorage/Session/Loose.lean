import CloudStorage.Interaction.Segments
import CloudStorage.Session.FileFree
import CloudStorage.Session.Rounds

/-! Honest parties on machines whose files may do anything: every file call is answered as
it pleases, within what is assumed of the machine, and the calls are kept in a diary. What
travels between the parties is as it was on orderly machines. -/
namespace CloudStorage
open Interaction Code Method

namespace Loose

/-- The request that is being served and what the memory held that was set aside last. -/
structure Scene where
  command : Option UInt8
  memory : Bytes

/-- A file call and its answer. -/
structure Entry where
  scene : Scene
  call : FileCall
  answer : call.Ans

structure Bench where
  scene : Scene
  diary : List Entry

namespace Bench

def forget (b : Bench) (memory : Bytes) : Bench := { b with scene := ⟨b.scene.command, memory⟩ }

def serving (b : Bench) (command : UInt8) : Bench :=
  { b with scene := ⟨some command, b.scene.memory⟩ }

def wrote (b : Bench) (entries : List Entry) : Bench := { b with diary := b.diary ++ entries }

def filed (b : Bench) (call : FileCall) (answer : call.Ans) : Bench :=
  b.wrote [⟨b.scene, call, answer⟩]

def next (b : Bench) : (op : Op) → op.Ans → Bench
  | .file call, answer => b.filed call answer
  | .memory _, answer => b.forget answer
  | .note (.started command), _ => b.serving command
  | _, _ => b

theorem wrote_wrote (b : Bench) (first later : List Entry) :
    (b.wrote first).wrote later = b.wrote (first ++ later) :=
  congrArg (fun diary => ({ b with diary := diary } : Bench)) (List.append_assoc ..)

end Bench

/-- What is assumed of one machine: the answers of file calls, which may depend on all that
has happened at it, and what is on file of the user's public key. -/
structure Habit where
  Files : Bench → (call : FileCall) → call.Ans → Prop
  files : ∀ b call, ∃ answer, Files b call answer
  keyFile : KeyFile Unit

/-- A computer without files. -/
def blank : Computer where
  State := Unit
  respond
    | _, .ifstream_open _ | _, .ofstream_open _ => (false, ())
    | _, .seek_end _ => (none, ())
    | _, .read _ _ _ => ([], ())
    | _, .write _ _ => ((), ())
    | _, .exists_ _ | _, .is_regular_file _ | _, .is_symlink _ => (some false, ())
    | _, .directory_iterator _ => (none, ())
    | _, .rename _ _ | _, .remove _ => (-1, ())
  looks _ _ _ := rfl
  whole := by
    intro state path length position count found
    exact nomatch found
  regular _ _ := rfl
  symlink _ _ := rfl
  emptied := by
    intro state path length opened
    exact nomatch opened
  opened := by
    rintro state path length ⟨other, regular, size⟩
    exact nomatch size
  extended := by
    intro state path chunk length found
    exact nomatch found
  written := by
    rintro state path chunk length ⟨other, regular, size⟩
    exact nomatch size
  renamed := by
    rintro state old new length ⟨other, regular, size⟩
    exact nomatch size
  removed := by
    rintro state path length ⟨other, regular, size⟩
    exact nomatch size
  chooses lowerBound upperBound choice :=
    lowerBound ≤ upperBound → lowerBound ≤ choice ∧ choice ≤ upperBound
  bounded _ _ _ chosen := chosen
  decided lowerBound _ := ⟨lowerBound, fun ordered => ⟨Nat.le_refl _, ordered⟩⟩

/-- What `readPublicKey` finds. -/
def Habit.found (C : Crypto) (H : Habit) : Role → KeyFile Bytes
  | .client => .key (C.publicKey .client)
  | .server =>
      match H.keyFile with
      | .missing => .missing
      | .unreadable => .unreadable
      | .key () => .key (C.publicKey .client)

def Answers (C : Crypto) (H : Habit) (role : Role) (b : Bench) :
    (op : Op) → Bytes → op.Ans → Prop
  | .file call, _, answer => H.Files b call answer
  | .ssl (.readPublicKey _), _, answer => answer = H.found C role
  | op, arrived, answer => Machine.Answers C role (Party.busy () : Machine blank) op arrived answer

/-- The end of the channel at which a party sits, whatever its files do. -/
@[reducible] def loose (C : Crypto) (H : Habit) (role : Role) : Port Op Op.Ans UInt8 where
  World := Bench
  takes
    | .receive size => size
    | _ => 0
  puts
    | .send frame => frame
    | _ => []
  Answers := Answers C H role
  next := Bench.next
  answered := by
    intro b op arrived
    have usual := Machine.answered C role (Party.busy () : Machine blank)
    cases op with
    | file call => exact H.files b call
    | ssl call =>
        have known := usual (.ssl call) arrived
        cases call with
        | readPublicKey _ => exact ⟨_, rfl⟩
        | _ => exact known
    | _ => exact usual _ arrived
  Rests := fun _ => False

/-- The files are as they were. -/
def Stays (b : Bench) (b' : Bench) (_ : Machine blank) : Prop := ∃ memory, b' = b.forget memory

theorem mimics {C : Crypto} {H : Habit} {role : Role} {b : Bench} {quiet : Op → Prop}
    (free : ∀ op, quiet op → FileFree op)
    (registered : ∀ path, quiet (.ssl (.readPublicKey path)) → role = .server →
      H.keyFile = .key ()) :
    (loose C H role).Mimics (port C blank role) quiet (Stays b) where
  takes op := by
    cases op with
    | _ => rfl
  puts op := by
    cases op with
    | _ => rfl
  answers := by
    rintro _ m op arrived answer ⟨memory, rfl⟩ isQuiet answers
    cases op with
    | file call => exact (free _ isQuiet).elim
    | ssl call =>
        cases call with
        | readPublicKey path =>
            have known : H.found C role = .key (C.publicKey .client) := by
              cases role with
              | client => rfl
              | server => rw [Habit.found, registered path isQuiet rfl]
            exact answers.trans known
        | _ => exact answers
    | getline => exact fun _ _ => nofun
    | _ => exact answers
  next := by
    rintro _ m op arrived answer ⟨memory, rfl⟩ isQuiet -
    cases op with
    | file call => exact (free _ isQuiet).elim
    | memory size => exact ⟨answer, rfl⟩
    | note remark =>
        cases remark with
        | started command => exact (free _ isQuiet).elim
        | _ => exact ⟨memory, rfl⟩
    | _ => exact ⟨memory, rfl⟩

variable {C : Crypto} {H J : Habit} {α β γ δ : Type}

abbrev Pair (C : Crypto) (H J : Habit) (α β : Type) :=
  Link (loose C H .client) (loose C J .server) α β

def pact (ends : Pair C H J α β → Prop) :
    Link.Pact (loose C H .client) (loose C J .server) α β where
  SafeLeft := fun _ => True
  SafeRight := fun _ => True
  Agree := fun _ => True
  Ends := ends

theorem carefree (ends : Pair C H J α β → Prop) : (pact ends).Carefree :=
  ⟨fun _ => trivial, fun _ => trivial, fun _ => not_false, fun _ => not_false⟩

/-- Nothing is in flight. -/
abbrev At (ends : Pair C H J α β → Prop) (left : Program Op Op.Ans α)
    (right : Program Op Op.Ans β) (b b' : Bench) : Prop :=
  Link.Good (pact ends) ⟨left, right, b, b', [], []⟩

/-- Both programs have come to their ends, and returned what is known of them. -/
def Leaves (known : γ → Session octets → δ → Session octets → Prop)
    (c : Lockstep.Pair C blank blank (Except Thrown γ × Session octets)
      (Except Thrown δ × Session octets)) : Prop :=
  ∃ value t other u, c.left = .done (.ok value, t) ∧ c.right = .done (.ok other, u) ∧
    c.toLeft = [] ∧ c.toRight = [] ∧ known value t other u

theorem left_off {known : γ → Session octets → δ → Session octets → Prop} {value : γ} {other : δ}
    {t u : Session octets} {m m' : Machine blank} (sound : m.sound = true)
    (sound' : m'.sound = true) (awake : m.idle = none) (related : known value t other u) :
    Link.Good (Lockstep.pact (Leaves (C := C) known))
      ⟨((pure value : Method γ) t).bind .done, ((pure other : Method δ) u).bind .done, m, m',
        [], []⟩ := by
  apply Link.Good.stop sound sound'
  · rintro ⟨_, _, ⟨⟩, -⟩
  · rintro ⟨_, _, ⟨⟩, -⟩
  · intro resting
    change m.idle.isSome = true at resting
    rw [awake] at resting
    exact nomatch resting
  · exact ⟨value, t, other, u, rfl, rfl, rfl, rfl, related⟩

section Rules
variable {ends : Pair C H J α β → Prop} {b b' : Bench} {s t : Session octets} {η ζ : Type}
  {kC : Except Thrown γ × Session octets → Program Op Op.Ans α}
  {kS : Except Thrown δ × Session octets → Program Op Op.Ans β}
  {left : Program Op Op.Ans α} {right : Program Op Op.Ans β}

/-- A stretch without file calls goes as on orderly machines. -/
theorem both {quiet : Op → Prop} (free : ∀ op, quiet op → FileFree op)
    (registered : ∀ path, quiet (.ssl (.readPublicKey path)) → J.keyFile = .key ())
    (known : η → Session octets → ζ → Session octets → Prop) {c : Method η} {c' : Method ζ}
    {f : η → Method γ} {g : ζ → Method δ} {idle : Option (Bytes × UInt32)}
    (quietC : c.Confined quiet) (quietS : c'.Confined quiet)
    (ahead : Link.Good (Lockstep.pact (Leaves (C := C) known))
      ⟨((c >>= pure) s).bind .done, ((c' >>= pure) t).bind .done, Party.busy (),
        ⟨(), true, idle, none⟩, [], []⟩)
    (next : ∀ value u other v memory memory', known value u other v →
      At ends ((f value u).bind kC) ((g other v).bind kS) (b.forget memory)
        (b'.forget memory')) :
    At ends (((c >>= f) s).bind kC) (((c' >>= g) t).bind kS) b b' := by
  rw [Code.bind_pure, Code.bind_pure, Program.bind_done, Program.bind_done] at ahead
  rw [run_bind, run_bind, Program.bind_assoc, Program.bind_assoc]
  refine Link.Good.segment (carefree ends) (mimics free fun _ _ => nofun)
    (mimics free fun path isQuiet _ => registered path isQuiet) ahead (quietC s) (quietS t)
    ⟨b.scene.memory, rfl⟩ ⟨b'.scene.memory, rfl⟩ ?_
  rintro ⟨_, _, m, m', _, _⟩ _ _ ⟨value, u, other, v, rfl, rfl, rfl, rfl, related⟩ ⟨memory, rfl⟩
    ⟨memory', rfl⟩
  exact next value u other v memory memory' related

/-- What one side sends is what the other receives, and neither session changes. -/
def Passed (plaintext : Bytes) (s t : Session octets) (failure : Option Nat) (u : Session octets)
    (result : Except Return Bytes) (v : Session octets) : Prop :=
  failure = none ∧ u = s ∧ result = .ok plaintext ∧ v = t

theorem to_server (registered : J.keyFile = .key ()) {plaintext : Bytes} {size : Nat}
    {fC : Option Nat → Method γ} {fS : Except Return Bytes → Method δ}
    (short : plaintext.length < 2 ^ 31) (length : plaintext.length = size)
    (next : ∀ memory memory', At ends ((fC none s).bind kC) ((fS (.ok plaintext) s).bind kS)
      (b.forget memory) (b'.forget memory')) :
    At ends (((sendGeneric plaintext >>= fC) s).bind kC)
      (((receiveGeneric size >>= fS) s).bind kS) b b' := by
  apply both (fun _ isQuiet => isQuiet) (fun _ _ => registered) (Passed plaintext s s)
    confined_sendGeneric confined_receiveGeneric
    (Lockstep.to_server short length (left_off rfl rfl rfl ⟨rfl, rfl, rfl, rfl⟩))
  rintro _ _ _ _ memory memory' ⟨rfl, rfl, rfl, rfl⟩
  exact next memory memory'

theorem to_client (registered : J.keyFile = .key ()) {plaintext : Bytes} {size : Nat}
    {fC : Except Return Bytes → Method γ} {fS : Option Nat → Method δ}
    (short : plaintext.length < 2 ^ 31) (length : plaintext.length = size)
    (next : ∀ memory memory', At ends ((fC (.ok plaintext) s).bind kC) ((fS none s).bind kS)
      (b.forget memory) (b'.forget memory')) :
    At ends (((receiveGeneric size >>= fC) s).bind kC)
      (((sendGeneric plaintext >>= fS) s).bind kS) b b' := by
  apply both (fun _ isQuiet => isQuiet) (fun _ _ => registered)
    (fun result v failure u => Passed plaintext s s failure u result v)
    confined_receiveGeneric confined_sendGeneric
    (Lockstep.to_client short length (left_off rfl rfl rfl ⟨rfl, rfl, rfl, rfl⟩))
  rintro _ _ _ _ memory memory' ⟨rfl, rfl, rfl, rfl⟩
  exact next memory memory'

theorem simple_to_client (registered : J.keyFile = .key ()) {code : UInt8}
    {fC : Except Return Bytes → Method γ} {fS : Option Nat → Method δ}
    (next : ∀ filler memory memory',
      At ends ((fC (.ok (SimpleMessage.serialize ⟨code⟩ filler)) s).bind kC) ((fS none s).bind kS)
        (b.forget memory) (b'.forget memory')) :
    At ends (((receiveGeneric SimpleMessage.getMessageSize >>= fC) s).bind kC)
      (((sendSimple code >>= fS) s).bind kS) b b' := by
  apply both (fun _ isQuiet => isQuiet) (fun _ _ => registered)
    (fun result v failure u => ∃ filler,
      Passed (SimpleMessage.serialize ⟨code⟩ filler) s s failure u result v)
    confined_receiveGeneric confined_sendSimple
    (Lockstep.simple_to_client fun filler => left_off rfl rfl rfl ⟨filler, rfl, rfl, rfl, rfl⟩)
  rintro _ _ _ _ memory memory' ⟨filler, rfl, rfl, rfl, rfl⟩
  exact next filler memory memory'

theorem simple_to_server (registered : J.keyFile = .key ()) {code : UInt8}
    {fC : Option Nat → Method γ} {fS : Except Return Bytes → Method δ}
    (next : ∀ filler memory memory', At ends ((fC none s).bind kC)
      ((fS (.ok (SimpleMessage.serialize ⟨code⟩ filler)) s).bind kS)
        (b.forget memory) (b'.forget memory')) :
    At ends (((sendSimple code >>= fC) s).bind kC)
      (((receiveGeneric SimpleMessage.getMessageSize >>= fS) s).bind kS) b b' := by
  apply both (fun _ isQuiet => isQuiet) (fun _ _ => registered)
    (fun failure u result v => ∃ filler,
      Passed (SimpleMessage.serialize ⟨code⟩ filler) s s failure u result v)
    confined_sendSimple confined_receiveGeneric
    (Lockstep.simple_to_server (Party.busy_atWork (F := blank) ()) fun filler =>
      left_off rfl rfl rfl ⟨filler, rfl, rfl, rfl, rfl⟩)
  rintro _ _ _ _ memory memory' ⟨filler, rfl, rfl, rfl, rfl⟩
  exact next filler memory memory'

theorem authenticate (registered : J.keyFile = .key ()) {host : Endian}
    {username keyC keyS nameS : Bytes} {counterC counterS : UInt32}
    {f : Nat → Method γ} {g : Nat → Method δ}
    (name : FileManager.isStringValid username = true)
    (next : ∀ key memory memory',
      At ends ((f Return.AUTHENTICATION_SUCCESS.val ⟨username, 0, key⟩).bind kC)
        ((g Return.AUTHENTICATION_SUCCESS.val ⟨username, 0, key⟩).bind kS)
        (b.forget memory) (b'.forget memory')) :
    At ends (((Client.authenticate host >>= f) ⟨username, counterC, keyC⟩).bind kC)
      (((Server.authenticate host >>= g) ⟨nameS, counterS, keyS⟩).bind kS) b b' := by
  apply both (fun _ isQuiet => isQuiet) (fun _ _ => registered)
    (fun code u code' v => code = Return.AUTHENTICATION_SUCCESS.val ∧
      code' = Return.AUTHENTICATION_SUCCESS.val ∧ ∃ key, u = ⟨username, 0, key⟩ ∧ v = u)
    Client.confined_authenticate Server.confined_authenticate
    (Lockstep.authenticate name fun key => left_off rfl rfl rfl ⟨rfl, rfl, key, rfl, rfl⟩)
  rintro _ _ _ _ memory memory' ⟨rfl, rfl, key, rfl, rfl⟩
  exact next key memory memory'

theorem increments (registered : J.keyFile = .key ()) {host : Endian} {username key : Bytes}
    {m_counter : UInt32} {f : Unit → Method γ} {g : Unit → Method δ}
    (name : FileManager.isStringValid username = true)
    (next : ∀ m_counter key memory memory',
      At ends ((f () ⟨username, m_counter, key⟩).bind kC)
        ((g () ⟨username, m_counter, key⟩).bind kS) (b.forget memory) (b'.forget memory')) :
    At ends (((Client.incrementCounter host >>= f) ⟨username, m_counter, key⟩).bind kC)
      (((Server.incrementCounter host >>= g) ⟨username, m_counter, key⟩).bind kS) b b' := by
  apply both (fun _ isQuiet => isQuiet) (fun _ _ => registered)
    (fun _ u _ v => ∃ m_counter key, u = ⟨username, m_counter, key⟩ ∧ v = u)
    Client.confined_incrementCounter Server.confined_incrementCounter
    (Lockstep.increments name fun m_counter key =>
      left_off rfl rfl rfl ⟨m_counter, key, rfl, rfl⟩)
  rintro _ _ _ _ memory memory' ⟨m_counter, key, rfl, rfl⟩
  exact next m_counter key memory memory'

/-- A call of the client that moves no bytes. -/
theorem ask_left {op : Op} {f : op.Ans → Method γ} (takes : (loose C H .client).takes op = 0)
    (puts : (loose C H .client).puts op = [])
    (next : ∀ answer, Answers C H .client b op [] answer →
      At ends ((f answer s).bind kC) right (b.next op answer) b') :
    At ends (((ask op >>= f) s).bind kC) right b b' :=
  Link.Good.call_left (carefree ends) takes puts next

theorem ask_right {op : Op} {f : op.Ans → Method δ} (takes : (loose C J .server).takes op = 0)
    (puts : (loose C J .server).puts op = [])
    (next : ∀ answer, Answers C J .server b' op [] answer →
      At ends left ((f answer t).bind kS) b (b'.next op answer)) :
    At ends left (((ask op >>= f) t).bind kS) b b' :=
  Link.Good.call_right (carefree ends) takes puts next

end Rules

end Loose
end CloudStorage
