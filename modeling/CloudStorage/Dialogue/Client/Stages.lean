import CloudStorage.Dialogue.Client.Forms

/-! The steps that the requests of a client are made of. -/
namespace CloudStorage
open Interaction Code Method Dialogue
namespace Client
variable {host : Endian} {key : Bytes} {known : Emission → Prop}

/-- What makes a request with this command and these names a formed one. -/
abbrev Forms (host : Endian) (command : UInt8) (names : List Bytes) (facts : Entry → Prop) : Prop :=
  ∀ entry, entry.command = command → entry.names = names → facts entry → Formed host entry

/-- A request in progress, after so many messages. -/
structure Stage (command : UInt8) (names : List Bytes) (facts : Entry → Prop) (length : Nat)
    (more : Entry → Prop) (_user : Bytes) (entry : Entry) : Prop where
  command : entry.command = command
  names : entry.names = names
  facts : facts entry
  length : entry.talk.length = length
  unfinished : entry.result = none
  more : more entry

/-- A request has ended with a code. -/
def Ended (host : Endian) (key : Bytes) (known : Emission → Prop) (spent : Bool) (code : Nat)
    (s : Session octets) (g : Ledger) : Prop :=
  Working (charter host key known) spent (fun _ entry => Formed host (entry.finish code)) s g

variable {s : Session octets} {g : Ledger} {spent : Bool} {holds holds' : Bytes → Entry → Prop}
  {command : UInt8} {names : List Bytes} {facts more : Entry → Prop} {length : Nat}
  {plaintext : Bytes}

theorem Stage.unreported {user : Bytes} {entry : Entry}
    (stage : Stage command names facts length more user entry) {P : Prop} {code : Nat}
    (reported : entry.result = some code) : P := by
  rw [stage.unfinished] at reported
  cases reported

theorem ended {code : Nat} (working : Working (charter host key known) spent holds s g)
    (ends : ∀ entry, Formed host entry → holds s.m_username entry → Formed host (entry.finish code)) :
    (pure code : Method Nat).wp (charter host key known).monitor
      (Ended host key known spent) s g :=
  (wp_pure _).mpr (working.mono ends)

theorem failed {code : Nat} (working : Working (charter host key known) spent holds s g)
    (failure : code ≠ Return.SUCCESS.val) :
    (pure code : Method Nat).wp (charter host key known).monitor
      (Ended host key known spent) s g :=
  ended working fun _ formed _ => formed.fails failure

theorem increments (working : Working (charter host key known) true holds s g) :
    (incrementCounter host).wp (charter host key known).monitor (fun _ s' g' =>
      Working (charter host key known) false holds s' g') s g :=
  increment_works negotiates working

/-- A message is sent for the request; the first one finds it there. -/
theorem sends {facts' : Entry → Prop} (forms : Forms host command names facts')
    (more' : Entry → Prop)
    (working : Working (charter host key known) false (Stage command names facts length more) s g)
    (left_ : g.Present ∨ plaintext.headD 0 ∈ laterCodes)
    (goes : ∀ e user entry, Emits s plaintext e → Stage command names facts length more user entry →
      (entry.talk ≠ [] → e.counter = entry.talk.start + entry.talk.length) →
      facts' (entry.say ⟨.client, e⟩) ∧ more' (entry.say ⟨.client, e⟩)) :
    (sendGeneric plaintext).wp (charter host key known).monitor
      (Dispatched (charter host key known) (Stage command names facts' (length + 1) more') s g) s g := by
  refine sendGeneric_says working (fun current none_ e sent => ?_) (fun again => again.elim) ?_
  · intro _
    cases left_ with
    | inl present => exact absurd none_ (present current)
    | inr code =>
        rw [← sent.text] at code
        exact code
  · intro e user entry sent _ stage counter
    obtain ⟨known, extra⟩ := goes e user entry sent stage counter
    have longer : (entry.say ⟨.client, e⟩).talk.length = length + 1 :=
      List.length_append.trans (congrArg (· + 1) stage.length)
    exact ⟨forms _ stage.command stage.names known, stage.command, stage.names, known, longer,
      stage.unfinished, extra⟩

/-- An answer is received for it. -/
theorem hears {size : Nat} {facts' : Bytes → Entry → Prop}
    (forms : ∀ text, Forms host command names (facts' text)) (more' : Bytes → Entry → Prop)
    (working : Working (charter host key known) false (Stage command names facts length more) s g)
    (goes : ∀ text e user entry, Hears s size text e → Stage command names facts length more user entry →
      (entry.talk ≠ [] → e.counter = entry.talk.start + entry.talk.length) →
      facts' text (entry.say ⟨.server, e⟩) ∧ more' text (entry.say ⟨.server, e⟩)) :
    (receiveGeneric size).wp (charter host key known).monitor
      (Received (charter host key known)
        (fun text => Stage command names (facts' text) (length + 1) (more' text)) s g) s g := by
  refine receiveGeneric_hears working (fun e => nofun) ?_
  intro text e user entry heard _ _ stage counter
  obtain ⟨known, extra⟩ := goes text e user entry heard stage counter
  have longer : (entry.say ⟨.server, e⟩).talk.length = length + 1 :=
    List.length_append.trans (congrArg (· + 1) stage.length)
  exact ⟨forms text _ stage.command stage.names known, stage.command, stage.names, known, longer,
    stage.unfinished, extra⟩

/-- A message, and the counter after it. -/
theorem said {sending : Method (Option Nat)} {next : Method Nat}
    (working : Working (charter host key known) false holds s g)
    (sent : sending.wp (charter host key known).monitor
      (Dispatched (charter host key known) holds' s g) s g)
    (rest : ∀ s' g', Working (charter host key known) false holds' s' g' →
      next.wp (charter host key known).monitor (Ended host key known false) s' g') :
    (do if let some code ← sending then return code
        incrementCounter host
        next).wp (charter host key known).monitor (Ended host key known false) s g := by
  refine wp_seq sent ?_
  rintro failure s g' ⟨rfl, stopped, spoken⟩
  cases failure with
  | some code =>
      obtain ⟨rfl, failure⟩ := stopped code rfl
      exact failed working failure
  | none => exact wp_seq (increments (spoken rfl)) fun _ s' g' working => rest s' g' working

/-- An answer, of which a failure is returned. -/
theorem heard {size : Nat} {holds' : Bytes → Bytes → Entry → Prop}
    {next : Except Return Bytes → Method Nat}
    (working : Working (charter host key known) false holds s g)
    (received : (receiveGeneric size).wp (charter host key known).monitor
      (Received (charter host key known) holds' s g) s g)
    (failure : ∀ code, next (.error code) = pure code.val)
    (rest : ∀ text g', Working (charter host key known) true (holds' text) s g' →
      (next (.ok text)).wp (charter host key known).monitor (Ended host key known false) s g') :
    (receiveGeneric size >>= next).wp (charter host key known).monitor
      (Ended host key known false) s g := by
  refine wp_seq received ?_
  rintro result s g' ⟨rfl, opened, stopped⟩
  cases result with
  | error code =>
      obtain ⟨rfl, never⟩ := stopped code rfl
      rw [failure]
      exact failed working never
  | ok text => exact rest text g' (opened text rfl)

/-- The first message of a simple request. -/
theorem sendSimple_sent {code : UInt8} {holds' : Bytes → Entry → Prop}
    (working : Working (charter host key known) false holds s g)
    (sent : ∀ filler, (sendGeneric (SimpleMessage.serialize ⟨code⟩ filler)).wp
      (charter host key known).monitor (Dispatched (charter host key known) holds' s g) s g) :
    (sendSimple code).wp (charter host key known).monitor
      (Dispatched (charter host key known) holds' s g) s g :=
  wp_unlisted (.invoke fun _ _ => rfl) working.resting.good fun filler _ => sent filler

/-- Nothing has been said yet. -/
theorem begins (facts : Entry → Prop) (first : facts (.begun command names []))
    (working : Working (charter host key known) false
      (fun _ entry => entry = .begun command names []) s g) :
    Working (charter host key known) false
      (Stage command names facts 0 fun entry => entry.deeds = .none_) s g := by
  refine working.mono ?_
  rintro _ _ rfl
  exact ⟨rfl, rfl, first, rfl, rfl, rfl⟩

/-- A loop over the chunks ends with a failure, or with a state of the request. -/
def Looped (host : Endian) (key : Bytes) (known : Emission → Prop) (holds : Bytes → Entry → Prop)
    (failure : Option Nat) (s : Session octets) (g : Ledger) : Prop :=
  (∀ code, failure = some code → code ≠ Return.SUCCESS.val ∧
    Working (charter host key known) false (fun _ _ => True) s g) ∧
  (failure = none → Working (charter host key known) false holds s g)

theorem looped_failed {code : Nat}
    (working : Working (charter host key known) false holds s g)
    (failure : code ≠ Return.SUCCESS.val) :
    (pure (some code) : Method (Option Nat)).wp (charter host key known).monitor
      (Looped host key known holds') s g := by
  refine (wp_pure _).mpr ⟨?_, nofun⟩
  rintro _ ⟨⟩
  exact ⟨failure, working.mono fun _ _ _ => trivial⟩

end Client
end CloudStorage
