import CloudStorage.Dialogue.Server.Forms

/-! The steps that the handlers of a server are made of. -/
namespace CloudStorage
open Interaction Code Method Dialogue
namespace Server
variable {host : Endian} {key : Bytes} {known : Emission → Prop} {user : Bytes} {entry : Entry}

/-- What makes what is said and done for a command fit. -/
abbrev Forms (host : Endian) (command : UInt8) (facts : Bytes → Entry → Prop) : Prop :=
  ∀ user entry, entry.command = command → facts user entry →
    Answers host user entry.command entry.talk entry.deeds

/-- A request in progress, after so many messages. -/
structure Stage (command : UInt8) (facts : Bytes → Entry → Prop) (length : Nat)
    (more : Bytes → Entry → Prop) (user : Bytes) (entry : Entry) : Prop where
  command : entry.command = command
  facts : facts user entry
  length : entry.talk.length = length
  more : more user entry

variable {s : Session octets} {g : Ledger} {spent : Bool} {holds holds' : Bytes → Entry → Prop}
  {command : UInt8} {facts more : Bytes → Entry → Prop} {length : Nat} {plaintext : Bytes}

/-- A request ends between two requests. -/
def Rests (host : Endian) (key : Bytes) (known : Emission → Prop) {α : Type} (_value : α)
    (s : Session octets) (g : Ledger) : Prop :=
  Resting (charter host key known) false s g

theorem rested {α : Type} {value : α} (working : Working (charter host key known) false holds s g) :
    (pure value : Method α).wp (charter host key known).monitor (Rests host key known) s g :=
  (wp_pure _).mpr working.resting

theorem increments (working : Working (charter host key known) true holds s g) :
    (incrementCounter host).wp (charter host key known).monitor (fun _ s' g' =>
      Working (charter host key known) false holds s' g') s g :=
  increment_works negotiates working

/-- An answer is sent for the request. -/
theorem sends {facts' : Bytes → Entry → Prop} (forms : Forms host command facts')
    (more' : Bytes → Entry → Prop) (code : UInt8)
    (working : Working (charter host key known) false (Stage command facts length more) s g)
    (head : plaintext.headD 0 = code) (answers : code ∈ answerCodes)
    (goes : ∀ e user entry, e.plaintext = plaintext → e.code = code →
      Stage command facts length more user entry →
      (entry.talk ≠ [] → e.counter = entry.talk.start + entry.talk.length) →
      facts' user (entry.say ⟨.server, e⟩) ∧ more' user (entry.say ⟨.server, e⟩)) :
    (sendGeneric plaintext).wp (charter host key known).monitor
      (Dispatched (charter host key known) (Stage command facts' (length + 1) more') s g) s g := by
  have coded : ∀ e, Emits s plaintext e → e.code = code := fun e sent =>
    (congrArg (fun text : Bytes => text.headD 0) sent.text).trans head
  refine sendGeneric_says working (fun _ _ _ _ => trivial) (fun _ e sent => ?_) ?_
  · exact .inl (coded e sent ▸ answers)
  · intro e user entry sent formed stage counter
    obtain ⟨known, extra⟩ := goes e user entry sent.text (coded e sent) stage counter
    have longer : (entry.say ⟨.server, e⟩).talk.length = length + 1 :=
      List.length_append.trans (congrArg (· + 1) stage.length)
    exact ⟨formed.say (forms user _ stage.command known), stage.command, known, longer, extra⟩

/-- A frame is received for it. -/
theorem hears {size : Nat} {facts' : Bytes → Bytes → Entry → Prop}
    (forms : ∀ text, Forms host command (facts' text)) (more' : Bytes → Bytes → Entry → Prop)
    (working : Working (charter host key known) false (Stage command facts length more) s g)
    (goes : ∀ text e user entry, Hears s size text e → Stage command facts length more user entry →
      (entry.talk ≠ [] → e.counter = entry.talk.start + entry.talk.length) →
      facts' text user (entry.say ⟨.client, e⟩) ∧ more' text user (entry.say ⟨.client, e⟩)) :
    (receiveGeneric size).wp (charter host key known).monitor
      (Received (charter host key known)
        (fun text => Stage command (facts' text) (length + 1) (more' text)) s g) s g := by
  refine receiveGeneric_hears working (fun e => trivial) ?_
  intro text e user entry heard _ formed stage counter
  obtain ⟨known, extra⟩ := goes text e user entry heard stage counter
  have longer : (entry.say ⟨.client, e⟩).talk.length = length + 1 :=
    List.length_append.trans (congrArg (· + 1) stage.length)
  exact ⟨formed.say (forms text user _ stage.command known), stage.command, known, longer, extra⟩

/-- An answer, and the counter after it. -/
theorem said {sending : Method (Option Nat)} {next : Method Nat}
    (working : Working (charter host key known) false holds s g)
    (sent : sending.wp (charter host key known).monitor
      (Dispatched (charter host key known) holds' s g) s g)
    (rest : ∀ s' g', Working (charter host key known) false holds' s' g' →
      next.wp (charter host key known).monitor (Rests host key known) s' g') :
    (do if let some code ← sending then return code
        incrementCounter host
        next).wp (charter host key known).monitor (Rests host key known) s g := by
  refine wp_seq sent ?_
  rintro failure s g' ⟨rfl, stopped, spoken⟩
  cases failure with
  | some code =>
      obtain ⟨rfl, -⟩ := stopped code rfl
      exact rested working
  | none => exact wp_seq (increments (spoken rfl)) fun _ s' g' working => rest s' g' working

theorem sendSimple_sent {code : UInt8} {holds' : Bytes → Entry → Prop}
    (working : Working (charter host key known) false holds s g)
    (sent : ∀ filler, (sendGeneric (SimpleMessage.serialize ⟨code⟩ filler)).wp
      (charter host key known).monitor (Dispatched (charter host key known) holds' s g) s g) :
    (sendSimple code).wp (charter host key known).monitor
      (Dispatched (charter host key known) holds' s g) s g :=
  wp_unlisted (.invoke fun _ _ => rfl) working.resting.good fun filler _ => sent filler

theorem cString_unlisted (array : NameField) (memory : Bytes) :
    (cString array memory).Keeps (charter host key known).Unlisted (Named memory) := by
  refine .ite (fun _ => .pure fun _ => rfl) fun open_ => ?_
  exact .bind (.invoke fun _ _ => rfl) fun beyond _ => .pure fun terminated => absurd terminated open_

/-- The handler has begun. -/
def Begun (command : UInt8) (plaintext : Bytes) (_user : Bytes) (entry : Entry) : Prop :=
  ∃ e, entry = .begun command [] [⟨.client, e⟩] ∧ e.plaintext = plaintext

theorem spoken_request (command : UInt8) (chunks : Nat) (e : Emission) :
    Spoken .server command chunks [⟨.client, e⟩] :=
  Spoken.nil.say rfl (fun begun => absurd rfl begun) .request nofun

/-- From the beginning of a handler to its first stage. -/
theorem begins (facts : Bytes → Entry → Prop)
    (first : ∀ e : Emission, e.plaintext = plaintext →
      facts s.m_username (.begun command [] [⟨.client, e⟩]))
    (working : Working (charter host key known) spent (Begun command plaintext) s g) :
    Working (charter host key known) spent (Stage command facts 1 fun user entry =>
      user = s.m_username ∧ entry.talk.Says 0 (·.plaintext = plaintext) ∧ entry.deeds = .none_) s g := by
  refine working.mono ?_
  rintro _ _ ⟨e, rfl, same⟩
  exact ⟨rfl, first e same, rfl, rfl, Talk.says_first same, rfl⟩

end Server
end CloudStorage
