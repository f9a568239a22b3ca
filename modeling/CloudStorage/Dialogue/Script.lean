import CloudStorage.Dialogue.Ledger
import CloudStorage.Server.Upkeep

/-! The script that both parties follow in a request: who speaks when, and with which
codes. -/
namespace CloudStorage
open Interaction
namespace Dialogue

/-- The codes that the `switch` of the server knows. -/
def commandCodes : List UInt8 :=
  [Message.LIST_REQUEST.byte, Message.DOWNLOAD_REQUEST.byte, Message.UPLOAD_REQUEST.byte,
    Message.RENAME_REQUEST.byte, Message.DELETE_REQUEST.byte, Message.LOGOUT_REQUEST.byte]

/-- The codes of the other messages of a client. -/
def laterCodes : List UInt8 :=
  [Message.UPLOAD_CHUNK.byte, Message.DELETE_CONFIRM.byte, Message.NO_DELETE_CONFIRM.byte]

/-- Those that may follow a request. -/
def followCodes (command : UInt8) : List UInt8 :=
  if command = Message.UPLOAD_REQUEST.byte then [Message.UPLOAD_CHUNK.byte]
  else if command = Message.DELETE_REQUEST.byte then
    [Message.DELETE_CONFIRM.byte, Message.NO_DELETE_CONFIRM.byte]
  else []

/-- The codes of the first answer to a request. -/
def firstAnswers (command : UInt8) : List UInt8 :=
  if command = Message.LIST_REQUEST.byte then [Message.LIST_ACK.byte]
  else if command = Message.DOWNLOAD_REQUEST.byte then
    [Message.DOWNLOAD_ACK.byte, Error.FILE_NOT_FOUND.byte]
  else if command = Message.UPLOAD_REQUEST.byte then [Result.ACK.byte, Result.NACK.byte]
  else if command = Message.RENAME_REQUEST.byte then Server.renameCodes
  else if command = Message.DELETE_REQUEST.byte then [Message.DELETE_ASK.byte]
  else [Result.ACK.byte]

/-- The codes of the other answers to it. -/
def laterAnswers (command : UInt8) : List UInt8 :=
  if command = Message.LIST_REQUEST.byte then [Message.LIST_RESPONSE.byte]
  else if command = Message.DOWNLOAD_REQUEST.byte then [Message.DOWNLOAD_CHUNK.byte]
  else [Result.ACK.byte]

/-- The codes that a side uses at a place. -/
def codes (command : UInt8) : Role → Nat → List UInt8
  | .client, 0 => [command]
  | .client, _ => followCodes command
  | .server, 1 => firstAnswers command
  | .server, _ => laterAnswers command

theorem codes_later (command : UInt8) (place : Nat) :
    codes command .server (place + 2) = laterAnswers command := rfl

/-- Who speaks at a place of a request that moves so many chunks. -/
inductive Speaks (command : UInt8) (chunks : Nat) : Nat → Role → Prop where
  | request : Speaks command chunks 0 .client
  | answer : Speaks command chunks 1 .server
  | listing : command = Message.LIST_REQUEST.byte → Speaks command chunks 2 .server
  | download {place : Nat} : command = Message.DOWNLOAD_REQUEST.byte → place < chunks →
      Speaks command chunks (place + 2) .server
  | upload {place : Nat} : command = Message.UPLOAD_REQUEST.byte → place < chunks →
      Speaks command chunks (place + 2) .client
  | uploaded : command = Message.UPLOAD_REQUEST.byte → Speaks command chunks (chunks + 2) .server
  | confirmation : command = Message.DELETE_REQUEST.byte → Speaks command chunks 2 .client
  | removal : command = Message.DELETE_REQUEST.byte → Speaks command chunks 3 .server

theorem code_of_text {e : Emission} {text : Bytes} (same : e.plaintext = text) :
    e.code = text.headD 0 := congrArg (fun text : Bytes => text.headD 0) same

theorem command_not_answer : ∀ code ∈ commandCodes, code ∉ Server.answerCodes := by decide +kernel

theorem later_not_answer : ∀ code ∈ laterCodes, code ∉ Server.answerCodes := by decide +kernel

theorem later_not_command : ∀ code ∈ laterCodes, code ∉ commandCodes := by decide +kernel

theorem later_of_followCodes {command code : UInt8} (member : code ∈ followCodes command) :
    code ∈ laterCodes := by
  simp only [followCodes] at member
  split_ifs at member
  · rw [List.mem_singleton.mp member]
    decide
  · exact List.mem_cons_of_mem _ member
  · cases member

/-- A first answer that could be a later one acknowledges an upload or a removal. -/
theorem first_of_later {command other code : UInt8} (first : code ∈ firstAnswers command)
    (later : code ∈ laterAnswers other) :
    other ≠ Message.LIST_REQUEST.byte ∧ other ≠ Message.DOWNLOAD_REQUEST.byte := by
  have differ : ∀ code ∈ [Message.LIST_RESPONSE.byte, Message.DOWNLOAD_CHUNK.byte],
      code ∉ firstAnswers command := by
    unfold firstAnswers
    split_ifs <;> decide +kernel
  constructor
  · rintro rfl
    obtain rfl := List.mem_singleton.mp later
    exact differ _ (by decide) first
  · rintro rfl
    obtain rfl := List.mem_singleton.mp later
    exact differ _ (by decide) first

namespace Speaks
variable {command : UInt8} {chunks other place later : Nat} {role : Role}

/-- The first two places do not depend on the chunks. -/
theorem start (speaks : Speaks command chunks place role) (start : place < 2) :
    Speaks command other place role := by
  cases speaks with
  | request => exact .request
  | answer => exact .answer
  | _ => omega

/-- A client that speaks late has spoken right before. -/
theorem before (speaks : Speaks command chunks (place + 3) .client) :
    Speaks command chunks (place + 2) .client := by
  cases speaks with
  | upload command inside => exact .upload command (by omega)

/-- Where both could speak, the server ends an upload of fewer chunks. -/
theorem clash (client : Speaks command other place .client)
    (server : Speaks command chunks place .server) :
    command = Message.UPLOAD_REQUEST.byte ∧ place = chunks + 2 ∧ chunks < other := by
  cases client with
  | request => cases server
  | upload upload inside =>
      subst upload
      cases server with
      | listing list => exact absurd list (by decide)
      | download download => exact absurd download (by decide)
      | uploaded => exact ⟨rfl, rfl, inside⟩
      | removal delete => exact absurd delete (by decide)
  | confirmation delete =>
      subst delete
      cases server with
      | listing list => exact absurd list (by decide)
      | download download => exact absurd download (by decide)
      | uploaded upload => exact absurd upload (by decide)

/-- The place and the chunks tell who speaks. -/
theorem unique {author : Role} (first : Speaks command chunks place role)
    (second : Speaks command chunks place author) : role = author := by
  cases role with
  | client =>
      cases author with
      | client => rfl
      | server => exact absurd (clash first second).2.2 (Nat.lt_irrefl _)
  | server =>
      cases author with
      | client => exact absurd (clash second first).2.2 (Nat.lt_irrefl _)
      | server => rfl

/-- Where it could be the turn of the client, the server only ends. -/
theorem last (client : Speaks command other place .client)
    (server : Speaks command chunks place .server) (behind : place < later) :
    ¬Speaks command chunks later role := by
  intro speaks
  obtain ⟨rfl, rfl, -⟩ := clash client server
  cases speaks with
  | listing list => exact absurd list (by decide)
  | download download => exact absurd download (by decide)
  | confirmation delete => exact absurd delete (by decide)
  | removal delete => exact absurd delete (by decide)
  | _ => omega

/-- Before the server acknowledges late, the client has spoken, unless no chunk was due. -/
theorem acknowledged (server : Speaks command chunks (place + 2) .server)
    (list : command ≠ Message.LIST_REQUEST.byte) (download : command ≠ Message.DOWNLOAD_REQUEST.byte)
    (some_ : command = Message.UPLOAD_REQUEST.byte → chunks ≠ 0) :
    ∃ before, place = before + 1 ∧ Speaks command chunks (before + 2) .client := by
  cases server with
  | listing same => exact absurd same list
  | download same => exact absurd same download
  | uploaded upload =>
      have positive := some_ upload
      exact ⟨chunks - 1, by omega, .upload upload (by omega)⟩
  | removal delete => exact ⟨0, rfl, .confirmation delete⟩

end Speaks

namespace Talk
variable {talk : Talk} {place : Nat} {P Q : Emission → Prop} {turn : Turn}

/-- What is said at a place, if anything is. -/
def Says (talk : Talk) (place : Nat) (P : Emission → Prop) : Prop :=
  ∀ turn, talk[place]? = some turn → P turn.message

instance [DecidablePred P] : Decidable (Says talk place P) :=
  inferInstanceAs (Decidable (∀ turn ∈ talk[place]?, P turn.message))

theorem Says.imp (spoken : Says talk place P) (weaker : ∀ e, P e → Q e) : Says talk place Q :=
  fun turn found => weaker _ (spoken turn found)

theorem Says.later (spoken : Says talk place P) (before : place < talk.length) :
    Says (talk ++ [turn]) place P := by
  intro other found
  rw [List.getElem?_append_left before] at found
  exact spoken other found

theorem unsaid (short : talk.length ≤ place) : Says talk place P := by
  intro turn found
  rw [List.getElem?_eq_none short] at found
  cases found

theorem says_here (here : talk.length = place) (holds : P turn.message) :
    Says (talk ++ [turn]) place P := by
  subst here
  intro other found
  rw [List.getElem?_concat_length] at found
  exact Option.some.inj found ▸ holds

theorem says_first (holds : P turn.message) : Says [turn] 0 P := by
  intro other found
  exact Option.some.inj found ▸ holds

end Talk

/-- A talk by the script, up to the codes of the other side. -/
structure Spoken (role : Role) (command : UInt8) (chunks : Nat) (talk : Talk) : Prop where
  counted : Consecutive Turn.counter talk.start talk
  scripted : ∀ place turn, talk[place]? = some turn →
    Speaks command chunks place turn.author
  coded : ∀ place e, talk[place]? = some ⟨role, e⟩ → e.code ∈ codes command role place

namespace Spoken
variable {role : Role} {command : UInt8} {chunks : Nat} {talk : Talk}

theorem nil : Spoken role command chunks [] where
  counted := .nil
  scripted := nofun
  coded := nofun

theorem say (spoken : Spoken role command chunks talk) {author : Role} {e : Emission} {length : Nat}
    (here : talk.length = length) (counter : talk ≠ [] → e.counter = talk.start + talk.length)
    (speaks : Speaks command chunks length author)
    (coded : author = role → e.code ∈ codes command role length) :
    Spoken role command chunks (talk ++ [⟨author, e⟩]) where
  counted := by
    by_cases begun : talk = []
    · subst begun
      exact Consecutive.nil.concat rfl
    · rw [Talk.start_append begun]
      exact spoken.counted.concat (counter begun)
  scripted := by
    subst here
    intro place other found
    rcases mem_concat_at found with before | ⟨rfl, rfl⟩
    · exact spoken.scripted place other before
    · exact speaks
  coded := by
    subst here
    intro place other found
    rcases mem_concat_at found with before | ⟨rfl, same⟩
    · exact spoken.coded place other before
    · obtain ⟨rfl, rfl⟩ := Turn.mk.inj same
      exact coded rfl

/-- Who speaks at a place that was reached. -/
theorem turn (spoken : Spoken role command chunks talk) {place : Nat} {author : Role}
    (speaks : Speaks command chunks place author) (inside : place < talk.length) :
    ∃ e, talk[place]? = some ⟨author, e⟩ := by
  obtain ⟨⟨other, e⟩, found⟩ : ∃ turn, talk[place]? = some turn := ⟨_, List.getElem?_eq_getElem inside⟩
  obtain rfl : other = author := (spoken.scripted place _ found).unique speaks
  exact ⟨e, found⟩

/-- The number of chunks matters only behind the first answer. -/
theorem chunks_irrelevant (spoken : Spoken role command chunks talk) (other : Nat)
    (short : talk.length ≤ 2) : Spoken role command other talk := by
  refine ⟨spoken.counted, fun place turn found => ?_, spoken.coded⟩
  have inside := (List.getElem?_eq_some_iff.mp found).1
  exact (spoken.scripted place turn found).start (by omega)

end Spoken

end Dialogue
end CloudStorage
