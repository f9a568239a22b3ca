import CloudStorage.Dialogue.Client.Session
import CloudStorage.Dialogue.Server.Session
import CloudStorage.Session.Rehearsal

/-! The conduct of each party alone, whatever the network delivers. -/
namespace CloudStorage
open Interaction
namespace Dialogue

namespace Meeting
open Rehearsal

theorem scene_keepsLength (scene : Scene) (op : Op) : KeepsLength op (scene.respond op).1 := by
  cases op with
  | ssl call =>
      cases call with
      | encrypt key aad plaintext =>
          rintro box ⟨⟩
          rfl
      | generateDS input => exact List.length_replicate
      | _ => trivial
  | _ => trivial

theorem desk_keepsLength (desk : Desk) (op : Op) : KeepsLength op (desk.respond op).1 := by
  cases op with
  | ssl call => exact scene_keepsLength desk.scene (.ssl call)
  | file call => cases call <;> trivial
  | _ => trivial

abbrev host : Endian := .little

def key : Bytes := sampleKey

def acknowledgement : Bytes := packet [0]

/-- What the server sends in a login: M2, M3 and M5. -/
def greeting (key : Bytes) : List Bytes :=
  [acknowledgement, AuthenticationM3.serialize (.ofParts [] (host.bytes 0)
    (boxOf key (List.replicate ENCRYPTED_SIGNATURE_LEN 0)) []), frame key 2 acknowledgement]

/-- Luca logs in, makes a choice in the menu and gets these answers. -/
def desk (choices : List Nat) (lines : List Bytes) (present : List Bytes) (content : Bytes)
    (answers : List (UInt32 × Bytes)) : Desk where
  scene :=
    { inbox := greeting key ++ answers.map fun (counter, plaintext) => frame key counter plaintext
      keys := [key]
      present := present }
  lines := [ascii "Luca", ascii "secret"] ++ lines
  choices := choices
  content := content

/-- The server with these files, which all have the same content. -/
def store (present : List Bytes) (content : Bytes) (frames : List (UInt32 × Bytes)) : Desk where
  scene := { sessionOf host frames with present := present }
  lines := []
  choices := []
  content := content

def sender (desk : Desk) : List (Event Op Op.Ans) :=
  ((Client.run host 1 newcomer).execute Desk.respond desk).1

def receiver (store : Desk) : List (Event Op Op.Ans) :=
  ((Server.run host 1 newcomer).execute Desk.respond store).1

/-- A file of 70 bytes, which makes a chunk as long as a packet. -/
def content : Bytes := List.replicate 70 65

def request : Bytes := (UploadM1.ofFile (ascii "a.txt") 70).serialize host
  (List.replicate (fillerSize UploadM1.getSizeUploadM1) 0)

/-- Luca uploads the file. -/
def upload : Desk := desk [3] [ascii "a.txt"] [ascii "../files/a.txt"] content
  [(1, acknowledgement), (3, acknowledgement)]

/-- The upload at the server; the chunk is one of the network's choice. -/
def uploaded (chunk : Bytes) : Desk := store [] [] [(0, request), (2, chunk)]

end Meeting

end Dialogue
end CloudStorage
