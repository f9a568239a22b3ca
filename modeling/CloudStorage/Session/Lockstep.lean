import CloudStorage.Client
import CloudStorage.Server
import CloudStorage.Session.Party

/-! Client and server in step: what one sends under a session the other receives under
an equal session, and they advance it together. -/
namespace CloudStorage
open Interaction Code Method Party

namespace Lockstep
variable {C : Crypto} {F G : Computer} {α β γ δ : Type}

abbrev Pair (C : Crypto) (F G : Computer) (α β : Type) :=
  Link (port C F .client) (port C G .server) α β

/-- No received counter is wrong, and when the client is back at its menu while the
server waits for a command, both hold the same key and counter. -/
def pact (ends : Pair C F G α β → Prop) :
    Link.Pact (port C F .client) (port C G .server) α β where
  SafeLeft := fun m => m.sound = true
  SafeRight := fun m => m.sound = true
  Agree := fun c => c.there.idle.isSome = true → c.there.idle = c.here.idle
  Ends := ends

/-- Both parties are at work and nothing is in flight. -/
abbrev At (ends : Pair C F G α β → Prop) (left : Program Op Op.Ans α)
    (right : Program Op Op.Ans β) (files : F.State) (storage : G.State) : Prop :=
  Link.Good (pact ends) ⟨left, right, busy files, busy storage, [], []⟩

variable {ends : Pair C F G α β → Prop} {files : F.State} {storage : G.State}
  {s : Session octets} {kC : Except Thrown γ × Session octets → Program Op Op.Ans α}
  {kS : Except Thrown δ × Session octets → Program Op Op.Ans β}

theorem safe_left (files : F.State) :
    (pact ends).SafeLeft (busy files) ∧ ¬(port C F .client).Rests (busy files) := ⟨rfl, nofun⟩

/-- The client is not at its menu. -/
theorem at_work {m : Machine F} (work : m.AtWork) :
    (pact ends).SafeLeft m ∧ ¬(port C F .client).Rests m := ⟨work.sound, work.stays⟩

theorem safe_right (storage : G.State) : (pact ends).SafeRight (busy storage) := rfl

/-- A message of the client to a handler of the server. -/
theorem to_server {plaintext : Bytes} {size : Nat} {fC : Option Nat → Method γ}
    {fS : Except Return Bytes → Method δ} (short : plaintext.length < 2 ^ 31)
    (length : plaintext.length = size)
    (next : At ends ((fC none s).bind kC) ((fS (.ok plaintext) s).bind kS) files storage) :
    At ends (((sendGeneric plaintext >>= fC) s).bind kC)
      (((receiveGeneric size >>= fS) s).bind kS) files storage := by
  refine .code_left (safe_right storage) (sendGeneric_sent safe_left short) ?_
  rintro _ s _ ⟨rfl, rfl, frame, carries, rfl⟩
  refine .code_right (safe_left files).1
    (receiveGeneric_received safe_right carries length (List.append_nil frame).symm) ?_
  rintro _ s _ ⟨rfl, rfl, rfl⟩
  exact next

/-- A message of the server to the client. -/
theorem to_client {plaintext : Bytes} {size : Nat} {fC : Except Return Bytes → Method γ}
    {fS : Option Nat → Method δ} (short : plaintext.length < 2 ^ 31)
    (length : plaintext.length = size)
    (next : At ends ((fC (.ok plaintext) s).bind kC) ((fS none s).bind kS) files storage) :
    At ends (((receiveGeneric size >>= fC) s).bind kC)
      (((sendGeneric plaintext >>= fS) s).bind kS) files storage := by
  refine .code_right (safe_left files).1 (sendGeneric_sent safe_right short) ?_
  rintro _ s _ ⟨rfl, rfl, frame, carries, rfl⟩
  refine .code_left (safe_right storage)
    (receiveGeneric_received safe_left carries length (List.append_nil frame).symm) ?_
  rintro _ s _ ⟨rfl, rfl, rfl⟩
  exact next

/-- A message code of the server to the client. -/
theorem simple_to_client {code : UInt8} {fC : Except Return Bytes → Method γ}
    {fS : Option Nat → Method δ}
    (next : ∀ filler, At ends ((fC (.ok (SimpleMessage.serialize ⟨code⟩ filler)) s).bind kC)
      ((fS none s).bind kS) files storage) :
    At ends (((receiveGeneric SimpleMessage.getMessageSize >>= fC) s).bind kC)
      (((sendSimple code >>= fS) s).bind kS) files storage := by
  refine .code_right (safe_left files).1 (sendSimple_sent safe_right (safe_right storage) (busy_atWork storage) code) ?_
  rintro _ s _ ⟨filler, length, rfl, rfl, frame, carries, rfl⟩
  have whole : (SimpleMessage.serialize ⟨code⟩ filler).length = SimpleMessage.getMessageSize := by
    simp [SimpleMessage.serialize, length, fillerSize, SimpleMessage.getMessageSize,
      Config.MAX_PACKET_SIZE]
  refine .code_left (safe_right storage)
    (receiveGeneric_received safe_left carries whole (List.append_nil frame).symm) ?_
  rintro _ s _ ⟨rfl, rfl, rfl⟩
  exact next filler

theorem simple_to_server {m : Machine F} {code : UInt8} {fC : Option Nat → Method γ}
    {fS : Except Return Bytes → Method δ} (work : m.AtWork)
    (next : ∀ filler, At ends ((fC none s).bind kC)
      ((fS (.ok (SimpleMessage.serialize ⟨code⟩ filler)) s).bind kS) m.files storage) :
    Link.Good (pact ends) ⟨((sendSimple code >>= fC) s).bind kC,
      ((receiveGeneric SimpleMessage.getMessageSize >>= fS) s).bind kS, m, busy storage, [], []⟩ := by
  refine .code_left (safe_right storage)
    (sendSimple_sent safe_left (at_work work) work code) ?_
  rintro _ s _ ⟨filler, length, rfl, rfl, frame, carries, rfl⟩
  have whole : (SimpleMessage.serialize ⟨code⟩ filler).length = SimpleMessage.getMessageSize := by
    simp [SimpleMessage.serialize, length, fillerSize, SimpleMessage.getMessageSize,
      Config.MAX_PACKET_SIZE]
  refine .code_right (safe_left m.files).1
    (receiveGeneric_received safe_right carries whole (List.append_nil frame).symm) ?_
  rintro _ s _ ⟨rfl, rfl, rfl⟩
  exact next filler

end Lockstep
end CloudStorage
