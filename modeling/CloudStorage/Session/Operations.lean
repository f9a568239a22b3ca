import CloudStorage.Authentication.Negotiation
import CloudStorage.Messages.Authentication
import CloudStorage.Messages.Session

/-! Everything a session asks of the world around it: the socket, OpenSSL, the file
system and the console. `Server` and `Client` are programs over these calls. -/
namespace CloudStorage
open Interaction

/-- Calls of the C++ library on files. `none` among the answers is an exception. -/
inductive FileCall where
  | ifstream_open (path : Bytes)
  | ofstream_open (path : Bytes)
  | seek_end (path : Bytes)
  | read (path : Bytes) (position size : Nat)
  | write (path : Bytes) (chunk : Bytes)
  | exists_ (path : Bytes)
  | directory_iterator (path : Bytes)
  | is_regular_file (path : Bytes)
  | is_symlink (path : Bytes)
  | rename (old_path new_path : Bytes)
  | remove (path : Bytes)
  deriving DecidableEq

@[reducible] def FileCall.Ans : FileCall → Type
  | .ifstream_open _ | .ofstream_open _ => Bool
  | .seek_end _ => Option Nat
  | .read _ _ _ => Bytes
  | .write _ _ => Unit
  | .exists_ _ => Option Bool
  | .directory_iterator _ => Option (List Bytes)
  | .is_regular_file _ | .is_symlink _ => Option Bool
  | .rename _ _ | .remove _ => Int

/-- The paths that a call names. -/
def FileCall.paths : FileCall → List Bytes
  | .ifstream_open path | .ofstream_open path | .seek_end path | .read path _ _
  | .write path _ | .exists_ path | .directory_iterator path | .is_regular_file path
  | .is_symlink path | .remove path => [path]
  | .rename old_path new_path => [old_path, new_path]

inductive Role where
  | client
  | server
  deriving DecidableEq, Repr

/-- The arrays that are read as C strings. -/
inductive NameField where
  | m_username
  | m_serialized_certificate
  | m_filename
  | m_old_filename
  | m_new_filename
  deriving DecidableEq, Repr

/-- Points of the code that the properties speak of. They are no calls of the
program: the answer carries nothing and the state does not change. -/
inductive Remark where
  | checked (m_counter received : UInt32)
  | accepted (key : Bytes) (frame : Generic) (plaintext : Bytes)
  | authenticated (username key : Bytes)
  | erased
  | idle (key : Bytes) (m_counter : UInt32)
  | started (command : UInt8)
  | invoked (command : UInt8) (names : List Bytes)
  | finished (code : Nat)

inductive Op where
  | ssl (call : Ssl octets)
  | random (size : Nat)
  | memory (size : Nat)
  | stray (array : NameField)
  | send (frame : Bytes)
  | receive (size : Nat)
  | file (call : FileCall)
  | unlock (file password : Bytes)
  | connect
  | getline
  | getValidCode (lowerBound upperBound : Nat)
  | note (remark : Remark)

/-- A receive answers with the result of `SocketManager::receive` (0, -1 or -2) and
the buffer, whose content is arbitrary unless the result is 0. `memory` is
what happens to lie in memory, `stray` what lies there behind an array without
terminator; `unlock` reads an encrypted private key. -/
@[reducible] def Op.Ans : Op → Type
  | .ssl call => call.Ans
  | .random _ | .memory _ | .stray _ | .getline => Bytes
  | .send _ => Int
  | .receive _ => Int × Bytes
  | .file call => call.Ans
  | .unlock _ _ => KeyFile Unit
  | .connect => Bool
  | .getValidCode _ _ => Nat
  | .note _ => Unit

abbrev Method := Code Op Op.Ans (Session octets) Thrown

namespace Method

def ask (op : Op) : Method op.Ans := Code.invoke op

def ssl (call : Ssl octets) : Method call.Ans := ask (.ssl call)

def file (call : FileCall) : Method call.Ans := ask (.file call)

def note (remark : Remark) : Method Unit := ask (.note remark)

/-- A `char` array read as a C string: `memory` is the array and what is known to
follow it, and whatever lies behind is read on to the next terminator. -/
def cString (array : NameField) (memory : Bytes) : Method Bytes := do
  if 0 ∈ memory then return cPrefix memory
  let beyond ← ask (.stray array)
  return memory ++ cPrefix beyond

end Method

/-- What each call of the negotiation does on the wire. M2 travels in the clear; the
other messages of fixed size are read whole. -/
def AuthOp.onWire : (op : AuthOp octets) → Program Op Op.Ans op.Ans
  | .ssl call => .call (.ssl call) .done
  | .random size => .call (.random size) .done
  | .overread size => .call (.memory size) .done
  | .stray => .call (.stray .m_username) .done
  | .strayText => .call (.stray .m_serialized_certificate) .done
  | .checked m_counter received => .call (.note (.checked m_counter received)) .done
  | .sendM1 message => .call (.send message.serialize) .done
  | .receiveM1 => .call (.receive AuthenticationM1.getMessageSize) fun answer =>
      .done (answer.1, .deserialize answer.2)
  | .sendM2 message_code =>
      .call (.random (fillerSize 1)) fun filler =>
        .call (.send (SimpleMessage.serialize ⟨message_code⟩ filler)) .done
  | .receiveM2 => .call (.receive SimpleMessage.getMessageSize) fun answer =>
      .done (answer.1, (SimpleMessage.deserialize answer.2).m_message_code)
  | .sendM3 message => .call (.send message.serialize) .done
  | .receiveM3 => .call (.receive AuthenticationM3.getMessageSize) fun answer =>
      .done (answer.1, .deserialize answer.2)
  | .sendM4 message => .call (.send message.serialize) .done
  | .receiveM4 => .call (.receive AuthenticationM4.getMessageSize) fun answer =>
      .done (answer.1, .deserialize answer.2 ENCRYPTED_SIGNATURE_LEN)
  | .sendM5 message => .call (.send message.serialize) .done
  | .receiveM5 => .call (.receive (Generic.getMessageSize Config.MAX_PACKET_SIZE)) fun answer =>
      .done (answer.1, .deserialize answer.2 Config.MAX_PACKET_SIZE)

/-- The negotiation as part of a session. -/
def Auth.onWire (c : Auth octets α) : Method α := fun s => (c s).translate AuthOp.onWire

end CloudStorage
