import CloudStorage.Authentication.Negotiation
import Mathlib.Data.Multiset.AddSub

/-! The negotiation over symbolic terms: signatures, AES-GCM, SHA-256 and Diffie-Hellman
are ideal, and a certificate chain is sound. A group element is the generator raised to
its exponents; the agreement adds one more. -/
namespace CloudStorage

/-- Who holds a long-term key. -/
inductive Agent where
  | server
  | user (name : Bytes)
  deriving DecidableEq

namespace Symbolic

/-- Drawn by a program or picked by the adversary. -/
inductive Exponent where
  | drawn (number : Nat)
  | picked (number : Nat)
  deriving DecidableEq

abbrev Element := Multiset Exponent

/-- The key of an agent, signed by the CA or by somebody else. -/
structure Certificate where
  issued : Bool
  subject : Agent
  deriving DecidableEq

/-- A PEM text has the base64 lines of its object as one symbol. -/
inductive Symbol where
  | char (byte : UInt8)
  | key (element : Element)
  | certificate (certificate : Certificate)
  deriving DecidableEq

inductive Key where
  | digest (secret : Element)
  | octets (bytes : Bytes)
  deriving DecidableEq

inductive Data where
  | bytes (bytes : Bytes)
  | signature (agent : Agent) (input : List Symbol)
  deriving DecidableEq

inductive Sealed where
  | box (key : Key) (aad : Bytes) (plaintext : Data)
  | junk (number : Nat)
  deriving DecidableEq

def Data.head : Data → UInt8
  | .bytes plaintext => plaintext.headD 0
  | .signature _ _ => 0

def text (bytes : Bytes) : List Symbol := bytes.map .char

section Pem

def opening (label : String) : List Symbol := text (ascii ("-----BEGIN " ++ label ++ "-----\n"))

def closing (label : String) : List Symbol := text (ascii ("\n-----END " ++ label ++ "-----"))

/-- `PEM_write_bio`. -/
def block (label : String) (body : Symbol) : List Symbol :=
  opening label ++ body :: closing label ++ text (ascii "\n")

/-- `PEM_read_bio`: the first block of the kind, which has to be complete. A block opens
at the start of a line. -/
def readBlock (label : String) (atStart : Bool) : List Symbol → Option Symbol
  | [] => none
  | symbol :: rest =>
      if atStart ∧ (opening label).isPrefixOf (symbol :: rest) then
        match (symbol :: rest).drop (opening label).length with
        | [] => none
        | body :: behind => if (closing label).isPrefixOf behind then some body else none
      else readBlock label (symbol = .char 10) rest

theorem readBlock_block {label : String} (opens : opening label ≠ []) (body : Symbol)
    (rest : List Symbol) : readBlock label true (block label body ++ rest) = some body := by
  obtain ⟨first, line, shape⟩ := List.exists_cons_of_ne_nil opens
  have starts : block label body ++ rest =
      first :: (line ++ body :: closing label ++ text (ascii "\n") ++ rest) := by
    simp only [block, shape, List.cons_append, List.append_assoc]
  have whole : (opening label).isPrefixOf (block label body ++ rest) = true := by
    rw [List.isPrefixOf_iff_prefix]
    exact ⟨body :: closing label ++ text (ascii "\n") ++ rest, by
      simp only [block, List.cons_append, List.append_assoc]⟩
  have behind : (block label body ++ rest).drop (opening label).length =
      body :: (closing label ++ (text (ascii "\n") ++ rest)) := by
    simp only [block, List.append_assoc, List.cons_append, List.drop_left]
  rw [starts] at whole behind ⊢
  rw [readBlock, if_pos ⟨rfl, whole⟩, behind]
  refine if_pos (List.isPrefixOf_iff_prefix.mpr ?_)
  exact List.prefix_append ..

/-- What is read takes at least its two lines. -/
theorem readBlock_length {label : String} {atStart : Bool} {symbols : List Symbol}
    {body : Symbol} (read : readBlock label atStart symbols = some body) :
    (opening label).length + 1 + (closing label).length ≤ symbols.length := by
  induction symbols generalizing atStart with
  | nil => cases read
  | cons symbol rest ih =>
      rw [readBlock] at read
      split at read
      · rename_i here
        have line := (List.isPrefixOf_iff_prefix.mp here.2).length_le
        generalize found : (symbol :: rest).drop (opening label).length = remaining at read
        have total := congrArg List.length found
        rw [List.length_drop] at total
        cases remaining with
        | nil => cases read
        | cons body behind =>
            dsimp only at read
            split at read
            · rename_i closes
              have last := (List.isPrefixOf_iff_prefix.mp closes).length_le
              simp only [List.length_cons] at total line last ⊢
              omega
            · cases read
      · have before := ih read
        rw [List.length_cons]
        omega

end Pem

/-- `PEM_write_bio_PUBKEY` of an ephemeral key. -/
def publicText (element : Element) : List Symbol := block "PUBLIC KEY" (.key element)

/-- `PEM_read_bio_PUBKEY`. -/
def readKey (symbols : List Symbol) : Option Element :=
  match readBlock "PUBLIC KEY" true symbols with
  | some (.key element) => some element
  | _ => none

def certificateText (certificate : Certificate) : List Symbol :=
  block "CERTIFICATE" (.certificate certificate)

/-- `PEM_read_bio_X509`. -/
def readCertificate (symbols : List Symbol) : Option Certificate :=
  match readBlock "CERTIFICATE" true symbols with
  | some (.certificate certificate) => some certificate
  | _ => none

theorem readKey_publicText (element : Element) (rest : List Symbol) :
    readKey (publicText element ++ rest) = some element := by
  rw [readKey, publicText, readBlock_block (by decide)]

/-- Wherever a text that starts with a key is cut, what is before the cut holds no other
key: a shorter piece is not readable, and a key text does not start inside another. -/
theorem readKey_cut {element other last : Element} {rest before : List Symbol}
    (same : publicText element ++ rest = before ++ publicText last)
    (read : readKey before = some other) : other = element ∧ publicText element <+: before := by
  have long : (publicText element).length ≤ before.length + 1 := by
    have bound : (opening "PUBLIC KEY").length + 1 + (closing "PUBLIC KEY").length ≤
        before.length := by
      rw [readKey] at read
      generalize found : readBlock "PUBLIC KEY" true before = body at read
      cases body with
      | none => cases read
      | some body => exact readBlock_length found
    have newline : (text (ascii "\n")).length = 1 := by decide
    simp only [publicText, block, List.length_append, List.length_cons, newline]
    omega
  have starts : publicText element <+: before := by
    by_cases fits : (publicText element).length ≤ before.length
    · exact List.prefix_of_prefix_length_le ⟨rest, same⟩ ⟨publicText last, rfl⟩ fits
    · have at_end := congrArg (fun symbols => symbols[before.length]?) same
      have last_symbol : (publicText element).length = before.length + 1 := by omega
      exfalso
      rw [List.getElem?_append_left (by omega), List.getElem?_append_right (le_refl _),
        Nat.sub_self] at at_end
      have newline : (publicText element)[before.length]? = some (.char 10) := by
        rw [show before.length = (publicText element).length - 1 by omega]
        rfl
      have dash : (publicText last)[0]? = some (.char 45) := rfl
      rw [newline, dash, Option.some.injEq, Symbol.char.injEq] at at_end
      exact absurd at_end (by decide)
  refine ⟨?_, starts⟩
  obtain ⟨tail, whole⟩ := starts
  rw [← whole, readKey_publicText, Option.some.injEq] at read
  exact read.symm

end Symbolic

/-- The instance of the negotiation. -/
@[reducible] def symbolic : Primitives where
  Symbol := Symbolic.Symbol
  Exponent := Symbolic.Exponent
  Element := Symbolic.Element
  Secret := Symbolic.Element
  Key := Symbolic.Key
  Data := Symbolic.Data
  Sealed := Symbolic.Sealed
  PublicKey := Agent
  Certificate := Symbolic.Certificate
  blank := .char 0
  terminates
    | .char 0 => true
    | _ => false
  ofBytes := .bytes
  head := Symbolic.Data.head

end CloudStorage
