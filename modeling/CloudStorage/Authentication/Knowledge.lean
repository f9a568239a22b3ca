import CloudStorage.Authentication.Roles
import Mathlib.Data.Multiset.Count

/-! What the adversary can know: no exponent that a program has drawn, hence no key that
two programs have agreed on, and no signature of an honest agent except out of a box. -/
namespace CloudStorage
namespace Symbolic
open Interaction Code

variable {w : Setting} {log : Log Nat (AuthOp symbolic) AuthOp.Ans} {id : Nat}

theorem Participant.program_server {p : Participant} (agent : p.agent = .server) :
    p.program = Server.authenticationRequest p.host p.start := by
  rw [Participant.program, agent]

theorem Participant.program_user {p : Participant} {name : Bytes} (agent : p.agent = .user name) :
    p.program = Client.authenticationRequest p.host { p.start with m_username := name } := by
  rw [Participant.program, agent]

namespace Setting.Possible

/-- The reason for a call of a program, among the calls before it. -/
theorem because (possible : w.Possible log) {first rest : List Occurrence} {e : Occurrence}
    (shape : log.own id = first ++ e :: rest) :
    (w.cast id).Because first.reverse e.op e.answer := by
  obtain ⟨result, run⟩ := possible.runs id
  cases agent : (w.cast id).agent with
  | server =>
      rw [Participant.program_server agent] at run
      exact (Program.wp_history (server_reasons agent) run possible.ideal).1 first e rest shape
  | user name =>
      rw [Participant.program_user agent] at run
      exact (Program.wp_history (client_reasons agent rfl) run possible.ideal).1 first e rest shape

/-- A client that has succeeded has accepted the key that it holds. -/
theorem acceptedKey (possible : w.Possible log) {name : Bytes}
    (agent : (w.cast id).agent = .user name) {t : Session symbolic}
    (run : Runs (w.cast id).program (log.own id)
      (some (.ok Return.AUTHENTICATION_SUCCESS.val, t))) :
    AcceptedKey (w.cast id).host t (log.own id) := by
  rw [Participant.program_user agent] at run
  obtain ⟨message, x, certificate, accepted, key⟩ :=
    (Program.wp_history (client_reasons agent rfl) run possible.ideal).2 _ rfl _ rfl rfl
  refine ⟨message, x, certificate, accepted.mono ?_, key⟩
  exact fun _ member => List.mem_reverse.mp member

/-- As `because`, for an event that is somewhere in the log. -/
theorem reason (possible : w.Possible log) {e : Occurrence} (member : (id, e) ∈ log) :
    ∃ first rest, log.own id = first ++ e :: rest ∧ first.reverse ⊆ log.own id ∧
      (w.cast id).Because first.reverse e.op e.answer := by
  obtain ⟨first, rest, shape⟩ := List.append_of_mem (Log.mem_own.mpr member)
  refine ⟨first, rest, shape, ?_, possible.because shape⟩
  rw [shape]
  exact fun _ before => List.mem_append_left _ (List.mem_reverse.mp before)

/-- A client answers once. -/
theorem answers_once (possible : w.Possible log) {message other : AuthenticationM4 symbolic}
    {answer answer' : Int} (first : (id, (⟨.sendM4 message, answer⟩ : Occurrence)) ∈ log)
    (second : (id, (⟨.sendM4 other, answer'⟩ : Occurrence)) ∈ log) : message = other := by
  obtain ⟨early, late, shape, -, -, -, -, -, -, -, -, alone⟩ := possible.reason first
  have found := Log.mem_own.mpr second
  rw [shape] at found
  rcases List.mem_append.mp found with before | after
  · exact absurd (List.mem_reverse.mpr before) (alone other answer')
  · rcases List.mem_cons.mp after with same | behind
    · cases same
      rfl
    · obtain ⟨middle, last, rfl⟩ := List.append_of_mem behind
      have shape' : log.own id = (early ++ ⟨.sendM4 message, answer⟩ :: middle) ++
          ⟨.sendM4 other, answer'⟩ :: last := by
        rw [shape, List.append_assoc, List.cons_append]
      obtain ⟨-, -, -, -, -, -, -, alone'⟩ := possible.because shape'
      exact absurd (by simp) (alone' message answer)

end Setting.Possible

section Secrecy

/-- Drawn by a program. -/
def Exponent.isDrawn : Exponent → Bool
  | .drawn _ => true
  | .picked _ => false

def drawnCount (element : Element) : Nat := element.countP fun exponent => exponent.isDrawn = true

@[simp] theorem drawnCount_cons (exponent : Exponent) (element : Element) :
    drawnCount (exponent ::ₘ element) = drawnCount element + if exponent.isDrawn then 1 else 0 := by
  rw [drawnCount, Multiset.countP_cons]
  rfl

@[simp] theorem drawnCount_zero : drawnCount 0 = 0 := Multiset.countP_zero _

@[simp] theorem drawnCount_singleton (exponent : Exponent) :
    drawnCount {exponent} = if exponent.isDrawn then 1 else 0 := by
  rw [← Multiset.cons_zero, drawnCount_cons, drawnCount_zero, Nat.zero_add]

/-- The keys in what a program writes are the public texts of its exponents. -/
theorem mem_publicText {element other : Element} (member : Symbol.key other ∈ publicText element) :
    other = element := by
  simpa [publicText, block, opening, closing, text] using member

theorem carried_padded {element : Element} {width : Nat} {item : Item}
    (member : item ∈ carried (padded (P := symbolic) (publicText element) width)) :
    item = .element element := by
  obtain ⟨other, found, rfl⟩ := mem_carried.mp member
  rcases List.mem_append.mp found with inside | padding
  · rw [mem_publicText inside]
  · cases List.eq_of_mem_replicate padding

theorem carried_certificate {certificate : Certificate} {width : Nat} {item : Item} :
    item ∉ carried (padded (P := symbolic) (certificateText certificate) width) := by
  intro member
  obtain ⟨other, found, rfl⟩ := mem_carried.mp member
  rcases List.mem_append.mp found with inside | padding
  · simp [certificateText, block, opening, closing, text] at inside
  · cases List.eq_of_mem_replicate padding

/-- A signature in a box, as an honest end sends it. -/
inductive Boxed (w : Setting) (log : Log Nat (AuthOp symbolic) AuthOp.Ans) :
    Key → Bytes → Agent → List Symbol → Prop where
  | server {session : Nat} {x : Exchange} : (w.cast session).agent = .server →
      x.Signed x.serverText (log.own session) →
      Boxed w log x.sessionKey (networkBytes 0) .server x.serverText
  | client {session : Nat} {name : Bytes} {x : Exchange} {offer : AuthenticationM3 symbolic}
      {certificate : Certificate} {answer : Int} :
      (w.cast session).agent = .user name →
      Accepted (w.cast session).host offer x certificate (log.own session) →
      (session, (⟨.sendM4 (x.response (w.cast session).host name), answer⟩ : Occurrence)) ∈ log →
      Boxed w log x.sessionKey ((w.cast session).host.bytes 1) (.user name) x.clientText

variable (possible : w.Possible log)
include possible

/-- What the adversary hears is an own public key, a box with an own signature, or a box
with bytes. -/
theorem heard_cases {e : Occurrence} {item : Item} (member : (id, e) ∈ log)
    (shows : item ∈ emitted e.op) :
    (∃ exponent, item = .element {exponent}) ∨
      (∃ key aad agent input, Boxed w log key aad agent input ∧
        item = .box (.box key aad (.signature agent input))) ∨
      ∃ key aad plaintext, item = .box (.box key aad (.bytes plaintext)) := by
  obtain ⟨first, rest, -, within, because⟩ := possible.reason member
  obtain ⟨op, answer⟩ := e
  cases op with
  | sendM1 message =>
      obtain ⟨own, name, -, -, rfl⟩ := because
      exact .inl ⟨own, carried_padded shows⟩
  | sendM3 message =>
      obtain ⟨x, agent, signed, rfl⟩ := because
      rcases List.mem_cons.mp shows with rfl | shows
      · exact .inr (.inl ⟨_, _, _, _, .server agent (signed.mono within), rfl⟩)
      · rcases List.mem_append.mp shows with key | certificate
        · exact .inl ⟨x.own, carried_padded key⟩
        · exact absurd certificate carried_certificate
  | sendM4 message =>
      obtain ⟨offer, x, certificate, name, agent, accepted, rfl, -⟩ := because
      obtain rfl := List.mem_singleton.mp shows
      exact .inr (.inl ⟨_, _, _, _, .client agent (accepted.mono within) member, rfl⟩)
  | sendM5 message =>
      obtain ⟨secret, key, plaintext, -, sealed⟩ := because
      obtain rfl := List.mem_singleton.mp shows
      exact .inr (.inr ⟨key, message.m_aad, plaintext, by rw [sealed]⟩)
  | _ => cases shows

theorem Knows.exponent_picked {exponent : Exponent} (knows : Knows w log (.exponent exponent)) :
    exponent.isDrawn = false := by
  cases knows with
  | exponent number => rfl
  | heard member shows =>
      rcases heard_cases possible member shows with ⟨_, same⟩ | ⟨_, _, _, _, _, same⟩ | ⟨_, _, _, same⟩
      · cases same
      · cases same
      · cases same

/-- A known element has at most one exponent of a program. -/
theorem Knows.element_open {item : Item} (knows : Knows w log item) :
    ∀ element, item = .element element → drawnCount element ≤ 1 := by
  induction knows with
  | heard member shows =>
      rintro element rfl
      rcases heard_cases possible member shows with ⟨own, same⟩ | ⟨_, _, _, _, _, same⟩ | ⟨_, _, _, same⟩
      · cases same
        rw [drawnCount_singleton]
        split <;> simp
      · cases same
      · cases same
  | generator =>
      rintro _ ⟨⟩
      exact drawnCount_zero.trans_le (Nat.zero_le 1)
  | power exponent _ _ ih =>
      rintro _ ⟨⟩
      rw [drawnCount_cons, exponent.exponent_picked possible]
      exact ih _ rfl
  | _ => rintro _ ⟨⟩

/-- A key that two programs have drawn is secret. -/
theorem Knows.key_open {secret : Element} (knows : Knows w log (.key (.digest secret))) :
    drawnCount secret ≤ 1 := by
  cases knows with
  | digest element => exact element.element_open possible _ rfl
  | heard member shows =>
      rcases heard_cases possible member shows with ⟨_, same⟩ | ⟨_, _, _, _, _, same⟩ | ⟨_, _, _, same⟩
      · cases same
      · cases same
      · cases same

/-- The adversary holds the signature: it has signed for a corrupt user, or has opened the
box of an honest end. -/
def Held (w : Setting) (log : Log Nat (AuthOp symbolic) AuthOp.Ans) (agent : Agent)
    (input : List Symbol) : Prop :=
  (∃ name, agent = .user name ∧ name ∉ w.honest) ∨
    ∃ key aad, Knows w log (.key key) ∧ Boxed w log key aad agent input

/-- Where a known signature comes from. -/
def Traced (w : Setting) (log : Log Nat (AuthOp symbolic) AuthOp.Ans) : Item → Prop
  | .data (.signature agent input) => Held w log agent input
  | .box (.box key aad (.signature agent input)) =>
      (Knows w log (.key key) ∧ Held w log agent input) ∨ Boxed w log key aad agent input
  | _ => True

theorem Knows.traced {item : Item} (knows : Knows w log item) : Traced w log item := by
  induction knows with
  | heard member shows =>
      rcases heard_cases possible member shows with ⟨_, rfl⟩ | ⟨_, _, _, _, boxed, rfl⟩ | ⟨_, _, _, rfl⟩
      · trivial
      · exact .inr boxed
      · trivial
  | sign corrupt => exact .inl ⟨_, rfl, corrupt⟩
  | @encrypt key plaintext aad known _ _ ih =>
      cases plaintext with
      | bytes => trivial
      | signature => exact .inl ⟨known, ih⟩
  | @decrypt key aad plaintext _ known ih _ =>
      cases plaintext with
      | bytes => trivial
      | signature =>
          rcases ih with ⟨-, held⟩ | boxed
          · exact held
          · exact .inr ⟨key, aad, known, boxed⟩
  | _ => trivial

end Secrecy
end Symbolic
end CloudStorage
