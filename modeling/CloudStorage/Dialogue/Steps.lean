import CloudStorage.Authentication.Sealing
import CloudStorage.Dialogue.Charter
import CloudStorage.Storage.FileManager

/-! Specifications of the steps that the operations of both parties are made of. -/
namespace CloudStorage
open Interaction Code Method
namespace Dialogue
variable {c : Charter} {s : Session octets} {g : Ledger} {spent : Bool}
  {holds holds' : Bytes → Entry → Prop}

/-- Calls that change no ledger leave it good. -/
theorem wp_unlisted {α β : Type} {m : Method α} {ends : α → Prop} {f : α → Method β}
    {post : β → Session octets → Ledger → Prop} (keeps : m.Keeps c.Unlisted ends) (good : g.Good c)
    (rest : ∀ value, ends value → (f value).wp c.monitor post s g) :
    (m >>= f).wp c.monitor post s g :=
  wp_silent keeps good rest

/-- A call that the ledger lists. -/
theorem wp_listed {β : Type} {op : Op} {f : op.Ans → Method β}
    {post : β → Session octets → Ledger → Prop}
    (rest : ∀ answer, c.Legal op answer → (Ledger.observe c.role c.key g op answer).Good c ∧
      (f answer).wp c.monitor post s (Ledger.observe c.role c.key g op answer)) :
    (ask op >>= f).wp c.monitor post s g := by
  refine wp_bind.mpr (wp_invoke.mpr ?_)
  rintro _ rfl answer legal
  exact rest answer legal

theorem encryptGeneric_seals (resting : Resting c false s g) (plaintext : Bytes) :
    (encryptGeneric plaintext).wp c.monitor (fun message s' g' => s' = s ∧
      ((message = none ∧ g' = g) ∨ ∃ box, message = some ⟨Generic.aad s.m_counter, box⟩ ∧
        box.m_ciphertext.length = plaintext.length ∧
        g' = { g with pending := some (.under s plaintext box) })) s g := by
  have kept : ∀ p, Ledger.Good c { g with pending := p } := fun p => resting.good.same rfl rfl rfl rfl
  have unsent : { g with pending := none } = g := by
    obtain ⟨_, _, _, _, _, _, _, _, _⟩ := g
    obtain rfl := resting.unsent
    rfl
  refine wp_ite.mpr ⟨fun _ => (wp_pure _).mpr ⟨rfl, .inl ⟨rfl, rfl⟩⟩, fun _ => ?_⟩
  refine wp_bind.mpr (wp_get.mpr (wp_listed fun answer legal => ⟨kept _, ?_⟩))
  cases answer with
  | none => exact (wp_pure _).mpr ⟨rfl, .inl ⟨rfl, unsent⟩⟩
  | some box => exact (wp_pure _).mpr ⟨rfl, .inr ⟨box, rfl, legal.1 box rfl, rfl⟩⟩

/-- What is sent is what was sealed right before. -/
theorem deliver_sealed (resting : Resting c spent s g) {e : Emission}
    (own : e.key = s.m_session_key) :
    Ledger.deliver c.role c.key { g with pending := some e } =
      if g.current = true then g.say ⟨c.role, e⟩
      else if s.m_session_key = c.key then { g with outside := e :: g.outside } else g := by
  obtain ⟨current, closing, waiting, user, pending, outside, unhandled, leftover, entries⟩ := g
  obtain rfl : pending = none := resting.unsent
  cases current with
  | true =>
      have same := (resting.same rfl).1
      simp only [Ledger.deliver, own, same, ne_eq, not_true, if_true, if_false, Ledger.say,
        Ledger.extend]
      cases entries <;> rfl
  | false =>
      by_cases again : s.m_session_key = c.key <;> simp [Ledger.deliver, own, again]

/-- What is known of a message that is sent. -/
structure Emits (s : Session octets) (plaintext : Bytes) (e : Emission) : Prop where
  text : e.plaintext = plaintext
  counter : e.counter = s.m_counter.toNat
  whole : e.size = e.plaintext.length

/-- A message has been sent, or nothing has happened. -/
def Dispatched (c : Charter) (holds : Bytes → Entry → Prop) (s : Session octets) (g : Ledger)
    (failure : Option Nat) (s' : Session octets) (g' : Ledger) : Prop :=
  s' = s ∧ (∀ code, failure = some code → g' = g ∧ code ≠ Return.SUCCESS.val) ∧
    (failure = none → Working c true holds s g')

theorem Dispatched.stopped {code : Nat} (failed : code ≠ Return.SUCCESS.val) :
    Dispatched c holds s g (some code) s g :=
  ⟨rfl, fun _ same => ⟨rfl, Option.some.inj same ▸ failed⟩,
    fun none_ => absurd none_ (Option.some_ne_none _)⟩

theorem Dispatched.done {g' : Ledger} (working : Working c true holds s g') :
    Dispatched c holds s g none s g' :=
  ⟨rfl, fun _ some_ => absurd some_.symm (Option.some_ne_none _), fun _ => working⟩

theorem sendGeneric_says {plaintext : Bytes} (working : Working c false holds s g)
    (left_ : g.current = true → g.entries = [] → ∀ e, Emits s plaintext e → c.Left ⟨c.role, e⟩)
    (outer : c.again → ∀ e, Emits s plaintext e → c.Outer e)
    (goes : ∀ e user entry, Emits s plaintext e → c.Formed user entry → holds user entry →
      (entry.talk ≠ [] → e.counter = entry.talk.start + entry.talk.length) →
      c.Formed user (entry.say ⟨c.role, e⟩) ∧ holds' user (entry.say ⟨c.role, e⟩)) :
    (sendGeneric plaintext).wp c.monitor (Dispatched c holds' s g) s g := by
  have resting := working.resting
  refine wp_seq (encryptGeneric_seals resting plaintext) ?_
  rintro message s g' ⟨rfl, ⟨rfl, rfl⟩ | ⟨box, rfl, length, rfl⟩⟩
  · exact (wp_pure _).mpr (.stopped (by decide))
  have sends : Emits s plaintext (.under s plaintext box) :=
    ⟨rfl, Emission.under_counter s plaintext box, length⟩
  obtain ⟨e, made⟩ : ∃ e, e = Emission.under s plaintext box := ⟨_, rfl⟩
  rw [← made] at sends ⊢
  have own : e.key = s.m_session_key := congrArg Emission.key made
  have unsent : { g with pending := none } = g := by
    obtain ⟨_, _, _, _, _, _, _, _, _⟩ := g
    obtain rfl := resting.unsent
    rfl
  have sound : c.Sound ⟨c.role, e⟩ :=
    ⟨fun _ => sends.whole, fun other => absurd other.symm c.role.other_ne⟩
  refine wp_listed fun answer _ => ?_
  by_cases failed : answer = -1
  · have noted : Ledger.observe c.role c.key { g with pending := some e }
        (.send (Generic.serialize ⟨Generic.aad s.m_counter, box⟩)) answer = g := by
      have stays : Ledger.leave { g with pending := none } = g := by
        rw [unsent, Ledger.leave_open resting.stays]
      exact (if_pos failed).trans stays
    rw [noted, failed]
    exact ⟨resting.good, (wp_pure _).mpr (.stopped (by decide))⟩
  have noted : Ledger.observe c.role c.key { g with pending := some e }
      (.send (Generic.serialize ⟨Generic.aad s.m_counter, box⟩)) answer =
        if g.current = true then g.say ⟨c.role, e⟩
        else if s.m_session_key = c.key then { g with outside := e :: g.outside } else g := by
    have delivered := deliver_sealed resting own
    have stays : (Ledger.deliver c.role c.key { g with pending := some e }).closing = false := by
      rw [delivered]
      split_ifs
      · rw [Ledger.say, Ledger.extend_closing]
        exact resting.stays
      · exact resting.stays
      · exact resting.stays
    have left_ : Ledger.observe c.role c.key { g with pending := some e }
        (.send (Generic.serialize ⟨Generic.aad s.m_counter, box⟩)) answer =
          (Ledger.deliver c.role c.key { g with pending := some e }).leave := if_neg failed
    rw [left_, Ledger.leave_open stays, delivered]
  rw [noted]
  simp only [if_neg failed]
  by_cases current : g.current = true
  · rw [if_pos current]
    have said : Working c true holds' s (g.say ⟨c.role, e⟩) :=
      working.say sends.counter sound (fun none_ => left_ current none_ e sends)
        (fun entry => goes e g.user entry sends) current
    exact ⟨said.resting.good, (wp_pure _).mpr (.done said)⟩
  · rw [if_neg current]
    have past := Bool.eq_false_iff.mpr current
    have stays : ∀ g' : Ledger, g'.Good c → g'.current = false → g'.pending = none →
        g'.closing = false → g'.waiting = false → Working c true holds' s g' := by
      intro g' good past' unsent' stays' busy'
      refine ⟨⟨good, ?_, fun _ => resting.lapsed past, unsent', stays', ?_⟩, busy', ?_⟩
      · simp [past']
      · simp [past']
      · simp [past']
    by_cases again : s.m_session_key = c.key
    · rw [if_pos again]
      have good : Ledger.Good c { g with outside := e :: g.outside } := by
        refine ⟨resting.good.ordered, resting.good.sound, resting.good.formed, resting.good.left_, ?_⟩
        intro other member
        cases member with
        | head => exact outer (resting.lapsed past again) e sends
        | tail _ old => exact resting.good.outside other old
      exact ⟨good, (wp_pure _).mpr
        (.done (stays _ good past resting.unsent resting.stays working.busy))⟩
    · rw [if_neg again]
      exact ⟨resting.good, (wp_pure _).mpr
        (.done (stays g resting.good past resting.unsent resting.stays working.busy))⟩

/-- What is known of a frame that is accepted. -/
structure Hears (s : Session octets) (size : Nat) (plaintext : Bytes) (e : Emission) : Prop where
  text : e.plaintext = plaintext
  counter : e.counter = s.m_counter.toNat
  size : e.size ≤ size

/-- Whatever is refused leaves the ledger alone. -/
theorem openGeneric_lists (opened : Bytes → Ledger → Prop) {buffer : Bytes} {size : Nat}
    (good : g.Good c)
    (hears : ∀ plaintext e, Hears s size plaintext e → (s.m_session_key = c.key → c.Known e) →
      (g.hear c.role e).Good c ∧ opened plaintext (g.hear c.role e)) :
    (openGeneric (Generic.deserialize buffer size)).wp c.monitor (fun result s' g' =>
      s' = s ∧ (∀ plaintext, result = .ok plaintext → opened plaintext g') ∧
        (∀ code, result = .error code → g' = g ∧ code.val ≠ Return.SUCCESS.val)) s g := by
  obtain ⟨frame, made⟩ : ∃ frame, frame = Generic.deserialize buffer size := ⟨_, rfl⟩
  have short : frame.m_sealed.m_ciphertext.length ≤ size := made ▸ List.length_take_le ..
  rw [← made]
  refine wp_bind.mpr (wp_get.mpr (wp_listed fun answer legal => ⟨good, ?_⟩))
  cases answer with
  | none =>
      refine (wp_pure _).mpr ⟨rfl, nofun, ?_⟩
      rintro _ ⟨⟩
      exact ⟨rfl, by decide⟩
  | some plaintext =>
      refine wp_unlisted (.invoke fun _ _ => rfl) good fun _ _ => ?_
      refine wp_ite.mpr ⟨fun _ => (wp_pure _).mpr ⟨rfl, nofun, ?_⟩, fun same => ?_⟩
      · rintro _ ⟨⟩
        exact ⟨rfl, by decide⟩
      have counter : s.m_counter = frame.getCounter := not_not.mp same
      obtain ⟨listed, reached⟩ := hears plaintext
        ⟨s.m_session_key, frame.m_aad, plaintext, frame.m_sealed⟩
        ⟨rfl, congrArg UInt32.toNat counter.symm, short⟩ fun own =>
          own ▸ legal.2 plaintext rfl own
      refine wp_listed fun answer _ => ⟨listed, (wp_pure _).mpr ⟨rfl, ?_, nofun⟩⟩
      rintro _ ⟨⟩
      exact reached

/-- What was received for a request, or nothing has happened. -/
def Received (c : Charter) (holds : Bytes → Bytes → Entry → Prop) (s : Session octets) (g : Ledger)
    (result : Except Return Bytes) (s' : Session octets) (g' : Ledger) : Prop :=
  s' = s ∧ (∀ text, result = .ok text → Working c true (holds text) s g') ∧
    (∀ code, result = .error code → g' = g ∧ code.val ≠ Return.SUCCESS.val)

theorem receiveGeneric_hears {size : Nat} {heard : Bytes → Bytes → Entry → Prop}
    (working : Working c false holds s g) (left_ : ∀ e, c.Left ⟨c.role.other, e⟩)
    (goes : ∀ text e user entry, Hears s size text e → c.Known e → c.Formed user entry →
      holds user entry → (entry.talk ≠ [] → e.counter = entry.talk.start + entry.talk.length) →
      c.Formed user (entry.say ⟨c.role.other, e⟩) ∧ heard text user (entry.say ⟨c.role.other, e⟩)) :
    (receiveGeneric size).wp c.monitor (Received c heard s g) s g := by
  refine wp_unlisted (.invoke fun _ _ => rfl) working.resting.good ?_
  rintro ⟨result, buffer⟩ -
  refine wp_ite.mpr ⟨fun _ => (wp_pure _).mpr ⟨rfl, nofun, ?_⟩, fun _ => ?_⟩
  · rintro _ ⟨⟩
    exact ⟨rfl, by decide⟩
  refine openGeneric_lists _ working.resting.good fun text e hears known => ?_
  have heard_ : Working c true (heard text) s (g.hear c.role e) := by
    by_cases current : g.current = true
    · have noted : g.hear c.role e = g.say ⟨c.role.other, e⟩ := by
        simp [Ledger.hear, current, working.busy]
      have opened := known (working.resting.same current).1
      have sound : c.Sound ⟨c.role.other, e⟩ := ⟨fun own => absurd own c.role.other_ne, fun _ => opened⟩
      rw [noted]
      exact working.say hears.counter sound (fun _ => left_ e)
        (fun entry => goes text e g.user entry hears opened) current
    · have noted : g.hear c.role e = { g with waiting := false } := by
        simp [Ledger.hear, current]
      have past := Bool.eq_false_iff.mpr current
      have resting := working.resting
      rw [noted]
      refine ⟨⟨resting.good.same rfl rfl rfl rfl, resting.same, resting.lapsed, resting.unsent,
        resting.stays, ?_⟩, rfl, ?_⟩
      · simp [past]
      · simp [past]
  exact ⟨heard_.resting.good, heard_⟩

/-- The request has been invoked in the epoch. -/
def Ledger.Present (g : Ledger) : Prop := g.current = true → g.entries ≠ []

theorem Ledger.Present.extend (present : g.Present) (f : Entry → Entry) : (g.extend f).Present := by
  rw [Present, Ledger.extend_current]
  intro current
  cases listed : g.entries with
  | nil => exact absurd listed (present current)
  | cons entry rest =>
      rw [Ledger.extend_cons listed]
      exact List.cons_ne_nil _ _

/-- A call on files in a request of the user. -/
theorem wp_file {call : FileCall} {β : Type} {f : call.Ans → Method β}
    {post : β → Session octets → Ledger → Prop} (acted : call.Ans → Bytes → Entry → Prop)
    (working : Working c spent holds s g)
    (goes : ∀ answer entry, c.Formed s.m_username entry → holds s.m_username entry →
      c.Formed s.m_username (entry.act call answer) ∧
        acted answer s.m_username (entry.act call answer))
    (rest : ∀ answer g', (g.Present → g'.Present) → Working c spent (acted answer) s g' →
      (f answer).wp c.monitor post s g') :
    (file call >>= f).wp c.monitor post s g := by
  refine wp_listed fun answer _ => ?_
  have acted_ : (g.Present → (Ledger.observe c.role c.key g (.file call) answer).Present) ∧
      Working c spent (acted answer) s (Ledger.observe c.role c.key g (.file call) answer) := by
    by_cases current : g.current = true
    · have noted : Ledger.observe c.role c.key g (.file call) answer = g.extend (·.act call answer) :=
        if_pos current
      have user := (working.resting.same current).2
      rw [noted]
      refine ⟨fun present => present.extend _,
        working.extend (fun _ => rfl) (fun entry formed held => ?_) current⟩
      rw [user] at formed held ⊢
      exact goes answer entry formed held
    · have noted : Ledger.observe c.role c.key g (.file call) answer = g := if_neg current
      rw [noted]
      exact ⟨id, working.past current⟩
  exact ⟨acted_.2.resting.good, rest answer _ acted_.1 acted_.2⟩

end Dialogue
end CloudStorage
