import CloudStorage.Interaction.Monitor

/-! The calculus for sequential code: one rule for each way of building it. What is
thrown carries no obligation, so a postcondition speaks of normal returns. -/
namespace Interaction
namespace Code
variable {Op : Type} {Ans : Op → Type} {σ ε α β : Type} {μ : Monitor Op Ans}

def wp (μ : Monitor Op Ans) (c : Code Op Ans σ ε α) (post : α → σ → μ.State → Prop)
    (s : σ) (g : μ.State) : Prop :=
  (c s).wp μ (fun result g' => ∀ value, result.1 = .ok value → post value result.2 g') g

variable {post post' : α → σ → μ.State → Prop} {s : σ} {g : μ.State}

theorem wp_mono {c : Code Op Ans σ ε α}
    (weaker : ∀ value t g', post value t g' → post' value t g') (h : c.wp μ post s g) :
    c.wp μ post' s g :=
  Program.wp_mono (fun _ _ ends value returned => weaker _ _ _ (ends value returned)) h

theorem wp_pure (value : α) :
    wp μ (pure value : Code Op Ans σ ε α) post s g ↔ post value s g := by
  constructor
  · intro h
    exact h value rfl
  · rintro h _ ⟨⟩
    exact h

theorem wp_bind {c : Code Op Ans σ ε α} {f : α → Code Op Ans σ ε β}
    {post : β → σ → μ.State → Prop} :
    wp μ (c >>= f) post s g ↔ c.wp μ (fun value t g' => (f value).wp μ post t g') s g := by
  simp only [wp, run_bind, Program.wp_bind]
  constructor
  · intro h
    refine Program.wp_mono ?_ h
    rintro ⟨_ | value, t⟩ g' ends _ ⟨⟩
    exact ends
  · intro h
    refine Program.wp_mono ?_ h
    rintro ⟨e | value, t⟩ g' ends
    · exact fun _ => nofun
    · exact ends value rfl

/-- Sequencing with a midcondition. -/
theorem wp_seq {c : Code Op Ans σ ε α} {f : α → Code Op Ans σ ε β}
    {mid : α → σ → μ.State → Prop} {post : β → σ → μ.State → Prop} (first : c.wp μ mid s g)
    (rest : ∀ value t g', mid value t g' → (f value).wp μ post t g') :
    wp μ (c >>= f) post s g :=
  wp_bind.mpr (wp_mono rest first)

theorem wp_get {post : σ → σ → μ.State → Prop} :
    wp μ (get : Code Op Ans σ ε σ) post s g ↔ post s s g := by
  constructor
  · intro h
    exact h s rfl
  · rintro h _ ⟨⟩
    exact h

theorem wp_modify {f : σ → σ} {post : Unit → σ → μ.State → Prop} :
    wp μ (modify f : Code Op Ans σ ε Unit) post s g ↔ post () (f s) g := by
  constructor
  · intro h
    exact h () rfl
  · intro h _ _
    exact h

theorem wp_throw {e : ε} : wp μ (throw e : Code Op Ans σ ε α) post s g ↔ True := by
  constructor
  · exact fun _ => trivial
  · exact fun _ _ => nofun

theorem wp_invoke {op : Op} {post : Ans op → σ → μ.State → Prop} :
    wp μ (invoke op : Code Op Ans σ ε (Ans op)) post s g ↔
      ∀ h, μ.Rely g h → ∀ answer, μ.Legal h op answer →
        μ.Safe h op answer ∧ post answer s (μ.step h op answer) := by
  constructor
  · intro all h others answer legal
    obtain ⟨safe, ends⟩ := all h others answer legal
    exact ⟨safe, ends answer rfl⟩
  · intro all h others answer legal
    obtain ⟨safe, ends⟩ := all h others answer legal
    exact ⟨safe, by rintro _ ⟨⟩; exact ends⟩

theorem wp_ite {c : Prop} [Decidable c] {yes no : Code Op Ans σ ε α} :
    wp μ (if c then yes else no) post s g ↔
      (c → yes.wp μ post s g) ∧ (¬c → no.wp μ post s g) := by
  by_cases h : c
  · simp only [h, if_true, true_imp_iff, not_true, false_imp_iff, and_true]
  · simp only [h, if_false, false_imp_iff, not_false_iff, true_imp_iff, true_and]

end Code

namespace Code
variable {Op : Type} {Ans : Op → Type} {σ ε α β : Type} {μ : Monitor Op Ans}

/-- As `wp`, and nothing is thrown. -/
def ensures (μ : Monitor Op Ans) (c : Code Op Ans σ ε α) (post : α → σ → μ.State → Prop)
    (s : σ) (g : μ.State) : Prop :=
  (c s).wp μ (fun result g' => ∃ value t, result = (.ok value, t) ∧ post value t g') g

variable {post post' : α → σ → μ.State → Prop} {s : σ} {g : μ.State}

theorem ensures_mono {c : Code Op Ans σ ε α}
    (weaker : ∀ value t g', post value t g' → post' value t g') (h : c.ensures μ post s g) :
    c.ensures μ post' s g := by
  refine Program.wp_mono ?_ h
  rintro _ g' ⟨value, t, rfl, ends⟩
  exact ⟨value, t, rfl, weaker value t g' ends⟩

theorem ensures_pure {value : α} (h : post value s g) :
    (pure value : Code Op Ans σ ε α).ensures μ post s g :=
  ⟨value, s, rfl, h⟩

theorem ensures_seq {c : Code Op Ans σ ε α} {f : α → Code Op Ans σ ε β}
    {mid : α → σ → μ.State → Prop} {post : β → σ → μ.State → Prop}
    (first : c.ensures μ mid s g)
    (rest : ∀ value t g', mid value t g' → (f value).ensures μ post t g') :
    (c >>= f).ensures μ post s g := by
  refine Program.wp_bind.mpr (Program.wp_mono ?_ first)
  rintro _ g' ⟨value, t, rfl, ends⟩
  exact rest value t g' ends

theorem ensures_get {f : σ → Code Op Ans σ ε β} {post : β → σ → μ.State → Prop}
    (rest : (f s).ensures μ post s g) : (get >>= f).ensures μ post s g := rest

theorem ensures_modify {update : σ → σ} {f : Unit → Code Op Ans σ ε β}
    {post : β → σ → μ.State → Prop} (rest : (f ()).ensures μ post (update s) g) :
    (modify update >>= f).ensures μ post s g := rest

end Code

/-- Watches that every call is of one kind. -/
def Monitor.confine {Op : Type} {Ans : Op → Type} (kind : Op → Prop) : Monitor Op Ans where
  State := Unit
  Legal := fun _ _ _ => True
  Safe := fun _ op _ => kind op
  step := fun _ _ _ => ()

/-- An invariant that no call of the kind can break. -/
def Monitor.Stable {Op : Type} {Ans : Op → Type} (μ : Monitor Op Ans) (kind : Op → Prop)
    (inv : μ.State → Prop) : Prop :=
  ∀ g h, inv g → μ.Rely g h → ∀ op, kind op → ∀ answer, μ.Legal h op answer →
    μ.Safe h op answer ∧ inv (μ.step h op answer)

/-- It survives every program that makes no other calls. -/
theorem Program.confined_invariant {Op : Type} {Ans : Op → Type} {α : Type} {kind : Op → Prop}
    {p : Program Op Ans α} {ends : α → Prop}
    (confined : p.wp (.confine kind) (fun value _ => ends value) ()) {μ : Monitor Op Ans}
    {inv : μ.State → Prop} (stable : μ.Stable kind inv) {g : μ.State} (start : inv g) :
    p.wp μ (fun value g' => ends value ∧ inv g') g := by
  induction p generalizing g with
  | done value => exact ⟨confined, start⟩
  | call op next ih =>
      intro h others answer legal
      obtain ⟨isKind, rest⟩ := confined () rfl answer trivial
      obtain ⟨safe, kept⟩ := stable g h start others op isKind answer legal
      exact ⟨safe, ih answer rest kept⟩

namespace Code
variable {Op : Type} {Ans : Op → Type} {σ ε α : Type}

/-- Code that makes only calls of one kind, leaves the private state alone and
returns values of one sort. -/
def Keeps (kind : Op → Prop) (c : Code Op Ans σ ε α) (ends : α → Prop := fun _ => True) : Prop :=
  ∀ s, c.wp (Monitor.confine kind) (fun value t _ => t = s ∧ ends value) s ()

namespace Keeps
variable {kind : Op → Prop} {β : Type} {ends : α → Prop}

theorem pure {value : α} (h : ends value) :
    Keeps kind (Pure.pure value : Code Op Ans σ ε α) ends :=
  fun _ => (wp_pure value).mpr ⟨rfl, h⟩

theorem get : Keeps kind (Code.get : Code Op Ans σ ε σ) := fun _ => wp_get.mpr ⟨rfl, trivial⟩

theorem throw {e : ε} : Keeps kind (Code.throw e : Code Op Ans σ ε α) ends :=
  fun _ => wp_throw.mpr trivial

theorem invoke {op : Op} (isKind : kind op) : Keeps kind (invoke op : Code Op Ans σ ε (Ans op)) :=
  fun _ => wp_invoke.mpr fun _ _ _ _ => ⟨isKind, rfl, trivial⟩

theorem bind {c : Code Op Ans σ ε α} {f : α → Code Op Ans σ ε β} {mid : α → Prop}
    {ends : β → Prop} (first : c.Keeps kind mid)
    (rest : ∀ value, mid value → (f value).Keeps kind ends) : (c >>= f).Keeps kind ends := by
  intro s
  refine wp_seq (first s) ?_
  rintro value t _ ⟨rfl, h⟩
  exact rest value h t

theorem ite {c : Prop} [Decidable c] {yes no : Code Op Ans σ ε α}
    (first : c → yes.Keeps kind ends) (second : ¬c → no.Keeps kind ends) :
    (if c then yes else no).Keeps kind ends := by
  by_cases h : c
  · rw [if_pos h]
    exact first h
  · rw [if_neg h]
    exact second h

end Keeps

theorem Keeps.invariant {kind : Op → Prop} {c : Code Op Ans σ ε α} {ends : α → Prop}
    (keeps : c.Keeps kind ends) {μ : Monitor Op Ans} {inv : μ.State → Prop}
    (stable : μ.Stable kind inv) {s : σ} {g : μ.State} (start : inv g) :
    c.wp μ (fun value t g' => t = s ∧ ends value ∧ inv g') s g := by
  refine Program.wp_mono ?_ (Program.confined_invariant (keeps s) stable start)
  rintro result g' ⟨returns, kept⟩ value returned
  obtain ⟨same, ending⟩ := returns value returned
  exact ⟨same, ending, kept⟩

end Code
end Interaction
