import CloudStorage.Interaction.Calculus

/-! Triples with a second postcondition for code that throws, and code that is known only
by the kind of its calls. -/
namespace Interaction
namespace Code
variable {Op : Type} {Ans : Op → Type} {σ ε α β : Type} {μ : Monitor Op Ans}

/-- As `wp`; when something is thrown the monitor is left in a state of `thrown`. -/
def triple (μ : Monitor Op Ans) (c : Code Op Ans σ ε α) (post : α → σ → μ.State → Prop)
    (thrown : μ.State → Prop) (s : σ) (g : μ.State) : Prop :=
  (c s).wp μ (fun result g' =>
    match result with
    | (.ok value, t) => post value t g'
    | (.error _, _) => thrown g') g

variable {post post' : α → σ → μ.State → Prop} {thrown thrown' : μ.State → Prop} {s : σ}
  {g : μ.State}

theorem triple_mono {c : Code Op Ans σ ε α}
    (weaker : ∀ value t g', post value t g' → post' value t g')
    (throws : ∀ g', thrown g' → thrown' g') (h : c.triple μ post thrown s g) :
    c.triple μ post' thrown' s g := by
  refine Program.wp_mono ?_ h
  rintro ⟨result, t⟩ g' ends
  cases result with
  | error e => exact throws g' ends
  | ok value => exact weaker value t g' ends

theorem triple_pure {value : α} (h : post value s g) :
    (pure value : Code Op Ans σ ε α).triple μ post thrown s g := h

theorem triple_seq {c : Code Op Ans σ ε α} {f : α → Code Op Ans σ ε β}
    {mid : α → σ → μ.State → Prop} {post : β → σ → μ.State → Prop}
    (first : c.triple μ mid thrown s g)
    (rest : ∀ value t g', mid value t g' → (f value).triple μ post thrown t g') :
    (c >>= f).triple μ post thrown s g := by
  refine Program.wp_bind.mpr (Program.wp_mono ?_ first)
  rintro ⟨result, t⟩ g' ends
  cases result with
  | error e => exact ends
  | ok value => exact rest value t g' ends

theorem triple_get {f : σ → Code Op Ans σ ε β} {post : β → σ → μ.State → Prop}
    (rest : (f s).triple μ post thrown s g) : (get >>= f).triple μ post thrown s g := rest

theorem triple_invoke {op : Op} {f : Ans op → Code Op Ans σ ε β} {post : β → σ → μ.State → Prop}
    (rest : ∀ h, μ.Rely g h → ∀ answer, μ.Legal h op answer →
      μ.Safe h op answer ∧ (f answer).triple μ post thrown s (μ.step h op answer)) :
    (invoke op >>= f).triple μ post thrown s g := rest

theorem triple_ite {c : Prop} [Decidable c] {yes no : Code Op Ans σ ε α}
    (first : c → yes.triple μ post thrown s g) (second : ¬c → no.triple μ post thrown s g) :
    (if c then yes else no).triple μ post thrown s g := by
  by_cases h : c
  · rw [if_pos h]
    exact first h
  · rw [if_neg h]
    exact second h

/-- Every run that ends, ends in one of the two. -/
theorem triple_sound {c : Code Op Ans σ ε α} (alone : ∀ g, μ.Rely g g)
    (h : c.triple μ post thrown s g) {trace : List (Event Op Ans)} {result : Except ε α} {t : σ}
    (run : Runs (c s) trace (some (result, t))) (legal : μ.LegalTrace g trace) :
    (∀ value, result = .ok value → post value t (μ.after g trace)) ∧
      ∀ e, result = .error e → thrown (μ.after g trace) := by
  have ends := (Program.wp_sound alone h run legal).2 _ rfl
  constructor
  · rintro value rfl
    exact ends
  · rintro e rfl
    exact ends

/-- Code that makes only calls of one kind, whatever else it does. -/
def Confined (kind : Op → Prop) (c : Code Op Ans σ ε α) : Prop :=
  ∀ s, (c s).wp (.confine kind) (fun _ _ => True) ()

section Confined
variable {kind : Op → Prop}

theorem Keeps.confined {c : Code Op Ans σ ε α} {ends : α → Prop} (keeps : c.Keeps kind ends) :
    c.Confined kind :=
  fun s => Program.wp_mono (fun _ _ _ => trivial) (keeps s)

theorem Confined.mono {larger : Op → Prop} (includes : ∀ op, kind op → larger op)
    {c : Code Op Ans σ ε α} (confined : c.Confined kind) : c.Confined larger := by
  intro s
  have stable : (Monitor.confine larger : Monitor Op Ans).Stable kind fun _ => True :=
    fun _ _ _ _ op isKind _ _ => ⟨includes op isKind, trivial⟩
  exact Program.wp_mono (fun _ _ _ => trivial)
    (Program.confined_invariant (confined s) stable trivial)

theorem confined_pure {value : α} : (pure value : Code Op Ans σ ε α).Confined kind :=
  fun _ => trivial

theorem confined_throw {e : ε} : (throw e : Code Op Ans σ ε α).Confined kind :=
  fun _ => trivial

theorem confined_modify {update : σ → σ} :
    (modify update : Code Op Ans σ ε Unit).Confined kind :=
  fun _ => trivial

theorem confined_get {f : σ → Code Op Ans σ ε β} (rest : ∀ s, (f s).Confined kind) :
    (get >>= f).Confined kind :=
  fun s => rest s s

theorem confined_seq {c : Code Op Ans σ ε α} {f : α → Code Op Ans σ ε β}
    (first : c.Confined kind) (rest : ∀ value, (f value).Confined kind) :
    (c >>= f).Confined kind := by
  intro s
  refine Program.wp_bind.mpr (Program.wp_mono ?_ (first s))
  rintro ⟨result, t⟩ g' -
  cases result with
  | error e => trivial
  | ok value => exact rest value t

theorem confined_invoke {op : Op} {f : Ans op → Code Op Ans σ ε β} (isKind : kind op)
    (rest : ∀ answer, (f answer).Confined kind) : (invoke op >>= f).Confined kind :=
  fun s _ _ answer _ => ⟨isKind, rest answer s⟩

theorem confined_ite {c : Prop} [Decidable c] {yes no : Code Op Ans σ ε α}
    (first : yes.Confined kind) (second : no.Confined kind) :
    (if c then yes else no).Confined kind := by
  by_cases h : c
  · rw [if_pos h]
    exact first
  · rw [if_neg h]
    exact second

/-- The calls of its runs are of the kind. -/
theorem Confined.calls {c : Code Op Ans σ ε α} (confined : c.Confined kind)
    {trace : List (Event Op Ans)} {result : Option (Except ε α × σ)} (run : Runs (c s) trace result) :
    ∀ e ∈ trace, kind e.op := by
  have only := confined s
  generalize c s = p at only run
  induction run with
  | done => exact fun _ member => nomatch member
  | cut => exact fun _ member => nomatch member
  | call answer _ ih =>
      obtain ⟨isKind, rest⟩ := only () rfl answer trivial
      intro e member
      rcases List.mem_cons.mp member with rfl | later
      · exact isKind
      · exact ih rest e later

/-- An invariant that calls of the kind cannot break holds however the code ends. -/
theorem Confined.triple {c : Code Op Ans σ ε α} (confined : c.Confined kind)
    {inv : μ.State → Prop} (stable : μ.Stable kind inv) (start : inv g) :
    c.triple μ (fun _ _ g' => inv g') inv s g := by
  refine Program.wp_mono ?_ (Program.confined_invariant (confined s) stable start)
  rintro ⟨result, t⟩ g' ⟨-, kept⟩
  cases result with
  | error e => exact kept
  | ok value => exact kept

end Confined
end Code
end Interaction
