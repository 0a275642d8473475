import LdpProtocol.InteractivePrograms

/-!
# Runs of a program among other parties

`Meaning` says how a question moves the state and which answers it may get.
`Run` follows one program through its questions while an interference relation
may move the state before each of them and before the end; the quiet
interference gives sequential runs. The trace lists the program's own questions
with their answers. `Execution` interleaves any number of programs over one
state and records each question with the state it was asked in.
-/
namespace LdpProtocol.InterferedRuns
open InteractivePrograms InteractivePrograms.Program Relation

abbrev Event (Q : Type) (A : Q → Type) := (q : Q) × A q

abbrev Meaning (Q : Type) (A : Q → Type) (σ : Type) := (q : Q) → σ → A q → σ → Prop

/-- No other party moves the state. -/
def Quiet {σ : Type} : σ → σ → Prop := fun _ _ => False

section
variable {Q : Type} {A : Q → Type} {ε δ α β σ : Type}

inductive Run (M : Meaning Q A σ) (E : σ → σ → Prop) :
    Program Q A ε α → σ → List (Event Q A) → σ → Except ε α → Prop
  | pure (a : α) (s : σ) : Run M E (.pure a) s [] s (.ok a)
  | throw (e : ε) (s : σ) : Run M E (.throw e) s [] s (.error e)
  | ask {q : Q} {next : A q → Program Q A ε α} {s t u : σ} {a : A q}
      {tr : List (Event Q A)} {r : Except ε α} : M q s a t → Run M E (next a) t tr u r →
      Run M E (.ask q next) s (⟨q, a⟩ :: tr) u r
  | interfere {p : Program Q A ε α} {s t u : σ} {tr : List (Event Q A)} {r : Except ε α} :
      E s t → Run M E p t tr u r → Run M E p s tr u r

variable {M : Meaning Q A σ} {E : σ → σ → Prop}

theorem Run.after {p : Program Q A ε α} {s t u : σ} {tr : List (Event Q A)}
    {r : Except ε α} (h : ReflTransGen E s t) (hr : Run M E p t tr u r) :
    Run M E p s tr u r := by
  induction h using ReflTransGen.head_induction_on with
  | refl => exact hr
  | head hst _ ih => exact .interfere hst ih

theorem run_pure {a : α} {s u : σ} {tr : List (Event Q A)} {r : Except ε α} :
    Run M E (.pure a) s tr u r ↔ ReflTransGen E s u ∧ tr = [] ∧ r = .ok a := by
  constructor
  · intro h
    generalize hp : (Program.pure a : Program Q A ε α) = p at h
    induction h with
    | pure b s =>
        cases hp
        exact ⟨.refl, rfl, rfl⟩
    | throw => cases hp
    | ask => cases hp
    | interfere hst _ ih => exact ⟨(ih hp).1.head hst, (ih hp).2⟩
  · rintro ⟨h, rfl, rfl⟩
    exact .after h (.pure a u)

theorem run_throw {e : ε} {s u : σ} {tr : List (Event Q A)} {r : Except ε α} :
    Run M E (.throw e) s tr u r ↔ ReflTransGen E s u ∧ tr = [] ∧ r = .error e := by
  constructor
  · intro h
    generalize hp : (Program.throw e : Program Q A ε α) = p at h
    induction h with
    | pure => cases hp
    | throw f s =>
        cases hp
        exact ⟨.refl, rfl, rfl⟩
    | ask => cases hp
    | interfere hst _ ih => exact ⟨(ih hp).1.head hst, (ih hp).2⟩
  · rintro ⟨h, rfl, rfl⟩
    exact .after h (.throw e u)

theorem run_ask {q : Q} {next : A q → Program Q A ε α} {s u : σ}
    {tr : List (Event Q A)} {r : Except ε α} :
    Run M E (.ask q next) s tr u r ↔ ∃ s₁ a t tr₁, ReflTransGen E s s₁ ∧ M q s₁ a t ∧
      Run M E (next a) t tr₁ u r ∧ tr = ⟨q, a⟩ :: tr₁ := by
  constructor
  · intro h
    generalize hp : Program.ask q next = p at h
    induction h with
    | pure => cases hp
    | throw => cases hp
    | ask hm hr _ =>
        cases hp
        exact ⟨_, _, _, _, .refl, hm, hr, rfl⟩
    | interfere hst _ ih =>
        obtain ⟨s₁, a, t, tr₁, hs, hrest⟩ := ih hp
        exact ⟨s₁, a, t, tr₁, hs.head hst, hrest⟩
  · rintro ⟨s₁, a, t, tr₁, hs, hm, hr, rfl⟩
    exact .after hs (.ask hm hr)

theorem quiet_reaches {s t : σ} : ReflTransGen Quiet s t ↔ t = s := by
  constructor
  · intro h
    rcases h.cases_head with rfl | ⟨_, hq, _⟩
    · rfl
    · exact hq.elim
  · rintro rfl
    exact .refl

@[simp] theorem quiet_pure {a : α} {s u : σ} {tr : List (Event Q A)} {r : Except ε α} :
    Run M Quiet (.pure a) s tr u r ↔ u = s ∧ tr = [] ∧ r = .ok a := by
  rw [run_pure, quiet_reaches]

@[simp] theorem quiet_throw {e : ε} {s u : σ} {tr : List (Event Q A)} {r : Except ε α} :
    Run M Quiet (.throw e : Program Q A ε α) s tr u r ↔ u = s ∧ tr = [] ∧ r = .error e := by
  rw [run_throw, quiet_reaches]

@[simp] theorem quiet_ask {q : Q} {next : A q → Program Q A ε α} {s u : σ}
    {tr : List (Event Q A)} {r : Except ε α} :
    Run M Quiet (.ask q next) s tr u r ↔ ∃ a t tr₁, M q s a t ∧
      Run M Quiet (next a) t tr₁ u r ∧ tr = ⟨q, a⟩ :: tr₁ := by
  simp only [run_ask, quiet_reaches]
  constructor
  · rintro ⟨s₁, a, t, tr₁, rfl, h⟩
    exact ⟨a, t, tr₁, h⟩
  · rintro ⟨a, t, tr₁, h⟩
    exact ⟨s, a, t, tr₁, rfl, h⟩

/-- A run of a sequence either completes the first part and goes on with its
result, or fails inside the first part. -/
theorem Run.of_bind {p : Program Q A ε α} {f : α → Program Q A ε β} {s u : σ}
    {tr : List (Event Q A)} {r : Except ε β} (h : Run M E (p >>= f) s tr u r) :
    (∃ a t tr₁ tr₂, Run M E p s tr₁ t (.ok a) ∧ Run M E (f a) t tr₂ u r ∧ tr = tr₁ ++ tr₂) ∨
      ∃ e, Run M E p s tr u (.error e) ∧ r = .error e := by
  induction p generalizing s tr with
  | pure a => exact .inl ⟨a, s, [], tr, .pure a s, h, rfl⟩
  | throw e =>
      obtain ⟨hs, rfl, rfl⟩ := run_throw.mp h
      exact .inr ⟨e, run_throw.mpr ⟨hs, rfl, rfl⟩, rfl⟩
  | ask q next ih =>
      obtain ⟨s₁, a, t, tr₁, hs, hm, hr, rfl⟩ := run_ask.mp h
      rcases ih a hr with ⟨b, t', l₁, l₂, h₁, h₂, rfl⟩ | ⟨e, h₁, rfl⟩
      · exact .inl ⟨b, t', ⟨q, a⟩ :: l₁, l₂, run_ask.mpr ⟨s₁, a, t, l₁, hs, hm, h₁, rfl⟩,
          h₂, rfl⟩
      · exact .inr ⟨e, run_ask.mpr ⟨s₁, a, t, tr₁, hs, hm, h₁, rfl⟩, rfl⟩

theorem Run.ok_of_total {p : Program Q A ε α} (hp : p.Total) {s u : σ}
    {tr : List (Event Q A)} {r : Except ε α} (h : Run M E p s tr u r) : ∃ a, r = .ok a := by
  induction h with
  | pure a s => exact ⟨a, rfl⟩
  | throw => exact hp.elim
  | ask _ _ ih => exact ih (hp _)
  | interfere _ _ ih => exact ih hp

theorem Run.ok_of_totalOn {allowed : (q : Q) → A q → Prop} {p : Program Q A ε α}
    (hp : p.TotalOn allowed) {s u : σ} {tr : List (Event Q A)} {r : Except ε α}
    (h : Run M E p s tr u r) (ha : ∀ ev ∈ tr, allowed ev.1 ev.2) : ∃ a, r = .ok a := by
  induction h with
  | pure a s => exact ⟨a, rfl⟩
  | throw => exact hp.elim
  | ask _ _ ih =>
      obtain ⟨hhead, htail⟩ := List.forall_mem_cons.mp ha
      exact ih (hp _ hhead) htail
  | interfere _ _ ih => exact ih hp ha

/-- Along a run, a relation that every question in `P` and every interference
respects holds between the first and the last state. -/
theorem Run.relates {allowed : (q : Q) → A q → Prop} {P : Q → Prop} {G : σ → σ → Prop}
    (hrefl : ∀ s, G s s) (htrans : ∀ s t u, G s t → G t u → G s u)
    (hE : ∀ s t, E s t → G s t) (hM : ∀ q s a t, P q → M q s a t → allowed q a ∧ G s t)
    {p : Program Q A ε α} (hp : p.Uses allowed P) {s u : σ} {tr : List (Event Q A)}
    {r : Except ε α} (h : Run M E p s tr u r) : G s u := by
  induction h with
  | pure => exact hrefl _
  | throw => exact hrefl _
  | ask hm _ ih =>
      have hq := hM _ _ _ _ hp.1 hm
      exact htrans _ _ _ hq.2 (ih (hp.2 _ hq.1))
  | interfere hst _ ih => exact htrans _ _ _ (hE _ _ hst) (ih hp)

theorem Run.events {allowed : (q : Q) → A q → Prop} {P : Q → Prop}
    (hM : ∀ q s a t, P q → M q s a t → allowed q a)
    {p : Program Q A ε α} (hp : p.Uses allowed P) {s u : σ} {tr : List (Event Q A)}
    {r : Except ε α} (h : Run M E p s tr u r) : ∀ ev ∈ tr, P ev.1 := by
  induction h with
  | pure => simp
  | throw => simp
  | ask hm _ ih =>
      intro ev hev
      rcases List.mem_cons.mp hev with rfl | hev
      · exact hp.1
      · exact ih (hp.2 _ (hM _ _ _ _ hp.1 hm)) ev hev
  | interfere _ _ ih => exact ih hp

/-- A program whose questions all leave the state alone is moved only by others. -/
theorem Run.only_others {P : Q → Prop} (hM : ∀ q s a t, P q → M q s a t → t = s)
    {p : Program Q A ε α} (hp : p.Uses (fun _ _ => True) P) {s u : σ}
    {tr : List (Event Q A)} {r : Except ε α} (h : Run M E p s tr u r) :
    ReflTransGen E s u := by
  apply h.relates (fun _ => .refl) (fun _ _ _ => .trans) (fun _ _ => .single) _ hp
  intro q s a t hq hm
  rw [hM q s a t hq hm]
  exact ⟨trivial, .refl⟩

/-- An executable run: every question is answered by a function of the state. -/
def Program.exec (answer : (q : Q) → σ → A q × σ) :
    Program Q A ε α → σ → List (Event Q A) × σ × Except ε α
  | .pure a, s => ([], s, .ok a)
  | .throw e, s => ([], s, .error e)
  | .ask q next, s =>
      let r := Program.exec answer (next (answer q s).1) (answer q s).2
      (⟨q, (answer q s).1⟩ :: r.1, r.2)

theorem exec_run (answer : (q : Q) → σ → A q × σ)
    (h : ∀ q s, M q s (answer q s).1 (answer q s).2) (p : Program Q A ε α) (s : σ) :
    Run M E p s (Program.exec answer p s).1 (Program.exec answer p s).2.1
      (Program.exec answer p s).2.2 := by
  induction p generalizing s with
  | pure a => exact .pure a s
  | throw e => exact .throw e s
  | ask q next ih => exact .ask (h q s) (ih _ _)

theorem exec_bind {answer : (q : Q) → σ → A q × σ} {p : Program Q A ε α}
    {f : α → Program Q A ε β} {s t : σ} {a : α}
    (h : (Program.exec answer p s).2 = (t, .ok a)) :
    (Program.exec answer (p >>= f) s).2 = (Program.exec answer (f a) t).2 := by
  induction p generalizing s with
  | pure b =>
      cases h
      rfl
  | throw e => cases h
  | ask q next ih => exact ih _ h

theorem exec_events {answer : (q : Q) → σ → A q × σ} {P : Event Q A → Prop}
    (h : ∀ q s, P ⟨q, (answer q s).1⟩) (p : Program Q A ε α) (s : σ) :
    ∀ ev ∈ (Program.exec answer p s).1, P ev := by
  induction p generalizing s with
  | pure a => simp [Program.exec]
  | throw e => simp [Program.exec]
  | ask q next ih =>
      intro ev hev
      rcases List.mem_cons.mp hev with rfl | hev
      · exact h q s
      · exact ih _ _ ev hev

end

section
variable {Q : Type} {A : Q → Type} {ε α σ : Type}

/-- Any number of programs over one state. A new program may start at any time
if `starts` allows it; otherwise some program gets the answer to its question. -/
inductive Execution (M : Meaning Q A σ) (starts : Program Q A ε α → Prop) (s₀ : σ) :
    List (σ × Event Q A) → σ → List (Program Q A ε α) → Prop
  | idle : Execution M starts s₀ [] s₀ []
  | start {log : List (σ × Event Q A)} {s : σ} {ps : List (Program Q A ε α)}
      {p : Program Q A ε α} : Execution M starts s₀ log s ps → starts p →
      Execution M starts s₀ log s (p :: ps)
  | act {log : List (σ × Event Q A)} {s t : σ} {before after : List (Program Q A ε α)}
      {q : Q} {next : A q → Program Q A ε α} {a : A q} :
      Execution M starts s₀ log s (before ++ .ask q next :: after) → M q s a t →
      Execution M starts s₀ (log ++ [(s, ⟨q, a⟩)]) t (before ++ next a :: after)

variable {M : Meaning Q A σ} {starts : Program Q A ε α → Prop} {s₀ s : σ}
  {log : List (σ × Event Q A)} {ps : List (Program Q A ε α)}

/-- If every program that may start uses only questions in `P` as long as the
answers are allowed, then every question of an execution with allowed answers
is in `P`. -/
theorem Execution.uses {allowed : (q : Q) → A q → Prop} {P : Q → Prop}
    (hs : ∀ p, starts p → p.Uses allowed P) (h : Execution M starts s₀ log s ps)
    (ha : ∀ ev ∈ log, allowed ev.2.1 ev.2.2) :
    (∀ p ∈ ps, p.Uses allowed P) ∧ ∀ ev ∈ log, P ev.2.1 := by
  induction h with
  | idle => simp
  | start _ hp ih =>
      obtain ⟨hps, hlog⟩ := ih ha
      refine ⟨?_, hlog⟩
      intro p hmem
      rcases List.mem_cons.mp hmem with rfl | hmem
      · exact hs _ hp
      · exact hps p hmem
  | @act log s t before after q next a _ hm ih =>
      obtain ⟨hps, hlog⟩ := ih fun ev hev => ha ev (by simp [hev])
      have hq := hps (.ask q next) (by simp)
      have hnext := hq.2 a (ha (s, ⟨q, a⟩) (by simp))
      constructor
      · intro p hmem
        simp only [List.mem_append, List.mem_cons] at hmem
        rcases hmem with hmem | rfl | hmem
        · exact hps p (by simp [hmem])
        · exact hnext
        · exact hps p (by simp [hmem])
      · intro ev hev
        simp only [List.mem_append, List.mem_singleton] at hev
        rcases hev with hev | rfl
        · exact hlog ev hev
        · exact hq.1

/-- Every question of an execution was answered as its meaning allows. -/
theorem Execution.meant (h : Execution M starts s₀ log s ps) :
    ∀ ev ∈ log, ∃ t, M ev.2.1 ev.1 ev.2.2 t := by
  induction h with
  | idle => simp
  | start _ _ ih => exact ih
  | act _ hm ih =>
      intro ev hev
      simp only [List.mem_append, List.mem_singleton] at hev
      rcases hev with hev | rfl
      · exact ih ev hev
      · exact ⟨_, hm⟩

/-- A program of an execution can be run to its end before any other moves. -/
theorem Execution.runs {p : Program Q A ε α} (before after : List (Program Q A ε α))
    {tr : List (Event Q A)} {u : σ} {r : Except ε α}
    (h : Execution M starts s₀ log s (before ++ p :: after)) (hr : Run M Quiet p s tr u r) :
    ∃ steps last, steps.map Prod.snd = tr ∧
      Execution M starts s₀ (log ++ steps) u (before ++ last :: after) := by
  induction hr generalizing log with
  | pure a s => exact ⟨[], .pure a, rfl, by simpa using h⟩
  | throw e s => exact ⟨[], .throw e, rfl, by simpa using h⟩
  | @ask q next s t u a tr r hm _ ih =>
      obtain ⟨steps, last, hsteps, hexec⟩ := ih (h.act hm)
      refine ⟨(s, ⟨q, a⟩) :: steps, last, ?_, ?_⟩
      · rw [List.map_cons, hsteps]
      · simpa using hexec
  | interfere hst _ _ => exact hst.elim

end
end LdpProtocol.InterferedRuns
