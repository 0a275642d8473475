import LdpProtocol.InterferedRuns

/-!
# Concurrent calls that keep their identity

Any number of calls run over one state, one question at a time and in any order;
a new call may start at any moment. The log says which call asked what, and in
which state. What one call has asked is a path through its own program, and the
state is what the log makes of the first one. Nothing here refers to a
particular protocol. What a log last says about something is its latest entry.
-/
namespace LdpProtocol.ConcurrentCalls
open InteractivePrograms InteractivePrograms.Program InterferedRuns Relation

section Logs
variable {β : Type} {P N : β → Prop} {log : List β} {x y : β}

/-- `x` is an entry of the kind `P` and none of the kind `N` follows it. -/
def Latest (P N : β → Prop) (log : List β) (x : β) : Prop :=
  ∃ earlier later, log = earlier ++ x :: later ∧ P x ∧ ∀ y ∈ later, ¬ N y

theorem latest_concat :
    Latest P N (log ++ [y]) x ↔ (P y ∧ x = y) ∨ (Latest P N log x ∧ ¬ N y) := by
  constructor
  · intro h
    obtain ⟨earlier, later, hlog, hx, hlater⟩ := h
    rcases List.eq_nil_or_concat later with hnil | ⟨rest, last, hconcat⟩
    · subst hnil
      obtain ⟨_, hy⟩ := List.append_inj' hlog rfl
      cases hy
      exact .inl ⟨hx, rfl⟩
    · rw [hconcat, List.concat_eq_append, ← List.cons_append, ← List.append_assoc] at hlog
      obtain ⟨hfront, hlast⟩ := List.append_inj' hlog rfl
      cases hlast
      rw [hconcat, List.concat_eq_append] at hlater
      refine .inr ⟨⟨earlier, rest, hfront, hx, ?_⟩, hlater y (by simp)⟩
      intro z hz
      exact hlater z (List.mem_append_left _ hz)
  · intro h
    rcases h with ⟨hy, rfl⟩ | ⟨⟨earlier, later, hlog, hx, hlater⟩, hy⟩
    · exact ⟨log, [], rfl, hy, by simp⟩
    · refine ⟨earlier, later ++ [y], by rw [hlog]; simp, hx, ?_⟩
      intro z hz
      rcases List.mem_append.mp hz with hz | hz
      · exact hlater z hz
      · rw [List.mem_singleton.mp hz]
        exact hy

theorem not_latest_nil : ¬ Latest P N [] x := by
  intro h
  obtain ⟨earlier, later, hlog, _⟩ := h
  simp at hlog

theorem exists_latest (hx : x ∈ log) (hP : P x) : ∃ y, Latest P P log y := by
  induction log using List.reverseRecOn with
  | nil => cases hx
  | append_singleton log last ih =>
      by_cases hlast : P last
      · exact ⟨last, latest_concat.mpr (.inl ⟨hlast, rfl⟩)⟩
      · rcases List.mem_append.mp hx with hold | hnew
        · obtain ⟨y, hy⟩ := ih hold
          exact ⟨y, latest_concat.mpr (.inr ⟨hy, hlast⟩)⟩
        · rw [List.mem_singleton.mp hnew] at hP
          exact (hlast hP).elim

theorem Latest.mem (h : Latest P N log x) : x ∈ log := by
  obtain ⟨earlier, later, hlog, _⟩ := h
  rw [hlog]
  simp

/-- The latest entry comes after any other that could hide it. -/
theorem Latest.after {earlier later : List β} (h : Latest P N (earlier ++ y :: later) x)
    (hy : N y) (hne : x ≠ y) : x ∈ later := by
  induction later using List.reverseRecOn with
  | nil =>
      rcases latest_concat.mp h with ⟨_, hsame⟩ | ⟨_, hno⟩
      · exact (hne hsame).elim
      · exact (hno hy).elim
  | append_singleton later last ih =>
      rw [← List.cons_append, ← List.append_assoc] at h
      rcases latest_concat.mp h with ⟨_, hsame⟩ | ⟨hrest, _⟩
      · rw [hsame]
        simp
      · exact List.mem_append_left _ (ih hrest)

theorem Latest.unique (hPN : ∀ z, P z → N z) (hx : Latest P N log x) (hy : Latest P N log y) :
    x = y := by
  induction log using List.reverseRecOn with
  | nil => exact (not_latest_nil hx).elim
  | append_singleton log last ih =>
      rcases latest_concat.mp hx with ⟨hlast, rfl⟩ | ⟨hx', hno⟩
      · rcases latest_concat.mp hy with ⟨_, rfl⟩ | ⟨_, hno⟩
        · rfl
        · exact (hno (hPN _ hlast)).elim
      · rcases latest_concat.mp hy with ⟨hlast, rfl⟩ | ⟨hy', _⟩
        · exact (hno (hPN _ hlast)).elim
        · exact ih hx' hy'

/-- A list with one entry of the kind `P` splits at one place only. -/
theorem split_unique {before after before' after' : List β}
    (h : before ++ x :: after = before' ++ y :: after') (hbefore : ∀ z ∈ before, ¬ P z)
    (hafter : ∀ z ∈ after, ¬ P z) (hy : P y) : before = before' ∧ x = y ∧ after = after' := by
  rcases List.append_eq_append_iff.mp h with ⟨rest, hfront, hback⟩ | ⟨rest, hfront, hback⟩
  · cases rest with
    | nil =>
        cases hback
        exact ⟨by rw [hfront, List.append_nil], rfl, rfl⟩
    | cons z rest =>
        cases hback
        exact (hafter y (by simp) hy).elim
  · cases rest with
    | nil =>
        cases hback
        exact ⟨by rw [hfront, List.append_nil], rfl, rfl⟩
    | cons z rest =>
        cases hback
        exact (hbefore y (by rw [hfront]; simp) hy).elim

end Logs

section Paths
variable {Q : Type} {A : Q → Type} {ε α β : Type}

/-- A program that has come to its end. -/
def done : Except ε α → Program Q A ε α
  | .ok a => .pure a
  | .error e => .throw e

/-- A path through a program: the questions answered so far and what remains. -/
inductive Along : Program Q A ε α → List (Event Q A) → Program Q A ε α → Prop
  | here (p : Program Q A ε α) : Along p [] p
  | ask {q : Q} {next : A q → Program Q A ε α} {a : A q} {tr : List (Event Q A)}
      {p : Program Q A ε α} : Along (next a) tr p → Along (.ask q next) (⟨q, a⟩ :: tr) p

theorem along_pure {a : α} {tr : List (Event Q A)} {p : Program Q A ε α} :
    Along (.pure a) tr p ↔ tr = [] ∧ p = .pure a := by
  constructor
  · intro h
    cases h
    exact ⟨rfl, rfl⟩
  · intro h
    rw [h.1, h.2]
    exact .here _

theorem along_throw {e : ε} {tr : List (Event Q A)} {p : Program Q A ε α} :
    Along (.throw e) tr p ↔ tr = [] ∧ p = .throw e := by
  constructor
  · intro h
    cases h
    exact ⟨rfl, rfl⟩
  · intro h
    rw [h.1, h.2]
    exact .here _

theorem along_ask {q : Q} {next : A q → Program Q A ε α} {tr : List (Event Q A)}
    {p : Program Q A ε α} : Along (.ask q next) tr p ↔
      (tr = [] ∧ p = .ask q next) ∨ ∃ a tr₁, tr = ⟨q, a⟩ :: tr₁ ∧ Along (next a) tr₁ p := by
  constructor
  · intro h
    cases h with
    | here => exact .inl ⟨rfl, rfl⟩
    | ask h => exact .inr ⟨_, _, rfl, h⟩
  · intro h
    rcases h with ⟨htr, hp⟩ | ⟨a, tr₁, htr, h⟩
    · rw [htr, hp]
      exact .here _
    · rw [htr]
      exact .ask h

@[simp] theorem along_pure_done {a : α} {tr : List (Event Q A)} {r : Except ε α} :
    Along (.pure a) tr (done r) ↔ tr = [] ∧ r = .ok a := by
  rw [along_pure]
  cases r <;> simp [done]

@[simp] theorem along_throw_done {e : ε} {tr : List (Event Q A)} {r : Except ε α} :
    Along (.throw e) tr (done r) ↔ tr = [] ∧ r = .error e := by
  rw [along_throw]
  cases r <;> simp [done]

@[simp] theorem along_ask_done {q : Q} {next : A q → Program Q A ε α} {tr : List (Event Q A)}
    {r : Except ε α} : Along (.ask q next) tr (done r) ↔
      ∃ a tr₁, tr = ⟨q, a⟩ :: tr₁ ∧ Along (next a) tr₁ (done r) := by
  rw [along_ask]
  cases r <;> simp [done]

/-- A finished call has been answered, and the rest has finished. -/
theorem along_call_done {q : Q} {next : A q → Program Q A ε α} {tr : List (Event Q A)}
    {r : Except ε α} : Along (Program.call q >>= next) tr (done r) ↔
      ∃ a tr₁, tr = ⟨q, a⟩ :: tr₁ ∧ Along (next a) tr₁ (done r) :=
  along_ask_done

theorem along_ofExcept_done {r r' : Except ε α} {tr : List (Event Q A)} :
    Along (Program.ofExcept r) tr (done r') ↔ tr = [] ∧ r' = r := by
  cases r with
  | ok a => exact along_pure_done
  | error e => exact along_throw_done

theorem Along.concat {p : Program Q A ε α} {q : Q} {next : A q → Program Q A ε α}
    {tr : List (Event Q A)} (h : Along p tr (.ask q next)) (a : A q) :
    Along p (tr ++ [⟨q, a⟩]) (next a) := by
  generalize hr : Program.ask q next = r at h
  induction h with
  | here p =>
      subst hr
      exact .ask (.here _)
  | ask _ ih => exact .ask (ih hr)

/-- A path through a sequence is inside its first part, or has finished it. -/
theorem Along.of_bind {p : Program Q A ε α} {f : α → Program Q A ε β} {tr : List (Event Q A)}
    {r : Program Q A ε β} (h : Along (p >>= f) tr r) :
    (∃ p', Along p tr p' ∧ r = p' >>= f) ∨
      ∃ a tr₁ tr₂, Along p tr₁ (.pure a) ∧ Along (f a) tr₂ r ∧ tr = tr₁ ++ tr₂ := by
  induction p generalizing tr with
  | pure a => exact .inr ⟨a, [], tr, .here _, h, rfl⟩
  | throw e =>
      have hthrow := along_throw.mp h
      exact .inl ⟨.throw e, hthrow.1 ▸ .here _, hthrow.2⟩
  | ask q next ih =>
      rcases along_ask.mp h with ⟨htr, hr⟩ | ⟨a, tr₁, htr, hrest⟩
      · exact .inl ⟨.ask q next, htr ▸ .here _, hr⟩
      · rw [htr]
        rcases ih a hrest with ⟨p', hp', hr⟩ | ⟨b, l₁, l₂, h₁, h₂, hl⟩
        · exact .inl ⟨p', .ask hp', hr⟩
        · exact .inr ⟨b, ⟨q, a⟩ :: l₁, l₂, .ask h₁, h₂, by rw [hl]; rfl⟩

/-- A finished sequence has finished both parts, or has failed in the first. -/
theorem Along.of_bind_done {p : Program Q A ε α} {f : α → Program Q A ε β}
    {tr : List (Event Q A)} {r : Except ε β} (h : Along (p >>= f) tr (done r)) :
    (∃ e, Along p tr (.throw e) ∧ r = .error e) ∨
      ∃ a tr₁ tr₂, Along p tr₁ (.pure a) ∧ Along (f a) tr₂ (done r) ∧ tr = tr₁ ++ tr₂ := by
  rcases h.of_bind with ⟨p', hp', hr⟩ | hboth
  · cases p' with
    | pure a => exact .inr ⟨a, tr, [], hp', hr ▸ .here _, by simp⟩
    | throw e =>
        cases r with
        | ok b => cases hr
        | error e' =>
            cases hr
            exact .inl ⟨_, hp', rfl⟩
    | ask q next => cases r <;> cases hr
  · exact .inr hboth

/-- A program whose result is only renamed takes the program's own path. -/
theorem Along.of_map {p : Program Q A ε α} {g : α → β} {tr : List (Event Q A)}
    {r : Program Q A ε β} (h : Along (p >>= fun a => .pure (g a)) tr r) :
    ∃ p', Along p tr p' ∧ r = p' >>= fun a => .pure (g a) := by
  rcases h.of_bind with hinside | ⟨a, tr₁, tr₂, h₁, h₂, htr⟩
  · exact hinside
  · obtain ⟨hnil, hr⟩ := along_pure.mp h₂
    rw [hnil, List.append_nil] at htr
    exact ⟨.pure a, htr ▸ h₁, hr⟩

/-- A finished program whose result is only renamed has finished itself. -/
theorem Along.of_bind_map {p : Program Q A ε α} {g : α → β} {tr : List (Event Q A)}
    {r : Except ε β} (h : Along (p >>= fun a => .pure (g a)) tr (done r)) :
    ∃ r', Along p tr (done r') ∧ r = r'.map g := by
  rcases h.of_bind_done with ⟨e, hp, hr⟩ | ⟨a, tr₁, tr₂, h₁, h₂, htr⟩
  · exact ⟨.error e, hp, hr⟩
  · obtain ⟨hnil, hr⟩ := along_pure_done.mp h₂
    rw [hnil, List.append_nil] at htr
    exact ⟨.ok a, htr ▸ h₁, hr⟩

theorem Along.uses {P : Q → Prop} {p r : Program Q A ε α} {tr : List (Event Q A)}
    (hp : p.Uses (fun _ _ => True) P) (h : Along p tr r) : ∀ ev ∈ tr, P ev.1 := by
  induction h with
  | here => simp
  | ask _ ih =>
      intro ev hev
      rcases List.mem_cons.mp hev with rfl | hev
      · exact hp.1
      · exact ih (hp.2 _ trivial) ev hev

/-- Along a path with allowed answers a program asks what it uses. -/
theorem Along.uses_allowed {allowed : (q : Q) → A q → Prop} {P : Q → Prop}
    {p r : Program Q A ε α} {tr : List (Event Q A)} (hp : p.Uses allowed P) (h : Along p tr r)
    (hallowed : ∀ ev ∈ tr, allowed ev.1 ev.2) : ∀ ev ∈ tr, P ev.1 := by
  induction h with
  | here => simp
  | ask _ ih =>
      have hrest := ih (hp.2 _ (hallowed _ List.mem_cons_self))
        fun ev hev => hallowed ev (List.mem_cons_of_mem _ hev)
      intro ev hev
      rcases List.mem_cons.mp hev with rfl | hev
      · exact hp.1
      · exact hrest ev hev

/-- What a program never does, what remains of it does not do. -/
theorem Along.uses_rest {P : Q → Prop} {p r : Program Q A ε α} {tr : List (Event Q A)}
    (h : Along p tr r) (hp : p.Uses (fun _ _ => True) P) : r.Uses (fun _ _ => True) P := by
  induction h with
  | here => exact hp
  | ask _ ih => exact ih (hp.2 _ trivial)

theorem Along.total_rest {p r : Program Q A ε α} {tr : List (Event Q A)} (h : Along p tr r)
    (hp : p.Total) : r.Total := by
  induction h with
  | here => exact hp
  | ask _ ih => exact ih (hp _)

/-- A first part that never asks such a question is over when one has been asked. -/
theorem Along.past {P : Q → Prop} {p : Program Q A ε α} (hp : p.Uses (fun _ _ => True) P)
    {f : α → Program Q A ε β} {r : Program Q A ε β} {tr : List (Event Q A)}
    (h : Along (p >>= f) tr r) {ev : Event Q A} (hmem : ev ∈ tr) (hev : ¬ P ev.1) :
    ∃ a tr₁ tr₂, Along p tr₁ (.pure a) ∧ Along (f a) tr₂ r ∧ tr = tr₁ ++ tr₂ ∧ ev ∈ tr₂ := by
  rcases h.of_bind with ⟨p', hp', _⟩ | ⟨a, tr₁, tr₂, h₁, h₂, htr⟩
  · exact (hev (hp'.uses hp ev hmem)).elim
  · rw [htr] at hmem
    rcases List.mem_append.mp hmem with hmem | hmem
    · exact (hev (h₁.uses hp ev hmem)).elim
    · exact ⟨a, tr₁, tr₂, h₁, h₂, htr, hmem⟩

/-- A run is a path to the end of its program. -/
theorem along_of_run {σ : Type} {M : Meaning Q A σ} {E : σ → σ → Prop} {p : Program Q A ε α}
    {s u : σ} {tr : List (Event Q A)} {r : Except ε α} (h : Run M E p s tr u r) :
    Along p tr (done r) := by
  induction h with
  | pure a s => exact .here _
  | throw e s => exact .here _
  | ask _ _ ih => exact .ask ih
  | interfere _ _ ih => exact ih

/-- After a question of the kind `P` the program asks none of that kind. -/
def AsksOnce (P : Q → Prop) : Program Q A ε α → Prop
  | .pure _ => True
  | .throw _ => True
  | .ask q next => ∀ a,
      (P q → (next a).Uses (fun _ _ => True) fun q' => ¬ P q') ∧ AsksOnce P (next a)

theorem asksOnce_of_uses {P : Q → Prop} {p : Program Q A ε α}
    (hp : p.Uses (fun _ _ => True) fun q => ¬ P q) : AsksOnce P p := by
  induction p with
  | pure a => trivial
  | throw e => trivial
  | ask q next ih =>
      intro a
      exact ⟨fun _ => hp.2 a trivial, ih a (hp.2 a trivial)⟩

theorem AsksOnce.bind_pure {P : Q → Prop} {p : Program Q A ε α} (g : α → β)
    (hp : AsksOnce P p) : AsksOnce P (p >>= fun a => .pure (g a)) := by
  induction p with
  | pure a => trivial
  | throw e => trivial
  | ask q next ih =>
      intro a
      exact ⟨fun hq => ((hp a).1 hq).bind fun _ => trivial, ih a (hp a).2⟩

theorem Along.once {P : Q → Prop} {p r : Program Q A ε α} {tr : List (Event Q A)}
    (h : Along p tr r) (hp : AsksOnce P p) : tr.Pairwise fun x y => ¬ (P x.1 ∧ P y.1) := by
  induction h with
  | here => exact .nil
  | @ask q next a tr p hrest ih =>
      refine .cons ?_ (ih (hp a).2)
      intro y hy hboth
      exact hrest.uses ((hp a).1 hboth.1) y hy hboth.2

end Paths

section Calls
variable {C Q : Type} {A : Q → Type} {ε α σ : Type}

/-- One question of one call, with the state it was asked in. -/
structure Entry (Q : Type) (A : Q → Type) (σ : Type) where
  caller : ℕ
  before : σ
  event : Event Q A

structure Config (C Q : Type) (A : Q → Type) (ε α σ : Type) where
  log : List (Entry Q A σ)
  state : σ
  calls : List (C × Program Q A ε α)

def idle (s : σ) : Config C Q A ε α σ := ⟨[], s, []⟩

/-- A call starts, or some call gets the answer to its question. -/
inductive Move (M : Meaning Q A σ) (run : C → Program Q A ε α) :
    Config C Q A ε α σ → Config C Q A ε α σ → Prop
  | start (k : Config C Q A ε α σ) (c : C) :
      Move M run k { k with calls := k.calls ++ [(c, run c)] }
  | act {k : Config C Q A ε α σ} {i : ℕ} {c : C} {q : Q} {next : A q → Program Q A ε α}
      {a : A q} {t : σ} : k.calls[i]? = some (c, .ask q next) → M q k.state a t →
      Move M run k ⟨k.log ++ [⟨i, k.state, ⟨q, a⟩⟩], t, k.calls.set i (c, next a)⟩

abbrev Moves (M : Meaning Q A σ) (run : C → Program Q A ε α) := ReflTransGen (Move M run)

/-- The questions one call has asked, in order. -/
def traceOf (i : ℕ) (log : List (Entry Q A σ)) : List (Event Q A) :=
  (log.filter fun x => x.caller == i).map Entry.event

theorem traceOf_concat_self (i : ℕ) (log : List (Entry Q A σ)) (s : σ) (ev : Event Q A) :
    traceOf i (log ++ [⟨i, s, ev⟩]) = traceOf i log ++ [ev] := by
  simp [traceOf]

theorem traceOf_concat_ne {i j : ℕ} (h : j ≠ i) (log : List (Entry Q A σ)) (s : σ)
    (ev : Event Q A) : traceOf i (log ++ [⟨j, s, ev⟩]) = traceOf i log := by
  simp [traceOf, h]

theorem traceOf_append (i : ℕ) (log more : List (Entry Q A σ)) :
    traceOf i (log ++ more) = traceOf i log ++ traceOf i more := by
  simp [traceOf]

theorem mem_traceOf {i : ℕ} {log : List (Entry Q A σ)} {ev : Event Q A} :
    ev ∈ traceOf i log ↔ ∃ x ∈ log, x.caller = i ∧ x.event = ev := by
  simp [traceOf, and_assoc]

variable {M : Meaning Q A σ} {run : C → Program Q A ε α} {s₀ : σ} {k k' : Config C Q A ε α σ}

/-- Nothing is ever taken back: calls stay what they are, finished ones as they
finished, and the log grows. -/
theorem Moves.persist (h : Moves M run k k') :
    (∃ more, k'.log = k.log ++ more) ∧
    ∀ (i : ℕ) (c : C) (p : Program Q A ε α), k.calls[i]? = some (c, p) →
      ∃ p', k'.calls[i]? = some (c, p') ∧ ∀ r, p = done r → p' = p := by
  induction h with
  | refl => exact ⟨⟨[], by simp⟩, fun i c p hp => ⟨p, hp, fun _ _ => rfl⟩⟩
  | @tail k₁ k₂ _ hmove ih =>
      obtain ⟨⟨more, hlog⟩, hcalls⟩ := ih
      cases hmove with
      | start c =>
          refine ⟨⟨more, hlog⟩, ?_⟩
          intro i d p hp
          obtain ⟨p', hp', hdone⟩ := hcalls i d p hp
          have hlt := (List.getElem?_eq_some_iff.mp hp').1
          exact ⟨p', by rw [List.getElem?_append_left hlt]; exact hp', hdone⟩
      | @act j c q next a t hj hm =>
          refine ⟨⟨more ++ [⟨j, k₁.state, ⟨q, a⟩⟩], by simp [hlog]⟩, ?_⟩
          intro i d p hp
          obtain ⟨p', hp', hdone⟩ := hcalls i d p hp
          by_cases hij : i = j
          · subst hij
            rw [hj] at hp'
            cases hp'
            have hlt := (List.getElem?_eq_some_iff.mp hj).1
            refine ⟨next a, List.getElem?_set_self hlt, ?_⟩
            intro r hr
            have hasks : Program.ask q next = done r := (hdone r hr).trans hr
            cases r <;> cases hasks
          · exact ⟨p', by rw [List.getElem?_set_ne (Ne.symm hij)]; exact hp', hdone⟩

/-- Every entry of the log was made by a call, and every call has followed its
program. -/
structure Follows (run : C → Program Q A ε α) (k : Config C Q A ε α σ) : Prop where
  caller : ∀ x ∈ k.log, x.caller < k.calls.length
  along : ∀ i c p, k.calls[i]? = some (c, p) → Along (run c) (traceOf i k.log) p

theorem Follows.move (h : Follows run k) (hmove : Move M run k k') : Follows run k' := by
  cases hmove with
  | start c =>
      constructor
      · intro x hx
        have hlt := h.caller x hx
        simp only [List.length_append, List.length_singleton]
        omega
      · intro i d p hp
        by_cases hi : i < k.calls.length
        · rw [List.getElem?_append_left hi] at hp
          exact h.along i d p hp
        · have hlen : i = k.calls.length := by
            have hbound := (List.getElem?_eq_some_iff.mp hp).1
            simp only [List.length_append, List.length_singleton] at hbound
            omega
          subst hlen
          rw [List.getElem?_concat_length] at hp
          cases hp
          have hnone : traceOf k.calls.length k.log = [] := by
            rw [traceOf, List.map_eq_nil_iff, List.filter_eq_nil_iff]
            intro x hx
            have hlt := h.caller x hx
            simp only [beq_iff_eq]
            omega
          rw [hnone]
          exact .here _
  | @act j c q next a t hj _ =>
      have hlt := (List.getElem?_eq_some_iff.mp hj).1
      constructor
      · intro x hx
        rw [List.length_set]
        rcases List.mem_append.mp hx with hx | hx
        · exact h.caller x hx
        · rw [List.mem_singleton.mp hx]
          exact hlt
      · intro i d p hp
        by_cases hij : i = j
        · subst hij
          rw [List.getElem?_set_self hlt] at hp
          cases hp
          rw [traceOf_concat_self]
          exact (h.along i c _ hj).concat a
        · rw [List.getElem?_set_ne (Ne.symm hij)] at hp
          rw [traceOf_concat_ne (Ne.symm hij)]
          exact h.along i d p hp

theorem Moves.follows (h : Moves M run (idle s₀) k) : Follows run k := by
  induction h with
  | refl => exact ⟨by simp [idle], by simp [idle]⟩
  | tail _ hmove ih => exact ih.move hmove

/-- Any list of calls can be under way at once. -/
theorem Moves.startAll (M : Meaning Q A σ) (run : C → Program Q A ε α) (s : σ) (cs : List C) :
    Moves M run (idle s) ⟨[], s, cs.map fun c => (c, run c)⟩ := by
  induction cs using List.reverseRecOn with
  | nil => exact .refl
  | append_singleton cs c ih =>
      rw [List.map_append]
      exact ih.tail (.start _ c)

/-- The question of call `i`, if it has one left, is answered by `act`. -/
def turn (act : (q : Q) → σ → A q × σ) (k : Config C Q A ε α σ) (i : ℕ) :
    Config C Q A ε α σ :=
  match k.calls[i]? with
  | some (c, .ask q next) =>
      let (a, t) := act q k.state
      ⟨k.log ++ [⟨i, k.state, ⟨q, a⟩⟩], t, k.calls.set i (c, next a)⟩
  | _ => k

/-- Calls take turns in any order. -/
theorem Moves.turns {act : (q : Q) → σ → A q × σ}
    (hact : ∀ q s, M q s (act q s).1 (act q s).2) (run : C → Program Q A ε α) (s : σ)
    (cs : List C) (order : List ℕ) : Moves M run (idle s)
      (order.foldl (turn act) ⟨[], s, cs.map fun c => (c, run c)⟩) := by
  induction order using List.reverseRecOn with
  | nil => exact Moves.startAll M run s cs
  | append_singleton order i ih =>
      rw [List.foldl_append, List.foldl_cons, List.foldl_nil]
      generalize order.foldl (turn act) ⟨[], s, cs.map fun c => (c, run c)⟩ = k at ih ⊢
      unfold turn
      split
      · next hi => exact ih.tail (.act hi (hact _ _))
      · exact ih

/-- What holds between any two questions of one call, in order. -/
theorem pairwise_of_traceOf {R : Event Q A → Event Q A → Prop} {log : List (Entry Q A σ)}
    (h : ∀ i, (traceOf i log).Pairwise R) :
    log.Pairwise fun x y => x.caller = y.caller → R x.event y.event := by
  rw [List.pairwise_iff_forall_sublist]
  intro x y hsub hcaller
  apply List.pairwise_iff_forall_sublist.mp (h y.caller)
  have hmapped := (hsub.filter fun z => z.caller == y.caller).map Entry.event
  simpa [traceOf, hcaller] using hmapped

/-- Each entry of the log marks a moment of the run. -/
theorem Moves.split (h : Moves M run (idle s₀) k) {before after : List (Entry Q A σ)}
    {x : Entry Q A σ} (hlog : k.log = before ++ x :: after) :
    ∃ k₁, Moves M run (idle s₀) k₁ ∧ Moves M run k₁ k ∧ k₁.log = before ∧ k₁.state = x.before := by
  induction h generalizing after with
  | refl => simp [idle] at hlog
  | @tail k₁ k₂ hmoves hmove ih =>
      cases hmove with
      | start c =>
          obtain ⟨k₃, hreach, hto, hrest⟩ := ih hlog
          exact ⟨k₃, hreach, hto.tail (.start _ c), hrest⟩
      | @act i c q next a t hi hm =>
          rcases List.eq_nil_or_concat after with hnil | ⟨rest, last, hconcat⟩
          · subst hnil
            obtain ⟨hbefore, hx⟩ := List.append_inj' hlog rfl
            cases hx
            exact ⟨k₁, hmoves, .single (.act hi hm), hbefore, rfl⟩
          · rw [hconcat, List.concat_eq_append, ← List.cons_append, ← List.append_assoc] at hlog
            obtain ⟨k₃, hreach, hto, hrest⟩ := ih (List.append_inj' hlog rfl).1
            exact ⟨k₃, hreach, hto.tail (.act hi hm), hrest⟩

/-- What was in the log when a call started comes before its questions. -/
theorem Moves.log_before {k₁ : Config C Q A ε α σ} (h₁ : Moves M run (idle s₀) k₁)
    (hto : Moves M run k₁ k) {earlier later : List (Entry Q A σ)} {y : Entry Q A σ}
    (hlog : k.log = earlier ++ y :: later) (hcaller : k₁.calls.length ≤ y.caller) :
    k₁.log ⊆ earlier := by
  obtain ⟨more, hmore⟩ := hto.persist.1
  rw [hmore] at hlog
  have hnot : y ∉ k₁.log := by
    intro hmem
    have hlt := h₁.follows.caller y hmem
    omega
  rcases List.append_eq_append_iff.mp hlog with ⟨rest, hearlier, _⟩ | ⟨rest, hlog₁, hrest⟩
  · rw [hearlier]
    exact List.subset_append_left _ _
  · cases rest with
    | nil =>
        rw [hlog₁, List.append_nil]
        exact List.Subset.refl _
    | cons z rest =>
        cases hrest
        exact (hnot (by rw [hlog₁]; simp)).elim

/-- A question of a call that started later was asked at a later moment. -/
theorem Moves.moment {k₁ : Config C Q A ε α σ} (h₁ : Moves M run (idle s₀) k₁)
    (hto : Moves M run k₁ k) {y : Entry Q A σ} (hy : y ∈ k.log)
    (hcaller : k₁.calls.length ≤ y.caller) :
    ∃ k₂, Moves M run (idle s₀) k₂ ∧ Moves M run k₂ k ∧ k₁.log ⊆ k₂.log ∧
      k₂.state = y.before := by
  obtain ⟨earlier, later, hlog⟩ := List.append_of_mem hy
  obtain ⟨k₂, h₂, hto₂, hlog₂, hstate⟩ := Moves.split (h₁.trans hto) hlog
  refine ⟨k₂, h₂, hto₂, ?_, hstate⟩
  rw [hlog₂]
  exact Moves.log_before h₁ hto hlog hcaller

/-- The entries that write a part of the state. -/
def Writing {γ : Type} (written : Q → Option γ) (x : Entry Q A σ) : Prop :=
  (written x.event.1).isSome = true

/-- A part of the state that only some questions write holds what the latest of
them wrote. -/
theorem Moves.cell {γ : Type} {f : σ → γ} {written : Q → Option γ}
    (hcell : ∀ q s a t, M q s a t → f t = (written q).getD (f s))
    (h : Moves M run (idle s₀) k) :
    (∃ x, Latest (Writing written) (Writing written) k.log x ∧
      written x.event.1 = some (f k.state)) ∨
    ((∀ x ∈ k.log, written x.event.1 = none) ∧ f k.state = f s₀) := by
  induction h with
  | refl => exact .inr ⟨by simp [idle], rfl⟩
  | @tail k₁ k₂ _ hmove ih =>
      cases hmove with
      | start c => exact ih
      | @act i c q next a t hi hm =>
          have hvalue := hcell q k₁.state a t hm
          cases hq : written q with
          | some v =>
              rw [hq] at hvalue
              refine .inl ⟨⟨i, k₁.state, ⟨q, a⟩⟩, latest_concat.mpr (.inl ⟨?_, rfl⟩), ?_⟩
              · simp [Writing, hq]
              · rw [hvalue]
                exact hq
          | none =>
              rw [hq] at hvalue
              have hkeep : f t = f k₁.state := hvalue
              rw [hkeep]
              rcases ih with ⟨x, hlast, hx⟩ | ⟨hnone, hstart⟩
              · exact .inl ⟨x, latest_concat.mpr (.inr ⟨hlast, by simp [Writing, hq]⟩), hx⟩
              · refine .inr ⟨?_, hstart⟩
                intro x hx
                rcases List.mem_append.mp hx with hx | hx
                · exact hnone x hx
                · rw [List.mem_singleton.mp hx]
                  exact hq

/-- Every question was answered as its meaning allows. -/
theorem Moves.meant (h : Moves M run (idle s₀) k) :
    ∀ x ∈ k.log, ∃ t, M x.event.1 x.before x.event.2 t := by
  induction h with
  | refl => simp [idle]
  | tail _ hmove ih =>
      cases hmove with
      | start c => exact ih
      | act _ hm =>
          intro x hx
          rcases List.mem_append.mp hx with hx | hx
          · exact ih x hx
          · rw [List.mem_singleton.mp hx]
            exact ⟨_, hm⟩

theorem set_eq_of_getElem? {β : Type} {l : List β} {i : ℕ} {b : β} (h : l[i]? = some b) :
    l.set i b = l := by
  obtain ⟨hlt, hb⟩ := List.getElem?_eq_some_iff.mp h
  rw [← hb, List.set_getElem_self]

/-- The first part of a call can be run to its end before any other call moves; it
alone then adds to the log. -/
theorem Moves.advance (run : C → Program Q A ε α) {β : Type} {i : ℕ} {c : C}
    {p : Program Q A ε β} {f : β → Program Q A ε α} {u : σ} {tr : List (Event Q A)}
    {r : Except ε β} (hi : k.calls[i]? = some (c, p >>= f)) (hr : Run M Quiet p k.state tr u r) :
    ∃ steps, Moves M run k ⟨k.log ++ steps, u, k.calls.set i (c, done r >>= f)⟩ ∧
      (∀ x ∈ steps, x.caller = i) ∧ steps.map Entry.event = tr := by
  generalize hs : k.state = s at hr
  induction hr generalizing k with
  | pure a s =>
      rw [← hs, done, set_eq_of_getElem? hi]
      exact ⟨[], by rw [List.append_nil], by simp, rfl⟩
  | throw e s =>
      rw [← hs, done, set_eq_of_getElem? hi]
      exact ⟨[], by rw [List.append_nil], by simp, rfl⟩
  | @ask q next s t u a tr r hm _ ih =>
      rw [← hs] at hm
      have hlt := (List.getElem?_eq_some_iff.mp hi).1
      have hmove : Move M run k _ := .act hi hm
      obtain ⟨steps, hrest, hcaller, hevents⟩ :=
        ih (k := ⟨k.log ++ [⟨i, k.state, ⟨q, a⟩⟩], t, k.calls.set i (c, next a >>= f)⟩)
          (List.getElem?_set_self hlt) rfl
      rw [List.set_set, List.append_assoc] at hrest
      refine ⟨⟨i, k.state, ⟨q, a⟩⟩ :: steps, hrest.head hmove, ?_, by simp [hevents]⟩
      intro x hx
      rcases List.mem_cons.mp hx with hx | hx
      · rw [hx]
      · exact hcaller x hx
  | interfere hst _ _ => exact hst.elim

/-- A call can be run to its end before any other moves. -/
theorem Moves.finish (run : C → Program Q A ε α) {i : ℕ} {c : C} {p : Program Q A ε α}
    {u : σ} {tr : List (Event Q A)} {r : Except ε α} (hi : k.calls[i]? = some (c, p))
    (hr : Run M Quiet p k.state tr u r) :
    ∃ steps, Moves M run k ⟨k.log ++ steps, u, k.calls.set i (c, done r)⟩ ∧
      (∀ x ∈ steps, x.caller = i) ∧ steps.map Entry.event = tr := by
  have hwhole : k.calls[i]? = some (c, p >>= Program.pure) := by
    rw [hi]
    exact congrArg (fun p => some (c, p)) (Program.bind_pure p).symm
  have hend : (done r >>= Program.pure : Program Q A ε α) = done r := Program.bind_pure _
  obtain ⟨steps, hrest⟩ := Moves.advance run hwhole hr
  rw [hend] at hrest
  exact ⟨steps, hrest⟩

/-- A new call can be run to its end at once. -/
theorem Moves.call (k : Config C Q A ε α σ) {c : C} {u : σ} {tr : List (Event Q A)}
    {r : Except ε α} (hr : Run M Quiet (run c) k.state tr u r) :
    ∃ steps, Moves M run k ⟨k.log ++ steps, u, k.calls ++ [(c, done r)]⟩ ∧
      (∀ x ∈ steps, x.caller = k.calls.length) ∧ steps.map Entry.event = tr := by
  have hstart : Move M run k { k with calls := k.calls ++ [(c, run c)] } := .start k c
  have hat : (k.calls ++ [(c, run c)])[k.calls.length]? = some (c, run c) :=
    List.getElem?_concat_length
  obtain ⟨steps, hrest, hcaller, hevents⟩ :=
    Moves.finish run (k := { k with calls := k.calls ++ [(c, run c)] }) hat hr
  rw [List.set_append_right _ _ le_rfl, Nat.sub_self, List.set_cons_zero] at hrest
  exact ⟨steps, hrest.head hstart, hcaller, hevents⟩

theorem traceOf_of_callers {i : ℕ} {steps : List (Entry Q A σ)} (h : ∀ x ∈ steps, x.caller = i)
    (j : ℕ) : traceOf j steps = if j = i then steps.map Entry.event else [] := by
  unfold traceOf
  split
  · next heq =>
      rw [List.filter_eq_self.mpr]
      intro x hx
      rw [h x hx, heq]
      exact beq_self_eq_true i
  · next hne =>
      rw [List.map_eq_nil_iff, List.filter_eq_nil_iff]
      intro x hx
      rw [h x hx]
      simp only [beq_iff_eq]
      omega

end Calls
end LdpProtocol.ConcurrentCalls
