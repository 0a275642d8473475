import Mathlib

/-!
# Programs that put typed questions to their surroundings

A program is a finite-depth tree: it returns, fails, or asks one question and
continues with the answer. One lock-protected block, one message exchange, one
clock reading is one question, so the tree of a function shows exactly where
other parties can act. The surroundings are a relation between a question, a
state, an answer and the next state; between two questions an interference
relation may move the state. Nothing here refers to a particular protocol.
-/
namespace LdpProtocol.InteractivePrograms

inductive Program (Q : Type) (A : Q → Type) (ε α : Type) where
  | pure (a : α)
  | throw (e : ε)
  | ask (q : Q) (next : A q → Program Q A ε α)

section
variable {Q : Type} {A : Q → Type} {ε δ α β γ σ : Type}

namespace Program

def bind : Program Q A ε α → (α → Program Q A ε β) → Program Q A ε β
  | .pure a, f => f a
  | .throw e, _ => .throw e
  | .ask q next, f => .ask q fun a => (next a).bind f

theorem bind_pure (p : Program Q A ε α) : p.bind .pure = p := by
  induction p with
  | pure a => rfl
  | throw e => rfl
  | ask q next ih => simp only [bind, ih]

theorem bind_assoc (p : Program Q A ε α) (f : α → Program Q A ε β)
    (g : β → Program Q A ε γ) : (p.bind f).bind g = p.bind fun a => (f a).bind g := by
  induction p with
  | pure a => rfl
  | throw e => rfl
  | ask q next ih => simp only [bind, ih]

instance : Monad (Program Q A ε) where
  pure := .pure
  bind := bind

instance : LawfulMonad (Program Q A ε) :=
  LawfulMonad.mk' _ bind_pure (fun _ _ => rfl) bind_assoc

@[simp] theorem pure_eq (a : α) : (Pure.pure a : Program Q A ε α) = .pure a := rfl

@[simp] theorem pure_bind_eq (a : α) (f : α → Program Q A ε β) :
    (Program.pure a >>= f) = f a := rfl

@[simp] theorem throw_bind (e : ε) (f : α → Program Q A ε β) :
    ((.throw e : Program Q A ε α) >>= f) = .throw e := rfl

@[simp] theorem ask_bind (q : Q) (next : A q → Program Q A ε α)
    (f : α → Program Q A ε β) :
    (Program.ask q next >>= f) = .ask q fun a => next a >>= f := rfl

/-- One question, returning its answer. -/
def call (q : Q) : Program Q A ε (A q) := .ask q .pure

@[simp] theorem call_bind (q : Q) (f : A q → Program Q A ε β) :
    (call q >>= f) = .ask q f := rfl

def ofExcept : Except ε α → Program Q A ε α
  | .ok a => .pure a
  | .error e => .throw e

/-- Runs a program and hands its outcome to the caller, which may ignore it. -/
def attempt : Program Q A ε α → Program Q A δ (Except ε α)
  | .pure a => .pure (.ok a)
  | .throw e => .pure (.error e)
  | .ask q next => .ask q fun a => (next a).attempt

/-- Every question the program can reach through answers in `allowed` is in `P`. -/
def Uses (allowed : (q : Q) → A q → Prop) (P : Q → Prop) : Program Q A ε α → Prop
  | .pure _ => True
  | .throw _ => True
  | .ask q next => P q ∧ ∀ a, allowed q a → (next a).Uses allowed P

section Uses
variable {allowed : (q : Q) → A q → Prop} {P R : Q → Prop}

@[simp] theorem uses_pure (a : α) : (.pure a : Program Q A ε α).Uses allowed P := trivial

@[simp] theorem uses_throw (e : ε) : (.throw e : Program Q A ε α).Uses allowed P := trivial

@[simp] theorem uses_ask (q : Q) (next : A q → Program Q A ε α) :
    (Program.ask q next).Uses allowed P ↔
      P q ∧ ∀ a, allowed q a → (next a).Uses allowed P := Iff.rfl

@[simp] theorem uses_ofExcept (r : Except ε α) :
    (ofExcept r : Program Q A ε α).Uses allowed P := by
  cases r <;> trivial

theorem Uses.bind {p : Program Q A ε α} {f : α → Program Q A ε β}
    (hp : p.Uses allowed P) (hf : ∀ a, (f a).Uses allowed P) :
    (p >>= f).Uses allowed P := by
  induction p with
  | pure a => exact hf a
  | throw e => trivial
  | ask q next ih => exact ⟨hp.1, fun a ha => ih a (hp.2 a ha)⟩

theorem Uses.mono {p : Program Q A ε α} (hp : p.Uses allowed P)
    (h : ∀ q, P q → R q) : p.Uses allowed R := by
  induction p with
  | pure a => trivial
  | throw e => trivial
  | ask q next ih => exact ⟨h q hp.1, fun a ha => ih a (hp.2 a ha)⟩

theorem Uses.attempt {p : Program Q A ε α} (hp : p.Uses allowed P) :
    (p.attempt : Program Q A δ (Except ε α)).Uses allowed P := by
  induction p with
  | pure a => trivial
  | throw e => trivial
  | ask q next ih => exact ⟨hp.1, fun a ha => ih a (hp.2 a ha)⟩

end Uses

/-- No branch of the program fails. -/
def Total : Program Q A ε α → Prop
  | .pure _ => True
  | .throw _ => False
  | .ask _ next => ∀ a, (next a).Total

@[simp] theorem total_pure (a : α) : (.pure a : Program Q A ε α).Total := trivial

@[simp] theorem total_ask (q : Q) (next : A q → Program Q A ε α) :
    (Program.ask q next).Total ↔ ∀ a, (next a).Total := Iff.rfl

theorem total_call (q : Q) : (call q : Program Q A ε (A q)).Total := fun _ => trivial

theorem Total.bind {p : Program Q A ε α} {f : α → Program Q A ε β} (hp : p.Total)
    (hf : ∀ a, (f a).Total) : (p >>= f).Total := by
  induction p with
  | pure a => exact hf a
  | throw e => exact hp.elim
  | ask q next ih => exact fun a => ih a (hp a)

/-- No branch of the program fails as long as the answers are in `allowed`. -/
def TotalOn (allowed : (q : Q) → A q → Prop) : Program Q A ε α → Prop
  | .pure _ => True
  | .throw _ => False
  | .ask q next => ∀ a, allowed q a → (next a).TotalOn allowed

section TotalOn
variable {allowed : (q : Q) → A q → Prop}

@[simp] theorem totalOn_pure (a : α) : (.pure a : Program Q A ε α).TotalOn allowed := trivial

theorem Total.totalOn {p : Program Q A ε α} (hp : p.Total) : p.TotalOn allowed := by
  induction p with
  | pure a => trivial
  | throw e => exact hp
  | ask q next ih => exact fun a _ => ih a (hp a)

theorem TotalOn.bind {p : Program Q A ε α} {f : α → Program Q A ε β} (hp : p.TotalOn allowed)
    (hf : ∀ a, (f a).TotalOn allowed) : (p >>= f).TotalOn allowed := by
  induction p with
  | pure a => exact hf a
  | throw e => exact hp.elim
  | ask q next ih => exact fun a ha => ih a (hp a ha)

end TotalOn
end Program
end
end LdpProtocol.InteractivePrograms
