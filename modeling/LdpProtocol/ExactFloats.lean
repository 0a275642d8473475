import Mathlib

/-!
# Floats without rounding

A float is an exact rational, an infinity or not a number. The operations follow
the usual rules for infinities; a zero has no sign, and dividing by it raises
instead of returning an infinity. Comparing with what is not a number gives
false. Nothing here refers to a particular program.
-/
namespace LdpProtocol.ExactFloats

inductive ExactFloat where
  | finite (q : ℚ)
  | posInf
  | negInf
  | nan
  deriving DecidableEq

inductive ZeroDivision where
  | zeroDivision
  deriving DecidableEq

namespace ExactFloat

def neg : ExactFloat → ExactFloat
  | .finite q => .finite (-q)
  | .posInf => .negInf
  | .negInf => .posInf
  | .nan => .nan

/-- An infinity times a rational; times zero it is not a number. -/
def scale (infinity : ExactFloat) (q : ℚ) : ExactFloat :=
  if 0 < q then infinity else if q < 0 then infinity.neg else .nan

def mul : ExactFloat → ExactFloat → ExactFloat
  | .finite p, .finite q => .finite (p * q)
  | .nan, _ | _, .nan => .nan
  | .finite p, infinity | infinity, .finite p => scale infinity p
  | .posInf, infinity => infinity
  | .negInf, infinity => infinity.neg

def add : ExactFloat → ExactFloat → ExactFloat
  | .finite p, .finite q => .finite (p + q)
  | .nan, _ | _, .nan => .nan
  | .finite _, infinity | infinity, .finite _ => infinity
  | .posInf, .posInf => .posInf
  | .negInf, .negInf => .negInf
  | .posInf, .negInf | .negInf, .posInf => .nan

def div : ExactFloat → ExactFloat → Except ZeroDivision ExactFloat
  | .finite p, .finite q => if q = 0 then .error .zeroDivision else .ok (.finite (p / q))
  | infinity, .finite q =>
      if q = 0 then .error .zeroDivision else .ok (infinity.mul (.finite q⁻¹))
  | _, .nan => .ok .nan
  | .finite _, _ => .ok (.finite 0)
  | _, _ => .ok .nan

/-- `<`. -/
def lt : ExactFloat → ExactFloat → Bool
  | .nan, _ | _, .nan => false
  | .finite p, .finite q => decide (p < q)
  | .negInf, .negInf | .posInf, _ | _, .negInf => false
  | .negInf, _ | _, .posInf => true

/-- Where a number stands among the rationals and the infinities. -/
def place : ExactFloat → WithBot (WithTop ℚ)
  | .finite q => ((q : WithTop ℚ) : WithBot (WithTop ℚ))
  | .posInf | .nan => ((⊤ : WithTop ℚ) : WithBot (WithTop ℚ))
  | .negInf => ⊥

theorem place_finite_lt_posInf (q : ℚ) : (finite q).place < posInf.place :=
  WithBot.coe_lt_coe.mpr (WithTop.coe_lt_top q)

/-- Numbers compare as their places do. -/
theorem lt_iff {x y : ExactFloat} (hx : x ≠ .nan) (hy : y ≠ .nan) :
    x.lt y = true ↔ x.place < y.place := by
  cases x with
  | nan => exact (hx rfl).elim
  | finite p =>
      cases y with
      | posInf => exact iff_of_true rfl (place_finite_lt_posInf p)
      | _ => simp_all [lt, place]
  | _ => cases y <;> simp_all [lt, place]

@[simp] theorem finite_lt_finite (p q : ℚ) : (finite p).lt (.finite q) = decide (p < q) := rfl

end ExactFloat
end LdpProtocol.ExactFloats
