import Calorimetry.Proofs.Scalar.Order

/-! Doubles told apart by their bits. `Float` has one undefined value for all the patterns that stand for none.
Here each of the patterns is a value: the undefined ones compare with nothing, but each has a place of its own
in the total order, at the end that its sign tells. -/

namespace Calorimetry

structure Pattern where
  bits : UInt64
  deriving DecidableEq

namespace Pattern
open Binary64

def ofFloat (x : Float) : Pattern := ⟨x.toBits⟩

def value (p : Pattern) : Float := Float.ofBits p.bits

def isNegative (p : Pattern) : Bool := Nat.pow 2 63 ≤ p.bits.toNat

def magnitude (p : Pattern) : Nat := p.bits.toNat % Nat.pow 2 63

def rank (p : Pattern) : Int := if p.isNegative then -1 - (p.magnitude : Int) else p.magnitude

def isDefined (p : Pattern) : Bool := p.magnitude ≤ infinityBits

def key (p : Pattern) : Int := if p.isNegative then -(p.magnitude : Int) else p.magnitude

/-- Sums and products are those of doubles, with the one undefined value that these have. -/
instance : Scalar Pattern where
  zero := ofFloat 0
  add p q := ofFloat (p.value + q.value)
  sub p q := ofFloat (p.value - q.value)
  mul p q := ofFloat (p.value * q.value)
  div p q := ofFloat (p.value / q.value)
  natCast n := ofFloat n
  ofScientific mantissa negative exponent :=
    ofFloat (OfScientific.ofScientific mantissa negative exponent)
  emptySum := ofFloat Scalar.emptySum
  abs p := ofFloat p.value.abs
  sqrt p := ofFloat p.value.sqrt
  sin p := ofFloat p.value.sin
  cos p := ofFloat p.value.cos
  lt p q := p.isDefined && q.isDefined && decide (p.key < q.key)
  le p q := p.isDefined && q.isDefined && decide (p.key ≤ q.key)
  eq p q := p.isDefined && q.isDefined && decide (p.key = q.key)
  isFinite p := decide (p.magnitude < infinityBits)
  order p q := compare p.rank q.rank

private theorem ofFloat_injective {x y : Float} (same : ofFloat x = ofFloat y) : x = y := by
  obtain ⟨⟨a, _⟩⟩ := x
  obtain ⟨⟨b, _⟩⟩ := y
  have bits : a = b := congrArg bits same
  subst bits
  rfl

private theorem rank_injective {p q : Pattern} (same : p.rank = q.rank) : p = q := by
  have bits : p.bits = q.bits := by
    apply UInt64.toNat_inj.mp
    simp only [rank, isNegative, magnitude, decide_eq_true_eq, Nat.pow_eq] at same
    have bound := p.bits.toNat_lt
    have bound' := q.bits.toNat_lt
    split at same <;> split at same <;> omega
  cases p
  cases q
  exact congrArg mk bits

private theorem key_le_of_rank_le {p q : Pattern} (ordered : p.rank ≤ q.rank) : p.key ≤ q.key := by
  rw [rank, rank] at ordered
  rw [key, key]
  cases negative : p.isNegative <;> cases negative' : q.isNegative <;>
    simp only [negative, negative', if_true, Bool.false_eq_true, if_false] at ordered ⊢ <;> omega

private theorem lt_iff (p q : Pattern) :
    Scalar.lt p q = true ↔ (p.isDefined = true ∧ q.isDefined = true) ∧ p.key < q.key := by
  change (_ && _ && _) = true ↔ _
  rw [Bool.and_eq_true, Bool.and_eq_true, decide_eq_true_iff]

instance : Scalar.Ordered Pattern where
  eq_swap := Int.instTransOrd.eq_swap
  isLE_trans := Int.instTransOrd.isLE_trans
  not_lt {p q} ordered := by
    apply Bool.eq_false_iff.mpr
    intro less
    have before := ((lt_iff q p).mp less).2
    have := key_le_of_rank_le (Int.isLE_compare.mp ordered)
    omega
  lt_or_lt {p q r} finite less := by
    obtain ⟨⟨left, right⟩, before⟩ := (lt_iff p r).mp less
    have middle : q.isDefined = true := decide_eq_true (Nat.le_of_lt (of_decide_eq_true finite))
    rcases Int.lt_or_le p.key q.key with first | first
    · exact .inl ((lt_iff p q).mpr ⟨⟨left, middle⟩, first⟩)
    · exact .inr ((lt_iff q r).mpr ⟨⟨middle, right⟩, by omega⟩)

instance : Std.LawfulEqCmp (Scalar.order : Pattern → Pattern → Ordering) where
  compare_self := Std.compare_self
  eq_of_compare same := rank_injective (Int.compare_eq_eq.mp same)

/-- So doubles of one place in the total order are the same. -/
theorem eq_of_rank_eq {x y : Float} (same : Binary64.rank x = Binary64.rank y) : x = y :=
  ofFloat_injective (rank_injective same)

instance : Std.LawfulEqCmp (Scalar.order : Float → Float → Ordering) where
  compare_self := Std.compare_self
  eq_of_compare same := eq_of_rank_eq (Int.compare_eq_eq.mp same)

end Pattern
end Calorimetry
