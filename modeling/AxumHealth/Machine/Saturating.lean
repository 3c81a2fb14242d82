import Mathlib.Order.Monotone.Basic
import Mathlib.Algebra.Order.Group.Nat
import Mathlib.Order.Nat

/-!
# Saturating multiplication

`satMul cap a b` is the product of two naturals clipped at `cap`, and
`UInt64.saturatingMul` is the machine operation, which is `satMul` at the
largest word.  The results are about the quotient of a clipped product: it never
exceeds the exact quotient, and `satMul_div_eq_iff` says when the two agree.

The last section is about narrowing.  A monotone sequence whose steps are
shorter than the modulus drops when it is reduced, as soon as it reaches the
modulus.
-/

namespace Machine

def satMul (cap a b : Nat) : Nat := min (a * b) cap

theorem satMul_le_mul (cap a b : Nat) : satMul cap a b ≤ a * b := Nat.min_le_left _ _

theorem satMul_le_cap (cap a b : Nat) : satMul cap a b ≤ cap := Nat.min_le_right _ _

theorem satMul_eq_mul {cap a b : Nat} (h : a * b ≤ cap) : satMul cap a b = a * b :=
  Nat.min_eq_left h

theorem satMul_eq_cap {cap a b : Nat} (h : cap ≤ a * b) : satMul cap a b = cap :=
  Nat.min_eq_right h

theorem satMul_mono {cap a a' : Nat} (h : a ≤ a') (b : Nat) :
    satMul cap a b ≤ satMul cap a' b :=
  min_le_min (Nat.mul_le_mul_right b h) (Nat.le_refl cap)

theorem satMul_eq_zero_iff {cap : Nat} (hcap : 0 < cap) (a b : Nat) :
    satMul cap a b = 0 ↔ a = 0 ∨ b = 0 := by
  rw [← Nat.mul_eq_zero]
  unfold satMul
  omega

/-! ## Quotients of a clipped product -/

theorem satMul_div_le (cap a b t : Nat) : satMul cap a b / t ≤ a * b / t :=
  Nat.div_le_div_right (satMul_le_mul cap a b)

/-- A part of a whole, times `c`, is at most `c` wholes. -/
theorem satMul_div_le_of_le {cap a c t : Nat} (h : a ≤ t) : satMul cap a c / t ≤ c := by
  refine Nat.le_trans (satMul_div_le cap a c t) (Nat.div_le_of_le_mul ?_)
  exact Nat.mul_le_mul_right c h

/-- Clipping the product leaves the quotient exact as long as the exact quotient
of wholes still fits under the cap. -/
theorem satMul_div_eq_iff {cap a b t : Nat} (ht : 0 < t) :
    satMul cap a b / t = a * b / t ↔ a * b / t * t ≤ cap := by
  constructor
  · intro h
    rw [← h]
    exact Nat.le_trans (Nat.div_mul_le_self _ t) (satMul_le_cap cap a b)
  · intro h
    apply Nat.le_antisymm (satMul_div_le cap a b t)
    rw [Nat.le_div_iff_mul_le ht]
    exact le_min (Nat.div_mul_le_self _ t) h

/-! ## Narrowing -/

/-- A sequence that starts below `m`, moves up by less than `m` at a time and
reaches `m` by `n` has a step within the first `n` that its remainders go down. -/
theorem exists_mod_lt_mod {q : Nat → Nat} {m n : Nat} (h0 : q 0 < m)
    (hstep : ∀ i, q (i + 1) < q i + m) (hn : m ≤ q n) :
    ∃ i < n, q (i + 1) % m < q i % m := by
  induction n with
  | zero => omega
  | succ n ih =>
    by_cases hprev : m ≤ q n
    · obtain ⟨i, hi, hlt⟩ := ih hprev
      exact ⟨i, Nat.lt_succ_of_lt hi, hlt⟩
    · -- `n` is the last index below `m`, so the step to `n + 1` wraps around once.
      have hbelow : q n < m := Nat.lt_of_not_le hprev
      have hwrap : q (n + 1) % m = q (n + 1) - m := by
        have := hstep n
        rw [Nat.mod_eq_sub_mod hn, Nat.mod_eq_of_lt (by omega)]
      refine ⟨n, Nat.lt_succ_self n, ?_⟩
      rw [hwrap, Nat.mod_eq_of_lt hbelow]
      have := hstep n
      omega

/-! ## The machine operation -/

/-- The largest `u64`. -/
def maxU64 : Nat := 2 ^ 64 - 1

end Machine

/-- The product, or the largest word when it does not fit. -/
def UInt64.saturatingMul (a b : UInt64) : UInt64 :=
  if a.toNat * b.toNat < 2 ^ 64 then a * b else 0xFFFFFFFFFFFFFFFF

namespace Machine

@[simp] theorem toNat_saturatingMul (a b : UInt64) :
    (a.saturatingMul b).toNat = satMul maxU64 a.toNat b.toNat := by
  unfold UInt64.saturatingMul
  split
  · rename_i h
    rw [UInt64.toNat_mul, Nat.mod_eq_of_lt h, satMul_eq_mul (by unfold maxU64; omega)]
  · rename_i h
    rw [satMul_eq_cap (by unfold maxU64; omega)]
    rfl

theorem toNat_pos {a : UInt64} (h : a ≠ 0) : 0 < a.toNat := by
  rw [Nat.pos_iff_ne_zero, ne_eq, ← UInt64.toNat_zero, UInt64.toNat_inj]
  exact h

end Machine
