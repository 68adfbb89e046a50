import Mathlib

/-!
# Bit fields

A bit vector read as a set of positions: testing one position by a mask, setting
it, and moving all of them up.
-/

namespace BitField

open BitVec

variable {w : ℕ}

/-- Shift left by a 32-bit amount; nothing if the amount is not below the width. -/
def checkedShl (x : BitVec w) (amount : ℕ) : Option (BitVec w) :=
  if amount % 2 ^ 32 < w then some (x <<< (amount % 2 ^ 32)) else none

/-- The bit at a position; the position is taken modulo the width. -/
def bit (w position : ℕ) : BitVec w := 1#w <<< (position % w)

theorem getLsbD_bit {k : ℕ} (hk : k < w) (i : ℕ) : (bit w k).getLsbD i = decide (i = k) := by
  rw [bit, Nat.mod_eq_of_lt hk, ← twoPow_eq, getLsbD_twoPow]
  by_cases hik : i = k
  · simp [hik, hk]
  · have hki : k ≠ i := fun h => hik h.symm
    simp [hik, hki]

theorem getLsbD_or_bit {k : ℕ} (hk : k < w) (x : BitVec w) (i : ℕ) :
    (x ||| bit w k).getLsbD i = true ↔ x.getLsbD i = true ∨ i = k := by
  rw [getLsbD_or, getLsbD_bit hk, Bool.or_eq_true, decide_eq_true_iff]

theorem and_bit_ne_zero {k : ℕ} (hk : k < w) (x : BitVec w) :
    x &&& bit w k ≠ 0#w ↔ x.getLsbD k = true := by
  constructor
  · intro h
    by_contra hx
    apply h
    apply eq_of_getLsbD_eq
    intro i _
    rw [getLsbD_and, getLsbD_bit hk, getLsbD_zero]
    by_cases hik : i = k
    · simpa [hik] using hx
    · simp [hik]
  · intro hx h
    have hbit := congrArg (fun y => y.getLsbD k) h
    simp [getLsbD_bit hk, hx] at hbit

theorem getLsbD_checkedShl {x : BitVec w} {amount i : ℕ} (hi : i < w)
    (hamount : amount < 2 ^ 32 ∨ w ≤ amount % 2 ^ 32) :
    ((checkedShl x amount).getD 0).getLsbD i = true ↔
      amount ≤ i ∧ x.getLsbD (i - amount) = true := by
  have hzero : w ≤ amount % 2 ^ 32 →
      (((checkedShl x amount).getD 0).getLsbD i = true ↔
        amount ≤ i ∧ x.getLsbD (i - amount) = true) := by
    intro hw
    rw [checkedShl, if_neg (by omega)]
    constructor
    · intro h
      simp at h
    · rintro ⟨hai, -⟩
      omega
  rcases hamount with hsmall | hw
  · by_cases hlt : amount % 2 ^ 32 < w
    · rw [checkedShl, if_pos hlt, Option.getD_some, Nat.mod_eq_of_lt hsmall,
        getLsbD_shiftLeft]
      simp [hi]
    · exact hzero (by omega)
  · exact hzero hw

end BitField
