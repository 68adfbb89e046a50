import Mathlib

/-!
# Natural numbers in double precision

A natural number in the range of the format is rounded to 53 significant bits, to
the nearest value and to the even one of two that are equally near.
-/

/-- The number of low bits of `n` that 53 significant bits do not reach. -/
def excessBits (n : ℕ) : ℕ := n.log2 - 52

def roundDouble (n : ℕ) : ℕ :=
  let unit := 2 ^ excessBits n
  let low := n / unit * unit
  let rest := n % unit
  if unit < 2 * rest ∨ unit = 2 * rest ∧ n / unit % 2 = 1 then low + unit else low

/-! ## Rounding is monotone -/

theorem roundDouble_bounds (n : ℕ) :
    n / 2 ^ excessBits n * 2 ^ excessBits n ≤ roundDouble n ∧
      roundDouble n ≤ (n / 2 ^ excessBits n + 1) * 2 ^ excessBits n := by
  simp only [roundDouble]
  split_ifs
  · refine ⟨Nat.le_add_right _ _, ?_⟩
    rw [Nat.add_mul, one_mul]
  · exact ⟨le_rfl, Nat.mul_le_mul_right _ (Nat.le_succ _)⟩

theorem roundDouble_mem_Icc {n : ℕ} (hn : n ≠ 0) :
    2 ^ n.log2 ≤ roundDouble n ∧ roundDouble n ≤ 2 ^ (n.log2 + 1) := by
  obtain ⟨hlow, hhigh⟩ := roundDouble_bounds n
  have hself : 2 ^ n.log2 ≤ n := Nat.log2_self_le hn
  have hlt : n < 2 ^ (n.log2 + 1) := Nat.lt_log2_self
  have hunit : 0 < 2 ^ excessBits n := Nat.two_pow_pos _
  -- both powers are multiples of the unit
  obtain ⟨c, hc⟩ : 2 ^ excessBits n ∣ 2 ^ n.log2 := pow_dvd_pow 2 (Nat.sub_le _ _)
  have hc' : 2 ^ (n.log2 + 1) = 2 ^ excessBits n * (2 * c) := by
    rw [pow_succ, hc]
    ring
  constructor
  · refine le_trans ?_ hlow
    rw [hc, mul_comm]
    apply Nat.mul_le_mul_right
    rw [Nat.le_div_iff_mul_le hunit, mul_comm, ← hc]
    exact hself
  · refine hhigh.trans ?_
    rw [hc', mul_comm]
    apply Nat.mul_le_mul_left
    apply Nat.succ_le_of_lt
    rw [Nat.div_lt_iff_lt_mul hunit, mul_comm, ← hc']
    exact hlt

theorem roundDouble_le_of_excessBits_eq {a b : ℕ} (h : a ≤ b)
    (hunit : excessBits a = excessBits b) :
    roundDouble a ≤ roundDouble b := by
  have hquot : a / 2 ^ excessBits b ≤ b / 2 ^ excessBits b := Nat.div_le_div_right h
  rcases hquot.lt_or_eq with hlt | heq
  · calc roundDouble a ≤ (a / 2 ^ excessBits b + 1) * 2 ^ excessBits b := by
          rw [← hunit]
          exact (roundDouble_bounds a).2
      _ ≤ b / 2 ^ excessBits b * 2 ^ excessBits b := Nat.mul_le_mul_right _ hlt
      _ ≤ roundDouble b := (roundDouble_bounds b).1
  · have ha := Nat.div_add_mod a (2 ^ excessBits b)
    have hb := Nat.div_add_mod b (2 ^ excessBits b)
    rw [heq] at ha
    simp only [roundDouble, hunit, heq]
    split_ifs <;> omega

theorem roundDouble_mono {a b : ℕ} (h : a ≤ b) : roundDouble a ≤ roundDouble b := by
  rcases Nat.eq_zero_or_pos a with rfl | ha
  · exact Nat.zero_le _
  have hlog : a.log2 ≤ b.log2 := by
    rw [Nat.le_log2 (by omega)]
    exact (Nat.log2_self_le ha.ne').trans h
  rcases hlog.lt_or_eq with hlt | heq
  · calc roundDouble a ≤ 2 ^ (a.log2 + 1) := (roundDouble_mem_Icc ha.ne').2
      _ ≤ 2 ^ b.log2 := Nat.pow_le_pow_right (by decide) hlt
      _ ≤ roundDouble b := (roundDouble_mem_Icc (by omega)).1
  · apply roundDouble_le_of_excessBits_eq h
    rw [excessBits, excessBits, heq]

def timesThreeHalves (n : ℕ) : ℕ := roundDouble (3 * roundDouble n) / 2

theorem timesThreeHalves_mono {a b : ℕ} (h : a ≤ b) : timesThreeHalves a ≤ timesThreeHalves b := by
  apply Nat.div_le_div_right
  apply roundDouble_mono
  apply Nat.mul_le_mul_left
  exact roundDouble_mono h
