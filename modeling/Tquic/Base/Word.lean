import Mathlib

/-!
# Counters and clocks

Unsigned 64-bit counters are natural numbers with explicit saturation or wrapping. A duration is a
number of nanoseconds, and an instant a reading of the clock, which may be negative.
-/

def u64Max : ℕ := 2 ^ 64 - 1

def saturatingAdd (a b : ℕ) : ℕ := min (a + b) u64Max

def wrap (n : ℕ) : ℕ := n % 2 ^ 64

def wrappingSub (a b : ℕ) : ℕ := if b ≤ a then a - b else a + 2 ^ 64 - b

@[simp] theorem wrappingSub_of_le {a b : ℕ} (h : b ≤ a) : wrappingSub a b = a - b := if_pos h

def fromMicros (micros : ℕ) : ℕ := micros * 1000

def fromMillis (millis : ℕ) : ℕ := millis * 1000000

def asMicros (d : ℕ) : ℕ := d / 1000

def maxDuration : ℕ := u64Max * 10 ^ 9 + 999999999

def saturatingDurationSince (later earlier : ℤ) : ℕ := (later - earlier).toNat

theorem asMicros_pos_iff {d : ℕ} : 0 < asMicros d ↔ 1000 ≤ d := by
  simp only [asMicros]
  omega

/-- A duration that is not zero and yet counts no whole microsecond. -/
def SubMicro (d : ℕ) : Prop := 0 < d ∧ d < 1000

instance (d : ℕ) : Decidable (SubMicro d) := inferInstanceAs (Decidable (_ ∧ _))

theorem asMicros_eq_zero {d : ℕ} (h : SubMicro d) : asMicros d = 0 :=
  Nat.div_eq_of_lt h.2

theorem asMicros_pos {d : ℕ} (h : ¬ SubMicro d) (hd : d ≠ 0) : 0 < asMicros d := by
  rw [asMicros_pos_iff]
  by_contra hlt
  exact h ⟨Nat.pos_of_ne_zero hd, by omega⟩
