import Tquic.Base.SortedMap

/-!
# Sets stored as separated intervals

A map from starts to ends stores half-open intervals. It is separated when no interval is empty
and no two of them meet or touch; then each set has at most one representation.
-/

namespace SortedMap

variable {K : Type*} [LinearOrder K] {m : SortedMap K K} {e : K × K} {s t x : K}

def points (m : SortedMap K K) : Set K := {x | ∃ e ∈ m, e.1 ≤ x ∧ x < e.2}

theorem mem_points : x ∈ m.points ↔ ∃ e ∈ m, e.1 ≤ x ∧ x < e.2 := Iff.rfl

/-- Intervals are non-empty, and each ends strictly before the next one starts. -/
structure Separated (m : SortedMap K K) : Prop where
  nonempty : ∀ e ∈ m, e.1 < e.2
  gap : ∀ e ∈ m, ∀ e' ∈ m, e.1 < e'.1 → e.2 < e'.1

namespace Separated

theorem empty : (empty : SortedMap K K).Separated :=
  ⟨fun _ h => absurd h (not_mem_empty _), fun _ h => absurd h (not_mem_empty _)⟩

section

variable (h : m.Separated)

include h

theorem mono {m' : SortedMap K K} (hsub : ∀ e ∈ m', e ∈ m) :
    m'.Separated where
  nonempty e he := h.nonempty e (hsub e he)
  gap e he e' he' := h.gap e (hsub e he) e' (hsub e' he')

theorem erase (k : K) : (m.erase k).Separated :=
  h.mono fun _ he => (mem_erase.mp he).1

theorem insert (hst : s < t) (hapart : ∀ e ∈ m, e.2 < s ∨ t < e.1) :
    (m.insert s t).Separated where
  nonempty e he := by
    rcases mem_insert.mp he with rfl | ⟨he, -⟩
    · exact hst
    · exact h.nonempty e he
  gap e he e' he' hlt := by
    rcases mem_insert.mp he with rfl | ⟨he, -⟩ <;> rcases mem_insert.mp he' with rfl | ⟨he', -⟩
    · exact absurd hlt (lt_irrefl _)
    · rcases hapart e' he' with hlt' | hlt'
      · exact absurd (hlt.trans (h.nonempty e' he')) hlt'.not_gt
      · exact hlt'
    · rcases hapart e he with hlt' | hlt'
      · exact hlt'
      · exact absurd (hst.trans hlt') hlt.not_gt
    · exact h.gap e he e' he' hlt

theorem mem_points_insert (hst : s < t) (hapart : ∀ e ∈ m, e.2 < s ∨ t < e.1) :
    x ∈ (m.insert s t).points ↔ x ∈ m.points ∨ (s ≤ x ∧ x < t) := by
  have hkey : ∀ e ∈ m, e.1 ≠ s := by
    rintro e he rfl
    rcases hapart e he with hlt | hlt
    · exact hlt.not_gt (h.nonempty e he)
    · exact hlt.not_gt hst
  simp only [mem_points, mem_insert]
  constructor
  · rintro ⟨e, rfl | ⟨he, -⟩, hx⟩
    · exact .inr hx
    · exact .inl ⟨e, he, hx⟩
  · rintro (⟨e, he, hx⟩ | hx)
    · exact ⟨e, .inr ⟨he, hkey e he⟩, hx⟩
    · exact ⟨(s, t), .inl rfl, hx⟩

theorem apart_erase (he : e ∈ m) (hs : e.1 ≤ s) (ht : t ≤ e.2) :
    ∀ e' ∈ m.erase e.1, e'.2 < s ∨ t < e'.1 := by
  intro e' he'
  obtain ⟨he', hne⟩ := mem_erase.mp he'
  rcases lt_or_gt_of_ne hne with hlt | hgt
  · exact .inl ((h.gap e' he' e he hlt).trans_le hs)
  · exact .inr (ht.trans_lt (h.gap e he e' he' hgt))

theorem eq_of_common {e' : K × K} (he : e ∈ m) (he' : e' ∈ m)
    (hx : e.1 ≤ x ∧ x < e.2) (hx' : e'.1 ≤ x ∧ x < e'.2) : e = e' := by
  refine eq_of_mem he he' (le_antisymm ?_ ?_)
  · by_contra hlt
    exact absurd ((h.gap e' he' e he (not_le.mp hlt)).trans_le hx.1) (not_lt.mpr hx'.2.le)
  · by_contra hlt
    exact absurd ((h.gap e he e' he' (not_le.mp hlt)).trans_le hx'.1) (not_lt.mpr hx.2.le)

theorem mem_points_erase (he : e ∈ m) :
    x ∈ (m.erase e.1).points ↔ x ∈ m.points ∧ ¬ (e.1 ≤ x ∧ x < e.2) := by
  constructor
  · rintro ⟨e', he', hx⟩
    obtain ⟨he', hne⟩ := mem_erase.mp he'
    exact ⟨⟨e', he', hx⟩, fun hx' => hne (by rw [h.eq_of_common he' he hx hx'])⟩
  · rintro ⟨⟨e', he', hx⟩, hout⟩
    refine ⟨e', mem_erase.mpr ⟨he', fun hkey => hout ?_⟩, hx⟩
    rwa [eq_of_mem he' he hkey] at hx

theorem erase_or_iff (he : e ∈ m) {p q : Prop}
    (hq : q ↔ (e.1 ≤ x ∧ x < e.2) ∨ p) : (x ∈ (m.erase e.1).points ∨ q) ↔ (x ∈ m.points ∨ p) := by
  have hmem : e.1 ≤ x ∧ x < e.2 → x ∈ m.points := fun hx => ⟨e, he, hx⟩
  rw [h.mem_points_erase he, hq]
  tauto

end

end Separated

theorem Separated.pairwise_gap (h : m.Separated) : m.entries.Pairwise (fun e e' => e.2 < e'.1) :=
  m.sorted.imp_of_mem (fun he he' hlt => h.gap _ he _ he' hlt)

/-! ## How many intervals fit below a bound -/

/-- Separated intervals of natural numbers from `a` on and up to `n` take at
least two numbers each, the last one but for its gap. -/
theorem two_mul_length_le_of_gaps {l : List (ℕ × ℕ)} {a n : ℕ}
    (hne : ∀ e ∈ l, e.1 < e.2) (hgap : l.Pairwise (fun e e' => e.2 < e'.1))
    (hlo : ∀ e ∈ l, a ≤ e.1) (hhi : ∀ e ∈ l, e.2 ≤ n) : 2 * l.length ≤ n + 1 - a := by
  induction l generalizing a with
  | nil => simp
  | cons e l ih =>
    obtain ⟨hfirst, hgap⟩ := List.pairwise_cons.mp hgap
    have hrest := @ih (e.2 + 1) (fun e' he' => hne e' (List.mem_cons_of_mem e he')) hgap
      (fun e' he' => hfirst e' he') (fun e' he' => hhi e' (List.mem_cons_of_mem e he'))
    have h₁ := hne e (by simp)
    have h₂ := hlo e (by simp)
    have h₃ := hhi e (by simp)
    simp only [List.length_cons]
    omega

theorem Separated.two_mul_length_le {m : SortedMap ℕ ℕ} (h : m.Separated) {n : ℕ}
    (hn : ∀ e ∈ m, e.2 ≤ n) : 2 * m.length ≤ n + 1 := by
  have hle := two_mul_length_le_of_gaps (a := 0) h.nonempty h.pairwise_gap
    (fun e _ => Nat.zero_le e.1) hn
  simpa [length] using hle

end SortedMap
