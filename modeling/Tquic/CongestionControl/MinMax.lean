import Mathlib

/-!
# The windowed extremum

Three samples stand for a whole window of measurements: the best of them, and a second and a third
choice taken later. The maximum and the minimum are kept by one rule.
-/

namespace Tquic

structure MinMaxSample where
  time : ℕ
  value : ℕ
  deriving DecidableEq

structure MinMax where
  window : ℕ
  best : MinMaxSample
  second : MinMaxSample
  third : MinMaxSample
  deriving DecidableEq

namespace MinMax

def new (window : ℕ) : MinMax :=
  ⟨window, ⟨0, 0⟩, ⟨0, 0⟩, ⟨0, 0⟩⟩

def reset (m : MinMax) (sample : MinMaxSample) : MinMax :=
  { m with best := sample, second := sample, third := sample }

def shift (m : MinMax) (sample : MinMaxSample) : MinMax :=
  { m with best := m.second, second := m.third, third := sample }

def subwinUpdate (m : MinMax) (sample : MinMaxSample) : MinMax :=
  let dt := sample.time - m.best.time
  if m.window < dt then
    -- the second choice may be outside the window as well
    if m.window < sample.time - (m.shift sample).best.time then (m.shift sample).shift sample
    else m.shift sample
  else if m.second.time = m.best.time ∧ m.window / 4 < dt then
    { m with second := sample, third := sample }
  else if m.third.time = m.second.time ∧ m.window / 2 < dt then { m with third := sample }
  else m

section Update

variable (better : ℕ → ℕ → Prop) [DecidableRel better]

def choose (m : MinMax) (sample : MinMaxSample) : MinMax :=
  if better sample.value m.second.value then { m with second := sample, third := sample }
  else if better sample.value m.third.value then { m with third := sample }
  else m

/-- One measurement: a sample no worse than the best, or one after an empty window, forgets all
earlier ones. -/
def update (m : MinMax) (sample : MinMaxSample) : MinMax :=
  if sample.time < m.third.time then m
  else if m.best.value = 0 ∨ better sample.value m.best.value ∨
      m.window < sample.time - m.third.time then m.reset sample
  else (m.choose better sample).subwinUpdate sample

end Update

def updateMax (m : MinMax) (time value : ℕ) : MinMax :=
  m.update (· ≥ ·) ⟨time, value⟩

def updateMin (m : MinMax) (time value : ℕ) : MinMax :=
  m.update (· ≤ ·) ⟨time, value⟩

def get (m : MinMax) : ℕ :=
  m.best.value

/-- What the three samples are after the measurements `history`, the last of which is
`latest`. -/
structure Tracks (better : ℕ → ℕ → Prop) (w : ℕ) (m : MinMax) (history : List MinMaxSample)
    (latest : MinMaxSample) : Prop where
  window : m.window = w
  times : m.best.time ≤ m.second.time ∧ m.second.time ≤ m.third.time
  values : better m.best.value m.second.value ∧ better m.second.value m.third.value
  recorded : m.best ∈ history ∧ m.second ∈ history ∧ m.third ∈ history
  recent : latest.time ≤ m.best.time + w
  third_le : m.third.time ≤ latest.time
  get_better : better m.get latest.value

section Tracks

variable {better : ℕ → ℕ → Prop} [Std.Total better] {w : ℕ} {m : MinMax}
  {history : List MinMaxSample} {latest sample : MinMaxSample}

theorem Tracks.reset (hw : m.window = w) (hs : sample ∈ history) :
    Tracks better w (m.reset sample) history sample where
  window := hw
  times := ⟨le_rfl, le_rfl⟩
  values := ⟨Std.Refl.refl _, Std.Refl.refl _⟩
  recorded := ⟨hs, hs, hs⟩
  recent := Nat.le_add_right _ _
  third_le := le_rfl
  get_better := Std.Refl.refl _

theorem better_of_not {a b : ℕ} (h : ¬better a b) : better b a :=
  (Std.Total.total b a).resolve_right h

variable [IsTrans ℕ better]

/-- Once the second and third choices are no worse than the sample, any of them may move up: the
third was in the window on entry. -/
theorem Tracks.subwinUpdate (hw : m.window = w)
    (htime : m.best.time ≤ m.second.time ∧ m.second.time ≤ m.third.time)
    (hvalue : better m.best.value m.second.value ∧ better m.second.value m.third.value)
    (hrec : m.best ∈ history ∧ m.second ∈ history ∧ m.third ∈ history) (hs : sample ∈ history)
    (hlast : m.third.time ≤ sample.time) (hthird : better m.third.value sample.value)
    (hin : sample.time ≤ m.third.time + w) :
    Tracks better w (m.subwinUpdate sample) history sample := by
  have hsecond := trans_of better hvalue.2 hthird
  have hbest := trans_of better hvalue.1 hsecond
  have hself : better sample.value sample.value := Std.Refl.refl _
  obtain ⟨ht₁, ht₂⟩ := htime
  obtain ⟨hv₁, hv₂⟩ := hvalue
  obtain ⟨hr₁, hr₂, hr₃⟩ := hrec
  unfold MinMax.subwinUpdate
  dsimp only
  split_ifs with hold hold' hquarter hhalf
  · exact ⟨hw, ⟨hlast, le_rfl⟩, ⟨hthird, hself⟩, ⟨hr₃, hs, hs⟩, hin, le_rfl, hthird⟩
  · exact ⟨hw, ⟨ht₂, hlast⟩, ⟨hv₂, hthird⟩, ⟨hr₂, hr₃, hs⟩, by grind [shift], le_rfl, hsecond⟩
  · exact ⟨hw, ⟨by grind, le_rfl⟩, ⟨hbest, hself⟩, ⟨hr₁, hs, hs⟩, by grind, le_rfl, hbest⟩
  · exact ⟨hw, ⟨ht₁, by grind⟩, ⟨hv₁, hsecond⟩, ⟨hr₁, hr₂, hs⟩, by grind, le_rfl, hbest⟩
  · exact ⟨hw, ⟨ht₁, ht₂⟩, ⟨hv₁, hv₂⟩, ⟨hr₁, hr₂, hr₃⟩, by grind, hlast, hbest⟩

variable [DecidableRel better]

theorem Tracks.update (h : Tracks better w m history latest) (hle : latest.time ≤ sample.time) :
    Tracks better w (m.update better sample) (history ++ [sample]) sample := by
  have hs : sample ∈ history ++ [sample] := by simp
  have hrec : m.best ∈ history ++ [sample] ∧ m.second ∈ history ++ [sample] ∧
      m.third ∈ history ++ [sample] := by simp [h.recorded]
  have hlast := h.third_le.trans hle
  have hself : better sample.value sample.value := Std.Refl.refl _
  obtain ⟨ht₁, ht₂⟩ := h.times
  unfold MinMax.update
  rw [if_neg (by omega)]
  split_ifs with hreset
  · exact .reset h.window hs
  · obtain ⟨-, hbest, hin⟩ : _ ∧ ¬better sample.value m.best.value ∧ _ := by
      simpa only [not_or] using hreset
    -- whatever the sample replaces, it is no better than what stays before it
    unfold choose
    split_ifs with hsecond hthird
    · exact .subwinUpdate h.window ⟨by grind, le_rfl⟩ ⟨better_of_not hbest, hself⟩
        ⟨hrec.1, hs, hs⟩ hs le_rfl hself (Nat.le_add_right _ _)
    · exact .subwinUpdate h.window ⟨ht₁, by grind⟩ ⟨h.values.1, better_of_not hsecond⟩
        ⟨hrec.1, hrec.2.1, hs⟩ hs le_rfl hself (Nat.le_add_right _ _)
    · exact .subwinUpdate h.window ⟨ht₁, ht₂⟩ h.values hrec hs hlast (better_of_not hthird)
        (by rw [← h.window]; omega)

theorem Tracks.run (w : ℕ) (history : List MinMaxSample) (latest : MinMaxSample)
    (hmono : (history ++ [latest]).Pairwise (·.time ≤ ·.time)) :
    Tracks better w ((history ++ [latest]).foldl (MinMax.update better) (new w))
      (history ++ [latest]) latest := by
  induction history using List.reverseRecOn generalizing latest with
  | nil =>
    -- the default samples have the value 0, which means none
    have hfirst : (new w).update better latest = (new w).reset latest := by
      simp [MinMax.update, new]
    rw [List.nil_append, List.foldl_cons, hfirst]
    exact .reset rfl (List.mem_singleton_self _)
  | append_singleton history previous ih =>
    rw [List.foldl_append]
    obtain ⟨hbefore, -, hle⟩ := List.pairwise_append.mp hmono
    exact (ih previous hbefore).update (hle previous (by simp) latest (by simp))

end Tracks

/-- The values measured at most `w` before `latest`. -/
def windowValues (w : ℕ) (history : List MinMaxSample) (latest : MinMaxSample) : List ℕ :=
  (history.filter (latest.time ≤ ·.time + w)).map (·.value)

theorem Tracks.get_mem {better : ℕ → ℕ → Prop} {w : ℕ} {m : MinMax}
    {history : List MinMaxSample} {latest : MinMaxSample} (h : Tracks better w m history latest) :
    m.get ∈ windowValues w history latest :=
  List.mem_map.mpr ⟨m.best, List.mem_filter.mpr ⟨h.recorded.1, by simpa using h.recent⟩, rfl⟩

def maxAfter (w : ℕ) (calls : List MinMaxSample) : MinMax :=
  calls.foldl (fun m call => m.updateMax call.time call.value) (new w)

def minAfter (w : ℕ) (calls : List MinMaxSample) : MinMax :=
  calls.foldl (fun m call => m.updateMin call.time call.value) (new w)

/-- After each of a sequence of measurements with non-decreasing times, for maximum and minimum. -/
theorem windowed_extrema (w : ℕ) (calls : List MinMaxSample) (latest : MinMaxSample)
    (hlast : calls.getLast? = some latest) (hmono : calls.Pairwise (·.time ≤ ·.time)) :
    (Tracks (· ≥ ·) w (maxAfter w calls) calls latest ∧
        WithBot.some (maxAfter w calls).get ≤ (windowValues w calls latest).maximum) ∧
      Tracks (· ≤ ·) w (minAfter w calls) calls latest ∧
        (windowValues w calls latest).minimum ≤ WithTop.some (minAfter w calls).get := by
  obtain ⟨history, rfl⟩ := List.getLast?_eq_some_iff.mp hlast
  have hmax := @Tracks.run (· ≥ ·) _ _ _ w history latest hmono
  have hmin := @Tracks.run (· ≤ ·) _ _ _ w history latest hmono
  exact ⟨⟨hmax, List.le_maximum_of_mem' hmax.get_mem⟩,
    hmin, List.minimum_le_of_mem' hmin.get_mem⟩

/-- The third choice is moved up when the best and the second leave the window. -/
theorem windowed_extrema_shifted :
    (maxAfter 10 [⟨20, 150⟩, ⟨24, 110⟩, ⟨29, 105⟩, ⟨35, 90⟩]).get = 105 ∧
      Tracks (· ≥ ·) 10 (maxAfter 10 [⟨20, 150⟩, ⟨24, 110⟩, ⟨29, 105⟩, ⟨35, 90⟩])
        [⟨20, 150⟩, ⟨24, 110⟩, ⟨29, 105⟩, ⟨35, 90⟩] ⟨35, 90⟩ :=
  ⟨by decide, (windowed_extrema 10 _ _ rfl (by decide)).1.1⟩

end MinMax
end Tquic
