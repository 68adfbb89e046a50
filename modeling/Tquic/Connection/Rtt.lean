import Tquic.Base.Word

/-!
# Round-trip estimation

The acknowledgement delay that the peer reports is subtracted from every sample after the first,
whatever the smallest sample so far was, so the smoothed value can fall below every sample, unless
what is left of each sample is plausible.
-/

namespace Tquic

def timerGranularity : ℕ := fromMillis 1

structure RttEstimator where
  latestRtt : ℕ
  smoothed : Option ℕ
  rttvar : ℕ
  minRtt : ℕ
  maxRtt : ℕ
  deriving DecidableEq, Repr

namespace RttEstimator

def new (initialRtt : ℕ) : RttEstimator where
  latestRtt := initialRtt
  smoothed := none
  rttvar := initialRtt / 2
  minRtt := initialRtt
  maxRtt := initialRtt

def smoothedRtt (r : RttEstimator) : ℕ := r.smoothed.getD r.latestRtt

def ptoBase (r : RttEstimator) : ℕ := r.smoothedRtt + max (4 * r.rttvar) timerGranularity

def trySetInitRtt (r : RttEstimator) (initRtt : ℕ) : RttEstimator :=
  if r.smoothed.isSome then r else new initRtt

def update (r : RttEstimator) (ackDelay rtt : ℕ) : RttEstimator :=
  let r := { r with latestRtt := rtt, minRtt := min r.minRtt rtt, maxRtt := max r.maxRtt rtt }
  match r.smoothed with
  | some smoothed =>
    let adjustedRtt := rtt - ackDelay
    let varSample := if adjustedRtt < smoothed then smoothed - adjustedRtt
      else adjustedRtt - smoothed
    { r with
      rttvar := (3 * r.rttvar + varSample) / 4
      smoothed := some ((7 * smoothed + adjustedRtt) / 8) }
  | none =>
    -- The first sample is taken as it is.
    { r with smoothed := some rtt, rttvar := rtt / 2, minRtt := rtt, maxRtt := rtt }

/-- The sample does not bring the smoothed value below a microsecond, unless it
brings it down to zero. -/
def SampleClear (r : RttEstimator) (ackDelay rtt : ℕ) : Prop :=
  match r.smoothed with
  | none => 1000 ≤ rtt
  | some smoothed =>
    7 * smoothed + (rtt - ackDelay) < 8 ∨ 8000 ≤ 7 * smoothed + (rtt - ackDelay)

instance (r : RttEstimator) (ackDelay rtt : ℕ) : Decidable (r.SampleClear ackDelay rtt) := by
  unfold SampleClear
  cases r.smoothed <;> infer_instance

theorem subMicro_update_iff {r : RttEstimator} {ackDelay rtt : ℕ} (hrtt : rtt ≠ 0) :
    SubMicro (r.update ackDelay rtt).smoothedRtt ↔ ¬ r.SampleClear ackDelay rtt := by
  rcases r with ⟨latestRtt, _ | smoothed, rttvar, minRtt, maxRtt⟩
  · have hpos : 0 < rtt := Nat.pos_of_ne_zero hrtt
    simp [update, smoothedRtt, SampleClear, SubMicro, hpos]
  · simp only [update, smoothedRtt, SampleClear, SubMicro, Option.getD_some]
    omega

/-! ## A run of samples -/

/-- A new estimator after samples of a peer's delay (cut off at `max_ack_delay` once the handshake
is completed) and a round-trip time. -/
def sampled (initialRtt : ℕ) (samples : List (ℕ × ℕ)) : RttEstimator :=
  samples.foldl (fun r s => r.update s.1 s.2) (new initialRtt)

theorem sampled_concat (initialRtt : ℕ) (samples : List (ℕ × ℕ)) (s : ℕ × ℕ) :
    sampled initialRtt (samples ++ [s]) = (sampled initialRtt samples).update s.1 s.2 :=
  List.foldl_concat _ _ _ _

theorem smoothed_update (r : RttEstimator) (ackDelay rtt : ℕ) :
    (r.update ackDelay rtt).smoothed =
      some (r.smoothed.elim rtt fun smoothed => (7 * smoothed + (rtt - ackDelay)) / 8) := by
  rcases r with ⟨latestRtt, _ | smoothed, rttvar, minRtt, maxRtt⟩
  · rfl
  · rfl

/-- Every sample after the first, less its delay, is at least the smallest sample so far. -/
def Plausible (samples : List (ℕ × ℕ)) : Prop :=
  ∀ before s, before ++ [s] <+: samples → before ≠ [] → ∃ low ∈ before ++ [s], low.2 ≤ s.2 - s.1

theorem Plausible.init {samples : List (ℕ × ℕ)} {s : ℕ × ℕ} (h : Plausible (samples ++ [s])) :
    Plausible samples :=
  fun before s' hbefore => h before s' (hbefore.trans (List.prefix_append _ _))

theorem smoothed_sampled (initialRtt : ℕ) {samples : List (ℕ × ℕ)} (hne : samples ≠ [])
    (hdelays : Plausible samples) :
    ∃ smoothed, (sampled initialRtt samples).smoothed = some smoothed ∧
      (∃ low ∈ samples, low.2 ≤ smoothed) ∧ ∃ high ∈ samples, smoothed ≤ high.2 := by
  induction samples using List.reverseRecOn with
  | nil => exact absurd rfl hne
  | append_singleton samples s ih =>
    have hlast : s ∈ samples ++ [s] := List.mem_concat_self
    rw [sampled_concat, smoothed_update]
    refine ⟨_, rfl, ?_⟩
    by_cases hsamples : samples = []
    · subst hsamples
      exact ⟨⟨s, hlast, le_rfl⟩, s, hlast, le_rfl⟩
    obtain ⟨smoothed, hsmoothed, ⟨low, hlow, hle⟩, high, hhigh, hge⟩ :=
      ih hsamples hdelays.init
    obtain ⟨low', hlow', hle'⟩ := hdelays samples s List.prefix_rfl hsamples
    rw [hsmoothed, Option.elim_some]
    -- the average lies between the old value and the adjusted sample
    constructor
    · by_cases hadjusted : s.2 - s.1 ≤ smoothed
      · exact ⟨low', hlow', by omega⟩
      · exact ⟨low, List.mem_append_left _ hlow, by omega⟩
    · by_cases hadjusted : s.2 - s.1 ≤ smoothed
      · exact ⟨high, List.mem_append_left _ hhigh, by omega⟩
      · exact ⟨s, hlast, by omega⟩

/-- The smoothed value stays between the smallest and the largest sample, along all samples whose
delays are plausible. -/
theorem smoothedRtt_sampled (initialRtt : ℕ) {samples : List (ℕ × ℕ)} (hne : samples ≠ [])
    (hdelays : Plausible samples) :
    (∃ low ∈ samples, low.2 ≤ (sampled initialRtt samples).smoothedRtt) ∧
      ∃ high ∈ samples, (sampled initialRtt samples).smoothedRtt ≤ high.2 := by
  obtain ⟨smoothed, hsmoothed, hbounds⟩ := smoothed_sampled initialRtt hne hdelays
  rw [smoothedRtt, hsmoothed]
  exact hbounds

theorem smoothedRtt_sampled_pair :
    (∃ low ∈ [(10, 80), (25, 120)], low.2 ≤ (sampled 333 [(10, 80), (25, 120)]).smoothedRtt) ∧
      ∃ high ∈ [(10, 80), (25, 120)],
        (sampled 333 [(10, 80), (25, 120)]).smoothedRtt ≤ high.2 := by
  refine smoothedRtt_sampled 333 (List.cons_ne_nil _ _) fun before s hbefore hne => ?_
  match before, hbefore, hne with
  | [_], hbefore, _ =>
    simp only [List.cons_append, List.nil_append, List.cons_prefix_cons] at hbefore
    obtain ⟨rfl, rfl, -⟩ := hbefore
    exact ⟨_, List.mem_cons_self, by decide⟩
  | _ :: _ :: _, hbefore, _ => exact absurd hbefore.length_le (by simp)

/-- Two samples of 60 ms, the second with a delay of 25 ms: the smoothed value falls below
both. -/
theorem smoothedRtt_below_samples :
    let r := sampled (fromMillis 333) [(0, fromMillis 60), (fromMillis 25, fromMillis 60)]
    r.minRtt = fromMillis 60 ∧ r.smoothedRtt < r.minRtt := by
  decide

end RttEstimator

end Tquic
