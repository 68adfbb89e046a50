import Tquic.Base.Run
import Tquic.CongestionControl.Cubic

/-!
# Path MTU discovery

A size is ruled out when three probes of it were lost. The interval between the size in use and the
ceiling always holds the size of the path, and shrinks with every size that is decided.
-/

namespace Tquic

structure Dplpmtud where
  shouldProbe : Bool
  currentSize : ℕ := defaultSendUdpPayloadSize
  probeSize : Option ℕ := none
  probeCount : ℕ := 0
  failedSize : ℕ := 0
  maxPmtu : ℕ
  deriving DecidableEq

namespace Dplpmtud

def maxPacketSizeIpv4 : ℕ := 1472

def maxPacketSizeIpv6 : ℕ := 1452

def maxProbeCount : ℕ := 3

def new (enable : Bool) (maxPmtu : ℕ) (isIpv6 : Bool) : Dplpmtud where
  shouldProbe := enable
  maxPmtu :=
    if maxPmtu = defaultSendUdpPayloadSize then
      if isIpv6 then maxPacketSizeIpv6 else maxPacketSizeIpv4
    else maxPmtu

def calMtuCeiling (d : Dplpmtud) (peerMax : ℕ) : ℕ :=
  let mtuCeiling := if 0 < d.failedSize then d.failedSize else d.maxPmtu
  if peerMax < mtuCeiling then peerMax else mtuCeiling

def calProbeSize (d : Dplpmtud) (peerMax : ℕ) : ℕ :=
  let mtuCeiling := d.calMtuCeiling peerMax
  if d.failedSize = 0 ∧ mtuCeiling < 1500 then mtuCeiling
  else (d.currentSize + mtuCeiling) / 2

/-- The ratio of the sizes is compared without rounding. -/
def checkFinish (d : Dplpmtud) (peerMax : ℕ) : Bool :=
  let mtuCeiling := d.calMtuCeiling peerMax
  mtuCeiling ≤ d.currentSize || 99 * mtuCeiling ≤ 100 * d.currentSize

def getProbeSize (d : Dplpmtud) (peerMax : ℕ) : Dplpmtud × ℕ :=
  match d.probeSize with
  | some probeSize => (d, probeSize)
  | none => ({ d with probeSize := some (d.calProbeSize peerMax) }, d.calProbeSize peerMax)

def onPmtuProbeSent (d : Dplpmtud) : Dplpmtud := { d with shouldProbe := false }

def next (d : Dplpmtud) (peerMax : ℕ) : Dplpmtud :=
  { d with
    probeCount := 0, probeSize := some (d.calProbeSize peerMax)
    shouldProbe := !d.checkFinish peerMax }

def onPmtuProbeAcked (d : Dplpmtud) (pktSize peerMax : ℕ) : Dplpmtud :=
  { d with currentSize := max d.currentSize pktSize }.next peerMax

def onPmtuProbeLost (d : Dplpmtud) (pktSize peerMax : ℕ) : Dplpmtud :=
  if some pktSize ≠ d.probeSize then d
  else if d.probeCount + 1 < maxProbeCount then
    { d with probeCount := d.probeCount + 1, shouldProbe := true }
  else { d with failedSize := pktSize }.next peerMax

/-! ## The search on a path -/

/-- A search with the probes whose fate is open, and how many were sent. -/
structure Search where
  d : Dplpmtud
  pending : List ℕ := []
  sent : ℕ := 0

inductive Event where
  /-- `send` comes to the probes; other conditions than those of the search may keep it back. -/
  | send (free : Bool)
  | acked (size : ℕ)
  | lost (size : ℕ)

def step (peerMax : ℕ) (s : Search) : Event → Exec (Search × Option ℕ)
  | .send free =>
    let (d, size) := s.d.getProbeSize peerMax
    if d.shouldProbe && free then
      .ok (⟨d.onPmtuProbeSent, size :: s.pending, s.sent + 1⟩, some size)
    else .ok ({ s with d }, none)
  | .acked size =>
    .ok ({ s with d := s.d.onPmtuProbeAcked size peerMax, pending := s.pending.erase size }, none)
  | .lost size =>
    .ok ({ s with d := s.d.onPmtuProbeLost size peerMax, pending := s.pending.erase size }, none)

def Carries (p : ℕ) (s : Search) : Event → Prop
  | .send _ => True
  | .acked size => size ∈ s.pending ∧ size ≤ p
  | .lost size => size ∈ s.pending ∧ p < size

instance (p : ℕ) (s : Search) (e : Event) : Decidable (Carries p s e) := by
  unfold Carries
  split <;> infer_instance

variable {p peerMax bound : ℕ} {d : Dplpmtud} {s s' : Search}

/-- The sizes that are open, and one more until the ceiling itself was ruled out. -/
def width (d : Dplpmtud) (peerMax : ℕ) : ℕ :=
  d.calMtuCeiling peerMax - d.currentSize + if d.failedSize = 0 then 1 else 0

def rank (d : Dplpmtud) (peerMax : ℕ) : ℕ :=
  maxProbeCount * (d.width peerMax + 1) - d.probeCount

structure Encloses (d : Dplpmtud) (peerMax p : ℕ) : Prop where
  base : defaultSendUdpPayloadSize ≤ d.currentSize
  current : d.currentSize ≤ p
  ceiling : p ≤ d.calMtuCeiling peerMax
  probeSize : ∀ size, d.probeSize = some size → size = d.calProbeSize peerMax
  probeCount : d.probeCount < maxProbeCount

/-- At most one probe is on its way, the search rests only when over, and the probes to come are
within the bound. -/
structure OnTrack (peerMax p bound : ℕ) (s : Search) : Prop where
  encloses : s.d.Encloses peerMax p
  pending : s.pending = [] ∨ s.d.shouldProbe = false ∧
    ∃ size, s.pending = [size] ∧ s.d.probeSize = some size ∧
      s.sent + s.d.rank peerMax ≤ bound + 1
  asks : s.d.shouldProbe = true → s.sent + s.d.rank peerMax ≤ bound
  sent : s.sent ≤ bound
  rests : s.d.shouldProbe = false → s.pending = [] → s.d.checkFinish peerMax = true

theorem calMtuCeiling_le (d : Dplpmtud) (peerMax : ℕ) : d.calMtuCeiling peerMax ≤ peerMax := by
  rw [calMtuCeiling]
  split_ifs <;> omega

variable {size : ℕ}

theorem calMtuCeiling_failed (d : Dplpmtud) (hpos : 0 < size) (hle : size ≤ peerMax) :
    calMtuCeiling { d with failedSize := size } peerMax = size := by
  simp only [calMtuCeiling, if_pos hpos, if_neg (not_lt.mpr hle)]

theorem calProbeSize_cases (d : Dplpmtud) (peerMax : ℕ) :
    d.failedSize = 0 ∧ d.calProbeSize peerMax = d.calMtuCeiling peerMax ∨
      d.calProbeSize peerMax = (d.currentSize + d.calMtuCeiling peerMax) / 2 := by
  rw [calProbeSize]
  split_ifs with hjump
  · exact .inl ⟨hjump.1, rfl⟩
  · exact .inr rfl

theorem Encloses.calProbeSize_mem (h : d.Encloses peerMax p) :
    d.currentSize ≤ d.calProbeSize peerMax ∧ d.calProbeSize peerMax ≤ d.calMtuCeiling peerMax := by
  have hle := h.current.trans h.ceiling
  have hcases := d.calProbeSize_cases peerMax
  omega

theorem checkFinish_iff : d.checkFinish peerMax = true ↔
    99 * d.calMtuCeiling peerMax ≤ 100 * d.currentSize := by
  rw [checkFinish, Bool.or_eq_true, decide_eq_true_iff, decide_eq_true_iff]
  omega

section

variable (h : OnTrack peerMax p bound s) (hpending : s.pending = [size])

include h hpending

theorem OnTrack.decided
    (hbase : defaultSendUdpPayloadSize ≤ d.currentSize) (hcurrent : d.currentSize ≤ p)
    (hceiling : p ≤ d.calMtuCeiling peerMax)
    (hwidth : d.checkFinish peerMax = false → d.width peerMax < s.d.width peerMax) :
    OnTrack peerMax p bound { s with d := d.next peerMax, pending := [] } := by
  have hcount := h.encloses.probeCount
  have hbudget : s.sent + s.d.rank peerMax ≤ bound + 1 := by
    obtain hnone | ⟨-, _, -, -, hbudget⟩ := h.pending
    · exact absurd (hpending.symm.trans hnone) (List.cons_ne_nil _ _)
    · exact hbudget
  refine ⟨⟨hbase, hcurrent, hceiling, fun _ hsize => (Option.some.inj hsize).symm,
    Nat.zero_lt_succ 2⟩, .inl rfl, fun hasks => ?_, h.sent, fun hrests _ => ?_⟩
  · have hlt := hwidth (Bool.not_eq_true' _ ▸ hasks)
    have hrank : (d.next peerMax).rank peerMax = maxProbeCount * (d.width peerMax + 1) := rfl
    rw [rank] at hbudget
    simp only [maxProbeCount] at *
    omega
  · exact Bool.not_eq_false' _ ▸ hrests

theorem OnTrack.acked
    (hprobe : s.d.probeSize = some size) (hle : size ≤ p) :
    OnTrack peerMax p bound { s with d := s.d.onPmtuProbeAcked size peerMax, pending := [] } := by
  have hsize := h.encloses.probeSize size hprobe
  have hbase := h.encloses.base
  refine h.decided hpending (hbase.trans (le_max_left _ _)) (max_le h.encloses.current hle)
    h.encloses.ceiling fun hfinish => ?_
  have hopen : ¬ 99 * s.d.calMtuCeiling peerMax ≤ 100 * max s.d.currentSize size :=
    fun hle => Bool.eq_false_iff.mp hfinish (checkFinish_iff.mpr hle)
  -- a size that is in use already is probed only when nothing is open above it
  have hlt : s.d.currentSize < size := by
    have hcases := s.d.calProbeSize_cases peerMax
    rw [defaultSendUdpPayloadSize] at hbase
    omega
  apply Nat.add_lt_add_right
  change s.d.calMtuCeiling peerMax - max s.d.currentSize size < _
  omega

theorem OnTrack.lost
    (hprobe : s.d.probeSize = some size) (hlt : p < size) :
    OnTrack peerMax p bound { s with d := s.d.onPmtuProbeLost size peerMax, pending := [] } := by
  have hcount := h.encloses.probeCount
  have hsize := h.encloses.probeSize size hprobe
  have hmem := h.encloses.calProbeSize_mem
  have hcurrent := h.encloses.current
  have hpeer := s.d.calMtuCeiling_le peerMax
  rw [onPmtuProbeLost, if_neg (not_not_intro hprobe.symm)]
  split_ifs with hagain
  · refine ⟨⟨h.encloses.base, hcurrent, h.encloses.ceiling, h.encloses.probeSize, hagain⟩,
      .inl rfl, fun _ => ?_, h.sent, nofun⟩
    obtain hnone | ⟨-, _, -, -, hbudget⟩ := h.pending
    · exact absurd (hpending.symm.trans hnone) (List.cons_ne_nil _ _)
    · change s.sent + (3 * (s.d.width peerMax + 1) - (s.d.probeCount + 1)) ≤ bound
      rw [rank] at hbudget
      rw [maxProbeCount] at hbudget hcount
      omega
  · have hceiling := s.d.calMtuCeiling_failed (by omega : 0 < size) (by omega : size ≤ peerMax)
    refine h.decided hpending h.encloses.base hcurrent (hlt.le.trans hceiling.ge) fun hfinish => ?_
    have hcases := s.d.calProbeSize_cases peerMax
    rw [width, hceiling, width]
    change size - s.d.currentSize + (if size = 0 then 1 else 0) < _
    -- half-way fewer sizes are left below, at the ceiling the extra one goes
    split_ifs <;> omega

end

theorem Encloses.getProbeSize (h : d.Encloses peerMax p) :
    d.getProbeSize peerMax =
      ({ d with probeSize := some (d.calProbeSize peerMax) }, d.calProbeSize peerMax) := by
  rw [Dplpmtud.getProbeSize]
  split
  · next size hsize => rw [← h.probeSize size hsize, ← hsize]
  · rfl

theorem OnTrack.send (h : OnTrack peerMax p bound s) {free : Bool} {r : Option ℕ}
    (hstep : step peerMax s (.send free) = .ok (s', r)) :
    OnTrack peerMax p bound s' ∧ s'.d.currentSize = s.d.currentSize ∧
      ∀ size, r = some size → size = s.d.calProbeSize peerMax := by
  have hencloses : Encloses { s.d with probeSize := some (s.d.calProbeSize peerMax) } peerMax p :=
    ⟨h.encloses.base, h.encloses.current, h.encloses.ceiling,
      fun _ hsize => (Option.some.inj hsize).symm, h.encloses.probeCount⟩
  rw [step, h.encloses.getProbeSize] at hstep
  dsimp only at hstep
  split_ifs at hstep with hsend
  · cases hstep
    have hasks := (Bool.and_eq_true_iff.mp hsend).1
    have hbudget := h.asks hasks
    have hpos : 0 < s.d.rank peerMax := by
      have hcount := h.encloses.probeCount
      rw [rank]
      rw [maxProbeCount] at *
      omega
    have hnone : s.pending = [] := by
      obtain hnone | ⟨hrests, -⟩ := h.pending
      · exact hnone
      · exact absurd (hrests.symm.trans hasks) (by decide)
    refine ⟨⟨?_, ?_, nofun, ?_, nofun⟩, rfl, fun _ hsize => (Option.some.inj hsize).symm⟩
    · exact ⟨hencloses.base, hencloses.current, hencloses.ceiling, hencloses.probeSize,
        hencloses.probeCount⟩
    · refine .inr ⟨rfl, _, by rw [hnone], rfl, ?_⟩
      change s.sent + 1 + s.d.rank peerMax ≤ bound + 1
      omega
    · change s.sent + 1 ≤ bound
      omega
  · cases hstep
    refine ⟨⟨hencloses, ?_, h.asks, h.sent, h.rests⟩, rfl, nofun⟩
    refine h.pending.imp_right fun ⟨hrests, size, hpending, hsize, hbudget⟩ => ?_
    exact ⟨hrests, size, hpending, congrArg some (h.encloses.probeSize size hsize).symm, hbudget⟩

theorem OnTrack.step (h : OnTrack peerMax p bound s) {e : Event} {r : Option ℕ}
    (hcarries : Carries p s e) (hstep : step peerMax s e = .ok (s', r)) :
    OnTrack peerMax p bound s' ∧ s.d.currentSize ≤ s'.d.currentSize ∧
      ∀ size, r = some size → size = s.d.calProbeSize peerMax := by
  -- what a result is about is the one probe on its way
  have hone : ∀ size ∈ s.pending, s.pending = [size] ∧ s.d.probeSize = some size := by
    intro size hmem
    obtain hnone | ⟨-, size', hpending, hprobe, -⟩ := h.pending
    · exact absurd (hnone ▸ hmem) List.not_mem_nil
    · obtain rfl := List.mem_singleton.mp (hpending ▸ hmem)
      exact ⟨hpending, hprobe⟩
  cases e with
  | send =>
    obtain ⟨hs', hsame, hsize⟩ := h.send hstep
    exact ⟨hs', hsame.ge, hsize⟩
  | acked size =>
    obtain ⟨hpending, hprobe⟩ := hone size hcarries.1
    cases hstep
    rw [hpending, List.erase_cons_head]
    exact ⟨h.acked hpending hprobe hcarries.2, le_max_left _ _, nofun⟩
  | lost size =>
    obtain ⟨hpending, hprobe⟩ := hone size hcarries.1
    cases hstep
    rw [hpending, List.erase_cons_head]
    refine ⟨h.lost hpending hprobe hcarries.2, ?_, nofun⟩
    rw [onPmtuProbeLost]
    split_ifs <;> exact le_rfl

theorem onTrack_new {maxPmtu : ℕ} {isIpv6 : Bool} (hbase : defaultSendUdpPayloadSize ≤ p)
    (hceiling : p ≤ (new true maxPmtu isIpv6).calMtuCeiling peerMax) :
    OnTrack peerMax p (3 * ((new true maxPmtu isIpv6).calMtuCeiling peerMax - 1200) + 6)
      { d := new true maxPmtu isIpv6 } := by
  refine ⟨⟨le_rfl, hbase, hceiling, nofun, Nat.zero_lt_succ 2⟩, .inl rfl, fun _ => ?_,
    Nat.zero_le _, nofun⟩
  change 0 + 3 * ((new true maxPmtu isIpv6).calMtuCeiling peerMax - 1200 + 1 + 1) ≤ _
  omega

/-- On a path that loses exactly the probes above `p` their number is bounded, the size in use only
grows and is never above `p` or the peer's limit, and the search ends within a hundredth of the
ceiling. -/
theorem search_settles {maxPmtu : ℕ} {isIpv6 : Bool} (hbase : defaultSendUdpPayloadSize ≤ p)
    (hceiling : p ≤ (new true maxPmtu isIpv6).calMtuCeiling peerMax)
    (hreach : Exec.Reaches (step peerMax) (Carries p) { d := new true maxPmtu isIpv6 } s) :
    s.sent ≤ 3 * ((new true maxPmtu isIpv6).calMtuCeiling peerMax - 1200) + 6 ∧
      s.d.currentSize ≤ p ∧ s.d.currentSize ≤ peerMax ∧
      (s.d.shouldProbe = false → s.pending = [] →
        (99 / 100 : ℚ) * s.d.calMtuCeiling peerMax ≤ s.d.currentSize) ∧
      ∀ e s' r, Carries p s e → step peerMax s e = .ok (s', r) →
        s.d.currentSize ≤ s'.d.currentSize ∧
          ∀ size, r = some size → s.d.currentSize ≤ size ∧ size ≤ s.d.calMtuCeiling peerMax := by
  have h := hreach.invariant (OnTrack peerMax p _)
    (fun _ _ _ _ hs hcarries hstep => (hs.step hcarries hstep).1) (onTrack_new hbase hceiling)
  refine ⟨h.sent, h.encloses.current, ?_, fun hrests hnone => ?_, fun e s' r hcarries hstep => ?_⟩
  · exact (h.encloses.current.trans h.encloses.ceiling).trans (s.d.calMtuCeiling_le peerMax)
  · have hfinish : (99 * s.d.calMtuCeiling peerMax : ℚ) ≤ 100 * s.d.currentSize := by
      exact_mod_cast checkFinish_iff.mp (h.rests hrests hnone)
    linarith
  · obtain ⟨-, hgrows, hsize⟩ := h.step hcarries hstep
    refine ⟨hgrows, fun size hr => ?_⟩
    rw [hsize size hr]
    exact h.encloses.calProbeSize_mem

/-- Over IPv4, on a path of 1400 bytes: three probes of 1472 bytes are lost, 1336 arrives, 1404 is
lost three times, and 1370, 1387 and 1395 arrive. -/
theorem search_settles_1400 :
    let s := Exec.follow (step 65527) (Carries 1400) { d := new true 1200 false }
      [.send true, .lost 1472, .send true, .lost 1472, .send false, .send true, .lost 1472,
        .send true, .acked 1336, .send true, .lost 1404, .send true, .lost 1404, .send true,
        .lost 1404, .send true, .acked 1370, .send true, .acked 1387, .send true, .acked 1395]
    (s.sent, s.d.currentSize, s.d.failedSize, s.d.shouldProbe) = (10, 1395, 1404, false) ∧
      (99 / 100 : ℚ) * s.d.calMtuCeiling 65527 ≤ s.d.currentSize := by
  intro s
  have hreach : Exec.Reaches (step 65527) (Carries 1400) { d := new true 1200 false } s :=
    Exec.reaches_follow _ _
  have h := search_settles (by decide) (by decide) hreach
  exact ⟨by decide +kernel, h.2.2.2.1 (by decide +kernel) (by decide +kernel)⟩

end Dplpmtud

end Tquic
