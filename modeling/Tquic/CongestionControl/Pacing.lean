import Tquic.Base.Word

/-!
# Pacing

The pacer is a token bucket. It is refilled only when the tokens run short, for all the time
since it was refilled last, so after a pause a full bucket can be spent twice at once.
-/

namespace Tquic

structure Pacer where
  enabled : Bool
  capacity : ℕ
  tokens : ℕ
  lastCwnd : ℕ
  lastSchedTime : ℤ
  granularity : ℕ
  deriving DecidableEq

namespace Pacer

def minBurstPacketNum : ℕ := 10

def maxBurstPacketNum : ℕ := 128

def updateCapacity (p : Pacer) (cwnd srtt mtu : ℕ) : Pacer :=
  let capacity := wrap (cwnd * p.granularity / max srtt 1000000)
  { p with capacity := min (max capacity (minBurstPacketNum * mtu)) (maxBurstPacketNum * mtu) }

def new (enabled : Bool) (srtt cwnd mtu : ℕ) (now : ℤ) (granularity : ℕ) : Pacer :=
  let p := updateCapacity ⟨enabled, 0, 0, cwnd, now, granularity⟩ cwnd srtt mtu
  { p with tokens := p.capacity }

def onSent (p : Pacer) (bytesSent : ℕ) : Pacer :=
  if p.enabled then { p with tokens := p.tokens - bytesSent } else p

def refill (p : Pacer) (pacingRate : ℕ) (now : ℤ) : Pacer :=
  let elapsed := saturatingDurationSince now p.lastSchedTime
  { p with
    tokens := min (saturatingAdd p.tokens (wrap (pacingRate * elapsed / 10 ^ 9))) p.capacity
    lastSchedTime := now }

def schedule (p : Pacer) (bytesToSend pacingRate srtt cwnd mtu : ℕ) (now : ℤ) :
    Pacer × Option ℤ :=
  if !p.enabled || srtt = 0 || cwnd = 0 || pacingRate = 0 then (p, none)
  else
    let p :=
      if cwnd ≠ p.lastCwnd then
        let p := p.updateCapacity cwnd srtt mtu
        { p with tokens := min p.capacity p.tokens, lastCwnd := cwnd }
      else p
    if bytesToSend ≤ p.tokens then (p, none)
    else
      let p := p.refill pacingRate now
      if bytesToSend ≤ p.tokens then (p, none)
      else
        let timeToWait := wrap ((bytesToSend - p.tokens) * 10 ^ 9) / max pacingRate 1
        (p, some (p.lastSchedTime + timeToWait))

/-- What stays fixed; for no rate, round trip or window the pacer lets everything through. -/
structure Flow where
  pacingRate : ℕ
  srtt : ℕ
  cwnd : ℕ
  mtu : ℕ
  paced : pacingRate ≠ 0 ∧ srtt ≠ 0 ∧ cwnd ≠ 0

/-- A packet is scheduled, and `send` says whether it is sent if it need not wait. -/
structure Attempt where
  now : ℤ
  size : ℕ
  send : Bool

namespace Flow

variable (f : Flow)

/-- The pacer after an attempt, and the bytes sent. -/
def attempt (p : Pacer) (a : Attempt) : Pacer × ℕ :=
  match p.schedule a.size f.pacingRate f.srtt f.cwnd f.mtu a.now with
  | (p, none) => if a.send then (p.onSent a.size, a.size) else (p, 0)
  | (p, some _) => (p, 0)

def run (p : Pacer) : List Attempt → Pacer × ℕ
  | [] => (p, 0)
  | a :: rest =>
    let (p, sent) := f.attempt p a
    let (p, more) := run p rest
    (p, sent + more)

/-- The pacer between attempts, at a time `t`, if its capacity stays `n`. -/
structure Steady (n : ℕ) (t : ℤ) (p : Pacer) : Prop where
  enabled : p.enabled = true
  capacity : p.capacity = n
  tokens : p.tokens ≤ n
  cwnd : p.lastCwnd = f.cwnd
  last : p.lastSchedTime ≤ t

/-- What can be sent at a time `t`, in billionths of a byte: the tokens, and what a refill adds. -/
def budget (p : Pacer) (t : ℤ) : ℕ :=
  10 ^ 9 * p.tokens + min (f.pacingRate * (t - p.lastSchedTime).toNat) (10 ^ 9 * p.capacity)

variable {f} {p : Pacer} {n size : ℕ} {t now : ℤ}

theorem budget_mono (hlast : p.lastSchedTime ≤ t) (htime : t ≤ now) :
    f.budget p now ≤ f.budget p t + f.pacingRate * (now - t).toNat := by
  have hsplit : (now - p.lastSchedTime).toNat =
      (t - p.lastSchedTime).toNat + (now - t).toNat := by omega
  rw [budget, budget, hsplit, Nat.mul_add]
  omega

theorem budget_refill : f.budget (p.refill f.pacingRate now) now ≤ f.budget p now := by
  have hwrap := Nat.mod_le (f.pacingRate * (now - p.lastSchedTime).toNat / 10 ^ 9) (2 ^ 64)
  have hdiv := Nat.mul_div_le (f.pacingRate * (now - p.lastSchedTime).toNat) (10 ^ 9)
  simp only [refill, budget, saturatingAdd, saturatingDurationSince, wrap, sub_self, Int.toNat_zero,
    Nat.mul_zero, Nat.zero_min]
  omega

theorem Steady.mono (h : f.Steady n t p) (htime : t ≤ now) : f.Steady n now p :=
  { h with last := h.last.trans htime }

theorem Steady.onSent (h : f.Steady n now p) (hsize : size ≤ p.tokens) :
    f.Steady n now (p.onSent size) ∧
      f.budget (p.onSent size) now + 10 ^ 9 * size = f.budget p now := by
  rw [Pacer.onSent, if_pos h.enabled]
  refine ⟨{ h with tokens := (Nat.sub_le _ _).trans h.tokens }, ?_⟩
  simp only [budget]
  omega

theorem Steady.schedule (h : f.Steady n now p) (size : ℕ) :
    ∃ q r, p.schedule size f.pacingRate f.srtt f.cwnd f.mtu now = (q, r) ∧ f.Steady n now q ∧
      f.budget q now ≤ f.budget p now ∧ (r = none → size ≤ q.tokens) := by
  obtain ⟨hrate, hsrtt, hcwnd⟩ := f.paced
  have hrefill : f.Steady n now (p.refill f.pacingRate now) :=
    ⟨h.enabled, h.capacity, h.capacity ▸ min_le_right _ _, h.cwnd, le_rfl⟩
  simp only [Pacer.schedule, h.enabled, hsrtt, hcwnd, hrate, h.cwnd, ne_eq, not_true_eq_false,
    Bool.not_true, decide_false, Bool.or_self, Bool.false_eq_true, if_false]
  split_ifs with henough hrefilled
  · exact ⟨p, none, rfl, h, le_rfl, fun _ => henough⟩
  · exact ⟨_, none, rfl, hrefill, budget_refill, fun _ => hrefilled⟩
  · exact ⟨_, _, rfl, hrefill, budget_refill, nofun⟩

theorem Steady.attempt {a : Attempt} (h : f.Steady n a.now p) :
    f.Steady n a.now (f.attempt p a).1 ∧
      f.budget (f.attempt p a).1 a.now + 10 ^ 9 * (f.attempt p a).2 ≤ f.budget p a.now := by
  obtain ⟨q, r, hschedule, hq, hbudget, hsize⟩ := h.schedule a.size
  unfold Flow.attempt
  rw [hschedule]
  cases r with
  | some => exact ⟨hq, hbudget⟩
  | none =>
    obtain ⟨hsteady, hspent⟩ := hq.onSent (hsize rfl)
    cases a.send with
    | false => exact ⟨hq, hbudget⟩
    | true => exact ⟨hsteady, hspent.trans_le hbudget⟩

/-- Over a run the budget grows at the pacing rate. -/
theorem Steady.run {hi : ℤ} {attempts : List Attempt} (h : f.Steady n t p)
    (hsorted : attempts.Pairwise (·.now ≤ ·.now)) (hthen : ∀ a ∈ attempts, t ≤ a.now)
    (hend : ∀ a ∈ attempts, a.now ≤ hi) (hhi : t ≤ hi) :
    f.Steady n hi (f.run p attempts).1 ∧
      10 ^ 9 * (f.run p attempts).2 ≤ f.budget p t + f.pacingRate * (hi - t).toNat := by
  induction attempts generalizing p t with
  | nil => exact ⟨h.mono hhi, Nat.zero_le _⟩
  | cons a rest ih =>
    obtain ⟨hfirst, hsorted⟩ := List.pairwise_cons.mp hsorted
    obtain ⟨hnow, -⟩ := List.forall_mem_cons.mp hthen
    obtain ⟨hend, hends⟩ := List.forall_mem_cons.mp hend
    obtain ⟨hnext, hspent⟩ := (h.mono hnow).attempt
    obtain ⟨hlast, hmore⟩ := ih hnext hsorted hfirst hends hend
    have hgrown := budget_mono (f := f) h.last hnow
    have hsplit : (hi - t).toNat = (a.now - t).toNat + (hi - a.now).toNat := by omega
    refine ⟨hlast, ?_⟩
    rw [hsplit, Nat.mul_add, Flow.run, Nat.mul_add]
    omega

/-- After any pause the sender sends at most twice the capacity at once, and then at the pacing
rate. -/
theorem sent_le_twice_capacity {granularity d : ℕ} {start lo : ℤ} {before during : List Attempt}
    (hsorted : (before ++ during).Pairwise (·.now ≤ ·.now))
    (hstart : ∀ a ∈ before ++ during, start ≤ a.now)
    (hduring : ∀ a ∈ during, lo ≤ a.now ∧ a.now ≤ lo + d) :
    let p := new true f.srtt f.cwnd f.mtu start granularity
    10 ^ 9 * (f.run (f.run p before).1 during).2 ≤
      10 ^ 9 * (2 * p.capacity) + f.pacingRate * d := by
  intro p
  cases during with
  | nil => exact Nat.zero_le _
  | cons a rest =>
    obtain ⟨hbefore, hrest, hcross⟩ := List.pairwise_append.mp hsorted
    obtain ⟨hlo, hhi⟩ := hduring a (.head _)
    have hp : f.Steady p.capacity start p := ⟨rfl, rfl, le_rfl, rfl, le_rfl⟩
    have hq := (hp.run hbefore (fun b hb => hstart b (by simp [hb]))
      (fun b hb => hcross b hb a (.head _)) (hstart a (by simp))).1
    have hsent := (hq.run hrest
      (List.forall_mem_cons.mpr ⟨le_rfl, (List.pairwise_cons.mp hrest).1⟩)
      (fun b hb => (hduring b hb).2) hhi).2
    have htokens := hq.tokens
    have hcapacity := hq.capacity
    have hd : f.pacingRate * (lo + d - a.now).toNat ≤ f.pacingRate * d :=
      Nat.mul_le_mul_left _ (by omega)
    rw [budget] at hsent
    omega

end Flow

/-- A bucket of 12000 bytes, which is refilled in 12 ms. -/
def tenPackets : Flow := ⟨10 ^ 6, 10 ^ 8, 24000, 1200, by decide⟩

theorem sent_le_twice_capacity_pause :
    let p := new true (10 ^ 8) 24000 1200 0 (10 ^ 6)
    10 ^ 9 * (tenPackets.run (tenPackets.run p [⟨0, 12000, true⟩]).1
      [⟨10 ^ 9, 12000, true⟩, ⟨10 ^ 9, 12000, true⟩]).2 ≤
      10 ^ 9 * (2 * p.capacity) + 10 ^ 6 * 0 :=
  @Flow.sent_le_twice_capacity tenPackets (10 ^ 6) 0 0 (10 ^ 9) _ _ (by decide) (by decide)
    (by decide)

/-- A second after the pacer was created, two full buckets are sent at one time. -/
theorem full_bucket_twice :
    let p := new true (10 ^ 8) 24000 1200 0 (10 ^ 6)
    p.capacity = 12000 ∧
      (tenPackets.run p [⟨10 ^ 9, 12000, true⟩, ⟨10 ^ 9, 12000, true⟩]).2 = 24000 := by
  decide

end Pacer

end Tquic
