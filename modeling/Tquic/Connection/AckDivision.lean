import Tquic.CongestionControl.DeliveryRate
import Tquic.Connection.AckProcessing

/-!
# Divisions in acknowledgement processing

CUBIC divides by the smoothed round-trip time, delivery rate estimation by the sampling interval,
both in whole microseconds. The guards test for zero nanoseconds, which a duration below a
microsecond passes.
-/

namespace Tquic

open Recovery Tquic.Cubic Exec RangeSet List DeliveryRateEstimator

variable {F R : Type}

/-! ## CUBIC -/

namespace Cubic

variable {cc : Cubic} {p : SentPacket F} {now : ℤ} {rtt : RttEstimator} {bytesInFlight : ℕ}

theorem config_onCongestionEvent (cc : Cubic) (now : ℤ) (p : SentPacket F) (persistent : Bool)
    (lostBytes bytesInFlight : ℕ) :
    (cc.onCongestionEvent now p persistent lostBytes bytesInFlight).config = cc.config := by
  simp only [onCongestionEvent]
  split_ifs <;> rfl

theorem config_endAck (cc : Cubic) : cc.endAck.config = cc.config := by
  simp only [endAck]
  split_ifs <;> rfl

theorem config_targetWindow (cc : Cubic) (p : SentPacket F) (elapsed : ℕ) (rtt : RttEstimator) :
    (cc.targetWindow p elapsed rtt).2.config = cc.config := by
  simp only [targetWindow]
  split_ifs <;> rfl

def Sized (cc : Cubic) : Prop := 0 < cc.config.maxDatagramSize

variable {cc' : Cubic}

theorem Sized.of_config (h : cc.Sized) (hconfig : cc'.config = cc.config) : cc'.Sized := by
  rw [Sized, hconfig]
  exact h

theorem sized_new (conf : RecoveryConfig) : (new (configFrom conf)).Sized := by
  have hge : 1200 ≤ conf.maxDatagramSize := conf.maxDatagramSize_ge
  change 0 < conf.maxDatagramSize
  omega

theorem callbacks_sized : Callbacks (F := F) controller Sized where
  onSent _ _ _ _ h := h.of_config rfl
  beginAck _ _ _ h := h
  onCongestionEvent now p persistent lostBytes bytesInFlight cc h :=
    h.of_config (cc.config_onCongestionEvent now p persistent lostBytes bytesInFlight)

section

variable (h : cc.Sized)

include h

theorem endAck_returns : ((controller (F := F)).endAck cc).Returns Sized :=
  .intro (h.of_config cc.config_endAck)

theorem grow_returns (cwnd : ℕ) : (cc.grow cwnd).Returns Sized := by
  rw [grow, div_of_pos h]
  exact .intro (h.of_config rfl)

theorem congestionAvoidance_returns (p : SentPacket F) (now : ℤ)
    (rtt : RttEstimator) : (cc.congestionAvoidance p now rtt).Returns Sized := by
  have hepoch : (cc.sinceEpoch now).2.config = cc.config := by
    rw [sinceEpoch]
    split <;> rfl
  exact grow_returns (h.of_config ((config_targetWindow _ _ _ _).trans hepoch)) _

theorem growWindow_returns (p : SentPacket F) (now : ℤ) (rtt : RttEstimator) :
    (cc.growWindow p now rtt).Returns Sized := by
  rw [growWindow]
  split_ifs
  · exact .intro (h.of_config rfl)
  · exact congestionAvoidance_returns h p now rtt

theorem onAck_returns (hrtt : ¬ SubMicro rtt.smoothedRtt) (p : SentPacket F)
    (now : ℤ) (appLimited : Bool) (bytesInFlight : ℕ) :
    (cc.onAck p now appLimited rtt bytesInFlight).Returns Sized := by
  have hstat : (cc.statAcked p bytesInFlight).Sized := h.of_config rfl
  simp only [onAck]
  split_ifs with hskip
  · exact .intro hstat
  · apply (growWindow_returns hstat p now rtt).bind
    intro cc' hcc'
    have hzero : rtt.smoothedRtt ≠ 0 := by
      simp only [Bool.or_eq_true, decide_eq_true_eq, not_or] at hskip
      exact hskip.2
    rw [setPacingRate, if_neg hzero, div_of_pos (asMicros_pos hrtt hzero)]
    exact .intro (hcc'.of_config rfl)

theorem onAck_panics (hrtt : SubMicro rtt.smoothedRtt)
    (hfresh : cc.inRecovery p.timeSent = false) (now : ℤ) (bytesInFlight : ℕ) :
    cc.onAck p now false rtt bytesInFlight = .panic := by
  have hstat : (cc.statAcked p bytesInFlight).Sized := h.of_config rfl
  have hzero : rtt.smoothedRtt ≠ 0 := ne_of_gt hrtt.1
  have hfresh' : (cc.statAcked p bytesInFlight).inRecovery p.timeSent = false := hfresh
  obtain ⟨cc', hgrow, -⟩ := growWindow_returns hstat p now rtt
  simp only [onAck, hfresh', hzero, decide_false]
  rw [hgrow, ok_bind, setPacingRate, if_neg hzero, asMicros_eq_zero hrtt]
  rfl

end

theorem controller_onAck {appLimited : Bool}
    (h : cc.onAck p now appLimited rtt bytesInFlight = .ok cc') :
    controller.onAck p now appLimited rtt bytesInFlight cc = .ok (p, cc') := by
  simp [controller, h]

theorem onAck_of_inRecovery (hold : cc.inRecovery p.timeSent = true) (rtt : RttEstimator)
    (now : ℤ) (bytesInFlight : ℕ) :
    cc.onAck p now false rtt bytesInFlight = .ok (cc.statAcked p bytesInFlight) := by
  have hold' : (cc.statAcked p bytesInFlight).inRecovery p.timeSent = true := hold
  simp [onAck, hold']

end Cubic

variable {event : Event F} {space : PacketNumSpace F}

namespace Recovery

/-- The round-trip sample of the event, if any, does not take the smoothed value below a
microsecond. -/
def RttClear {S : Type} (s : Sender F S) : Event F → Prop
  | .ack ranges _ delay spaceId status now => ∀ space, s.2.get spaceId = some space →
      ∀ p ∈ newlyAcked ranges.iter space.sent, ranges.max = some p.pktNum →
        saturatingDurationSince now p.timeSent ≠ 0 →
        s.1.rtt.SampleClear (s.1.ackDelay delay status) (saturatingDurationSince now p.timeSent)
  | _ => True

instance {S : Type} (s : Sender F S) (event : Event F) : Decidable (RttClear s event) := by
  unfold RttClear
  split <;> infer_instance

def CubicSafe (s : Sender F Cubic) : Prop :=
  ¬ SubMicro s.1.rtt.smoothedRtt ∧ s.1.congestion.Sized

theorem cubicSafe_new (conf : RecoveryConfig) (mulTimeThresh : ℕ → ℕ)
    (spaces : PacketNumSpaceMap F) :
    CubicSafe (Recovery.new conf mulTimeThresh (Cubic.new (Cubic.configFrom conf)), spaces) := by
  refine ⟨?_, sized_new conf⟩
  rintro ⟨-, hlt⟩
  have hge : 1000000 ≤ conf.initialRtt := conf.initialRtt_ge
  have hrtt : conf.initialRtt < 1000 := hlt
  omega

variable {s : Sender F Cubic} {status : HandshakeStatus}

theorem CubicSafe.of_rtt {s' : Sender F Cubic} (hs : CubicSafe s) (hrtt : s'.1.rtt = s.1.rtt)
    (hsized : s'.1.congestion.Sized) : CubicSafe s' := by
  refine ⟨?_, hsized⟩
  rw [hrtt]
  exact hs.1

theorem onAckReceived_cubic_returns {ranges : RangeSet} {delay : ℕ}
    {spaceId : SpaceId} {now : ℤ} (hs : CubicSafe s)
    (hne : ∃ x, x ∈ ranges) (hclear : RttClear s (.ack ranges hne delay spaceId status now)) :
    (s.1.onAckReceived Cubic.controller ranges delay spaceId s.2 status now).Returns fun r =>
      CubicSafe r.1 := by
  obtain ⟨x, hx⟩ := hne
  obtain ⟨largest, hmax⟩ := exists_max hx
  cases hspace : s.2.get spaceId with
  | none =>
    simp only [onAckReceived, hspace]
    exact .intro hs
  | some space =>
    have hfold : ((newlyAcked ranges.iter space.sent).foldlM (ackStep controller now)
        (ackStart controller s.1 space largest spaceId now)).Returns fun scan =>
          scan.recovery.congestion.Sized ∧
            Scanned (ackStart controller s.1 space largest spaceId now)
              (newlyAcked ranges.iter space.sent) scan := by
      apply foldlM_ackStep_returns
      · intro _ p _ bytesInFlight cc hcc
        rw [ackStart_rtt]
        obtain ⟨cc', hack, hcc'⟩ := onAck_returns hcc hs.1 { p with timeAcked := some now }
          now false bytesInFlight
        exact ⟨_, controller_onAck hack, hcc'⟩
      · exact ackStart_keeps callbacks_sized hs.2 space largest now
      · rfl
    apply (onAckReceived_returns callbacks_sized (fun _ => endAck_returns) hspace hmax hfold).mono
    rintro res ⟨hsample, hsized⟩
    rcases hsample with hsame | ⟨p, hp, rfl, hpos, hupdate⟩
    · exact hs.of_rtt hsame hsized
    · refine ⟨?_, hsized⟩
      rw [hupdate, RttEstimator.subMicro_update_iff hpos, not_not]
      exact hclear space hspace p hp hmax hpos

theorem step_cubic_returns (hs : CubicSafe s) (hclear : RttClear s event) :
    (step Cubic.controller s event).Returns fun r => CubicSafe r.1 := by
  cases event with
  | send p =>
    obtain ⟨hrtt, hsized⟩ := onPacketSent_keeps callbacks_sized hs.2 p
    rw [step, returns_ok]
    exact hs.of_rtt hrtt hsized
  | timeout =>
    obtain ⟨hrtt, hsized⟩ := onLossDetectionTimeout_keeps callbacks_sized hs.2
    rw [step, returns_ok]
    exact hs.of_rtt hrtt hsized
  | ack ranges hne => exact onAckReceived_cubic_returns hs hne hclear

theorem ackStep_cubic_panics {scan : AckScan F Cubic} {p : SentPacket F}
    (hdata : scan.space.id.isData = true) (hsized : scan.recovery.congestion.Sized)
    (hrtt : SubMicro scan.recovery.rtt.smoothedRtt)
    (hfresh : scan.recovery.congestion.inRecovery p.timeSent = false) (now : ℤ) :
    ackStep Cubic.controller now scan p = .panic := by
  obtain ⟨bytesInFlight, next, -, heq⟩ := ackStep_eq controller now scan p
  have hpanic := onAck_panics (p := { p with timeAcked := some now }) hsized hrtt hfresh now
    bytesInFlight
  rw [heq, if_pos hdata]
  simp [controller, hpanic, map_def]

theorem onAckReceived_cubic_panics {ranges : RangeSet} {delay : ℕ}
    {spaceId : SpaceId} {now : ℤ}
    {p : SentPacket F} (hsized : s.1.congestion.Sized) (hrtt : SubMicro s.1.rtt.smoothedRtt)
    (hspace : s.2.get spaceId = some space) (hdata : space.id.isData = true)
    (hp : p ∈ newlyAcked ranges.iter space.sent)
    (hfresh : s.1.congestion.inRecovery p.timeSent = false) :
    s.1.onAckReceived Cubic.controller ranges delay spaceId s.2 status now = .panic := by
  obtain ⟨-, -, hin⟩ := mem_newlyAcked hp
  obtain ⟨largest, hmax⟩ := exists_max hin
  apply onAckReceived_panics hspace hmax
  -- Packets from before the congestion event are counted and change nothing else.
  apply foldlM_panics fun scan => scan.space.id.isData = true ∧
    scan.recovery.rtt = s.1.rtt ∧ scan.recovery.congestion.Sized ∧
    scan.recovery.congestion.recoveryEpochStart = s.1.congestion.recoveryEpochStart
  · rintro scan q - ⟨hid, hscan, hcc, hepoch⟩
    cases hq : scan.recovery.congestion.inRecovery q.timeSent with
    | false => exact .inl (ackStep_cubic_panics hid hcc (hscan ▸ hrtt) hq now)
    | true =>
      obtain ⟨bytesInFlight, next, hnext, heq⟩ := ackStep_eq controller now scan q
      have hack := controller_onAck (onAck_of_inRecovery
        (p := { q with timeAcked := some now }) hq scan.recovery.rtt now bytesInFlight)
      refine .inr ⟨_, by rw [heq, if_pos hid, hack, map_ok], ?_⟩
      obtain ⟨hafter, hc⟩ := hnext { q with timeAcked := some now }
        (scan.recovery.congestion.statAcked { q with timeAcked := some now } bytesInFlight)
      refine ⟨by rw [hafter.id]; exact hid, hafter.rtt.trans hscan, ?_, ?_⟩
      · rw [hc]
        exact hcc.of_config rfl
      · rw [hc]
        exact hepoch
  · refine ⟨p, hp, ?_⟩
    rintro scan ⟨hid, hscan, hcc, hepoch⟩
    apply ackStep_cubic_panics hid hcc (hscan ▸ hrtt)
    rw [inRecovery, hepoch]
    exact hfresh
  · have hstart : (ackStart controller s.1 space largest spaceId now).recovery.congestion =
        s.1.congestion := by
      simp only [ackStart]
      split_ifs <;> rfl
    rw [hstart]
    exact ⟨hdata, ackStart_rtt _ _ _ _ _ _, hsized, rfl⟩

end Recovery

/-! ## Delivery rate estimation -/

def IntervalClear (d : ℕ) : Prop := d = 0 ∨ 1000 ≤ d ∧ d < 1000 * 2 ^ 64

instance (d : ℕ) : Decidable (IntervalClear d) := inferInstanceAs (Decidable (_ ∨ _))

def RateSample.Safe (s : RateSample) : Prop := s.priorTime = none ∨ IntervalClear s.elapsed

theorem IntervalClear.wrap_pos {d : ℕ} (h : IntervalClear d) (hd : d ≠ 0) :
    0 < wrap (asMicros d) := by
  simp only [IntervalClear, wrap, asMicros] at *
  omega

namespace DeliveryRateEstimator

variable {e : DeliveryRateEstimator} {p : SentPacket F}

@[simp] theorem clearAppLimited_rateSample (e : DeliveryRateEstimator) :
    e.clearAppLimited.rateSample = e.rateSample := by
  rw [clearAppLimited]
  split_ifs <;> rfl

theorem fillRate_returns (h : IntervalClear e.rateSample.elapsed) :
    e.fillRate.Returns fun e' => e'.rateSample.Safe := by
  simp only [fillRate]
  split_ifs with hzero
  · exact .intro (.inr h)
  · rw [div_of_pos (h.wrap_pos hzero)]
    exact .intro (.inr h)

theorem generateRateSample_returns (h : e.rateSample.Safe) :
    e.generateRateSample.Returns fun e' => e'.rateSample.Safe := by
  simp only [generateRateSample, clearAppLimited_rateSample]
  split_ifs with hnone
  · refine .intro ?_
    rw [clearAppLimited_rateSample]
    exact h
  · apply fillRate_returns
    rw [clearAppLimited_rateSample]
    exact h.resolve_left (by simpa using hnone)

theorem generateRateSample_panics (hprior : e.rateSample.priorTime.isSome)
    (h : SubMicro e.rateSample.elapsed) : e.generateRateSample = .panic := by
  simp only [generateRateSample, fillRate, clearAppLimited_rateSample,
    Option.isNone_eq_false_iff.mpr hprior, Bool.false_eq_true, if_false,
    ne_of_gt h.1, asMicros_eq_zero h]
  rfl

def packetInterval (p : SentPacket F) (now : ℤ) : ℕ :=
  max (saturatingDurationSince p.timeSent (p.rateSampleState.firstSentTime.getD p.timeSent))
    (saturatingDurationSince now (p.rateSampleState.deliveredTime.getD p.timeSent))

def recorded (p : SentPacket F) : Bool := p.rateSampleState.deliveredTime.isSome

theorem updateRateSample_of_recorded (h : recorded p = true) (now : ℤ) :
    (e.updateRateSample { p with timeAcked := some now }).2.rateSample.priorTime.isSome = true ∧
      (e.updateRateSample { p with timeAcked := some now }).2.rateSample.elapsed =
        packetInterval p now := by
  obtain ⟨deliveredTime, hdelivered⟩ := Option.isSome_iff_exists.mp h
  simp only [updateRateSample, hdelivered, packetInterval, Option.getD_some, RateSample.elapsed,
    sample]
  split_ifs with hnew
  · exact ⟨rfl, trivial⟩
  · refine ⟨?_, trivial⟩
    simp only [not_or, Option.isNone_iff_eq_none] at hnew
    exact Option.isSome_iff_ne_none.mpr hnew.1

theorem updateRateSample_of_not_recorded (h : recorded p = false) (now : ℤ) :
    (e.updateRateSample { p with timeAcked := some now }).2 = e := by
  rw [recorded, Option.isSome_eq_false_iff, Option.isNone_iff_eq_none] at h
  simp [updateRateSample, h]

end DeliveryRateEstimator

namespace Bbr

variable (m : RateModel F R)

theorem onSent_rateSample (b : Bbr R) (now : ℤ) (p : SentPacket F) :
    (b.onSent m now p).2.deliveryRateEstimator.rateSample = b.deliveryRateEstimator.rateSample := by
  simp only [onSent, DeliveryRateEstimator.onPacketSent]
  split_ifs <;> rfl

theorem callbacks_rateSample (P : RateSample → Prop) :
    Callbacks (controller m) fun b => P b.deliveryRateEstimator.rateSample where
  onSent now p _ b h := by
    simp only [controller]
    rw [onSent_rateSample]
    exact h
  beginAck _ _ _ h := h
  onCongestionEvent _ _ _ _ _ _ h := h

variable {b : Bbr R}

theorem endAck_returns (h : b.deliveryRateEstimator.rateSample.Safe) :
    (b.endAck m).Returns fun b' => b'.deliveryRateEstimator.rateSample.Safe := by
  apply (generateRateSample_returns h).bind
  intro e he
  refine .intro ?_
  split_ifs <;> exact he

theorem endAck_panics (hprior : b.deliveryRateEstimator.rateSample.priorTime.isSome)
    (h : SubMicro b.deliveryRateEstimator.rateSample.elapsed) : b.endAck m = .panic := by
  rw [endAck, generateRateSample_panics hprior h]
  rfl

end Bbr

namespace Recovery

open DeliveryRateEstimator

def lastRecorded (hits : List (SentPacket F)) : Option (SentPacket F) :=
  (hits.filter recorded).getLast?

/-- The sample after the packets `hits` were acknowledged at time `now`, if it was
`s` before. -/
def Sampled (hits : List (SentPacket F)) (now : ℤ) (s s' : RateSample) : Prop :=
  match lastRecorded hits with
  | some p => s'.priorTime.isSome = true ∧ s'.elapsed = packetInterval p now
  | none => s' = s

variable {hits : List (SentPacket F)}

theorem Sampled.cons {p : SentPacket F} {now : ℤ} {e : DeliveryRateEstimator} {s' : RateSample}
    (h : Sampled hits now (e.updateRateSample { p with timeAcked := some now }).2.rateSample s') :
    Sampled (p :: hits) now e.rateSample s' := by
  cases hlast : lastRecorded hits with
  | some q =>
    have hcons : lastRecorded (p :: hits) = some q := by
      rw [lastRecorded] at hlast ⊢
      rw [filter_cons]
      split_ifs
      · rw [getLast?_cons, hlast, Option.getD_some]
      · exact hlast
    simp only [Sampled, hlast, hcons] at h ⊢
    exact h
  | none =>
    simp only [Sampled, hlast] at h
    subst h
    rw [lastRecorded, getLast?_eq_none_iff] at hlast
    cases hrec : recorded p with
    | true =>
      have hcons : lastRecorded (p :: hits) = some p := by
        simp [lastRecorded, hrec, hlast]
      simp only [Sampled, hcons]
      exact updateRateSample_of_recorded hrec now
    | false =>
      have hcons : lastRecorded (p :: hits) = none := by
        simp [lastRecorded, hrec, hlast]
      simp only [Sampled, hcons]
      rw [updateRateSample_of_not_recorded hrec]

theorem foldlM_ackStep_bbr (m : RateModel F R) {now : ℤ} {scan₀ : AckScan F (Bbr R)}
    {all : List (SentPacket F)} (hdata : scan₀.space.id.isData = true)
    (hits : List (SentPacket F)) (hsub : hits ⊆ all) {scan : AckScan F (Bbr R)}
    (hscan : Scanned scan₀ all scan) :
    (hits.foldlM (ackStep (Bbr.controller m) now) scan).Returns fun scan' =>
      (scan.newlyAcked ≠ [] ∨ hits ≠ [] → scan'.newlyAcked ≠ []) ∧ Scanned scan₀ all scan' ∧
      Sampled hits now scan.recovery.congestion.deliveryRateEstimator.rateSample
        scan'.recovery.congestion.deliveryRateEstimator.rateSample := by
  induction hits generalizing scan with
  | nil => exact .intro ⟨fun h => h.resolve_right (absurd rfl), hscan, rfl⟩
  | cons p hits ih =>
    obtain ⟨bytesInFlight, next, hnext, heq⟩ := ackStep_eq (Bbr.controller m) now scan p
    rw [if_pos (by rw [hscan.id]; exact hdata)] at heq
    obtain ⟨hafter, hc⟩ := hnext
      (scan.recovery.congestion.onAck m { p with timeAcked := some now }).1
      (scan.recovery.congestion.onAck m { p with timeAcked := some now }).2
    rw [foldlM_cons, heq]
    have hp : p ∈ all := hsub mem_cons_self
    have hrest := ih (fun q hq => hsub (.tail _ hq)) (hscan.after hp hafter)
    apply hrest.mono
    rintro scan' ⟨hnew, hscan', hsampled⟩
    rw [hc] at hsampled
    exact ⟨fun _ => hnew (.inl hafter.newlyAcked), hscan', hsampled.cons⟩

/-- The rate sample of the event, if any, does not span a time below a microsecond. -/
def RateClear {S : Type} (s : Sender F S) : Event F → Prop
  | .ack ranges _ _ spaceId _ now => ∀ space, s.2.get spaceId = some space →
      space.id.isData = true → ∀ p, lastRecorded (newlyAcked ranges.iter space.sent) = some p →
        IntervalClear (packetInterval p now)
  | _ => True

instance {S : Type} (s : Sender F S) (event : Event F) : Decidable (RateClear s event) := by
  unfold RateClear
  split <;> infer_instance

def BbrSafe (s : Sender F (Bbr R)) : Prop := s.1.congestion.deliveryRateEstimator.rateSample.Safe

theorem Sampled.safe {now : ℤ} {s s' : RateSample} (h : Sampled hits now s s') (hs : s.Safe)
    (hclear : ∀ p, lastRecorded hits = some p → IntervalClear (packetInterval p now)) :
    s'.Safe := by
  simp only [Sampled] at h
  split at h
  · rename_i p hlast
    refine .inr ?_
    rw [h.2]
    exact hclear p hlast
  · rw [h]
    exact hs

section

variable {m : RateModel F R} {s : Sender F (Bbr R)} {ranges : RangeSet} {delay : ℕ}
  {spaceId : SpaceId} {status : HandshakeStatus} {now : ℤ}

theorem onAckReceived_bbr_returns (hs : BbrSafe s) (hne : ∃ x, x ∈ ranges)
    (hclear : RateClear s (.ack ranges hne delay spaceId status now)) :
    (s.1.onAckReceived (Bbr.controller m) ranges delay spaceId s.2 status now).Returns fun r =>
      BbrSafe r.1 := by
  obtain ⟨x, hx⟩ := hne
  obtain ⟨largest, hmax⟩ := exists_max hx
  have hcb := Bbr.callbacks_rateSample m RateSample.Safe
  cases hspace : s.2.get spaceId with
  | none =>
    simp only [onAckReceived, hspace]
    exact .intro hs
  | some space =>
    have hstart : (ackStart (Bbr.controller m) s.1 space largest spaceId
        now).recovery.congestion.deliveryRateEstimator.rateSample.Safe :=
      ackStart_keeps hcb hs space largest now
    refine (onAckReceived_returns hcb (fun _ => Bbr.endAck_returns m) hspace hmax ?_).mono
      fun _ h => h.2
    cases hdata : space.id.isData with
    | true =>
      apply (foldlM_ackStep_bbr m hdata _ (.refl _) (.start _ rfl)).mono
      rintro scan ⟨-, hscan, hsampled⟩
      exact ⟨hsampled.safe hstart (hclear space hspace hdata), hscan⟩
    | false =>
      apply foldlM_ackStep_returns (J := fun b : Bbr R => b.deliveryRateEstimator.rateSample.Safe)
      · intro hcontra
        exact absurd (hdata.symm.trans hcontra) Bool.false_ne_true
      · exact hstart
      · rfl

theorem onAckReceived_bbr_panics {p : SentPacket F}
    (hspace : s.2.get spaceId = some space) (hid : spaceId.isData = true)
    (hdata : space.id.isData = true)
    (hlast : lastRecorded (newlyAcked ranges.iter space.sent) = some p)
    (hsub : SubMicro (packetInterval p now)) :
    s.1.onAckReceived (Bbr.controller m) ranges delay spaceId s.2 status now = .panic := by
  have hp : p ∈ newlyAcked ranges.iter space.sent :=
    mem_of_mem_filter (mem_of_getLast? hlast)
  obtain ⟨-, -, hin⟩ := mem_newlyAcked hp
  obtain ⟨largest, hmax⟩ := exists_max hin
  have hdata' :
      (ackStart (Bbr.controller m) s.1 space largest spaceId now).space.id.isData = true := hdata
  obtain ⟨scan, hrun, hnew, -, hsampled⟩ := foldlM_ackStep_bbr m hdata' _ (.refl _) (.start _ rfl)
  obtain ⟨sent, heq⟩ := onAckReceived_of_fold hspace hmax hrun delay status
  simp only [Sampled, hlast] at hsampled
  rw [heq, if_neg]
  · apply finishAck_panics (Bbr.callbacks_rateSample m fun s => s.priorTime.isSome = true ∧
      SubMicro s.elapsed)
    · exact ⟨hsampled.1, by rw [hsampled.2]; exact hsub⟩
    · exact hid
    · rintro b ⟨hprior, helapsed⟩
      exact Bbr.endAck_panics m hprior helapsed
  · rw [List.isEmpty_iff]
    exact hnew (.inr (ne_nil_of_mem hp))

end

theorem step_bbr_returns {m : RateModel F R} {s : Sender F (Bbr R)}
    (hs : BbrSafe s) (hclear : RateClear s event) :
    (step (Bbr.controller m) s event).Returns fun r => BbrSafe r.1 := by
  have hcb := Bbr.callbacks_rateSample m RateSample.Safe
  cases event with
  | send p =>
    rw [step, returns_ok]
    exact (onPacketSent_keeps hcb hs p).2
  | timeout =>
    rw [step, returns_ok]
    exact (onLossDetectionTimeout_keeps hcb hs).2
  | ack ranges hne => exact onAckReceived_bbr_returns hs hne hclear

/-! ## Runs -/

def cubicSender (conf : RecoveryConfig) (mulTimeThresh : ℕ → ℕ) (spaces : PacketNumSpaceMap F) :
    Sender F Cubic :=
  (Recovery.new conf mulTimeThresh (Cubic.new (Cubic.configFrom conf)), spaces)

def bbrSender (conf : RecoveryConfig) (mulTimeThresh : ℕ → ℕ) (created : ℤ) (model : R)
    (spaces : PacketNumSpaceMap F) : Sender F (Bbr R) :=
  (Recovery.new conf mulTimeThresh
    { deliveryRateEstimator := DeliveryRateEstimator.new created, model := model }, spaces)

/-- No run divides by a duration of no microsecond, as long as no sample takes the smoothed round
trip below a microsecond without making it zero, and no rate sample spans such a time. -/
theorem ack_divisions_are_safe (conf : RecoveryConfig) (mulTimeThresh : ℕ → ℕ)
    (spaces : PacketNumSpaceMap F) (m : RateModel F R) (created : ℤ) (model : R) :
    (∀ events, Exec.Follows (step Cubic.controller) RttClear
        (cubicSender conf mulTimeThresh spaces) events →
      ∃ r, Exec.run (step Cubic.controller) (cubicSender conf mulTimeThresh spaces) events =
        .ok r) ∧
    (∀ (s : Sender F Cubic) ranges hne delay spaceId status now space p,
      0 < s.1.congestion.config.maxDatagramSize → SubMicro s.1.rtt.smoothedRtt →
      s.2.get spaceId = some space → space.id.isData = true →
      p ∈ newlyAcked ranges.iter space.sent → s.1.congestion.inRecovery p.timeSent = false →
      step Cubic.controller s (.ack ranges hne delay spaceId status now) = .panic) ∧
    (∀ events, Exec.Follows (step (Bbr.controller m)) RateClear
        (bbrSender conf mulTimeThresh created model spaces) events →
      ∃ r, Exec.run (step (Bbr.controller m)) (bbrSender conf mulTimeThresh created model spaces)
        events = .ok r) ∧
    (∀ (s : Sender F (Bbr R)) ranges hne delay spaceId status now space p,
      s.2.get spaceId = some space → spaceId.isData = true → space.id.isData = true →
      lastRecorded (newlyAcked ranges.iter space.sent) = some p →
      SubMicro (packetInterval p now) →
      step (Bbr.controller m) s (.ack ranges hne delay spaceId status now) = .panic) := by
  refine ⟨?_, ?_, ?_, ?_⟩
  · intro events hfollows
    obtain ⟨r, hrun, -⟩ := run_returns CubicSafe (fun _ _ => step_cubic_returns)
      (cubicSafe_new conf mulTimeThresh spaces) hfollows
    exact ⟨r, hrun⟩
  · intro s ranges hne delay spaceId status now space p hsized hrtt hspace hdata hp hfresh
    exact onAckReceived_cubic_panics hsized hrtt hspace hdata hp hfresh
  · intro events hfollows
    obtain ⟨r, hrun, -⟩ := run_returns BbrSafe (fun _ _ => step_bbr_returns) (.inl rfl) hfollows
    exact ⟨r, hrun⟩
  · intro s ranges hne delay spaceId status now space p hspace hid hdata hlast hsub
    exact onAckReceived_bbr_panics hspace hid hdata hlast hsub

/-! ## A peer on the same network -/

def completed : HandshakeStatus where
  derivedHandshakeKeys := true
  peerVerifiedAddress := true
  completed := true
  isServer := false
  atAmplificationLimit := false

def lanConf : RecoveryConfig := { maxAckDelay := fromMillis 25 }

def ping (pktNum : ℕ) : SentPacket Unit where
  pktNum := pktNum
  frames := [()]
  timeSent := 0
  ackEliciting := true
  inFlight := true
  hasData := false
  pmtuProbe := false
  sentSize := 1200

def only (n : ℕ) : RangeSet := (RangeSet.new 64).insert n (n + 1)

theorem mem_only (n : ℕ) : n ∈ only n := by
  have hroom : (RangeSet.new 64).set.length < (RangeSet.new 64).capacity := by decide
  rw [only, RangeSet.mem_insert hroom]
  exact .inr ⟨le_rfl, Nat.lt_succ_self n⟩

theorem only_zero_nonempty : ∃ n, n ∈ only 0 := ⟨0, mem_only 0⟩

/-- Packet `n` is sent and acknowledged a millisecond later, held back for `delay` microseconds. -/
def exchange (delay n : ℕ) : List (Event Unit) :=
  [.send (ping n) .data completed (2000000 * n),
    .ack (only n) ⟨n, mem_only n⟩ delay .data completed (2000000 * n + 1000000)]

def lanSender : Sender Unit Cubic := cubicSender lanConf (fun d => d * 9 / 8) PacketNumSpaceMap.new

def noModel : RateModel Unit Unit where
  handleRestartFromIdle _ _ _ _ := ()
  beginAck _ _ _ := ()
  inSlowStart _ := false
  onAck _ _ := ()
  endAck _ _ _ := ((), false)
  onCongestionEvent _ _ _ _ _ _ := ()

def lanBbrSender : Sender Unit (Bbr Unit) :=
  bbrSender lanConf (fun d => d * 9 / 8) 0 () PacketNumSpaceMap.new

def shortExchange : List (Event Unit) :=
  [.send (ping 0) .data completed 0, .ack (only 0) ⟨0, mem_only 0⟩ 0 .data completed 500]

def onePing : PacketNumSpaceMap Unit :=
  PacketNumSpaceMap.new.set .data
    { id := .data
      sent := [{ ping 0 with
        rateSampleState := { deliveredTime := some 0, firstSentTime := some 0 } }] }

theorem ack_divisions_are_safe_lan :
    (∃ r, Exec.run (step Cubic.controller) lanSender (exchange 0 0 ++ exchange 25000 1) = .ok r) ∧
    step Cubic.controller
      ({ lanSender.1 with rtt := { lanSender.1.rtt with smoothed := some 875 } }, onePing)
      (.ack (only 0) ⟨0, mem_only 0⟩ 0 .data completed 1000000) = .panic ∧
    (∃ r, Exec.run (step (Bbr.controller noModel)) lanBbrSender
      (exchange 0 0 ++ exchange 25000 1) = .ok r) ∧
    step (Bbr.controller noModel) (lanBbrSender.1, onePing)
      (.ack (only 0) ⟨0, mem_only 0⟩ 0 .data completed 500) = .panic := by
  obtain ⟨hcubic, hcubicGap, hbbr, hbbrGap⟩ := ack_divisions_are_safe lanConf (fun d => d * 9 / 8)
    .new noModel 0 ()
  refine ⟨hcubic _ (by decide +kernel), ?_, hbbr _ (by decide +kernel), ?_⟩
  · exact hcubicGap _ _ _ _ _ _ _ _ _ (by decide) (by decide) rfl rfl mem_cons_self rfl
  · exact hbbrGap _ _ _ _ _ _ _ _ _ rfl rfl rfl rfl (by decide)

/-- With a round trip of a millisecond and delays of 25 ms the smoothed value falls by an eighth
with every sample, and the 54th acknowledgement divides by zero; below a microsecond the first one
does. -/
theorem short_times_divide_by_zero :
    Exec.run (step Cubic.controller) lanSender ((List.range 54).flatMap (exchange 25000)) = .panic ∧
    Exec.run (step (Bbr.controller noModel)) lanBbrSender shortExchange = .panic := by
  rw [← isPanic_iff, ← isPanic_iff]
  decide +kernel

end Recovery

end Tquic
