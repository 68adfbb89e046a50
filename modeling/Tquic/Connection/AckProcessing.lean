import Tquic.Connection.Recovery

/-!
# What an event does to the round-trip estimate and the controller

The loops of acknowledgement processing are reduced to a fold over the packets newly acknowledged,
so the round-trip estimate changes by at most one sample.
-/

namespace Tquic

open Exec

namespace Recovery

variable {F S : Type}

/-! ## The packets an ACK frame acknowledges -/

def hitRange (range : ℕ × ℕ) : List (SentPacket F) → List (SentPacket F) × List (SentPacket F)
  | [] => ([], [])
  | p :: sent =>
    if p.pktNum < range.1 || p.timeAcked.isSome then hitRange range sent
    else if range.2 ≤ p.pktNum then ([], p :: sent)
    else (p :: (hitRange range sent).1, (hitRange range sent).2)

def newlyAcked : List (ℕ × ℕ) → List (SentPacket F) → List (SentPacket F)
  | [], _ => []
  | range :: ranges, sent => (hitRange range sent).1 ++ newlyAcked ranges (hitRange range sent).2

variable {sent : List (SentPacket F)} {p : SentPacket F} {scan : AckScan F S}

theorem mem_hitRange_snd {range : ℕ × ℕ} (hp : p ∈ (hitRange range sent).2) : p ∈ sent := by
  induction sent with
  | nil => exact hp
  | cons q sent ih =>
    simp only [hitRange] at hp
    split_ifs at hp
    · exact .tail _ (ih hp)
    · exact hp
    · exact .tail _ (ih hp)

theorem mem_hitRange_fst {range : ℕ × ℕ} (hp : p ∈ (hitRange range sent).1) :
    p ∈ sent ∧ p.timeAcked = none ∧ range.1 ≤ p.pktNum ∧ p.pktNum < range.2 := by
  induction sent with
  | nil => exact absurd hp List.not_mem_nil
  | cons q sent ih =>
    simp only [hitRange] at hp
    split_ifs at hp with hskip hpast
    · obtain ⟨hmem, hrest⟩ := ih hp
      exact ⟨.tail _ hmem, hrest⟩
    · exact absurd hp List.not_mem_nil
    · rcases List.mem_cons.mp hp with rfl | hp
      · simp only [Bool.or_eq_true, decide_eq_true_eq, not_or, not_lt,
          Option.not_isSome_iff_eq_none] at hskip
        exact ⟨.head _, hskip.2, hskip.1, not_le.mp hpast⟩
      · obtain ⟨hmem, hrest⟩ := ih hp
        exact ⟨.tail _ hmem, hrest⟩

theorem mem_newlyAcked {ranges : List (ℕ × ℕ)} (hp : p ∈ newlyAcked ranges sent) :
    p ∈ sent ∧ p.timeAcked = none ∧ ∃ range ∈ ranges, range.1 ≤ p.pktNum ∧ p.pktNum < range.2 := by
  induction ranges generalizing sent with
  | nil => exact absurd hp List.not_mem_nil
  | cons range ranges ih =>
    rcases List.mem_append.mp hp with hp | hp
    · obtain ⟨hmem, hacked, hin⟩ := mem_hitRange_fst hp
      exact ⟨hmem, hacked, range, .head _, hin⟩
    · obtain ⟨hmem, hacked, range', hrange', hin⟩ := ih hp
      exact ⟨mem_hitRange_snd hmem, hacked, range', .tail _ hrange', hin⟩

def ackStep (cc : CongestionController F S) (now : ℤ) (scan : AckScan F S) (p : SentPacket F) :
    Exec (AckScan F S) :=
  Prod.fst <$> ackPacket cc now scan p

theorem ackRange_eq (cc : CongestionController F S) (now : ℤ) (range : ℕ × ℕ) (scan : AckScan F S)
    (sent : List (SentPacket F)) :
    (fun r => (r.1, r.2.2)) <$> ackRange cc now range scan sent =
      (fun scan => (scan, (hitRange range sent).2)) <$>
        (hitRange range sent).1.foldlM (ackStep cc now) scan := by
  induction sent generalizing scan with
  | nil => rfl
  | cons p sent ih =>
    simp only [ackRange, hitRange]
    split_ifs
    · rw [← ih]
      simp [map_def]
    · rfl
    · simp only [List.foldlM_cons, map_bind, ackStep, bind_map_left, ← ih]
      simp [map_def]

theorem ackRanges_eq (cc : CongestionController F S) (now : ℤ) (ranges : List (ℕ × ℕ))
    (scan : AckScan F S) (sent : List (SentPacket F)) :
    Prod.fst <$> ackRanges cc now ranges scan sent =
      (newlyAcked ranges sent).foldlM (ackStep cc now) scan := by
  induction ranges generalizing scan sent with
  | nil => rfl
  | cons range ranges ih =>
    have hrange := ackRange_eq cc now range scan sent
    simp only [newlyAcked, List.foldlM_append, ← ih]
    calc Prod.fst <$> ackRanges cc now (range :: ranges) scan sent
        = ((fun r => (r.1, r.2.2)) <$> ackRange cc now range scan sent) >>= fun r =>
            Prod.fst <$> ackRanges cc now ranges r.1 r.2 := by
          simp [ackRanges, map_def]
      _ = _ := by
          rw [hrange]
          simp [map_def]

/-! ## One newly acknowledged packet -/

structure AckScan.After (scan scan' : AckScan F S) (p : SentPacket F) : Prop where
  rtt : scan'.recovery.rtt = scan.recovery.rtt
  maxAckDelay : scan'.recovery.maxAckDelay = scan.recovery.maxAckDelay
  id : scan'.space.id = scan.space.id
  largestAckedPkt : scan'.space.largestAckedPkt = scan.space.largestAckedPkt
  pktNum : scan'.largestNewlyAckedPktNum = p.pktNum
  timeSent : scan'.largestNewlyAckedSentTime = p.timeSent
  newlyAcked : scan'.newlyAcked ≠ []

theorem AckScan.After.finish {scan' : AckScan F S} {q : SentPacket F} {now : ℤ}
    (hrtt : scan'.recovery.rtt = scan.recovery.rtt)
    (hdelay : scan'.recovery.maxAckDelay = scan.recovery.maxAckDelay)
    (hid : scan'.space.id = scan.space.id)
    (hlargest : scan'.space.largestAckedPkt = scan.space.largestAckedPkt)
    (hnum : scan'.largestNewlyAckedPktNum = p.pktNum)
    (htime : scan'.largestNewlyAckedSentTime = p.timeSent) :
    scan.After (scan'.finish q now) p where
  rtt := hrtt
  maxAckDelay := hdelay
  id := hid
  largestAckedPkt := hlargest
  pktNum := hnum
  timeSent := htime
  newlyAcked := by simp [AckScan.finish]

theorem ackStep_eq (cc : CongestionController F S) (now : ℤ) (scan : AckScan F S)
    (p : SentPacket F) :
    ∃ (bytesInFlight : ℕ) (next : SentPacket F → S → AckScan F S),
      (∀ q c, scan.After (next q c) p ∧ (next q c).recovery.congestion = c) ∧
      ackStep cc now scan p =
        if scan.space.id.isData then
          (fun r => next r.1 r.2) <$> cc.onAck { p with timeAcked := some now } now false
            scan.recovery.rtt bytesInFlight scan.recovery.congestion
        else .ok (next { p with timeAcked := some now } scan.recovery.congestion) := by
  let p₁ : SentPacket F := { p with timeAcked := some now }
  let scan₁ := (scan.note p₁).leaveFlight p₁
  have hscan₁ : scan₁.recovery.rtt = scan.recovery.rtt ∧
      scan₁.recovery.congestion = scan.recovery.congestion ∧
      scan₁.recovery.maxAckDelay = scan.recovery.maxAckDelay ∧
      scan₁.space.id = scan.space.id ∧
      scan₁.space.largestAckedPkt = scan.space.largestAckedPkt ∧
      scan₁.largestNewlyAckedPktNum = p.pktNum ∧
      scan₁.largestNewlyAckedSentTime = p.timeSent := by
    simp only [scan₁, p₁, AckScan.note, AckScan.leaveFlight, AckScan.spurious]
    split_ifs <;> simp
  obtain ⟨hrtt, hcongestion, hdelay, hid, hlargest, hnum, htime⟩ := hscan₁
  refine ⟨scan₁.recovery.bytesInFlight, fun q c =>
    { scan₁ with recovery := { scan₁.recovery with congestion := c } }.finish q now, ?_, ?_⟩
  · intro q c
    exact ⟨.finish hrtt hdelay hid hlargest hnum htime, rfl⟩
  · change Prod.fst <$> ((if scan₁.space.id.isData then _ else _) >>= _) = _
    rw [hid, ← hrtt, ← hcongestion]
    split_ifs
    · simp [map_def, scan₁, p₁]
    · rfl

/-- What a scan over `hits` keeps fixed; its sample comes from one of them. -/
structure Scanned (scan₀ : AckScan F S) (hits : List (SentPacket F)) (scan : AckScan F S) :
    Prop where
  rtt : scan.recovery.rtt = scan₀.recovery.rtt
  maxAckDelay : scan.recovery.maxAckDelay = scan₀.recovery.maxAckDelay
  id : scan.space.id = scan₀.space.id
  largestAckedPkt : scan.space.largestAckedPkt = scan₀.space.largestAckedPkt
  last : scan.newlyAckElicitingPktAcked = true → ∃ p ∈ hits,
    scan.largestNewlyAckedPktNum = p.pktNum ∧ scan.largestNewlyAckedSentTime = p.timeSent

theorem Scanned.start {scan₀ : AckScan F S} (hits : List (SentPacket F))
    (hnone : scan₀.newlyAckElicitingPktAcked = false) : Scanned scan₀ hits scan₀ where
  rtt := rfl
  maxAckDelay := rfl
  id := rfl
  largestAckedPkt := rfl
  last h := absurd (hnone.symm.trans h) Bool.false_ne_true

theorem Scanned.after {scan₀ scan' : AckScan F S} {hits : List (SentPacket F)}
    (h : Scanned scan₀ hits scan) (hp : p ∈ hits) (hafter : scan.After scan' p) :
    Scanned scan₀ hits scan' where
  rtt := hafter.rtt.trans h.rtt
  maxAckDelay := hafter.maxAckDelay.trans h.maxAckDelay
  id := hafter.id.trans h.id
  largestAckedPkt := hafter.largestAckedPkt.trans h.largestAckedPkt
  last _ := ⟨p, hp, hafter.pktNum, hafter.timeSent⟩

theorem foldlM_ackStep_returns {cc : CongestionController F S} {J : S → Prop} {now : ℤ}
    {hits : List (SentPacket F)} {scan₀ : AckScan F S}
    (hack : scan₀.space.id.isData = true → ∀ p ∈ hits, ∀ bytesInFlight s, J s →
      (cc.onAck { p with timeAcked := some now } now false scan₀.recovery.rtt bytesInFlight
        s).Returns fun x => J x.2)
    (hJ : J scan₀.recovery.congestion) (hnone : scan₀.newlyAckElicitingPktAcked = false) :
    (hits.foldlM (ackStep cc now) scan₀).Returns fun scan =>
      J scan.recovery.congestion ∧ Scanned scan₀ hits scan := by
  apply foldlM_returns fun scan => J scan.recovery.congestion ∧ Scanned scan₀ hits scan
  · rintro scan p hp ⟨hJscan, hscan⟩
    obtain ⟨bytesInFlight, next, hnext, heq⟩ := ackStep_eq cc now scan p
    rw [heq, hscan.id]
    split_ifs with hdata
    · obtain ⟨x, hx, hJx⟩ := hack hdata p hp bytesInFlight _ hJscan
      rw [hscan.rtt, hx]
      obtain ⟨hafter, hc⟩ := hnext x.1 x.2
      exact .intro ⟨by rw [hc]; exact hJx, hscan.after hp hafter⟩
    · obtain ⟨hafter, hc⟩ := hnext { p with timeAcked := some now } scan.recovery.congestion
      exact .intro ⟨by rw [hc]; exact hJscan, hscan.after hp hafter⟩
  · exact ⟨hJ, .start hits hnone⟩

def ackStart (cc : CongestionController F S) (r : Recovery S) (space : PacketNumSpace F)
    (largest : ℕ) (spaceId : SpaceId) (now : ℤ) : AckScan F S where
  recovery := if spaceId.isData then
      { r with congestion := cc.beginAck now r.bytesInFlight r.congestion }
    else r
  space := raiseLargestAcked space largest
  largestNewlyAckedSentTime := now

@[simp] theorem ackStart_rtt (cc : CongestionController F S) (r : Recovery S)
    (space : PacketNumSpace F) (largest : ℕ) (spaceId : SpaceId) (now : ℤ) :
    (ackStart cc r space largest spaceId now).recovery.rtt = r.rtt := by
  simp only [ackStart]
  split_ifs <;> rfl

section OnAckReceived

variable {cc : CongestionController F S} {r : Recovery S} {ranges : RangeSet} {delay : ℕ}
  {spaceId : SpaceId} {spaces : PacketNumSpaceMap F} {status : HandshakeStatus} {now : ℤ}
  {space : PacketNumSpace F} {largest : ℕ}

section

variable (hspace : spaces.get spaceId = some space) (hmax : ranges.max = some largest)

include hspace hmax

theorem onAckReceived_eq :
    r.onAckReceived cc ranges delay spaceId spaces status now =
      ackRanges cc now ranges.iter (ackStart cc r space largest spaceId now) space.sent >>=
        fun (scan, sent) =>
          if scan.newlyAcked.isEmpty then
            .ok ((scan.recovery, spaces.set spaceId { scan.space with sent := sent }), .ok (0, 0))
          else finishAck cc { scan with space := { scan.space with sent := sent } }
            (rttSample scan now) delay spaceId spaces status now := by
  simp only [onAckReceived, hspace, hmax, unwrap_some, ok_bind, detectAckedPackets, bind_assoc]
  rfl

theorem onAckReceived_panics
    (hfold : (newlyAcked ranges.iter space.sent).foldlM (ackStep cc now)
      (ackStart cc r space largest spaceId now) = .panic) :
    r.onAckReceived cc ranges delay spaceId spaces status now = .panic := by
  rw [← ackRanges_eq] at hfold
  rw [onAckReceived_eq hspace hmax]
  cases hrun :
    ackRanges cc now ranges.iter (ackStart cc r space largest spaceId now) space.sent with
  | ok => simp [hrun] at hfold
  | panic => rfl
  | diverge => simp [hrun, map_def] at hfold

theorem onAckReceived_of_fold
    {scan : AckScan F S}
    (hfold : (newlyAcked ranges.iter space.sent).foldlM (ackStep cc now)
      (ackStart cc r space largest spaceId now) = .ok scan) (delay : ℕ) (status : HandshakeStatus) :
    ∃ sent, r.onAckReceived cc ranges delay spaceId spaces status now =
      if scan.newlyAcked.isEmpty then
        .ok ((scan.recovery, spaces.set spaceId { scan.space with sent := sent }), .ok (0, 0))
      else finishAck cc { scan with space := { scan.space with sent := sent } }
        (rttSample scan now) delay spaceId spaces status now := by
  rw [← ackRanges_eq, map_eq_ok] at hfold
  obtain ⟨⟨scan', sent⟩, hrun, rfl⟩ := hfold
  refine ⟨sent, ?_⟩
  rw [onAckReceived_eq hspace hmax, hrun]
  rfl

end

end OnAckReceived

theorem exists_of_rttSample {cc : CongestionController F S} {r : Recovery S} {ranges : RangeSet}
    {space : PacketNumSpace F} {largest : ℕ} {spaceId : SpaceId} {now : ℤ} {rtt : ℕ}
    (hmax : ranges.max = some largest) (hscan : Scanned (ackStart cc r space largest spaceId now)
      (newlyAcked ranges.iter space.sent) scan) (hsample : rttSample scan now = some rtt) :
    ∃ p ∈ newlyAcked ranges.iter space.sent,
      p.pktNum = largest ∧ rtt = saturatingDurationSince now p.timeSent := by
  simp only [rttSample, Option.ite_none_right_eq_some, Bool.and_eq_true, decide_eq_true_eq,
    Option.some.injEq] at hsample
  obtain ⟨⟨hnum, heliciting⟩, rfl⟩ := hsample
  obtain ⟨p, hp, hpnum, hptime⟩ := hscan.last heliciting
  refine ⟨p, hp, ?_, by rw [hptime]⟩
  obtain ⟨-, -, hin⟩ := mem_newlyAcked hp
  have hle : p.pktNum ≤ largest := RangeSet.le_max hmax hin
  have hge : largest ≤ scan.space.largestAckedPkt := by
    rw [hscan.largestAckedPkt]
    simp only [ackStart, raiseLargestAcked]
    split_ifs
    · exact le_rfl
    · exact le_max_right _ _
  omega

/-! ## Rules for a property of the controller -/

/-- The callbacks that cannot panic keep `J`. -/
structure Callbacks (cc : CongestionController F S) (J : S → Prop) : Prop where
  onSent : ∀ now p bytesInFlight s, J s → J (cc.onSent now p bytesInFlight s).2
  beginAck : ∀ now bytesInFlight s, J s → J (cc.beginAck now bytesInFlight s)
  onCongestionEvent : ∀ now p persistent lostBytes bytesInFlight s, J s →
    J (cc.onCongestionEvent now p persistent lostBytes bytesInFlight s)

section

variable (r : Recovery S) (spaceId : SpaceId) (spaces : PacketNumSpaceMap F)
  (status : HandshakeStatus) (now : ℤ)

@[simp] theorem setLossDetectionTimer_rtt :
    (r.setLossDetectionTimer spaceId spaces status now).rtt = r.rtt := by
  simp only [setLossDetectionTimer]
  split_ifs <;> rfl

@[simp] theorem setLossDetectionTimer_congestion :
    (r.setLossDetectionTimer spaceId spaces status now).congestion = r.congestion := by
  simp only [setLossDetectionTimer]
  split_ifs <;> rfl

end

theorem updateRtt_congestion (r : Recovery S) (sample : Option ℕ) (delay : ℕ)
    (status : HandshakeStatus) :
    (r.updateRtt sample delay status).congestion = r.congestion := by
  simp only [updateRtt]
  split
  · rfl
  · split_ifs <;> rfl

theorem lossLoop_frame (now : ℤ) (lossDelay : ℕ) (scan : LossScan F S)
    (sent : List (SentPacket F)) :
    (lossLoop now lossDelay scan sent).1.recovery.rtt = scan.recovery.rtt ∧
      (lossLoop now lossDelay scan sent).1.recovery.congestion = scan.recovery.congestion := by
  induction sent generalizing scan with
  | nil => exact ⟨rfl, rfl⟩
  | cons p sent ih =>
    simp only [lossLoop]
    split_ifs
    · exact ⟨rfl, rfl⟩
    · exact ih scan
    · have hlose : (scan.lose p now).1.recovery.rtt = scan.recovery.rtt ∧
          (scan.lose p now).1.recovery.congestion = scan.recovery.congestion := by
        simp only [LossScan.lose]
        split_ifs <;> exact ⟨rfl, rfl⟩
      obtain ⟨hrtt, hcongestion⟩ := ih (scan.lose p now).1
      exact ⟨hrtt.trans hlose.1, hcongestion.trans hlose.2⟩
    · exact ih (scan.await p lossDelay)

section Rules

variable {cc : CongestionController F S} {J : S → Prop} (hcb : Callbacks cc J) {r : Recovery S}
  {spaceId : SpaceId} {spaces : PacketNumSpaceMap F} {status : HandshakeStatus} {now : ℤ}
include hcb

section

variable (hr : J r.congestion)

include hr

theorem ackStart_keeps (space : PacketNumSpace F) (largest : ℕ) (now : ℤ) :
    J (ackStart cc r space largest spaceId now).recovery.congestion := by
  simp only [ackStart]
  split_ifs
  · exact hcb.beginAck _ _ _ hr
  · exact hr

theorem detectLostPackets_keeps (space : PacketNumSpace F) (now : ℤ) :
    (r.detectLostPackets cc space now).1.rtt = r.rtt ∧
      J (r.detectLostPackets cc space now).1.congestion := by
  obtain ⟨hrtt, hcongestion⟩ := lossLoop_frame now r.lossDelay
    { recovery := r, space := { space with lossTime := none } } space.sent
  refine ⟨hrtt, ?_⟩
  rw [← hcongestion] at hr
  simp only [detectLostPackets]
  split
  · split_ifs
    · exact hcb.onCongestionEvent _ _ _ _ _ _ hr
    · exact hr
  · exact hr

theorem onPacketSent_keeps (p : SentPacket F) :
    (r.onPacketSent cc p spaceId spaces status now).1.rtt = r.rtt ∧
      J (r.onPacketSent cc p spaceId spaces status now).1.congestion := by
  simp only [onPacketSent]
  split
  · exact ⟨rfl, hr⟩
  · split_ifs
    all_goals first
      | exact ⟨by simp, by simpa using hcb.onSent _ _ _ _ hr⟩
      | exact ⟨by simp, by simpa using hr⟩

theorem onLossDetectionTimeout_keeps :
    (r.onLossDetectionTimeout cc spaceId spaces status now).1.1.rtt = r.rtt ∧
      J (r.onLossDetectionTimeout cc spaceId spaces status now).1.1.congestion := by
  simp only [onLossDetectionTimeout]
  split
  · exact ⟨rfl, hr⟩
  · rename_i space _
    split_ifs
    · simpa using detectLostPackets_keeps hcb hr space now
    · simp only [onProbeTimeout]
      split
      · exact ⟨rfl, hr⟩
      · simpa using hr

end

variable {delay : ℕ}

theorem finishAck_panics (scan : AckScan F S) (hscan : J scan.recovery.congestion)
    (hdata : spaceId.isData = true) (hend : ∀ s, J s → cc.endAck s = .panic)
    (sample : Option ℕ) :
    finishAck cc scan sample delay spaceId spaces status now = .panic := by
  rw [← updateRtt_congestion scan.recovery sample delay status] at hscan
  obtain ⟨-, hlost⟩ := detectLostPackets_keeps hcb hscan scan.space now
  simp only [finishAck, hdata, if_true, hend _ hlost]
  rfl

variable (hend : ∀ s, J s → (cc.endAck s).Returns J)
include hend

theorem finishAck_returns (scan : AckScan F S) (hscan : J scan.recovery.congestion)
    (sample : Option ℕ) :
    (finishAck cc scan sample delay spaceId spaces status now).Returns fun res =>
      res.1.1.rtt = (scan.recovery.updateRtt sample delay status).rtt ∧ J res.1.1.congestion := by
  rw [← updateRtt_congestion scan.recovery sample delay status] at hscan
  obtain ⟨hrtt, hlost⟩ := detectLostPackets_keeps hcb hscan scan.space now
  simp only [finishAck]
  split_ifs
  · apply (hend _ hlost).bind
    intro congestion hcongestion
    exact .intro ⟨by simpa using hrtt, by simpa using hcongestion⟩
  · exact .intro ⟨by simpa using hrtt, by simpa using hlost⟩

/-- An ACK frame updates the round-trip estimate at most once, with the packet of the largest
number, and keeps of the controller what acknowledging the packets one by one keeps. -/
theorem onAckReceived_returns {ranges : RangeSet} {space : PacketNumSpace F} {largest : ℕ}
    (hspace : spaces.get spaceId = some space) (hmax : ranges.max = some largest)
    (hfold : ((newlyAcked ranges.iter space.sent).foldlM (ackStep cc now)
      (ackStart cc r space largest spaceId now)).Returns fun scan => J scan.recovery.congestion ∧
        Scanned (ackStart cc r space largest spaceId now) (newlyAcked ranges.iter space.sent)
          scan) :
    (r.onAckReceived cc ranges delay spaceId spaces status now).Returns fun res =>
      (res.1.1.rtt = r.rtt ∨ ∃ p ∈ newlyAcked ranges.iter space.sent, p.pktNum = largest ∧
        saturatingDurationSince now p.timeSent ≠ 0 ∧
        res.1.1.rtt = r.rtt.update (r.ackDelay delay status)
          (saturatingDurationSince now p.timeSent)) ∧
      J res.1.1.congestion := by
  obtain ⟨scan, hrun, hJ, hscan⟩ := hfold
  obtain ⟨sent, heq⟩ := onAckReceived_of_fold hspace hmax hrun delay status
  have hrtt : scan.recovery.rtt = r.rtt :=
    hscan.rtt.trans (ackStart_rtt cc r space largest spaceId now)
  have hdelay : scan.recovery.ackDelay delay status = r.ackDelay delay status := by
    rw [ackDelay, ackDelay, hscan.maxAckDelay]
    simp only [ackStart]
    split_ifs <;> rfl
  rw [heq]
  split_ifs
  · exact .intro ⟨.inl hrtt, hJ⟩
  · refine (finishAck_returns hcb hend { scan with space := { scan.space with sent := sent } } hJ
      (rttSample scan now)).mono ?_
    rintro res ⟨hres, hJres⟩
    refine ⟨?_, hJres⟩
    rw [hres]
    cases hsample : rttSample scan now with
    | none => exact .inl hrtt
    | some =>
      obtain ⟨p, hp, hnum, rfl⟩ := exists_of_rttSample hmax hscan hsample
      simp only [updateRtt]
      split_ifs with hzero
      · exact .inl hrtt
      · exact .inr ⟨p, hp, hnum, hzero, by rw [hdelay, hrtt]⟩

end Rules

end Recovery

end Tquic
