import Tquic.Base.Run
import Tquic.CongestionControl.Cubic
import Tquic.Error
import Tquic.Ranges

/-!
# Loss recovery

The loss detector of one path, and what it tells the congestion controller, which is a parameter.
Multiplication by the time threshold is a field of the detector, since the source computes it in
`f64`.
-/

namespace Tquic

structure HandshakeStatus where
  derivedHandshakeKeys : Bool
  peerVerifiedAddress : Bool
  completed : Bool
  isServer : Bool
  atAmplificationLimit : Bool
  deriving DecidableEq, Repr

structure PathStats where
  ackedCount : ℕ := 0
  ackedBytes : ℕ := 0
  lostCount : ℕ := 0
  lostBytes : ℕ := 0
  spuriousLossCount : ℕ := 0
  deriving DecidableEq, Repr

structure Recovery (S : Type) where
  maxAckDelay : ℕ
  ptoLinearFactor : ℕ
  maxPto : ℕ
  ptoCount : ℕ := 0
  lossDetectionTimer : Option ℤ := none
  pktThresh : ℕ := 3
  mulTimeThresh : ℕ → ℕ
  bytesInFlight : ℕ := 0
  ackElicitingInFlight : ℕ := 0
  rtt : RttEstimator
  congestion : S
  cachePktSize : ℕ
  stats : PathStats := {}

namespace Recovery

variable {F S : Type}

def maxPtoProbesCount : ℕ := 2

def new (conf : RecoveryConfig) (mulTimeThresh : ℕ → ℕ) (congestion : S) : Recovery S where
  maxAckDelay := conf.maxAckDelay
  ptoLinearFactor := conf.ptoLinearFactor
  maxPto := conf.maxPto
  mulTimeThresh := mulTimeThresh
  rtt := RttEstimator.new conf.initialRtt
  congestion := congestion
  cachePktSize := conf.maxDatagramSize

/-! ## The loss detection timer -/

def candidates (spaceId : SpaceId) : List SpaceId :=
  [.initial, .handshake, if spaceId.isData then spaceId else .data]

/-- Whether `a < b`, where a missing time comes before all others. -/
def earlier : Option ℤ → Option ℤ → Bool
  | none, some _ => true
  | some a, some b => a < b
  | _, none => false

def getLossTimeAndSpace (spaceId : SpaceId) (spaces : PacketNumSpaceMap F) :
    Option ℤ × SpaceId :=
  (candidates spaceId).foldl
    (fun (time, sid) s =>
      match spaces.get s with
      | none => (time, sid)
      | some space =>
        if time.isNone || (space.lossTime.isSome && earlier space.lossTime time) then
          (space.lossTime, s)
        else (time, sid))
    (none, .initial)

def backoff (r : Recovery S) : ℕ :=
  min (2 ^ ((r.ptoCount - r.ptoLinearFactor) % 2 ^ 32)) (2 ^ 32 - 1)

def calculatePto (r : Recovery S) : ℕ := min (r.rtt.ptoBase * r.backoff) r.maxPto

def ptoWithAckDelay (r : Recovery S) (duration : ℕ) : ℕ :=
  min (duration + r.maxAckDelay * r.backoff) r.maxPto

/-- The loop of `get_pto_time_and_space` over the candidates that are left. -/
def ptoOver (r : Recovery S) (spaces : PacketNumSpaceMap F) (status : HandshakeStatus) :
    List SpaceId → ℕ → Option ℤ × SpaceId → Option ℤ × SpaceId
  | [], _, best => best
  | sid :: sids, duration, best =>
    match spaces.get sid with
    | none => r.ptoOver spaces status sids duration best
    | some space =>
      if space.ackElicitingInFlight = 0 then r.ptoOver spaces status sids duration best
      else if sid = .data && !status.completed then best
      else
        let duration := if sid = .data then r.ptoWithAckDelay duration else duration
        let newTime := space.timeOfLastSentAckElicitingPkt.map (· + (duration : ℤ))
        if best.1.isNone || earlier newTime best.1 then
          r.ptoOver spaces status sids duration (newTime, sid)
        else r.ptoOver spaces status sids duration best

def getPtoTimeAndSpace (r : Recovery S) (spaceId : SpaceId) (spaces : PacketNumSpaceMap F)
    (status : HandshakeStatus) (now : ℤ) : Option ℤ × SpaceId :=
  if r.ackElicitingInFlight = 0 then
    (some (now + (r.calculatePto : ℤ)),
      if status.derivedHandshakeKeys then .handshake else .initial)
  else r.ptoOver spaces status (candidates spaceId) r.calculatePto (none, .initial)

def setLossDetectionTimer (r : Recovery S) (spaceId : SpaceId) (spaces : PacketNumSpaceMap F)
    (status : HandshakeStatus) (now : ℤ) : Recovery S :=
  let earliestLossTime := (getLossTimeAndSpace spaceId spaces).1
  if earliestLossTime.isSome then { r with lossDetectionTimer := earliestLossTime }
  else if status.isServer && status.atAmplificationLimit then { r with lossDetectionTimer := none }
  else if r.ackElicitingInFlight = 0 && status.peerVerifiedAddress then
    { r with lossDetectionTimer := none }
  else { r with lossDetectionTimer := (r.getPtoTimeAndSpace spaceId spaces status now).1 }

/-! ## Sending -/

def recordSent (space : PacketNumSpace F) (p : SentPacket F) (now : ℤ) : PacketNumSpace F :=
  let space := { space with
    sent := space.sent ++ [p]
    consecutiveNonAckElicitingSent :=
      if p.ackEliciting then 0 else space.consecutiveNonAckElicitingSent + 1 }
  let space := if p.inFlight && p.ackEliciting then
      { space with
        timeOfLastSentAckElicitingPkt := some now
        lossProbes := space.lossProbes - 1
        ackElicitingInFlight := space.ackElicitingInFlight + 1 }
    else space
  if p.inFlight then { space with bytesInFlight := space.bytesInFlight + p.sentSize } else space

def onPacketSent (cc : CongestionController F S) (r : Recovery S) (p : SentPacket F)
    (spaceId : SpaceId) (spaces : PacketNumSpaceMap F) (status : HandshakeStatus) (now : ℤ) :
    Recovery S × PacketNumSpaceMap F :=
  let p := { p with timeSent := now }
  match spaces.get spaceId with
  | none => (r, spaces)
  | some space =>
    let (p, congestion) := if p.inFlight && spaceId.isData then
        cc.onSent now p r.bytesInFlight r.congestion
      else (p, r.congestion)
    let r := { r with congestion := congestion }
    let spaces := spaces.set spaceId (recordSent space p now)
    if p.inFlight then
      let r := { r with
        ackElicitingInFlight :=
          if p.ackEliciting then r.ackElicitingInFlight + 1 else r.ackElicitingInFlight
        bytesInFlight := r.bytesInFlight + p.sentSize
        cachePktSize := p.sentSize }
      (r.setLossDetectionTimer spaceId spaces status now, spaces)
    else (r, spaces)

/-! ## Acknowledgements -/

/-- What the loop of `detect_acked_packets` accumulates. The queue of sent
packets is walked beside it. -/
structure AckScan (F S : Type) where
  recovery : Recovery S
  space : PacketNumSpace F
  largestNewlyAckedPktNum : ℕ := 0
  largestNewlyAckedSentTime : ℤ
  newlyAckElicitingPktAcked : Bool := false
  newlyAcked : List AckedPacket := []

def AckScan.leaveFlight (scan : AckScan F S) (p : SentPacket F) : AckScan F S :=
  if p.inFlight then
    { scan with
      recovery := { scan.recovery with
        bytesInFlight := scan.recovery.bytesInFlight - p.sentSize
        ackElicitingInFlight := if p.ackEliciting then scan.recovery.ackElicitingInFlight - 1
          else scan.recovery.ackElicitingInFlight }
      space := { scan.space with
        bytesInFlight := scan.space.bytesInFlight - p.sentSize
        ackElicitingInFlight := if p.ackEliciting then scan.space.ackElicitingInFlight - 1
          else scan.space.ackElicitingInFlight } }
  else scan

/-- A loss that an acknowledgement proves wrong widens the reordering window. -/
def AckScan.spurious (scan : AckScan F S) (p : SentPacket F) : AckScan F S :=
  if p.timeLost.isSome then
    { scan with
      recovery := { scan.recovery with
        pktThresh := saturatingAdd scan.recovery.pktThresh 1
        stats := { scan.recovery.stats with
          spuriousLossCount := saturatingAdd scan.recovery.stats.spuriousLossCount 1 } } }
  else scan

/-- What is recorded about an acknowledged packet before the congestion
controller sees it. -/
def AckScan.note (scan : AckScan F S) (p : SentPacket F) : AckScan F S :=
  let scan := scan.spurious p
  { scan with
    largestNewlyAckedPktNum := p.pktNum
    largestNewlyAckedSentTime := p.timeSent
    newlyAckElicitingPktAcked := scan.newlyAckElicitingPktAcked || p.ackEliciting }

def AckScan.finish (scan : AckScan F S) (p : SentPacket F) (now : ℤ) : AckScan F S :=
  { scan with
    recovery := { scan.recovery with
      stats := { scan.recovery.stats with
        ackedCount := saturatingAdd scan.recovery.stats.ackedCount 1
        ackedBytes := saturatingAdd scan.recovery.stats.ackedBytes p.sentSize } }
    space := { scan.space with acked := scan.space.acked ++ p.frames }
    newlyAcked := scan.newlyAcked ++
      [{ pktNum := p.pktNum
         timeSent := p.timeSent
         rtt := saturatingDurationSince now p.timeSent }] }

def AckScan.notify (cc : CongestionController F S) (scan : AckScan F S) (p : SentPacket F)
    (now : ℤ) : Exec (AckScan F S × SentPacket F) :=
  if scan.space.id.isData then do
    let (p, congestion) ← cc.onAck p now false scan.recovery.rtt scan.recovery.bytesInFlight
      scan.recovery.congestion
    return ({ scan with recovery := { scan.recovery with congestion := congestion } }, p)
  else .ok (scan, p)

def ackPacket (cc : CongestionController F S) (now : ℤ) (scan : AckScan F S) (p : SentPacket F) :
    Exec (AckScan F S × SentPacket F) := do
  let p := { p with timeAcked := some now }
  let (scan, p) ← ((scan.note p).leaveFlight p).notify cc p now
  return (scan.finish p now, { p with frames := [] })

/-- The inner loop of `detect_acked_packets`: one range against the rest of the queue, split into
the part passed and the part left. -/
def ackRange (cc : CongestionController F S) (now : ℤ) (range : ℕ × ℕ) :
    AckScan F S → List (SentPacket F) →
      Exec (AckScan F S × List (SentPacket F) × List (SentPacket F))
  | scan, [] => .ok (scan, [], [])
  | scan, p :: sent =>
    if p.pktNum < range.1 || p.timeAcked.isSome then do
      let (scan, passed, rest) ← ackRange cc now range scan sent
      return (scan, p :: passed, rest)
    else if range.2 ≤ p.pktNum then .ok (scan, [], p :: sent)
    else do
      let (scan, p) ← ackPacket cc now scan p
      let (scan, passed, rest) ← ackRange cc now range scan sent
      return (scan, p :: passed, rest)

/-- The outer loop of `detect_acked_packets`. -/
def ackRanges (cc : CongestionController F S) (now : ℤ) :
    List (ℕ × ℕ) → AckScan F S → List (SentPacket F) → Exec (AckScan F S × List (SentPacket F))
  | [], scan, sent => .ok (scan, sent)
  | range :: ranges, scan, sent => do
      let (scan, passed, rest) ← ackRange cc now range scan sent
      let (scan, rest) ← ackRanges cc now ranges scan rest
      return (scan, passed ++ rest)

/-- There is a sample when the largest number acknowledged so far is new and some new packet was
ack-eliciting. -/
def rttSample (scan : AckScan F S) (now : ℤ) : Option ℕ :=
  if scan.largestNewlyAckedPktNum = scan.space.largestAckedPkt &&
      scan.newlyAckElicitingPktAcked then
    some (saturatingDurationSince now scan.largestNewlyAckedSentTime)
  else none

/-- The scan after `detect_acked_packets`, and the round-trip sample. -/
def detectAckedPackets (cc : CongestionController F S) (r : Recovery S) (ranges : RangeSet)
    (space : PacketNumSpace F) (now : ℤ) : Exec (AckScan F S × Option ℕ) := do
  let (scan, sent) ← ackRanges cc now ranges.iter
    { recovery := r, space := space, largestNewlyAckedSentTime := now } space.sent
  return ({ scan with space := { scan.space with sent := sent } }, rttSample scan now)

/-! ## Losses -/

structure LossScan (F S : Type) where
  recovery : Recovery S
  space : PacketNumSpace F
  lostPackets : ℕ := 0
  lostBytes : ℕ := 0
  latestLostPacket : Option (SentPacket F) := none

def LossScan.lose (scan : LossScan F S) (p : SentPacket F) (now : ℤ) :
    LossScan F S × SentPacket F :=
  let scan := { scan with
    space := { scan.space with lost := scan.space.lost ++ p.frames }
    lostPackets := scan.lostPackets + 1 }
  let p := { p with frames := [], timeLost := some now }
  let scan := if p.inFlight then
      { scan with
        lostBytes := scan.lostBytes + p.sentSize
        recovery := { scan.recovery with
          bytesInFlight := scan.recovery.bytesInFlight - p.sentSize
          ackElicitingInFlight := if p.ackEliciting then scan.recovery.ackElicitingInFlight - 1
            else scan.recovery.ackElicitingInFlight }
        space := { scan.space with
          bytesInFlight := scan.space.bytesInFlight - p.sentSize
          ackElicitingInFlight := if p.ackEliciting then scan.space.ackElicitingInFlight - 1
            else scan.space.ackElicitingInFlight } }
    else scan
  -- The loss of an MTU probe says nothing about congestion.
  (if p.pmtuProbe then scan else { scan with latestLostPacket := some p }, p)

def LossScan.await (scan : LossScan F S) (p : SentPacket F) (lossDelay : ℕ) : LossScan F S :=
  let expiry := p.timeSent + (lossDelay : ℤ)
  { scan with
    space := { scan.space with
      lossTime := some (match scan.space.lossTime with
        | none => expiry
        | some lossTime => min lossTime expiry) } }

def lossLoop (now : ℤ) (lossDelay : ℕ) :
    LossScan F S → List (SentPacket F) → LossScan F S × List (SentPacket F)
  | scan, [] => (scan, [])
  | scan, p :: sent =>
    if scan.space.largestAckedPkt < p.pktNum then (scan, p :: sent)
    else if p.timeAcked.isSome || p.timeLost.isSome then
      let (scan, sent) := lossLoop now lossDelay scan sent
      (scan, p :: sent)
    else if p.timeSent ≤ now - (lossDelay : ℤ) ||
        p.pktNum + scan.recovery.pktThresh ≤ scan.space.largestAckedPkt then
      let (scan, p) := scan.lose p now
      let (scan, sent) := lossLoop now lossDelay scan sent
      (scan, p :: sent)
    else
      let (scan, sent) := lossLoop now lossDelay (scan.await p lossDelay) sent
      (scan, p :: sent)

def lossDelay (r : Recovery S) : ℕ :=
  max (r.mulTimeThresh (max r.rtt.latestRtt r.rtt.smoothedRtt)) timerGranularity

/-- The detector, the space, and the number of packets and bytes lost. -/
def detectLostPackets (cc : CongestionController F S) (r : Recovery S) (space : PacketNumSpace F)
    (now : ℤ) : Recovery S × PacketNumSpace F × ℕ × ℕ :=
  let (scan, sent) := lossLoop now r.lossDelay
    { recovery := r, space := { space with lossTime := none } } space.sent
  let r := scan.recovery
  let congestion := match scan.latestLostPacket with
    | some p =>
      if space.id.isData then
        -- Persistent congestion is never detected.
        cc.onCongestionEvent now p false scan.lostBytes r.bytesInFlight r.congestion
      else r.congestion
    | none => r.congestion
  let r := { r with
    congestion := congestion
    stats := { r.stats with
      lostCount := saturatingAdd r.stats.lostCount scan.lostPackets
      lostBytes := saturatingAdd r.stats.lostBytes scan.lostBytes } }
  (r, { scan.space with sent := sent }, scan.lostPackets, scan.lostBytes)

/-- Acknowledged packets, and packets lost for at least the time `rtt`, leave the
front of the queue. -/
def drainSentPackets (space : PacketNumSpace F) (now : ℤ) (rtt : ℕ) : PacketNumSpace F :=
  { space with
    sent := space.sent.dropWhile fun p =>
      (p.timeAcked.isSome || p.timeLost.isSome) &&
        p.timeLost.all fun timeLost => timeLost + (rtt : ℤ) ≤ now }

/-! ## Events -/

/-- The peer's delay as it enters the estimate: once the handshake is complete it
is capped. -/
def ackDelay (r : Recovery S) (delay : ℕ) (status : HandshakeStatus) : ℕ :=
  if status.completed then min (fromMicros delay) r.maxAckDelay else fromMicros delay

def updateRtt (r : Recovery S) (sample : Option ℕ) (delay : ℕ) (status : HandshakeStatus) :
    Recovery S :=
  match sample with
  | none => r
  | some rtt => if rtt = 0 then r else { r with rtt := r.rtt.update (r.ackDelay delay status) rtt }

def raiseLargestAcked (space : PacketNumSpace F) (largest : ℕ) : PacketNumSpace F :=
  { space with
    largestAckedPkt :=
      if space.largestAckedPkt = u64Max then largest else max space.largestAckedPkt largest }

/-- The rest of `on_ack_received` once some packet was newly acknowledged. -/
def finishAck (cc : CongestionController F S) (scan : AckScan F S) (sample : Option ℕ) (delay : ℕ)
    (spaceId : SpaceId) (spaces : PacketNumSpaceMap F) (status : HandshakeStatus) (now : ℤ) :
    Exec ((Recovery S × PacketNumSpaceMap F) × Result (ℕ × ℕ)) := do
  let r := scan.recovery.updateRtt sample delay status
  let (r, space, lostPackets, lostBytes) := r.detectLostPackets cc scan.space now
  let spaces := spaces.set spaceId (drainSentPackets space now r.rtt.smoothedRtt)
  let congestion ← if spaceId.isData then cc.endAck r.congestion else .ok r.congestion
  let r := { r with congestion := congestion, ptoCount := 0 }
  return ((r.setLossDetectionTimer spaceId spaces status now, spaces), .ok (lostPackets, lostBytes))

def onAckReceived (cc : CongestionController F S) (r : Recovery S) (ranges : RangeSet) (delay : ℕ)
    (spaceId : SpaceId) (spaces : PacketNumSpaceMap F) (status : HandshakeStatus) (now : ℤ) :
    Exec ((Recovery S × PacketNumSpaceMap F) × Result (ℕ × ℕ)) :=
  match spaces.get spaceId with
  | none => .ok ((r, spaces), .error .internalError)
  | some space => do
      let largest ← Exec.unwrap ranges.max
      let r := if spaceId.isData then
          { r with congestion := cc.beginAck now r.bytesInFlight r.congestion }
        else r
      let (scan, sample) ← r.detectAckedPackets cc ranges (raiseLargestAcked space largest) now
      if scan.newlyAcked.isEmpty then
        return ((scan.recovery, spaces.set spaceId scan.space), .ok (0, 0))
      else finishAck cc scan sample delay spaceId spaces status now

/-- The frames of the oldest packets with data are sent again, without the
packets being lost. -/
def probeFrames (space : PacketNumSpace F) : List F :=
  ((space.sent.filter fun p => p.hasData && p.timeAcked.isNone && p.timeLost.isNone).take
    space.lossProbes).flatMap (·.frames)

def onProbeTimeout (r : Recovery S) (spaceId : SpaceId) (spaces : PacketNumSpaceMap F)
    (status : HandshakeStatus) (now : ℤ) : Recovery S × PacketNumSpaceMap F :=
  let sid := if 0 < r.ackElicitingInFlight then (r.getPtoTimeAndSpace spaceId spaces status now).2
    else if status.derivedHandshakeKeys then .handshake
    else .initial
  match spaces.get sid with
  | none => (r, spaces)
  | some space =>
    let r := { r with ptoCount := r.ptoCount + 1 }
    let space := { space with
      lossProbes := if sid.isData then min r.ptoCount maxPtoProbesCount else 1 }
    let spaces := spaces.set sid { space with lost := space.lost ++ probeFrames space }
    (r.setLossDetectionTimer spaceId spaces status now, spaces)

def onLossDetectionTimeout (cc : CongestionController F S) (r : Recovery S) (spaceId : SpaceId)
    (spaces : PacketNumSpaceMap F) (status : HandshakeStatus) (now : ℤ) :
    (Recovery S × PacketNumSpaceMap F) × ℕ × ℕ :=
  let (earliestLossTime, sid) := getLossTimeAndSpace spaceId spaces
  match spaces.get sid with
  | none => ((r, spaces), 0, 0)
  | some space =>
    if earliestLossTime.isSome then
      let (r, space, lostPackets, lostBytes) := r.detectLostPackets cc space now
      let spaces := spaces.set sid (drainSentPackets space now r.rtt.smoothedRtt)
      ((r.setLossDetectionTimer spaceId spaces status now, spaces), lostPackets, lostBytes)
    else (r.onProbeTimeout spaceId spaces status now, 0, 0)

/-- The packets of a space that is discarded leave the counters of the detector. -/
def removeFromBytesInFlight (r : Recovery S) (space : PacketNumSpace F) : Recovery S :=
  space.sent.foldl
    (fun r p =>
      if !p.inFlight || p.timeAcked.isSome || p.timeLost.isSome then r
      else { r with
        bytesInFlight := r.bytesInFlight - p.sentSize
        ackElicitingInFlight := if p.ackEliciting then r.ackElicitingInFlight - 1
          else r.ackElicitingInFlight })
    r

def onPktNumSpaceDiscarded (r : Recovery S) (spaceId : SpaceId) (spaces : PacketNumSpaceMap F)
    (status : HandshakeStatus) (now : ℤ) : Recovery S × PacketNumSpaceMap F :=
  match spaces.get spaceId with
  | none => (r, spaces)
  | some space =>
    let r := r.removeFromBytesInFlight space
    let spaces := spaces.set spaceId { space with
      sent := []
      lost := []
      acked := []
      timeOfLastSentAckElicitingPkt := none
      lossTime := none
      lossProbes := 0
      bytesInFlight := 0
      ackElicitingInFlight := 0 }
    (r.setLossDetectionTimer spaceId spaces status now, spaces)

inductive Event (F : Type) where
  | send (p : SentPacket F) (spaceId : SpaceId) (status : HandshakeStatus) (now : ℤ)
  | ack (ranges : RangeSet) (nonempty : ∃ x, x ∈ ranges) (delay : ℕ) (spaceId : SpaceId)
      (status : HandshakeStatus) (now : ℤ)
  | timeout (spaceId : SpaceId) (status : HandshakeStatus) (now : ℤ)

abbrev Sender (F S : Type) := Recovery S × PacketNumSpaceMap F

def step (cc : CongestionController F S) (s : Sender F S) :
    Event F → Exec (Sender F S × Result (ℕ × ℕ))
  | .send p spaceId status now =>
    .ok (s.1.onPacketSent cc p spaceId s.2 status now, .ok (0, 0))
  | .ack ranges _ delay spaceId status now =>
    s.1.onAckReceived cc ranges delay spaceId s.2 status now
  | .timeout spaceId status now =>
    let (s, lost) := s.1.onLossDetectionTimeout cc spaceId s.2 status now
    .ok (s, .ok lost)

end Recovery

end Tquic
