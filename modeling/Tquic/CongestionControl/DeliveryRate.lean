import Tquic.CongestionControl.Controller

/-!
# Delivery rate estimation

Every packet carries a snapshot of the delivery state at the time it was sent. Its acknowledgement
turns it into a rate sample: what was delivered since, over the longer of the times to send it and
to have it acknowledged.
-/

namespace Tquic

structure RateSample where
  deliveryRate : ℕ := 0
  isAppLimited : Bool := false
  interval : ℕ := 0
  delivered : ℕ := 0
  priorDelivered : ℕ := 0
  priorTime : Option ℤ := none
  sendElapsed : ℕ := 0
  ackElapsed : ℕ := 0
  rtt : ℕ := 0
  deriving DecidableEq, Repr

def RateSample.elapsed (s : RateSample) : ℕ := max s.sendElapsed s.ackElapsed

structure DeliveryRateEstimator where
  delivered : ℕ := 0
  deliveredTime : ℤ
  firstSentTime : ℤ
  lastAppLimitedPktNum : ℕ := 0
  largestAckedPktNum : ℕ := 0
  lastSentPktNum : ℕ := 0
  rateSample : RateSample := {}
  deriving DecidableEq, Repr

namespace DeliveryRateEstimator

variable {F : Type}

def new (now : ℤ) : DeliveryRateEstimator where
  deliveredTime := now
  firstSentTime := now

def isAppLimited (e : DeliveryRateEstimator) : Bool := e.lastAppLimitedPktNum ≠ 0

def setAppLimited (e : DeliveryRateEstimator) (isAppLimited : Bool) : DeliveryRateEstimator :=
  { e with lastAppLimitedPktNum := if isAppLimited then max e.lastSentPktNum 1 else 0 }

def onPacketSent (e : DeliveryRateEstimator) (p : SentPacket F) (bytesInFlight bytesLost : ℕ) :
    SentPacket F × DeliveryRateEstimator :=
  let e := if bytesInFlight = 0 then
      { e with firstSentTime := p.timeSent, deliveredTime := p.timeSent }
    else e
  ({ p with
      rateSampleState :=
        { firstSentTime := some e.firstSentTime
          deliveredTime := some e.deliveredTime
          delivered := e.delivered
          isAppLimited := e.isAppLimited
          txInFlight := bytesInFlight
          lost := bytesLost } },
    { e with lastSentPktNum := p.pktNum })

/-- The part of `update_rate_sample` behind its guard, for a packet with a snapshot that was
acknowledged at `timeAcked`. -/
def sample (e : DeliveryRateEstimator) (p : SentPacket F) (deliveredTime timeAcked : ℤ) :
    DeliveryRateEstimator :=
  let state := p.rateSampleState
  let e := { e with
    delivered := saturatingAdd e.delivered p.sentSize
    deliveredTime := timeAcked }
  let e := if e.rateSample.priorTime.isNone ∨ e.rateSample.priorDelivered < state.delivered then
      { e with
        rateSample := { e.rateSample with
          priorDelivered := state.delivered
          priorTime := some deliveredTime
          isAppLimited := state.isAppLimited }
        firstSentTime := p.timeSent }
    else e
  { e with
    rateSample := { e.rateSample with
      sendElapsed := saturatingDurationSince p.timeSent (state.firstSentTime.getD p.timeSent)
      ackElapsed := saturatingDurationSince timeAcked deliveredTime
      rtt := saturatingDurationSince timeAcked p.timeSent
      delivered := e.delivered - e.rateSample.priorDelivered }
    largestAckedPktNum := max p.pktNum e.largestAckedPktNum }

def updateRateSample (e : DeliveryRateEstimator) (p : SentPacket F) :
    SentPacket F × DeliveryRateEstimator :=
  match p.rateSampleState.deliveredTime, p.timeAcked with
  | some deliveredTime, some timeAcked =>
    -- The snapshot is used once.
    ({ p with rateSampleState := { p.rateSampleState with deliveredTime := none } },
      e.sample p deliveredTime timeAcked)
  | _, _ => (p, e)

def clearAppLimited (e : DeliveryRateEstimator) : DeliveryRateEstimator :=
  if e.isAppLimited && e.lastAppLimitedPktNum < e.largestAckedPktNum then e.setAppLimited false
  else e

def fillRate (e : DeliveryRateEstimator) : Exec DeliveryRateEstimator :=
  let interval := e.rateSample.elapsed
  let delivered := e.delivered - e.rateSample.priorDelivered
  let e := { e with
    rateSample := { e.rateSample with interval := interval, delivered := delivered } }
  if interval = 0 then .ok e
  else do
    let deliveryRate ← Exec.div (wrap (delivered * 1000000)) (wrap (asMicros interval))
    return { e with rateSample := { e.rateSample with deliveryRate := deliveryRate } }

def generateRateSample (e : DeliveryRateEstimator) : Exec DeliveryRateEstimator :=
  let e := e.clearAppLimited
  -- Without a prior time nothing has been delivered yet.
  if e.rateSample.priorTime.isNone then .ok e else e.fillRate

end DeliveryRateEstimator

/-! ## Rate-based controllers -/

/-- The path model of BBR and BBRv3. `endAck` also says whether the sender is application limited;
that BBRv3 sets this after a loss too is not modelled. -/
structure RateModel (F R : Type) where
  handleRestartFromIdle : ℤ → DeliveryRateEstimator → ℕ → R → R
  beginAck : ℤ → CongestionStats → R → R
  inSlowStart : R → Bool
  onAck : SentPacket F → R → R
  endAck : DeliveryRateEstimator → CongestionStats → R → R × Bool
  onCongestionEvent : ℤ → SentPacket F → Bool → ℕ → DeliveryRateEstimator → R → R

structure Bbr (R : Type) where
  deliveryRateEstimator : DeliveryRateEstimator
  stats : CongestionStats := {}
  model : R

namespace Bbr

variable {F R : Type} (m : RateModel F R)

def onSent (b : Bbr R) (now : ℤ) (p : SentPacket F) : SentPacket F × Bbr R :=
  let (p, e) := b.deliveryRateEstimator.onPacketSent p b.stats.bytesInFlight
    b.stats.bytesLostInTotal
  (p, { deliveryRateEstimator := e
        stats := { b.stats with bytesInFlight := wrap (b.stats.bytesInFlight + p.sentSize) }
        model := m.handleRestartFromIdle now e b.stats.bytesInFlight b.model })

def onAck (b : Bbr R) (p : SentPacket F) : SentPacket F × Bbr R :=
  let (p, e) := b.deliveryRateEstimator.updateRateSample p
  (p, { deliveryRateEstimator := e
        stats := { b.stats with
          bytesInFlight := b.stats.bytesInFlight - p.sentSize
          bytesAckedInTotal := saturatingAdd b.stats.bytesAckedInTotal p.sentSize
          bytesAckedInSlowStart := if m.inSlowStart b.model then
              saturatingAdd b.stats.bytesAckedInSlowStart p.sentSize
            else b.stats.bytesAckedInSlowStart }
        model := m.onAck p b.model })

def endAck (b : Bbr R) : Exec (Bbr R) := do
  let e ← b.deliveryRateEstimator.generateRateSample
  let (model, appLimited) := m.endAck e b.stats b.model
  return { b with
    deliveryRateEstimator := if appLimited then e.setAppLimited true else e
    model := model }

def onCongestionEvent (b : Bbr R) (now : ℤ) (p : SentPacket F) (inPersistentCongestion : Bool)
    (lostBytes : ℕ) : Bbr R where
  deliveryRateEstimator := b.deliveryRateEstimator
  stats := { b.stats with
    bytesInFlight := b.stats.bytesInFlight - lostBytes
    bytesLostInTotal := saturatingAdd b.stats.bytesLostInTotal lostBytes }
  model := m.onCongestionEvent now p inPersistentCongestion lostBytes b.deliveryRateEstimator
    b.model

def controller : CongestionController F (Bbr R) where
  onSent now p _ b := b.onSent m now p
  beginAck now _ b := { b with model := m.beginAck now b.stats b.model }
  onAck p _ _ _ _ b := .ok (b.onAck m p)
  endAck b := b.endAck m
  onCongestionEvent now p inPersistentCongestion lostBytes _ b :=
    b.onCongestionEvent m now p inPersistentCongestion lostBytes

end Bbr

end Tquic
