import Tquic.CongestionControl.Controller
import Tquic.CongestionControl.HystartPlusPlus

/-!
# CUBIC

The window computations in `f64` are written with Lean's own double precision
numbers. Unsigned arithmetic wraps where the source leaves it unchecked, and a
division by zero panics.
-/

namespace Tquic

def defaultSendUdpPayloadSize : ℕ := 1200

def defaultInitialRtt : ℕ := fromMillis 333

/-- The configuration that recovery and its congestion controller read. The setters keep the two
bounds. -/
structure RecoveryConfig where
  maxDatagramSize : ℕ := defaultSendUdpPayloadSize
  maxAckDelay : ℕ := 0
  minCongestionWindow : ℕ := 2
  initialCongestionWindow : ℕ := 10
  slowStartThresh : ℕ := u64Max
  initialRtt : ℕ := defaultInitialRtt
  ptoLinearFactor : ℕ := 0
  maxPto : ℕ := maxDuration
  maxDatagramSize_ge : defaultSendUdpPayloadSize ≤ maxDatagramSize := by decide
  initialRtt_ge : timerGranularity ≤ initialRtt := by decide

structure CubicConfig where
  c : Float
  beta : Float
  minCongestionWindow : ℕ
  initialCongestionWindow : ℕ
  slowStartThresh : ℕ
  maxDatagramSize : ℕ
  hystartEnabled : Bool := true
  fastConvergenceEnabled : Bool := true
  initialRtt : Option ℕ

structure Cubic where
  config : CubicConfig
  hystart : HystartPlusPlus
  cwnd : ℕ
  ssthresh : ℕ
  wMax : Float := 0
  k : Float := 0
  alpha : Float
  wEst : Float := 0
  cwndInc : ℕ := 0
  recoveryEpochStart : Option ℤ := none
  lastSentTime : Option ℤ := none
  stats : CongestionStats := {}
  pacingRate : ℕ
  minPacingRate : Option ℕ := none
  initialRtt : ℕ

namespace Cubic

variable {F : Type}

def C : Float := 0.4

def BETA : Float := 0.7

def ALPHA : Float := 3.0 * (1.0 - BETA) / (1.0 + BETA)

/-- `as u64`, which saturates -/
def toU64 (x : Float) : ℕ := x.toUInt64.toNat

def asSecsF64 (d : ℕ) : Float := Float.ofNat (d / 10 ^ 9) + Float.ofNat (d % 10 ^ 9) / 1e9

def clamp (x lo hi : Float) : Float := if x < lo then lo else if hi < x then hi else x

def saturatingMul (a b : ℕ) : ℕ := min (a * b) u64Max

def configFrom (conf : RecoveryConfig) : CubicConfig where
  c := C
  beta := BETA
  minCongestionWindow := saturatingMul conf.minCongestionWindow conf.maxDatagramSize
  initialCongestionWindow := saturatingMul conf.initialCongestionWindow conf.maxDatagramSize
  slowStartThresh := saturatingMul conf.slowStartThresh conf.maxDatagramSize
  maxDatagramSize := conf.maxDatagramSize
  initialRtt := some conf.initialRtt

def new (config : CubicConfig) : Cubic :=
  let initialRtt := max (config.initialRtt.getD defaultInitialRtt) (fromMicros 1)
  { config := config
    hystart := { enabled := config.hystartEnabled }
    cwnd := config.initialCongestionWindow
    ssthresh := config.slowStartThresh
    alpha := 3.0 * (1.0 - config.beta) / (1.0 + config.beta)
    pacingRate := toU64 (Float.ofNat config.initialCongestionWindow / asSecsF64 initialRtt)
    initialRtt := initialRtt }

def wCubic (cc : Cubic) (t maxDatagramSize : ℕ) : Float :=
  let x := asSecsF64 t - cc.k
  cc.config.c * (x * x * x) * Float.ofNat maxDatagramSize + cc.wMax

def nextWEst (cc : Cubic) (ackedBytes maxDatagramSize : ℕ) : Float :=
  cc.wEst + cc.alpha * Float.ofNat ackedBytes / Float.ofNat cc.cwnd * Float.ofNat maxDatagramSize

def cubicK (cc : Cubic) (cwnd maxDatagramSize : ℕ) : Float :=
  if Float.ofNat cwnd < cc.wMax then
    ((cc.wMax - Float.ofNat cwnd) / Float.ofNat maxDatagramSize / cc.config.c).cbrt
  else 0

def inSlowStart (cc : Cubic) : Bool := cc.cwnd < cc.ssthresh

def inRecovery (cc : Cubic) (sentTime : ℤ) : Bool :=
  cc.recoveryEpochStart.any fun t => sentTime ≤ t

def onSent (cc : Cubic) (p : SentPacket F) (bytesInFlight : ℕ) : Cubic :=
  let recoveryEpochStart := match cc.lastSentTime, cc.recoveryEpochStart with
    | some lastSentTime, some start =>
      -- An idle period does not count as time since the last congestion event.
      if bytesInFlight = 0 then
        some (start + saturatingDurationSince p.timeSent lastSentTime)
      else some start
    | _, start => start
  { cc with
    recoveryEpochStart := recoveryEpochStart
    lastSentTime := some p.timeSent
    hystart := cc.hystart.onSent p.pktNum
    stats := { cc.stats with
      bytesInFlight := bytesInFlight
      bytesSentInTotal := saturatingAdd cc.stats.bytesSentInTotal p.sentSize
      bytesSentInSlowStart := if cc.inSlowStart then
          saturatingAdd cc.stats.bytesSentInSlowStart p.sentSize
        else cc.stats.bytesSentInSlowStart } }

def statAcked (cc : Cubic) (p : SentPacket F) (bytesInFlight : ℕ) : Cubic :=
  { cc with
    stats := { cc.stats with
      bytesInFlight := bytesInFlight
      bytesAckedInTotal := saturatingAdd cc.stats.bytesAckedInTotal p.sentSize
      bytesAckedInSlowStart := if cc.inSlowStart then
          saturatingAdd cc.stats.bytesAckedInSlowStart p.sentSize
        else cc.stats.bytesAckedInSlowStart } }

def slowStart (cc : Cubic) (p : SentPacket F) (rtt : RttEstimator) : Cubic :=
  { cc with
    cwnd := saturatingAdd cc.cwnd (cc.hystart.cwndIncrement p.sentSize cc.config.maxDatagramSize)
    hystart := cc.hystart.onAck p.pktNum rtt.latestRtt }

def startEpoch (cc : Cubic) (now : ℤ) : Cubic :=
  { cc with
    recoveryEpochStart := some now
    wMax := Float.ofNat cc.cwnd
    k := 0
    wEst := Float.ofNat cc.cwnd
    alpha := ALPHA }

/-- The window that the elapsed time calls for, with the updated estimate of Reno's window. -/
def targetWindow (cc : Cubic) (p : SentPacket F) (elapsed : ℕ) (rtt : RttEstimator) : ℕ × Cubic :=
  let size := cc.config.maxDatagramSize
  let cwnd := Float.ofNat cc.cwnd
  let target :=
    clamp (cc.wCubic (min (elapsed + rtt.smoothedRtt) maxDuration) size) cwnd (1.5 * cwnd)
  let cc := { cc with wEst := cc.nextWEst p.sentSize size }
  let cc := if cc.wMax ≤ cc.wEst then { cc with alpha := 1 } else cc
  if cc.wCubic elapsed size < cc.wEst then (max cc.cwnd (toU64 cc.wEst), cc)
  else (wrap (cc.cwnd + toU64 ((target - cwnd) / cwnd * Float.ofNat size)), cc)

def sinceEpoch (cc : Cubic) (now : ℤ) : ℕ × Cubic :=
  match cc.recoveryEpochStart with
  | some start => (saturatingDurationSince now start, cc)
  | none => (0, cc.startEpoch now)

def grow (cc : Cubic) (cwnd : ℕ) : Exec Cubic := do
  let size := cc.config.maxDatagramSize
  let cwndInc := wrap (cc.cwndInc + wrap (cwnd + 2 ^ 64 - cc.cwnd))
  let datagrams ← Exec.div cwndInc size
  return { cc with cwnd := wrap (cc.cwnd + datagrams * size), cwndInc := cwndInc % size }

def congestionAvoidance (cc : Cubic) (p : SentPacket F) (now : ℤ) (rtt : RttEstimator) :
    Exec Cubic :=
  let (elapsed, cc) := cc.sinceEpoch now
  let (cwnd, cc) := cc.targetWindow p elapsed rtt
  cc.grow cwnd

def growWindow (cc : Cubic) (p : SentPacket F) (now : ℤ) (rtt : RttEstimator) : Exec Cubic :=
  if cc.inSlowStart then .ok (cc.slowStart p rtt) else cc.congestionAvoidance p now rtt

def setPacingRate (cc : Cubic) (rtt : RttEstimator) : Exec Cubic := do
  let srtt := if rtt.smoothedRtt = 0 then cc.initialRtt else rtt.smoothedRtt
  let pacingRate ← Exec.div (cc.cwnd * 1000000) (asMicros srtt)
  return { cc with
    pacingRate := wrap pacingRate
    minPacingRate := some (match cc.minPacingRate with
      | none => wrap pacingRate
      | some minPacingRate => min minPacingRate (wrap pacingRate)) }

def onAck (cc : Cubic) (p : SentPacket F) (now : ℤ) (appLimited : Bool) (rtt : RttEstimator)
    (bytesInFlight : ℕ) : Exec Cubic :=
  let cc := cc.statAcked p bytesInFlight
  if appLimited || cc.inRecovery p.timeSent || rtt.smoothedRtt = 0 then .ok cc
  else do
    let cc ← cc.growWindow p now rtt
    cc.setPacingRate rtt

def endAck (cc : Cubic) : Cubic :=
  if cc.hystart.hasExited then cc
  else
    let cc := { cc with hystart := cc.hystart.endAck }
    if cc.hystart.hasExited then { cc with ssthresh := cc.cwnd } else cc

def statLost (cc : Cubic) (lostBytes bytesInFlight : ℕ) : Cubic :=
  { cc with
    stats := { cc.stats with
      bytesLostInTotal := saturatingAdd cc.stats.bytesLostInTotal lostBytes
      bytesInFlight := bytesInFlight
      bytesLostInSlowStart := if cc.inSlowStart then
          saturatingAdd cc.stats.bytesLostInSlowStart lostBytes
        else cc.stats.bytesLostInSlowStart } }

/-- The window to which CUBIC falls back, by the fast convergence rule. -/
def nextWMax (cc : Cubic) : Float :=
  if cc.config.fastConvergenceEnabled then
    if Float.ofNat cc.cwnd < cc.wMax then Float.ofNat cc.cwnd * (1.0 + cc.config.beta) / 2.0
    else Float.ofNat cc.cwnd
  else cc.wMax

def enterRecovery (cc : Cubic) (now : ℤ) : Cubic :=
  let size := cc.config.maxDatagramSize
  let cc := { cc with recoveryEpochStart := some now, wMax := cc.nextWMax }
  let ssthresh := max (toU64 (Float.ofNat cc.cwnd * cc.config.beta)) (2 * size)
  let cc := { cc with ssthresh := ssthresh, cwnd := max ssthresh (2 * size) }
  { cc with
    k := cc.cubicK cc.cwnd size
    cwndInc := toU64 (Float.ofNat cc.cwndInc * cc.config.beta)
    wEst := Float.ofNat cc.cwnd
    alpha := ALPHA
    hystart := cc.hystart.onCongestionEvent }

def collapse (cc : Cubic) : Cubic :=
  { cc with
    recoveryEpochStart := none
    wMax := Float.ofNat cc.cwnd
    ssthresh := max cc.config.minCongestionWindow (toU64 (Float.ofNat cc.cwnd * cc.config.beta))
    cwndInc := 0
    cwnd := cc.config.minCongestionWindow }

def onCongestionEvent (cc : Cubic) (now : ℤ) (p : SentPacket F) (isPersistentCongestion : Bool)
    (lostBytes bytesInFlight : ℕ) : Cubic :=
  let cc := cc.statLost lostBytes bytesInFlight
  if cc.inRecovery p.timeSent then cc
  else
    let cc := cc.enterRecovery now
    if isPersistentCongestion then cc.collapse else cc

def controller : CongestionController F Cubic where
  onSent _ p bytesInFlight cc := (p, cc.onSent p bytesInFlight)
  beginAck _ _ cc := cc
  onAck p now appLimited rtt bytesInFlight cc := do
    let cc ← cc.onAck p now appLimited rtt bytesInFlight
    return (p, cc)
  endAck cc := .ok cc.endAck
  onCongestionEvent now p isPersistentCongestion lostBytes bytesInFlight cc :=
    cc.onCongestionEvent now p isPersistentCongestion lostBytes bytesInFlight

end Cubic

end Tquic
