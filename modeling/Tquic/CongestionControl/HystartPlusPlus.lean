import Tquic.Base.Word

/-!
# HyStart++

Slow start that watches the smallest round-trip sample of each round: when it has grown by a
threshold the window grows more slowly for a few rounds, and then slow start ends.
-/

namespace Tquic

inductive HystartPhase where
  | inStandardSlowStart
  | inConservativeSlowStart
  | exited
  deriving DecidableEq, Repr

structure HystartPlusPlus where
  enabled : Bool
  phase : HystartPhase := .inStandardSlowStart
  lastRoundMinRtt : ℕ := maxDuration
  currentRoundMinRtt : ℕ := maxDuration
  rttSampleCount : ℕ := 0
  lastSentPktNum : ℕ := 0
  maxAckedPacketNum : ℕ := 0
  windowEnd : ℕ := 0
  cssRoundCount : ℕ := 0
  cssBaselineMinRtt : ℕ := maxDuration
  deriving DecidableEq, Repr

namespace HystartPlusPlus

def minRttThresh : ℕ := fromMillis 4

def maxRttThresh : ℕ := fromMillis 16

def minRttDivisor : ℕ := 8

def nRttSample : ℕ := 8

def cssGrowthDivisor : ℕ := 4

def cssRounds : ℕ := 5

def hystartL : ℕ := 64

def hasExited (h : HystartPlusPlus) : Bool := h.phase = .exited

def onSent (h : HystartPlusPlus) (pktNum : ℕ) : HystartPlusPlus :=
  { h with lastSentPktNum := pktNum }

def rttThresh (h : HystartPlusPlus) : ℕ :=
  min (max (h.lastRoundMinRtt / minRttDivisor) minRttThresh) maxRttThresh

def updatePhase (h : HystartPlusPlus) : HystartPlusPlus :=
  match h.phase with
  | .inStandardSlowStart =>
    if nRttSample ≤ h.rttSampleCount ∧ h.currentRoundMinRtt ≠ maxDuration ∧
        h.lastRoundMinRtt ≠ maxDuration ∧
        min (h.lastRoundMinRtt + h.rttThresh) maxDuration ≤ h.currentRoundMinRtt then
      { h with cssBaselineMinRtt := h.currentRoundMinRtt, phase := .inConservativeSlowStart }
    else h
  | .inConservativeSlowStart =>
    if nRttSample ≤ h.rttSampleCount ∧ h.currentRoundMinRtt < h.cssBaselineMinRtt then
      { h with
        cssBaselineMinRtt := maxDuration
        phase := .inStandardSlowStart
        cssRoundCount := 0 }
    else h
  | .exited => h

def onAck (h : HystartPlusPlus) (pktNum rtt : ℕ) : HystartPlusPlus :=
  if !h.enabled && !h.hasExited then h
  else
    updatePhase { h with
      maxAckedPacketNum := max pktNum h.maxAckedPacketNum
      currentRoundMinRtt := min h.currentRoundMinRtt rtt
      rttSampleCount := h.rttSampleCount + 1 }

def endAck (h : HystartPlusPlus) : HystartPlusPlus :=
  if !h.enabled && !h.hasExited then h
  else if h.windowEnd < h.maxAckedPacketNum then
    let h := { h with
      windowEnd := h.lastSentPktNum
      lastRoundMinRtt := h.currentRoundMinRtt
      currentRoundMinRtt := maxDuration
      rttSampleCount := 0 }
    if h.phase = .inConservativeSlowStart then
      if cssRounds ≤ h.cssRoundCount + 1 then { h with cssRoundCount := 0, phase := .exited }
      else { h with cssRoundCount := h.cssRoundCount + 1 }
    else h
  else h

def onCongestionEvent (h : HystartPlusPlus) : HystartPlusPlus :=
  if h.enabled then { h with windowEnd := 0, phase := .exited } else h

def cwndIncrement (h : HystartPlusPlus) (ackedBytes maxDatagramSize : ℕ) : ℕ :=
  match h.phase with
  | .inStandardSlowStart => min ackedBytes (hystartL * maxDatagramSize)
  | .inConservativeSlowStart => min (ackedBytes / cssGrowthDivisor) (hystartL * maxDatagramSize)
  | .exited => 0

end HystartPlusPlus

end Tquic
