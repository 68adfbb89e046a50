import Tquic.Base.Exec
import Tquic.Connection.Rtt
import Tquic.Connection.Space

/-!
# The congestion controller interface

A controller is its state and one function for each callback of loss recovery; those that divide
may panic. It may write to the packet it is shown: delivery rate estimation keeps its snapshot
there.
-/

namespace Tquic

structure CongestionStats where
  bytesInFlight : ℕ := 0
  bytesSentInSlowStart : ℕ := 0
  bytesAckedInSlowStart : ℕ := 0
  bytesLostInSlowStart : ℕ := 0
  bytesSentInTotal : ℕ := 0
  bytesAckedInTotal : ℕ := 0
  bytesLostInTotal : ℕ := 0
  deriving DecidableEq, Repr

/-- The controllers with state `S` for packets with frames `F`. -/
structure CongestionController (F S : Type) where
  /-- The time, the packet and the bytes in flight before it. -/
  onSent : ℤ → SentPacket F → ℕ → S → SentPacket F × S
  beginAck : ℤ → ℕ → S → S
  /-- The packet, the time, whether the sender is application limited, the
  round-trip estimate and the bytes in flight after it. -/
  onAck : SentPacket F → ℤ → Bool → RttEstimator → ℕ → S → Exec (SentPacket F × S)
  endAck : S → Exec S
  /-- The time, the last packet lost, whether congestion is persistent, the
  bytes lost and the bytes in flight after them. -/
  onCongestionEvent : ℤ → SentPacket F → Bool → ℕ → ℕ → S → S

end Tquic
