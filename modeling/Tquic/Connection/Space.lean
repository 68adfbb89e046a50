import Tquic.Base.SortedMap
import Tquic.Base.Word

/-!
# Packet number spaces

The sender's half of a packet number space: the queue, the frames of packets acknowledged or
declared lost, and the counters of loss detection. The frame type is a parameter.
-/

namespace Tquic

inductive SpaceId where
  | initial
  | handshake
  | data
  | dataExt (id : ℕ)
  deriving DecidableEq, Repr

def SpaceId.isData (id : SpaceId) : Bool := id ≠ .initial && id ≠ .handshake

structure RateSamplePacketState where
  delivered : ℕ := 0
  deliveredTime : Option ℤ := none
  firstSentTime : Option ℤ := none
  isAppLimited : Bool := false
  txInFlight : ℕ := 0
  lost : ℕ := 0
  deriving DecidableEq, Repr

structure SentPacket (F : Type) where
  pktNum : ℕ
  frames : List F
  timeSent : ℤ
  timeAcked : Option ℤ := none
  timeLost : Option ℤ := none
  ackEliciting : Bool
  inFlight : Bool
  hasData : Bool
  pmtuProbe : Bool
  sentSize : ℕ
  rateSampleState : RateSamplePacketState := {}
  deriving DecidableEq, Repr

structure AckedPacket where
  pktNum : ℕ
  timeSent : ℤ
  rtt : ℕ
  deriving DecidableEq, Repr

structure PacketNumSpace (F : Type) where
  id : SpaceId
  consecutiveNonAckElicitingSent : ℕ := 0
  sent : List (SentPacket F) := []
  lost : List F := []
  acked : List F := []
  timeOfLastSentAckElicitingPkt : Option ℤ := none
  lossTime : Option ℤ := none
  /-- `u64::MAX` as long as nothing was acknowledged. -/
  largestAckedPkt : ℕ := u64Max
  lossProbes : ℕ := 0
  bytesInFlight : ℕ := 0
  ackElicitingInFlight : ℕ := 0
  deriving DecidableEq, Repr

abbrev PacketNumSpaceMap (F : Type) := SortedMap ℕ (PacketNumSpace F)

def SpaceId.key : SpaceId → ℕ
  | .initial => 0
  | .handshake => 1
  | .data => 2
  | .dataExt id => id

namespace PacketNumSpaceMap

variable {F : Type}

def new : PacketNumSpaceMap F :=
  ((SortedMap.empty.insert 0 { id := .initial }).insert 1 { id := .handshake }).insert 2
    { id := .data }

def get (spaces : PacketNumSpaceMap F) (id : SpaceId) : Option (PacketNumSpace F) :=
  SortedMap.get? spaces id.key

/-- The write through the reference that `get_mut` returned. -/
def set (spaces : PacketNumSpaceMap F) (id : SpaceId) (space : PacketNumSpace F) :
    PacketNumSpaceMap F :=
  SortedMap.modify spaces id.key fun _ => space

end PacketNumSpaceMap

end Tquic
