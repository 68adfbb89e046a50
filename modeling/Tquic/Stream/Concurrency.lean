import Tquic.Codec
import Tquic.Ranges

/-!
# Stream identifiers, stream limits and the send queue

The two low bits of a stream identifier say who opened the stream and whether it is bidirectional.
Fields that the source keeps for each direction are functions of that flag here, and the sets of
identifiers still to be opened of the opener too.
-/

namespace Tquic

def isLocal (streamId : ℕ) (isServer : Bool) : Bool := streamId % 2 = isServer.toNat

def isBidi (streamId : ℕ) : Bool := streamId / 2 % 2 = 0

def maxStreamsPerType : ℕ := 2 ^ 60

structure ConcurrencyControl where
  peerMaxStreams : Bool → ℕ
  peerOpenedStreams : Bool → ℕ
  localMaxStreams : Bool → ℕ
  localMaxStreamsNext : Bool → ℕ
  localOpenedStreams : Bool → ℕ
  streamsBlockedAt : Bool → Option ℕ
  availIds : Bool → Bool → RangeSet

namespace ConcurrencyControl

def new (localMaxStreams : Bool → ℕ) : ConcurrencyControl where
  peerMaxStreams _ := 0
  peerOpenedStreams _ := 0
  localMaxStreams := localMaxStreams
  localMaxStreamsNext := localMaxStreams
  localOpenedStreams _ := 0
  streamsBlockedAt _ := none
  availIds isLocal bidi :=
    if isLocal then default else RangeSet.insert default 0 (localMaxStreams bidi)

def insertAvailId (c : ConcurrencyControl) (start stop : ℕ) (isLocal bidi : Bool) :
    ConcurrencyControl :=
  { c with
    availIds := Function.update c.availIds isLocal
      (Function.update (c.availIds isLocal) bidi ((c.availIds isLocal bidi).insert start stop)) }

def removeAvailId (c : ConcurrencyControl) (streamId : ℕ) (isServer : Bool) :
    ConcurrencyControl :=
  let opener := isLocal streamId isServer
  let bidi := isBidi streamId
  { c with
    availIds := Function.update c.availIds opener
      (Function.update (c.availIds opener) bidi
        ((c.availIds opener bidi).removeElem (streamId / 4))) }

def updateStreamsBlockedAt (c : ConcurrencyControl) (bidi : Bool) (blockedAt : Option ℕ) :
    ConcurrencyControl :=
  { c with streamsBlockedAt := Function.update c.streamsBlockedAt bidi blockedAt }

/-- The blocked state ends when the limit has passed the value it was reported at. -/
def unblock (c : ConcurrencyControl) (bidi : Bool) : ConcurrencyControl :=
  match c.streamsBlockedAt bidi with
  | none => c
  | some blockedAt =>
    if blockedAt < c.peerMaxStreams bidi then c.updateStreamsBlockedAt bidi none else c

def updatePeerMaxStreams (c : ConcurrencyControl) (bidi : Bool) (maxStreams : ℕ) :
    ConcurrencyControl :=
  let c :=
    if c.peerMaxStreams bidi < maxStreams then
      { c.insertAvailId (c.peerMaxStreams bidi) maxStreams true bidi with
        peerMaxStreams := Function.update c.peerMaxStreams bidi maxStreams }
    else c
  c.unblock bidi

def updateLocalMaxStreams (c : ConcurrencyControl) (bidi : Bool) : ConcurrencyControl :=
  { c.insertAvailId (c.localMaxStreams bidi) (c.localMaxStreamsNext bidi) false bidi with
    localMaxStreams := Function.update c.localMaxStreams bidi (c.localMaxStreamsNext bidi) }

def shouldUpdateLocalMaxStreams (c : ConcurrencyControl) (bidi : Bool) : Bool :=
  c.localMaxStreamsNext bidi ≠ c.localMaxStreams bidi &&
    wrappingSub (c.localMaxStreams bidi) (c.peerOpenedStreams bidi) <
      wrappingSub (c.localMaxStreamsNext bidi) (c.localMaxStreams bidi)

def increaseMaxStreamsCredits (c : ConcurrencyControl) (bidi : Bool) (delta : ℕ) :
    ConcurrencyControl :=
  { c with
    localMaxStreamsNext := Function.update c.localMaxStreamsNext bidi
      (saturatingAdd (c.localMaxStreamsNext bidi) delta) }

def limit (c : ConcurrencyControl) (streamId : ℕ) (isServer : Bool) : ℕ :=
  if isLocal streamId isServer then c.peerMaxStreams (isBidi streamId)
  else c.localMaxStreams (isBidi streamId)

def checkConcurrencyLimits (c : ConcurrencyControl) (id : ℕ) (isServer : Bool) :
    ConcurrencyControl × Result Unit :=
  let streamSequence := id / 4 + 1
  let bidi := isBidi id
  if isLocal id isServer then
    let n := max (c.localOpenedStreams bidi) streamSequence
    if c.peerMaxStreams bidi < n then
      (c.updateStreamsBlockedAt bidi (some (c.peerMaxStreams bidi)), .error .streamLimitError)
    else
      ({ c with localOpenedStreams := Function.update c.localOpenedStreams bidi n }, .ok ())
  else
    let n := max (c.peerOpenedStreams bidi) streamSequence
    if c.localMaxStreams bidi < n then (c, .error .streamLimitError)
    else ({ c with peerOpenedStreams := Function.update c.peerOpenedStreams bidi n }, .ok ())

def isLimited (c : ConcurrencyControl) (streamId : ℕ) (isServer : Bool) : Bool :=
  c.limit streamId isServer < streamId / 4 + 1

def isAvailable (c : ConcurrencyControl) (streamId : ℕ) (isServer : Bool) : Bool :=
  (c.availIds (isLocal streamId isServer) (isBidi streamId)).contains (streamId / 4)

end ConcurrencyControl

/-- Flow control of what this endpoint sends on all its streams. -/
structure SendCapacity where
  maxData : ℕ := 0
  txData : ℕ := 0
  capacity : ℕ := 0
  blockedAt : Option ℕ := none
  deriving DecidableEq, Repr

namespace SendCapacity

def updateMaxData (c : SendCapacity) (maxData : ℕ) : SendCapacity :=
  { c with maxData := max c.maxData maxData }

def updateCapacity (c : SendCapacity) : SendCapacity :=
  { c with capacity := wrappingSub c.maxData c.txData }

def updateBlockedAt (c : SendCapacity) (blockedAt : Option ℕ) : SendCapacity :=
  { c with blockedAt := blockedAt }

end SendCapacity

/-- The streams of one urgency with something to send: the non-incremental ones, a heap, as an
ascending list; the incremental ones take turns. -/
structure StreamPriorityQueue where
  nonIncremental : List ℕ := []
  incremental : List ℕ := []
  deriving DecidableEq, Repr

namespace StreamPriorityQueue

def isEmpty (q : StreamPriorityQueue) : Bool := q.nonIncremental.isEmpty && q.incremental.isEmpty

def push (q : StreamPriorityQueue) (streamId : ℕ) (incremental : Bool) : StreamPriorityQueue :=
  if incremental then { q with incremental := q.incremental ++ [streamId] }
  else { q with nonIncremental := q.nonIncremental.orderedInsert (· ≤ ·) streamId }

/-- The next stream; an incremental one moves to the end of its queue. -/
def peek (q : StreamPriorityQueue) : StreamPriorityQueue × Option ℕ :=
  match q.nonIncremental, q.incremental with
  | streamId :: _, _ => (q, some streamId)
  | [], streamId :: rest => ({ q with incremental := rest ++ [streamId] }, some streamId)
  | [], [] => (q, none)

def remove (q : StreamPriorityQueue) : StreamPriorityQueue :=
  match q.nonIncremental with
  | _ :: rest => { q with nonIncremental := rest }
  | [] => { q with incremental := q.incremental.dropLast }

end StreamPriorityQueue

end Tquic
