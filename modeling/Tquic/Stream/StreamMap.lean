import Tquic.Stream.Concurrency
import Tquic.Stream.State

/-!
# The streams of a connection

The open streams with the sets and queues of those that can be read, written, sent or need a
control frame, and the limits. A finished stream is first marked closed; the endpoint destroys it
when it handles the event.
-/

namespace Tquic

structure StreamTransportParams where
  initialMaxData : ℕ := 0
  initialMaxStreamDataBidiLocal : ℕ := 0
  initialMaxStreamDataBidiRemote : ℕ := 0
  initialMaxStreamDataUni : ℕ := 0
  initialMaxStreamsBidi : ℕ := 0
  initialMaxStreamsUni : ℕ := 0
  deriving DecidableEq, Repr

def StreamTransportParams.initialMaxStreams (p : StreamTransportParams) (bidi : Bool) : ℕ :=
  if bidi then p.initialMaxStreamsBidi else p.initialMaxStreamsUni

structure StreamTransportParams.Encodable (p : StreamTransportParams) : Prop where
  data : p.initialMaxData ≤ vintMax
  bidiLocal : p.initialMaxStreamDataBidiLocal ≤ vintMax
  bidiRemote : p.initialMaxStreamDataBidiRemote ≤ vintMax
  uni : p.initialMaxStreamDataUni ≤ vintMax
  streamsBidi : p.initialMaxStreamsBidi ≤ vintMax
  streamsUni : p.initialMaxStreamsUni ≤ vintMax

/-- Both stream limits fit a variable-length integer. -/
theorem StreamTransportParams.Encodable.streams {p : StreamTransportParams} (h : p.Encodable)
    (bidi : Bool) : p.initialMaxStreams bidi ≤ vintMax := by
  cases bidi with
  | true => exact h.streamsBidi
  | false => exact h.streamsUni

inductive StreamEvent where
  | streamCreated (streamId : ℕ)
  | streamClosed (streamId : ℕ)
  deriving DecidableEq, Repr

inductive Direction where
  | read
  | write
  deriving DecidableEq, Repr

/-- The streams destroyed so far are kept in `destroyed`, which the code does not
read. -/
structure StreamMap where
  isServer : Bool
  streams : SortedMap ℕ Stream
  sendable : SortedMap ℕ StreamPriorityQueue
  readable : Finset ℕ
  writable : Finset ℕ
  reset : SortedMap ℕ (ℕ × ℕ)
  stopped : SortedMap ℕ ℕ
  almostFull : Finset ℕ
  dataBlocked : SortedMap ℕ ℕ
  concurrencyControl : ConcurrencyControl
  flowControl : FlowControl
  sendCapacity : SendCapacity
  maxStreamWindow : ℕ
  rxAlmostFull : Bool
  nextStreamId : Bool → ℕ
  peerTransportParams : StreamTransportParams
  localTransportParams : StreamTransportParams
  events : Option (List StreamEvent)
  destroyed : List (ℕ × Stream)

namespace StreamMap

def firstStreamId (isServer bidi : Bool) : ℕ :=
  isServer.toNat + if bidi then 0 else 2

def new (isServer : Bool) (maxConnectionWindow maxStreamWindow : ℕ)
    (localParams : StreamTransportParams) : StreamMap where
  isServer := isServer
  streams := SortedMap.empty
  sendable := SortedMap.empty
  readable := ∅
  writable := ∅
  reset := SortedMap.empty
  stopped := SortedMap.empty
  almostFull := ∅
  dataBlocked := SortedMap.empty
  concurrencyControl := ConcurrencyControl.new localParams.initialMaxStreams
  flowControl := FlowControl.new localParams.initialMaxData maxConnectionWindow
  sendCapacity := {}
  maxStreamWindow := maxStreamWindow
  rxAlmostFull := false
  nextStreamId := firstStreamId isServer
  peerTransportParams := {}
  localTransportParams := localParams
  events := none
  destroyed := []

def get? (m : StreamMap) (id : ℕ) : Option Stream := m.streams.get? id

def setStream (m : StreamMap) (id : ℕ) (s : Stream) : StreamMap :=
  { m with streams := m.streams.insert id s }

/-! ## Sets and queues -/

def mark (s : Finset ℕ) (streamId : ℕ) (flag : Bool) : Finset ℕ :=
  if flag then insert streamId s else s.erase streamId

def markReadable (m : StreamMap) (streamId : ℕ) (readable : Bool) : StreamMap :=
  { m with readable := mark m.readable streamId readable }

def markWritable (m : StreamMap) (streamId : ℕ) (writable : Bool) : StreamMap :=
  { m with writable := mark m.writable streamId writable }

def markAlmostFull (m : StreamMap) (streamId : ℕ) (almostFull : Bool) : StreamMap :=
  { m with almostFull := mark m.almostFull streamId almostFull }

def markBlocked (m : StreamMap) (streamId : ℕ) (blocked : Bool) (off : ℕ) : StreamMap :=
  { m with
    dataBlocked :=
      if blocked then m.dataBlocked.insert streamId off else m.dataBlocked.erase streamId }

def markReset (m : StreamMap) (streamId : ℕ) (reset : Bool) (errorCode finalSize : ℕ) :
    StreamMap :=
  { m with
    reset :=
      if reset then m.reset.insert streamId (errorCode, finalSize) else m.reset.erase streamId }

def markStopped (m : StreamMap) (streamId : ℕ) (stopped : Bool) (errorCode : ℕ) : StreamMap :=
  { m with
    stopped := if stopped then m.stopped.insert streamId errorCode else m.stopped.erase streamId }

def pushSendable (m : StreamMap) (streamId urgency : ℕ) (incremental : Bool) : StreamMap :=
  let queue := (m.sendable.get? urgency).getD {}
  { m with sendable := m.sendable.insert urgency (queue.push streamId incremental) }

def peekSendable (m : StreamMap) : StreamMap × Option ℕ :=
  match m.sendable.first? with
  | none => (m, none)
  | some (urgency, queue) =>
    let (queue, streamId) := queue.peek
    ({ m with sendable := m.sendable.insert urgency queue }, streamId)

def removeSendable (m : StreamMap) : StreamMap :=
  match m.sendable.first? with
  | none => m
  | some (urgency, queue) =>
    let queue := queue.remove
    { m with
      sendable :=
        if queue.isEmpty then m.sendable.erase urgency else m.sendable.insert urgency queue }

def updateDataBlockedAt (m : StreamMap) (blockedAt : Option ℕ) : StreamMap :=
  { m with sendCapacity := m.sendCapacity.updateBlockedAt blockedAt }

def wantWrite (m : StreamMap) (streamId : ℕ) (want : Bool) : StreamMap × Result Unit :=
  match m.get? streamId with
  | none => (m, .error .done)
  | some s =>
    let (s, r) := s.markWantwrite want
    (m.setStream streamId s, r)

def wantRead (m : StreamMap) (streamId : ℕ) (want : Bool) : StreamMap × Result Unit :=
  match m.get? streamId with
  | none => (m, .error .done)
  | some s =>
    let (s, r) := s.markWantread want
    (m.setStream streamId s, r)

/-! ## Limits -/

def maxRxData (m : StreamMap) : ℕ := m.flowControl.maxData

def maxRxDataNext (m : StreamMap) : ℕ := m.flowControl.maxDataNext

def maxRxDataLeft (m : StreamMap) : ℕ := wrappingSub m.flowControl.maxData m.flowControl.recvOff

def maxTxDataLeft (m : StreamMap) : ℕ := wrappingSub m.sendCapacity.maxData m.sendCapacity.txData

def needSendMaxData (m : StreamMap) : Bool := m.rxAlmostFull && m.maxRxData < m.maxRxDataNext

def consume (m : StreamMap) (delta : ℕ) : StreamMap :=
  let flowControl := m.flowControl.increaseReadOff delta
  { m with
    flowControl := flowControl
    rxAlmostFull := m.rxAlmostFull || flowControl.shouldSendMaxData }

/-! ## Creating and closing streams -/

def isClosed (m : StreamMap) (streamId : ℕ) : Bool :=
  match m.get? streamId with
  | some s => s.closed
  | none =>
    !(m.concurrencyControl.isAvailable streamId m.isServer ||
      m.concurrencyControl.isLimited streamId m.isServer)

def maxStreamDataLimit (isLocal bidi : Bool) (localParams peerParams : StreamTransportParams) :
    ℕ × ℕ :=
  match isLocal, bidi with
  | true, true =>
    (localParams.initialMaxStreamDataBidiLocal, peerParams.initialMaxStreamDataBidiRemote)
  | true, false => (0, peerParams.initialMaxStreamDataUni)
  | false, true =>
    (localParams.initialMaxStreamDataBidiRemote, peerParams.initialMaxStreamDataBidiLocal)
  | false, false => (localParams.initialMaxStreamDataUni, 0)

def addEvent (m : StreamMap) (e : StreamEvent) : StreamMap :=
  { m with events := m.events.map (· ++ [e]) }

def newStream (m : StreamMap) (id : ℕ) (isLocal : Bool) : Stream :=
  let limits := maxStreamDataLimit isLocal (isBidi id) m.localTransportParams m.peerTransportParams
  Stream.new (isBidi id) isLocal limits.2 limits.1 m.maxStreamWindow

def create (m : StreamMap) (id : ℕ) (isLocal : Bool) : StreamMap :=
  let s := m.newStream id isLocal
  let bidi := isBidi id
  let m := { m with
    streams := m.streams.insert id s
    writable := if s.isWritable then insert id m.writable else m.writable
    -- the counter is shared by the streams of either opener
    nextStreamId := Function.update m.nextStreamId bidi
      (saturatingAdd (max (m.nextStreamId bidi) id) 4)
    concurrencyControl := m.concurrencyControl.removeAvailId id m.isServer }
  m.addEvent (.streamCreated id)

def getOrCreate (m : StreamMap) (id : ℕ) (opener : Bool) : StreamMap × Result Stream :=
  if vintMax < id then (m, .error .protocolViolation)
  else
    match m.get? id with
    | some s => (m, .ok s)
    | none =>
      if m.isClosed id then (m, .error .done)
      else if opener ≠ isLocal id m.isServer then (m, .error .streamStateError)
      else
        match m.concurrencyControl.checkConcurrencyLimits id m.isServer with
        | (c, .error e) => ({ m with concurrencyControl := c }, .error e)
        | (c, .ok ()) =>
          (({ m with concurrencyControl := c } : StreamMap).create id opener,
            .ok (m.newStream id opener))

def streamDestroy (m : StreamMap) (streamId : ℕ) : StreamMap :=
  match m.get? streamId with
  | none => m
  | some s =>
    { m with
      streams := m.streams.erase streamId
      destroyed := (streamId, s) :: m.destroyed }

/-- Hand the event to the endpoint, which destroys the stream; without an endpoint it
is destroyed here. -/
def announceClosed (m : StreamMap) (streamId : ℕ) : StreamMap :=
  match m.events with
  | some _ => m.addEvent (.streamClosed streamId)
  | none => m.streamDestroy streamId

def markClosed (m : StreamMap) (streamId : ℕ) (isLocal : Bool) : StreamMap :=
  if m.isClosed streamId then m
  else
    let m := { m with
      concurrencyControl :=
        if isLocal then m.concurrencyControl
        else m.concurrencyControl.increaseMaxStreamsCredits (isBidi streamId) 1 }
    let m := (m.markReadable streamId false).markWritable streamId false
    let m :=
      match m.get? streamId with
      | some s => m.setStream streamId s.markClosed
      | none => m
    m.announceClosed streamId

def closeIfDone (m : StreamMap) (streamId : ℕ) (s : Stream) : StreamMap :=
  if s.isComplete && !s.isReadable then m.markClosed streamId s.isLocal else m

end StreamMap

end Tquic
