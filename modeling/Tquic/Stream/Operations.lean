import Tquic.Stream.StreamMap

/-!
# Operations on the streams

What the application calls, what frames from the peer cause, and what happens when a frame that
was sent is acknowledged or declared lost.
-/

namespace Tquic.StreamMap

/-! ## The application -/

def streamSetPriority (m : StreamMap) (streamId urgency : ℕ) (incremental : Bool) :
    StreamMap × Result Unit :=
  match m.getOrCreate streamId true with
  | (m, .error e) => (m, if e = .done then .ok () else .error e)
  | (m, .ok s) => (m.setStream streamId { s with urgency, incremental }, .ok ())

/-- `stream_set_context`, whose context the transport does not look at. -/
def streamSetContext (m : StreamMap) (streamId : ℕ) : StreamMap × Result Unit :=
  match m.getOrCreate streamId true with
  | (m, .error e) => (m, if e = .done then .ok () else .error e)
  | (m, .ok _) => (m, .ok ())

def streamNew (m : StreamMap) (bidi : Bool) (urgency : ℕ) (incremental : Bool) :
    StreamMap × Result ℕ :=
  let streamId := m.nextStreamId bidi
  match m.streamSetPriority streamId urgency incremental with
  | (m, .ok ()) => (m, .ok streamId)
  | (m, .error e) => (m, .error e)

def streamBidiNew (m : StreamMap) (urgency : ℕ) (incremental : Bool) : StreamMap × Result ℕ :=
  m.streamNew true urgency incremental

def streamUniNew (m : StreamMap) (urgency : ℕ) (incremental : Bool) : StreamMap × Result ℕ :=
  m.streamNew false urgency incremental

def afterRead (m : StreamMap) (streamId : ℕ) (s : Stream) (read : ℕ) : StreamMap :=
  let m := m.setStream streamId s
  let m := if s.recv.shouldSendMaxData then m.markAlmostFull streamId true else m
  let m := m.consume read
  let m := if s.isReadable then m else m.markReadable streamId false
  if s.isComplete then m.markClosed streamId s.isLocal else m

def afterFailedRead (m : StreamMap) (streamId : ℕ) (s : Stream) : StreamMap :=
  let m := m.setStream streamId s
  let m := if s.isComplete then m.markClosed streamId s.isLocal else m
  m.markReadable streamId false

def streamRead (m : StreamMap) (streamId cap : ℕ) :
    Exec (StreamMap × Result (List UInt8 × Bool)) :=
  if !isBidi streamId && isLocal streamId m.isServer then .ok (m, .error .streamStateError)
  else
    match m.get? streamId with
    | none => .ok (m, .error .streamStateError)
    | some s =>
      if !s.isReadable then .ok (m, .error .done)
      else do
        let (recv, r) ← s.recv.read cap
        match r with
        | .error e => return (m.afterFailedRead streamId { s with recv }, .error e)
        | .ok (out, fin) => return (m.afterRead streamId { s with recv } out.length, .ok (out, fin))

/-- The blocked state of a stream after `written` of `bufLen` bytes were taken. -/
def noteBlocked (m : StreamMap) (streamId : ℕ) (s : Stream) (bufLen written : ℕ) : StreamMap :=
  if written < bufLen then
    if s.send.blockedAt ≠ some s.send.maxData then
      (m.setStream streamId
        { s with send := s.send.updateBlockedAt (some s.send.maxData) }).markBlocked streamId true
          s.send.maxData
    else m.setStream streamId s
  else
    (m.setStream streamId { s with send := s.send.updateBlockedAt none }).markBlocked streamId
      false 0

/-- What follows a write into the send buffer that turned `old` into `s`; `blockedByCap` says that
the capacity of the connection cut the data. -/
def afterWrite (m : StreamMap) (streamId : ℕ) (old s : Stream) (bufLen expectWritten written : ℕ)
    (fin blockedByCap : Bool) : StreamMap :=
  let emptyFin := bufLen = 0 && fin
  let m := m.noteBlocked streamId s bufLen written
  let m :=
    if (s.isSendable || emptyFin) && !old.isSendable then
      m.pushSendable streamId s.urgency s.incremental
    else m
  let m :=
    if !s.isWritable then m.markWritable streamId false
    else if old.isWritable && blockedByCap then m.markWritable streamId true
    else m
  let m := { m with
    sendCapacity := { m.sendCapacity with
      capacity := wrappingSub m.sendCapacity.capacity written
      txData := m.sendCapacity.txData + written } }
  if written < expectWritten then (m.wantWrite streamId true).1 else m

/-- The body of `stream_write` once the stream is found. -/
def writeTo (m : StreamMap) (streamId capacity : ℕ) (s : Stream) (buf : List UInt8) (fin : Bool) :
    Exec (StreamMap × Result ℕ) :=
  if capacity = 0 ∧ buf ≠ [] then
    let m := if s.isWritable then m.markWritable streamId true else m
    .ok ((m.wantWrite streamId true).1, .error .done)
  else do
    let blockedByCap : Bool := capacity < buf.length
    let fin := fin && !blockedByCap
    let data := buf.take capacity
    let (send, r) ← s.send.write data fin
    match r with
    | .error e =>
      return ((m.setStream streamId { s with send }).markWritable streamId false, .error e)
    | .ok written =>
      let m := m.afterWrite streamId s { s with send } data.length buf.length written fin
        blockedByCap
      return (m, if written = 0 ∧ 0 < data.length then .error .done else .ok written)

def noteConnBlocked (m : StreamMap) (len : ℕ) : StreamMap :=
  if m.maxTxDataLeft < len then m.updateDataBlockedAt (some m.sendCapacity.maxData) else m

def streamWrite (m : StreamMap) (streamId : ℕ) (buf : List UInt8) (fin : Bool) :
    Exec (StreamMap × Result ℕ) :=
  if !isBidi streamId && !isLocal streamId m.isServer then .ok (m, .error .streamStateError)
  else
    match (m.noteConnBlocked buf.length).getOrCreate streamId true with
    | (m', .error e) => .ok (m', .error e)
    | (m', .ok s) => m'.writeTo streamId m.sendCapacity.capacity s buf fin

/-- Data that was buffered and not sent is given back to the connection. -/
def giveBack (m : StreamMap) (unsent : ℕ) : StreamMap :=
  { m with
    sendCapacity :=
      { m.sendCapacity with txData := m.sendCapacity.txData - unsent }.updateCapacity }

def shutdownRead (m : StreamMap) (streamId : ℕ) (s : Stream) (err : ℕ) : StreamMap × Result Unit :=
  match s.recv.shutdownRecv with
  | (recv, .error e) => (m.setStream streamId { s with recv }, .error e)
  | (recv, .ok unreadLen) =>
    let m := m.setStream streamId { s with recv }
    let m := if recv.isFin then m else m.markStopped streamId true err
    ((m.markReadable streamId false).consume unreadLen, .ok ())

def shutdownWrite (m : StreamMap) (streamId : ℕ) (s : Stream) (err : ℕ) :
    StreamMap × Result Unit :=
  match s.send.shutdownSend with
  | (send, .error e) => (m.setStream streamId { s with send }, .error e)
  | (send, .ok (finalSize, unsent)) =>
    let m := (m.setStream streamId { s with send }).giveBack unsent
    ((m.markReset streamId true err finalSize).markWritable streamId false, .ok ())

def streamShutdown (m : StreamMap) (streamId : ℕ) (direction : Direction) (err : ℕ) :
    StreamMap × Result Unit :=
  match m.get? streamId, direction with
  | none, _ => (m, .error .done)
  | some s, .read =>
    if isLocal streamId m.isServer && !isBidi streamId then (m, .error .streamStateError)
    else m.shutdownRead streamId s err
  | some s, .write =>
    if !isLocal streamId m.isServer && !isBidi streamId then (m, .error .streamStateError)
    else m.shutdownWrite streamId s err

def streamCapacity (m : StreamMap) (streamId : ℕ) : Exec (Result ℕ) :=
  match m.get? streamId with
  | none => .ok (.error .streamStateError)
  | some s => do
      match ← s.send.capacity with
      | .error e => return .error e
      | .ok capacity => return .ok (min m.sendCapacity.capacity capacity)

/-- The rest of `stream_writable` once the threshold of the stream is set. -/
def raiseThreshold (m : StreamMap) (streamId : ℕ) (s : Stream) (len : ℕ) :
    Exec (StreamMap × Result Bool) := do
  match ← s.send.capacity with
  | .error e => return (m.setStream streamId s, .error e)
  | .ok capacity =>
    if capacity < len then return (m.noteBlocked streamId s len 0, .ok false)
    else if s.isWritable then
      return ((m.setStream streamId s).markWritable streamId true, .ok false)
    else return (m.setStream streamId s, .ok false)

/-- The stream has room for `len` bytes; when it has not, the threshold is set. -/
def streamWritable (m : StreamMap) (streamId len : ℕ) : Exec (StreamMap × Result Bool) := do
  match ← m.streamCapacity streamId with
  | .error e => return (m, .error e)
  | .ok capacity =>
    if len ≤ capacity then return (m, .ok true)
    else
      let s ← Exec.unwrap (m.get? streamId)
      (m.noteConnBlocked len).raiseThreshold streamId { s with writeThresh := max 1 len } len

/-! ## Frames from the peer -/

/-- A frame for a stream that is gone is ignored. -/
def unlessClosed (m : StreamMap) (e : Error) : StreamMap × Result Unit :=
  (m, if e = .done then .ok () else .error e)

def onMaxDataFrameReceived (m : StreamMap) (maxData : ℕ) : StreamMap :=
  let c := (m.sendCapacity.updateMaxData maxData).updateCapacity
  let unblocked : Bool :=
    match c.blockedAt with
    | none => true
    | some blockedAt => blockedAt < c.maxData
  { m with sendCapacity := if unblocked then { c with blockedAt := none } else c }

/-- The body of `on_max_stream_data_frame_received` once the stream is found. -/
def raiseMaxData (m : StreamMap) (streamId : ℕ) (old : Stream) (maxData : ℕ) : StreamMap :=
  let s := { old with send := old.send.updateMaxData maxData }
  let m := m.setStream streamId s
  let m :=
    if s.isSendable && !old.isSendable then m.pushSendable streamId s.urgency s.incremental else m
  if s.isWritable then m.markWritable streamId true else m

def onMaxStreamDataFrameReceived (m : StreamMap) (streamId maxData : ℕ) :
    StreamMap × Result Unit :=
  if !isLocal streamId m.isServer && !isBidi streamId then (m, .error .streamStateError)
  else
    match m.getOrCreate streamId false with
    | (m, .error e) => m.unlessClosed e
    | (m, .ok s) => (m.raiseMaxData streamId s maxData, .ok ())

def onMaxStreamsFrameReceived (m : StreamMap) (maxStreams : ℕ) (bidi : Bool) :
    StreamMap × Result Unit :=
  if maxStreamsPerType < maxStreams then (m, .error .frameEncodingError)
  else
    ({ m with concurrencyControl := m.concurrencyControl.updatePeerMaxStreams bidi maxStreams },
      .ok ())

def onStreamDataBlockedFrameReceived (m : StreamMap) (streamId : ℕ) : StreamMap × Result Unit :=
  if isLocal streamId m.isServer && !isBidi streamId then (m, .error .streamStateError)
  else (m, .ok ())

def onStreamsBlockedFrameReceived (m : StreamMap) (maxStreams : ℕ) : StreamMap × Result Unit :=
  if maxStreamsPerType < maxStreams then (m, .error .frameEncodingError) else (m, .ok ())

/-- What follows a reset of the receive buffer that turned the stream `old` into `s`. -/
def afterReset (m : StreamMap) (streamId : ℕ) (old s : Stream) (rxDelta fcDelta : ℕ) : StreamMap :=
  let m := m.setStream streamId s
  let m := if !old.isReadable && s.isReadable then m.markReadable streamId true else m
  let m := m.closeIfDone streamId s
  { m with flowControl := m.flowControl.increaseRecvOff rxDelta }.consume fcDelta

/-- The body of `on_reset_stream_frame_received` once the stream is found. -/
def resetRecv (m : StreamMap) (maxRxDataLeft streamId : ℕ) (s : Stream)
    (errorCode finalSize : ℕ) : Exec (StreamMap × Result Unit) := do
  -- what is buffered is discarded, and so counts as consumed
  let maxFcOffDelta := finalSize - s.recv.readOff
  let (recv, r) ← s.recv.reset errorCode finalSize
  match r with
  | .error e => return (m.setStream streamId { s with recv }, .error e)
  | .ok maxRxOffDelta =>
    if maxRxDataLeft < maxRxOffDelta then
      return (m.setStream streamId { s with recv }, .error .flowControlError)
    else
      return (m.afterReset streamId s { s with recv } maxRxOffDelta maxFcOffDelta, .ok ())

def onResetStreamFrameReceived (m : StreamMap) (streamId errorCode finalSize : ℕ) :
    Exec (StreamMap × Result Unit) :=
  if !isBidi streamId && isLocal streamId m.isServer then .ok (m, .error .streamStateError)
  else
    let maxRxDataLeft := m.maxRxDataLeft
    match m.getOrCreate streamId false with
    | (m, .error e) => .ok (m.unlessClosed e)
    | (m, .ok s) => m.resetRecv maxRxDataLeft streamId s errorCode finalSize

/-- The body of `on_stop_sending_frame_received` once the stream is found. -/
def stopSending (m : StreamMap) (streamId : ℕ) (old : Stream) (errorCode : ℕ) : StreamMap :=
  match old.send.stop errorCode with
  | (send, .error _) => m.setStream streamId { old with send }
  | (send, .ok (finalSize, unsent)) =>
    let m := (m.setStream streamId { old with send }).giveBack unsent
    let m := m.markReset streamId true errorCode finalSize
    if old.isWritable then m else m.markWritable streamId true

def onStopSendingFrameReceived (m : StreamMap) (streamId errorCode : ℕ) :
    StreamMap × Result Unit :=
  if !isLocal streamId m.isServer && !isBidi streamId then (m, .error .streamStateError)
  else
    match m.getOrCreate streamId false with
    | (m, .error e) => m.unlessClosed e
    | (m, .ok s) => (m.stopSending streamId s errorCode, .ok ())

/-- What follows a write into the receive buffer that turned the stream `old` into `s`. -/
def afterReceive (m : StreamMap) (streamId : ℕ) (old s : Stream) (delta : ℕ) : StreamMap :=
  let m := m.setStream streamId s
  let m := if !old.isReadable && s.isReadable then m.markReadable streamId true else m
  let m := { m with flowControl := m.flowControl.increaseRecvOff delta }
  -- what a draining stream receives is discarded, and so counts as consumed
  if old.isDraining then m.consume delta else m

/-- The body of `on_stream_frame_received` once the stream is found. -/
def receiveData (m : StreamMap) (maxRxDataLeft streamId : ℕ) (s : Stream) (offset : ℕ)
    (data : List UInt8) (fin : Bool) : Exec (StreamMap × Result Unit) :=
  let maxRxOffDelta := offset + data.length - s.recv.recvOff
  if maxRxDataLeft < maxRxOffDelta then .ok (m, .error .flowControlError)
  else do
    let (recv, r) ← s.recv.write offset data fin
    match r with
    | .error e => return (m.setStream streamId { s with recv }, .error e)
    | .ok () => return (m.afterReceive streamId s { s with recv } maxRxOffDelta, .ok ())

def onStreamFrameReceived (m : StreamMap) (streamId offset : ℕ) (data : List UInt8) (fin : Bool) :
    Exec (StreamMap × Result Unit) :=
  if isLocal streamId m.isServer &&
      (!isBidi streamId || (m.get? streamId).isNone && !m.isClosed streamId) then
    .ok (m, .error .streamStateError)
  else
    let maxRxDataLeft := m.maxRxDataLeft
    match m.getOrCreate streamId false with
    | (m, .error e) => .ok (m.unlessClosed e)
    | (m, .ok s) => m.receiveData maxRxDataLeft streamId s offset data fin

def updatePeerStreamTransportParams (m : StreamMap) (tp : StreamTransportParams) : StreamMap :=
  { m with
    peerTransportParams := tp
    sendCapacity := (m.sendCapacity.updateMaxData tp.initialMaxData).updateCapacity
    concurrencyControl :=
      (m.concurrencyControl.updatePeerMaxStreams true tp.initialMaxStreamsBidi).updatePeerMaxStreams
        false tp.initialMaxStreamsUni }

/-! ## Frames acknowledged or lost -/

def onStreamFrameAcked (m : StreamMap) (streamId offset length : ℕ) : Exec StreamMap :=
  match m.get? streamId with
  | none => .ok m
  | some s => do
      let send ← s.send.ackAndDrop offset length
      let s := { s with send }
      return (m.setStream streamId s).closeIfDone streamId s

def onResetStreamFrameAcked (m : StreamMap) (streamId : ℕ) : StreamMap :=
  match m.get? streamId with
  | none => m
  | some s => m.closeIfDone streamId s

def onStreamFrameLost (m : StreamMap) (streamId offset length : ℕ) (fin : Bool) : StreamMap :=
  match m.get? streamId with
  | none => m
  | some old =>
    let emptyFin := length = 0 && fin
    let s := { old with send := old.send.retransmit offset length }
    let m := m.setStream streamId s
    if (s.isSendable || emptyFin) && !old.isSendable then
      m.pushSendable streamId s.urgency s.incremental
    else m

def onResetStreamFrameLost (m : StreamMap) (streamId errorCode finalSize : ℕ) : StreamMap :=
  match m.get? streamId with
  | none => m
  | some _ => m.markReset streamId true errorCode finalSize

def onStopSendingFrameLost (m : StreamMap) (streamId errorCode : ℕ) : StreamMap :=
  match m.get? streamId with
  | none => m
  | some s => if s.recv.isFin then m else m.markStopped streamId true errorCode

def onMaxStreamDataFrameLost (m : StreamMap) (streamId : ℕ) : StreamMap :=
  match m.get? streamId with
  | none => m
  | some _ => m.markAlmostFull streamId true

def onMaxDataFrameLost (m : StreamMap) : StreamMap := { m with rxAlmostFull := true }

def onStreamDataBlockedFrameLost (m : StreamMap) (streamId blockedAt : ℕ) : StreamMap :=
  match m.get? streamId with
  | none => m
  | some s => if blockedAt = s.send.maxData then m.markBlocked streamId true blockedAt else m

def onDataBlockedFrameLost (m : StreamMap) (max : ℕ) : StreamMap :=
  if max = m.sendCapacity.maxData then m.updateDataBlockedAt (some max) else m

def onStreamsBlockedFrameLost (m : StreamMap) (bidi : Bool) (maxStreams : ℕ) : StreamMap :=
  if maxStreams = m.concurrencyControl.peerMaxStreams bidi then
    { m with
      concurrencyControl := m.concurrencyControl.updateStreamsBlockedAt bidi (some maxStreams) }
  else m

end Tquic.StreamMap
