import Tquic.Base.Double
import Tquic.Connection.Frame
import Tquic.Stream.Operations

/-!
# Writing stream frames into a packet

The part of `send_frames` that asks the stream map what to send. A frame that does not fit ends
the packet with `Done`; what the code changed before it tried to write the frame stays changed.
-/

namespace Tquic

/-- The stream map with the packet being written: the bytes of its payload so far and its frames
about streams. -/
structure Writer where
  map : StreamMap
  written : ℕ
  frames : List Frame

namespace Writer

/-- The elements of a set in the arbitrary order of a hash set: `order` if it lists the set, and
some other listing otherwise. -/
def arrange (order : List ℕ) (ids : Finset ℕ) : List ℕ :=
  if order.Nodup ∧ order.toFinset = ids then order else ids.sort (· ≤ ·)

def update (f : StreamMap → StreamMap) : Act Writer Error PUnit :=
  Act.modify fun w => { w with map := f w.map }

def writeFrameToPacket (room : ℕ) (frame : Frame) : Act Writer Error PUnit := fun w => do
  let len ← frame.wireLen
  if room < w.written + len then return (w, .error .done)
  else return ({ w with written := w.written + len, frames := w.frames ++ [frame] }, .ok ⟨⟩)

def each {α : Type} (body : α → Act Writer Error PUnit) : List α → Act Writer Error PUnit
  | [] => pure ⟨⟩
  | a :: l => do
      body a
      each body l

/-! ## Control frames -/

def writeMaxStreams (room : ℕ) (bidi : Bool) : Act Writer Error PUnit := do
  let w ← Act.get
  if w.map.concurrencyControl.shouldUpdateLocalMaxStreams bidi then do
    writeFrameToPacket room (.maxStreams bidi (w.map.concurrencyControl.localMaxStreamsNext bidi))
    update fun m => { m with
      concurrencyControl := m.concurrencyControl.updateLocalMaxStreams bidi }
  else pure ⟨⟩

def writeDataBlocked (room : ℕ) : Act Writer Error PUnit := do
  let w ← Act.get
  match w.map.sendCapacity.blockedAt with
  | none => pure ⟨⟩
  | some blockedAt => do
      writeFrameToPacket room (.dataBlocked blockedAt)
      update (·.updateDataBlockedAt none)

/-- The stream whose window was advertised: apply the limit, and give the connection
some room compared to the stream. -/
def applyMaxStreamData (now streamId : ℕ) (s : Stream) (m : StreamMap) : StreamMap :=
  let m := m.setStream streamId { s with recv := s.recv.updateMaxData now }
  let m := m.markAlmostFull streamId false
  { m with
    flowControl :=
      m.flowControl.ensureWindowLowerBound (timesThreeHalves s.recv.flowControl.window)
    rxAlmostFull := true }

def writeMaxStreamData (room now srtt streamId : ℕ) : Act Writer Error PUnit := do
  let w ← Act.get
  match w.map.get? streamId with
  | none => update (·.markAlmostFull streamId false)
  | some s => do
      -- the window is tuned even when the frame turns out not to fit
      let s := { s with recv := s.recv.autotuneWindow now srtt }
      update (·.setStream streamId s)
      writeFrameToPacket room (.maxStreamData streamId s.recv.maxDataNext)
      update (applyMaxStreamData now streamId s)

def writeMaxData (room now srtt : ℕ) : Act Writer Error PUnit := do
  let w ← Act.get
  if w.map.needSendMaxData then do
    let flowControl := w.map.flowControl.autotuneWindow now srtt
    update fun m => { m with flowControl := flowControl }
    writeFrameToPacket room (.maxData flowControl.maxDataNext)
    update fun m => { m with
      rxAlmostFull := false
      flowControl := m.flowControl.updateMaxData now }
  else pure ⟨⟩

def writeStopSending (room : ℕ) (e : ℕ × ℕ) : Act Writer Error PUnit := do
  writeFrameToPacket room (.stopSending e.1 e.2)
  update (·.markStopped e.1 false 0)

def writeResetStream (room : ℕ) (e : ℕ × ℕ × ℕ) : Act Writer Error PUnit := do
  writeFrameToPacket room (.resetStream e.1 e.2.1 e.2.2)
  update (·.markReset e.1 false 0 0)

def writeStreamDataBlocked (room : ℕ) (e : ℕ × ℕ) : Act Writer Error PUnit := do
  writeFrameToPacket room (.streamDataBlocked e.1 e.2)
  update (·.markBlocked e.1 false 0)

def writeStreamsBlocked (room : ℕ) (bidi : Bool) : Act Writer Error PUnit := do
  let w ← Act.get
  match w.map.concurrencyControl.streamsBlockedAt bidi with
  | none => pure ⟨⟩
  | some blockedAt => do
      writeFrameToPacket room (.streamsBlocked bidi blockedAt)
      update fun m => { m with
        concurrencyControl := m.concurrencyControl.updateStreamsBlockedAt bidi none }

def arrangeEntries {V : Type} (order : List ℕ) (map : SortedMap ℕ V) : List (ℕ × V) :=
  (arrange order (map.entries.map Prod.fst).toFinset).filterMap fun id =>
    (map.get? id).map fun v => (id, v)

/-- The orders in which the hash tables are walked through. -/
structure Orders where
  almostFull : List ℕ := []
  stopped : List ℕ := []
  reset : List ℕ := []
  dataBlocked : List ℕ := []

def tryWriteStreamControlFrames (room now srtt : ℕ) (orders : Orders) :
    Act Writer Error PUnit := do
  each (writeMaxStreams room) [true, false]
  writeDataBlocked room
  let w ← Act.get
  each (writeMaxStreamData room now srtt) (arrange orders.almostFull w.map.almostFull)
  writeMaxData room now srtt
  let w ← Act.get
  each (writeStopSending room) (arrangeEntries orders.stopped w.map.stopped)
  let w ← Act.get
  each (writeResetStream room) (arrangeEntries orders.reset w.map.reset)
  let w ← Act.get
  each (writeStreamDataBlocked room) (arrangeEntries orders.dataBlocked w.map.dataBlocked)
  each (writeStreamsBlocked room) [true, false]

/-! ## STREAM frames -/

/-- Write one STREAM frame for the stream peeked, with `cap` bytes left in the packet; also the
bytes left after it. -/
def writeStreamFrame (w : Writer) (cap streamId : ℕ) (s : Stream) : Exec (Writer × ℕ) := do
  let streamOff := s.send.sendOff
  let headerLen ← Frame.streamHeaderWireLen streamId streamOff
  let outLen ← Exec.sub cap headerLen
  let (send, dataLen, _, fin) ← s.send.read outLen
  let s := { s with send }
  let frameLen := headerLen + dataLen
  let cap ← Exec.sub cap frameLen
  let map := w.map.setStream streamId s
  -- a stream that has nothing more to send leaves the queue
  let map := if s.isSendable then map else map.removeSendable
  return ({ map := map
            written := w.written + frameLen
            frames := w.frames ++ [.stream streamId streamOff dataLen fin] }, cap)

def writeNextStream (s : Writer × ℕ) : Exec (Exec.Next (Writer × ℕ) Writer) := do
  let (map, next) := s.1.map.peekSendable
  let w := { s.1 with map := map }
  match next with
  | none => return .done w
  | some streamId =>
    match map.get? streamId with
    | none => return .again ({ w with map := map.removeSendable }, s.2)
    | some stream =>
      if stream.send.isStopped then return .again ({ w with map := map.removeSendable }, s.2)
      else do
        let (w, cap) ← w.writeStreamFrame s.2 streamId stream
        if cap ≤ Frame.maxStreamOverhead then return .done w else return .again (w, cap)

/-- Every round takes a stream out of the queues or writes a frame. -/
def streamRounds (w : Writer) (cap : ℕ) : ℕ :=
  (w.map.sendable.entries.map fun e =>
    e.2.nonIncremental.length + e.2.incremental.length + 1).sum + cap + 1

def tryWriteStreamFrames (room : ℕ) (w : Writer) : Exec Writer :=
  let cap := room - w.written
  if cap ≤ Frame.maxStreamOverhead then .ok w
  else Exec.loop writeNextStream (w.streamRounds cap) (w, cap)

end Writer

/-- What decides which stream frames a packet gets; its space is that of application data, for 0-RTT
or 1-RTT. -/
structure PacketRoom where
  oneRtt : Bool
  left : ℕ
  /-- The bytes taken by frames before the stream control frames. -/
  before : ℕ
  /-- The bytes taken by frames between these and the STREAM frames. -/
  between : ℕ
  now : ℕ
  srtt : ℕ
  orders : Writer.Orders := {}

/-- The frames about streams that go into the next packet, and the stream map after it.
`try_write_buffered_frames` adds nothing: no copies are buffered without the Redundant scheduler. -/
def StreamMap.sendStreamFrames (m : StreamMap) (p : PacketRoom) : Exec (StreamMap × List Frame) :=
  let w : Writer := ⟨m, p.before, []⟩
  if p.oneRtt then do
    let (w, r) ← Writer.tryWriteStreamControlFrames p.left p.now p.srtt p.orders w
    match r with
    -- the packet is sent with what was written
    | .error _ => return (w.map, w.frames)
    | .ok _ => do
        let w ← Writer.tryWriteStreamFrames p.left { w with written := w.written + p.between }
        return (w.map, w.frames)
  else do
    let w ← Writer.tryWriteStreamFrames p.left { w with written := w.written + p.between }
    return (w.map, w.frames)

end Tquic
