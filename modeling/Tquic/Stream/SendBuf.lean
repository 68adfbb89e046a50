import Tquic.Error
import Tquic.Ranges
import Tquic.Stream.RangeBuf

/-!
# The send buffer of a stream

Application data waits in a queue of blocks until it is acknowledged. `read` takes lost ranges
first and new data after them; a cursor remembers the block where the next read is likely to start.
What the source leaves unchecked may panic.
-/

namespace Tquic

structure SendBuf where
  data : List RangeBuf
  pos : ℕ
  writeOff : ℕ
  unsentOff : ℕ
  unackedLen : ℕ
  maxData : ℕ
  blockedAt : Option ℕ
  finOff : Option ℕ
  shutdown : Bool
  acked : RangeSet
  retransmits : RangeSet
  error : Option ℕ

namespace SendBuf

def sendBufferSize : ℕ := 4096

def new (maxData : ℕ) : SendBuf where
  data := []
  pos := 0
  writeOff := 0
  unsentOff := 0
  unackedLen := 0
  maxData := maxData
  blockedAt := none
  finOff := none
  shutdown := false
  acked := default
  retransmits := default
  error := none

/-- The lowest offset to be sent. The source unwraps the minimum of a set found to be non-empty. -/
def sendOff (b : SendBuf) : ℕ :=
  match b.retransmits.min with
  | some off => off
  | none => b.unsentOff

def ready (b : SendBuf) : Bool := !b.data.isEmpty && b.sendOff < b.writeOff

/-- The highest offset up to which everything is acknowledged. -/
def ackOff (b : SendBuf) : ℕ :=
  match b.acked.peekMin with
  | some (0, stop) => stop
  | _ => 0

def isFin (b : SendBuf) : Bool := b.finOff = some b.writeOff

def isComplete (b : SendBuf) : Bool :=
  match b.finOff with
  | some finOff => finOff = 0 || b.acked.eqRange 0 finOff
  | none => false

def isStopped (b : SendBuf) : Bool := b.error.isSome

def updateBlockedAt (b : SendBuf) (blockedAt : Option ℕ) : SendBuf :=
  { b with blockedAt := blockedAt }

def updateMaxData (b : SendBuf) (maxData : ℕ) : SendBuf :=
  { b with maxData := max b.maxData maxData }

def capacity (b : SendBuf) : Exec (Result ℕ) :=
  match b.error with
  | some e => .ok (.error (.streamStopped e))
  | none => do
      let n ← Exec.sub b.maxData b.writeOff
      return .ok n

/-! ## Writing -/

def pushBlock (b : SendBuf) (chunk : List UInt8) (fin : Bool) : SendBuf :=
  { b with
    data := b.data ++ [RangeBuf.new chunk b.writeOff fin]
    writeOff := b.writeOff + chunk.length }

/-- One round of the loop that cuts the data into blocks: the buffer, the data left and the length
cut off. -/
def pushNext (dataLen : ℕ) (fin : Bool) :
    SendBuf × List UInt8 × ℕ → Exec (Exec.Next (SendBuf × List UInt8 × ℕ) SendBuf)
  | (b, data, len) =>
    if sendBufferSize < data.length then
      let chunk := data.take sendBufferSize
      let len := len + chunk.length
      .ok (.again (b.pushBlock chunk (len = dataLen && fin), data.drop sendBufferSize, len))
    else if !data.isEmpty then .ok (.done (b.pushBlock data fin))
    else .ok (.done b)

/-- Data past the final size, or a final size that is taken back. -/
def violatesFinalSize (b : SendBuf) (maxOff : ℕ) (fin : Bool) : Bool :=
  match b.finOff with
  | some finOff => finOff < maxOff || maxOff == finOff && !fin
  | none => false

def write (b : SendBuf) (data : List UInt8) (fin : Bool) : Exec (SendBuf × Result ℕ) := do
  let maxOff := b.writeOff + data.length
  match ← b.capacity with
  | .error e => return (b, .error e)
  | .ok capacity =>
    let fin := fin && data.length ≤ capacity
    let data := data.take capacity
    if b.violatesFinalSize maxOff fin then return (b, .error .finalSizeError)
    else
      let b := if fin then { b with finOff := some maxOff } else b
      if data.isEmpty then return (b, .ok 0)
      else
        let b ← Exec.loop (pushNext data.length fin) (data.length + 1) (b, data, 0)
        return ({ b with unackedLen := b.unackedLen + data.length }, .ok data.length)

theorem write_error {b b' : SendBuf} {data : List UInt8} {fin : Bool} {e : Error}
    (h : b.write data fin = .ok (b', .error e)) : b' = b := by
  obtain ⟨r, -, h⟩ := Exec.bind_eq_ok.mp h
  cases r with
  | error =>
    cases h
    rfl
  | ok capacity =>
    dsimp only at h
    by_cases hfinal : b.violatesFinalSize (b.writeOff + data.length)
        (fin && decide (data.length ≤ capacity)) = true
    · rw [if_pos hfinal] at h
      cases h
      rfl
    · split_ifs at h
      · cases h
      · cases h
      · obtain ⟨b₁, -, h⟩ := Exec.bind_eq_ok.mp h
        cases h
      · obtain ⟨b₁, -, h⟩ := Exec.bind_eq_ok.mp h
        cases h

/-! ## Reading -/

/-- The range to send next, and the buffer that accounts for it. -/
def pollTransmit (b : SendBuf) (maxLen : ℕ) : SendBuf × ℕ × ℕ :=
  match b.retransmits.popMin with
  | some (range, retransmits) =>
    let stop := min range.2 (range.1 + maxLen)
    let retransmits :=
      if stop ≠ range.2 then retransmits.insert stop range.2 else retransmits
    ({ b with retransmits := retransmits }, range.1, stop)
  | none =>
    let stop := min b.writeOff (b.unsentOff + maxLen)
    ({ b with unsentOff := stop }, b.unsentOff, stop)

/-- The walk of `read_range` from the cursor on: the new cursor and the bytes of the first block
with the start of the range. -/
def readBlocks : List RangeBuf → ℕ → ℕ → ℕ → Exec (ℕ × List UInt8)
  | [], pos, _, _ => .ok (pos, [])
  | segment :: rest, pos, start, stop =>
    if segment.off ≤ start ∧ start < segment.maxOff then do
      let first := start - segment.off
      let last ← Exec.sub stop segment.off
      let last := min last segment.len
      Exec.assert (first ≤ last)
      return (if last = segment.len then pos + 1 else pos, (segment.data.take last).drop first)
    else readBlocks rest (pos + 1) start stop

def readRange (b : SendBuf) (start stop : ℕ) : Exec (SendBuf × List UInt8) := do
  let (pos, bytes) ← readBlocks (b.data.drop b.pos) b.pos start stop
  return ({ b with pos := pos }, bytes)

/-- One round of the inner loop of `read`, which copies up to `stop` into an output of `outLen`
bytes. -/
def copyNext (outLen stop : ℕ) : SendBuf × ℕ × List UInt8 →
    Exec (Exec.Next (SendBuf × ℕ × List UInt8) (SendBuf × List UInt8))
  | (b, start, out) =>
    if start ≠ stop then do
      let (b, bytes) ← b.readRange start stop
      Exec.assert (out.length + bytes.length ≤ outLen)
      return .again (b, start + bytes.length, out ++ bytes)
    else return .done (b, out)

/-- One round of the outer loop of `read`: the buffer, the bytes copied, the room left and the
offset the next range must have. -/
def readNext (outLen : ℕ) : SendBuf × List UInt8 × ℕ × ℕ →
    Exec (Exec.Next (SendBuf × List UInt8 × ℕ × ℕ) (SendBuf × List UInt8 × ℕ × ℕ))
  | (b, out, cap, nextOff) =>
    if 0 < cap ∧ b.ready ∧ b.sendOff = nextOff ∧ b.sendOff < b.maxData then do
      let (b, start, stop) := b.pollTransmit cap
      let rangeLen ← Exec.sub stop start
      let (b, out) ← Exec.loop (copyNext outLen stop) (rangeLen + 1) (b, start, out)
      let cap ← Exec.sub cap rangeLen
      return .again (b, out, cap, nextOff + rangeLen)
    else return .done (b, out, cap, nextOff)

/-- `read` into an output of `outLen` bytes: the bytes written and the fin flag. The source returns
`outLen` less the room left. -/
def read (b : SendBuf) (outLen : ℕ) : Exec (SendBuf × ℕ × List UInt8 × Bool) := do
  let (b, out, cap, nextOff) ← Exec.loop (readNext outLen) (outLen + 1) (b, [], outLen, b.sendOff)
  let len ← Exec.sub outLen cap
  return (b, len, out, b.finOff = some nextOff)

/-! ## Acknowledgement and loss -/

def ack (b : SendBuf) (off len : ℕ) : SendBuf :=
  { b with acked := b.acked.insert off (off + len) }

/-- The loop that drops acknowledged blocks: the blocks left and the number
dropped. -/
def dropAcked : List RangeBuf → ℕ → ℕ → Exec (List RangeBuf × ℕ)
  | data, 0, dropBlocks => .ok (data, dropBlocks)
  | [], _ + 1, _ => .panic
  | front :: rest, toAdvance + 1, dropBlocks =>
    if front.len ≤ toAdvance + 1 then
      dropAcked rest (toAdvance + 1 - front.len) (dropBlocks + 1)
    else do
      let front ← front.advance (toAdvance + 1)
      return (front :: rest, dropBlocks)

def ackAndDrop (b : SendBuf) (off len : ℕ) : Exec SendBuf :=
  if b.data.isEmpty then .ok { b with retransmits := b.retransmits.clear }
  else
    let b := b.ack off len
    let b := { b with retransmits := b.retransmits.remove off (off + len) }
    if b.ackOff < off then .ok b
    else do
      let baseOff ← Exec.sub b.writeOff b.unackedLen
      let toAdvance ← Exec.sub b.ackOff baseOff
      let unackedLen ← Exec.sub b.unackedLen toAdvance
      let (data, dropBlocks) ← dropAcked b.data toAdvance 0
      return { b with data := data, unackedLen := unackedLen, pos := b.pos - dropBlocks }

/-- The loop of `retransmit` over the acknowledged ranges: what is left of the lost range, and the
set with the lost parts found. -/
def skipAcked : List (ℕ × ℕ) → ℕ → ℕ → RangeSet → ℕ × ℕ × RangeSet
  | [], start, stop, retransmits => (start, stop, retransmits)
  | range :: rest, start, stop, retransmits =>
    if stop ≤ range.1 then (start, stop, retransmits)
    else if range.2 ≤ start then skipAcked rest start stop retransmits
    else if start < range.1 then
      if stop ≤ range.2 then (start, range.1, retransmits)
      else skipAcked rest range.2 stop (retransmits.insert start range.1)
    else if stop ≤ range.2 then (start, start, retransmits)
    else skipAcked rest range.2 stop retransmits

def retransmit (b : SendBuf) (off len : ℕ) : SendBuf :=
  let oldSendOff := b.sendOff
  if b.data.isEmpty then b
  else if off + len ≤ b.ackOff then b
  else
    let (start, stop, retransmits) := skipAcked b.acked.iter off (off + len) b.retransmits
    let b := { b with retransmits := retransmits.insert start stop }
    if b.sendOff < oldSendOff then { b with pos := 0 } else b

/-! ## Abandoning the stream -/

def reset (b : SendBuf) : SendBuf × ℕ × ℕ :=
  let unsentLen := b.writeOff - b.unsentOff
  let b := { b with finOff := some b.unsentOff, data := [] }
  let b := b.ack 0 b.unsentOff
  ({ b with pos := 0, writeOff := b.unsentOff }, b.unsentOff, unsentLen)

def stop (b : SendBuf) (errorCode : ℕ) : SendBuf × Result (ℕ × ℕ) :=
  if b.error.isSome then (b, .error .done)
  else
    let (b, finOff, unsent) := b.reset
    ({ b with error := some errorCode }, .ok (finOff, unsent))

def shutdownSend (b : SendBuf) : SendBuf × Result (ℕ × ℕ) :=
  if b.shutdown then (b, .error .done)
  else
    let (b, finOff, unsent) := { b with shutdown := true }.reset
    (b, .ok (finOff, unsent))

end SendBuf

end Tquic
