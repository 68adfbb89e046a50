import Tquic.Base.SortedMap
import Tquic.Error
import Tquic.Connection.FlowControl
import Tquic.Stream.RangeBuf

/-!
# The receive buffer of a stream

Chunks received from the peer wait in a map, keyed by their end offset, until the application
reads them. `write` trims a new chunk, cuts it and queues the pieces until everything new is
stored.
-/

namespace Tquic

structure RecvBuf where
  data : SortedMap ℕ RangeBuf
  readOff : ℕ
  recvOff : ℕ
  finOff : Option ℕ
  error : Option ℕ
  shutdown : Bool
  flowControl : FlowControl

namespace RecvBuf

def new (maxData maxWindow : ℕ) : RecvBuf where
  data := SortedMap.empty
  readOff := 0
  recvOff := 0
  finOff := none
  error := none
  shutdown := false
  flowControl := FlowControl.new maxData maxWindow

def maxData (b : RecvBuf) : ℕ := b.flowControl.maxData

def isFin (b : RecvBuf) : Bool := b.finOff = some b.readOff

def isComplete (b : RecvBuf) : Bool := b.finOff = some b.readOff

/-- Whether the first stored chunk starts at the read offset. -/
def ready (b : RecvBuf) : Bool :=
  match b.data.first? with
  | some (_, buf) => buf.off = b.readOff
  | none => false

def shouldSendMaxData (b : RecvBuf) : Bool :=
  b.finOff.isNone && b.flowControl.shouldSendMaxData

/-! ## Writing -/

/-- The scan over the stored chunks finds a duplicate or leaves something to be stored; both carry
the queue of pieces. -/
inductive Scan where
  | covered (tmpBufs : List RangeBuf)
  | store (buf : RangeBuf) (tmpBufs : List RangeBuf)

/-- The `for` loop over the stored chunks that end at or after the new one
starts. -/
def scan : List (ℕ × RangeBuf) → RangeBuf → List RangeBuf → Exec Scan
  | [], buf, tmpBufs => .ok (.store buf tmpBufs)
  | (_, b) :: rest, buf, tmpBufs =>
    -- the new chunk ends before this stored one, and so before the later ones
    if buf.maxOff < b.off then .ok (.store buf tmpBufs)
    -- the stored chunk has all of it
    else if b.off ≤ buf.off ∧ buf.maxOff ≤ b.maxOff then .ok (.covered tmpBufs)
    -- the stored chunk has its first part
    else if b.off ≤ buf.off ∧ buf.off < b.maxOff then do
      let buf ← buf.advance (b.maxOff - buf.off)
      scan rest buf tmpBufs
    -- the stored chunk starts inside it
    else if buf.off < b.off ∧ b.off < buf.maxOff then do
      let (buf, tail) ← buf.splitOff (b.off - buf.off)
      scan rest buf (tmpBufs ++ [tail])
    else scan rest buf tmpBufs

def trim (b : RecvBuf) (buf : RangeBuf) : Exec RangeBuf :=
  if buf.off < b.readOff then buf.advance (b.readOff - buf.off) else .ok buf

/-- Chunks beyond everything received overlap nothing and are not scanned for,
except for the empty one that carries the end of the stream. -/
def scanStored (b : RecvBuf) (buf : RangeBuf) (tmpBufs : List RangeBuf) : Exec Scan :=
  if buf.off < b.recvOff ∨ buf.isEmpty then scan (b.data.rangeFrom buf.off) buf tmpBufs
  else .ok (.store buf tmpBufs)

def storeChunk (b : RecvBuf) (buf : RangeBuf) : RecvBuf :=
  let b := { b with recvOff := max b.recvOff buf.maxOff }
  if b.shutdown then b else { b with data := b.data.insert buf.maxOff buf }

/-- One round of the outer loop of `write`: the next piece of the new data. -/
def storeNext : RecvBuf × List RangeBuf → Exec (Exec.Next (RecvBuf × List RangeBuf) RecvBuf)
  | (b, []) => .ok (.done b)
  | (b, buf :: tmpBufs) => do
      let buf ← b.trim buf
      match ← b.scanStored buf tmpBufs with
      | .covered tmpBufs => return .again (b, tmpBufs)
      | .store buf tmpBufs => return .again (b.storeChunk buf, tmpBufs)

/-- The final size checks of `write`. -/
def violatesFinalSize (b : RecvBuf) (buf : RangeBuf) : Bool :=
  (match b.finOff with
    | some finOff => finOff < buf.maxOff || buf.fin && finOff != buf.maxOff
    | none => false) ||
  (buf.fin && buf.maxOff < b.recvOff)

def learnFinal (b : RecvBuf) (buf : RangeBuf) : RecvBuf :=
  if buf.fin then { b with finOff := some buf.maxOff } else b

/-- Store what is new in the chunk. Pieces queued again are shorter than the chunk they were cut
from, so its length bounds the rounds. -/
def storeNew (b : RecvBuf) (buf : RangeBuf) : Exec RecvBuf :=
  if !buf.fin && buf.isEmpty then .ok b
  else if buf.maxOff ≤ b.readOff ∧ !buf.isEmpty then .ok b
  else Exec.loop storeNext (buf.len + 2) (b, [buf])

def write (b : RecvBuf) (offset : ℕ) (data : List UInt8) (fin : Bool) :
    Exec (RecvBuf × Result Unit) :=
  let buf := RangeBuf.new data offset fin
  if b.maxData < buf.maxOff then .ok (b, .error .flowControlError)
  else if b.violatesFinalSize buf then .ok (b, .error .finalSizeError)
  else if b.isFin then .ok (b, .ok ())
  else do
    let b ← (b.learnFinal buf).storeNew buf
    return (b, .ok ())

variable {b b' : RecvBuf} {e : Error}

theorem write_error {offset : ℕ} {data : List UInt8} {fin : Bool}
    (h : b.write offset data fin = .ok (b', .error e)) :
    b' = b ∧ (e = .flowControlError ∧ b.maxData < offset + data.length ∨ e = .finalSizeError) := by
  unfold write at h
  dsimp only at h
  split_ifs at h with hmax hfinal
  · cases h
    exact ⟨rfl, .inl ⟨rfl, by simpa [RangeBuf.maxOff, RangeBuf.new, RangeBuf.len] using hmax⟩⟩
  · cases h
    exact ⟨rfl, .inr rfl⟩
  · cases h
  · obtain ⟨b₁, -, h⟩ := Exec.bind_eq_ok.mp h
    cases h

/-! ## Reading -/

/-- One round of the loop of `read`: the buffer, the bytes copied so far and the room left. -/
def readNext : RecvBuf × List UInt8 × ℕ →
    Exec (Exec.Next (RecvBuf × List UInt8 × ℕ) (RecvBuf × List UInt8))
  | (b, out, cap) =>
    if 0 < cap ∧ b.ready then
      match b.data.first? with
      | none => .ok (.done (b, out))
      | some (key, buf) =>
        let bufLen := min buf.len cap
        let b := { b with readOff := b.readOff + bufLen }
        let out := out ++ buf.data.take bufLen
        if bufLen < buf.len then do
          let buf ← buf.consume bufLen
          .ok (.done ({ b with data := b.data.insert key buf }, out))
        else .ok (.again ({ b with data := b.data.erase key }, out, cap - bufLen))
    else .ok (.done (b, out))

/-- `read` into an output of `cap` bytes: the bytes copied and the fin flag. -/
def read (b : RecvBuf) (cap : ℕ) : Exec (RecvBuf × Result (List UInt8 × Bool)) :=
  if !b.ready then .ok (b, .error .done)
  else
    match b.error with
    | some e => .ok ({ b with data := SortedMap.empty }, .error (.streamReset e))
    | none => do
        let (b, out) ← Exec.loop readNext (b.data.length + 1) (b, [], cap)
        let b := { b with flowControl := b.flowControl.increaseReadOff out.length }
        return (b, .ok (out, b.isFin))

/-! ## Abandoning the stream -/

def reset (b : RecvBuf) (errorCode finalSize : ℕ) : Exec (RecvBuf × Result ℕ) :=
  if (match b.finOff with
      | some finOff => finOff != finalSize
      | none => false) then .ok (b, .error .finalSizeError)
  else if finalSize < b.recvOff then .ok (b, .error .finalSizeError)
  else
    let maxRxOffDelta := finalSize - b.recvOff
    if b.error.isSome then .ok (b, .ok maxRxOffDelta)
    else do
      let b := { b with error := some errorCode, data := SortedMap.empty }
      let (b, res) ← b.write finalSize [] true
      match res with
      | .error e => return (b, .error e)
      | .ok () => return ({ b with readOff := finalSize }, .ok maxRxOffDelta)

variable {errorCode finalSize : ℕ}

theorem reset_error
    (h : b.reset errorCode finalSize = .ok (b', .error e)) :
    e = .flowControlError ∧ b.maxData < finalSize ∨ e = .finalSizeError := by
  unfold reset at h
  split_ifs at h
  · cases h
    exact .inr rfl
  · cases h
    exact .inr rfl
  · cases h
  · obtain ⟨⟨b₁, res⟩, hwrite, h⟩ := Exec.bind_eq_ok.mp h
    cases res with
    | ok => cases h
    | error =>
      cases h
      exact (write_error hwrite).2

theorem reset_delta {delta : ℕ}
    (h : b.reset errorCode finalSize = .ok (b', .ok delta)) : delta = finalSize - b.recvOff := by
  unfold reset at h
  split_ifs at h
  · cases h
  · cases h
  · cases h
    rfl
  · obtain ⟨⟨b₁, res⟩, -, h⟩ := Exec.bind_eq_ok.mp h
    cases res with
    | error => cases h
    | ok =>
      cases h
      rfl

def shutdownRecv (b : RecvBuf) : RecvBuf × Result ℕ :=
  if b.shutdown then (b, .error .done)
  else
    ({ b with shutdown := true, data := SortedMap.empty, readOff := b.recvOff },
      .ok (b.recvOff - b.readOff))

def updateMaxData (b : RecvBuf) (now : ℕ) : RecvBuf :=
  { b with flowControl := b.flowControl.updateMaxData now }

def maxDataNext (b : RecvBuf) : ℕ := b.flowControl.maxDataNext

def autotuneWindow (b : RecvBuf) (now srtt : ℕ) : RecvBuf :=
  { b with flowControl := b.flowControl.autotuneWindow now srtt }

end RecvBuf

end Tquic
