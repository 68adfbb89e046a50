import Tquic.Stream.Concurrency

/-!
# Frames about streams

The frames that carry stream data or control streams, as the sender records them,
and the room that they take in a packet.
-/

namespace Tquic

/-- A STREAM frame is recorded without its data. -/
inductive Frame where
  | resetStream (streamId errorCode finalSize : ℕ)
  | stopSending (streamId errorCode : ℕ)
  | stream (streamId offset length : ℕ) (fin : Bool)
  | maxData (max : ℕ)
  | maxStreamData (streamId max : ℕ)
  | maxStreams (bidi : Bool) (max : ℕ)
  | dataBlocked (max : ℕ)
  | streamDataBlocked (streamId max : ℕ)
  | streamsBlocked (bidi : Bool) (max : ℕ)
  deriving DecidableEq, Repr

namespace Frame

def maxStreamOverhead : ℕ := 19

/-- The length field of a STREAM frame always takes two octets. -/
def streamHeaderWireLen (streamId offset : ℕ) : Exec ℕ := do
  let idLen ← encodeVarintLen streamId
  let offsetLen ← encodeVarintLen offset
  return 1 + idLen + offsetLen + 2

def wireLen : Frame → Exec ℕ
  | resetStream streamId errorCode finalSize => do
      let idLen ← encodeVarintLen streamId
      let codeLen ← encodeVarintLen errorCode
      let sizeLen ← encodeVarintLen finalSize
      return 1 + idLen + codeLen + sizeLen
  | stopSending streamId errorCode => do
      let idLen ← encodeVarintLen streamId
      let codeLen ← encodeVarintLen errorCode
      return 1 + idLen + codeLen
  | stream streamId offset length _ => do
      let headerLen ← streamHeaderWireLen streamId offset
      return headerLen + length
  | maxData max | maxStreams _ max | dataBlocked max | streamsBlocked _ max => do
      let maxLen ← encodeVarintLen max
      return 1 + maxLen
  | maxStreamData streamId max | streamDataBlocked streamId max => do
      let idLen ← encodeVarintLen streamId
      let maxLen ← encodeVarintLen max
      return 1 + idLen + maxLen

/-! ## Frames that can be written have encodable values -/

theorem le_of_wireLen_maxData {n len : ℕ} (h : (maxData n).wireLen = .ok len) : n ≤ vintMax := by
  obtain ⟨maxLen, hmax, -⟩ := Exec.bind_eq_ok.mp h
  exact le_of_encodeVarintLen hmax

theorem le_of_wireLen_maxStreams {bidi : Bool} {n len : ℕ}
    (h : (maxStreams bidi n).wireLen = .ok len) : n ≤ vintMax := by
  obtain ⟨maxLen, hmax, -⟩ := Exec.bind_eq_ok.mp h
  exact le_of_encodeVarintLen hmax

theorem le_of_wireLen_maxStreamData {id n len : ℕ} (h : (maxStreamData id n).wireLen = .ok len) :
    n ≤ vintMax := by
  obtain ⟨idLen, -, h⟩ := Exec.bind_eq_ok.mp h
  obtain ⟨maxLen, hmax, -⟩ := Exec.bind_eq_ok.mp h
  exact le_of_encodeVarintLen hmax

end Frame

end Tquic
