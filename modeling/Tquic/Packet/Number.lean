import Tquic.Base.Word
import Tquic.Codec

/-!
# Packet numbers

The sender picks the length of a packet number from the packets that may be unknown to the
receiver, who completes the number next to the largest one it has seen. The completion is written
twice: with unbounded numbers, and with the source's 64-bit operations.
-/

namespace Tquic

open Exec BigEndian Nat

/-- The full packet number, next to the largest one so far. -/
def decodePacketNum (largestPn truncatedPn pktNumLen : ℕ) : ℕ :=
  let expectedPn := largestPn + 1
  let pnWin := 256 ^ pktNumLen
  let pnHwin := pnWin / 2
  let candidatePn := expectedPn / pnWin * pnWin + truncatedPn
  if candidatePn + pnHwin ≤ expectedPn ∧ candidatePn < 2 ^ 62 - pnWin then candidatePn + pnWin
  else if expectedPn + pnHwin < candidatePn ∧ pnWin ≤ candidatePn then candidatePn - pnWin
  else candidatePn

variable {largest len pn : ℕ} {acked : Option ℕ}

/-! ## The operations of the source -/

def addU64 (a b : ℕ) : Exec ℕ := if a + b ≤ u64Max then .ok (a + b) else .panic

/-- `1 << n` in 64 bits. -/
def oneShl (n : ℕ) : Exec ℕ := if n < 64 then .ok (2 ^ n) else .panic

/-- `decode_packet_num` with every operation checked. -/
def decodePacketNumChecked (largestPn truncatedPn pktNumLen : ℕ) : Exec ℕ := do
  let pnNbits := pktNumLen * 8
  let expectedPn ← addU64 largestPn 1
  let pnWin ← oneShl pnNbits
  let pnHwin := pnWin / 2
  let pnMask ← Exec.sub pnWin 1
  let candidatePn := (expectedPn &&& (u64Max - pnMask)) ||| truncatedPn
  let candidateEnd ← addU64 candidatePn pnHwin
  let lastWin ← Exec.sub (2 ^ 62) pnWin
  if candidateEnd ≤ expectedPn ∧ candidatePn < lastWin then addU64 candidatePn pnWin
  else do
    let expectedEnd ← addU64 expectedPn pnHwin
    if expectedEnd < candidatePn ∧ pnWin ≤ candidatePn then Exec.sub candidatePn pnWin
    else .ok candidatePn

def leadingZeros (n : ℕ) : ℕ := 64 - Nat.size n

def numUnacked (pktNum : ℕ) : Option ℕ → ℕ
  | some largestAcked => pktNum - largestAcked
  | none => saturatingAdd pktNum 1

def packetNumLen (pktNum : ℕ) (largestAcked : Option ℕ) : ℕ :=
  let minBits := 64 - leadingZeros (numUnacked pktNum largestAcked) + 1
  (minBits + 7) / 8

def encodePacketNum (pktNum len : ℕ) : Act Sink Error ℕ := do
  match len with
  | 1 => Encoder.writeU8 pktNum
  | 2 => Encoder.writeU16 pktNum
  | 3 => Encoder.writeU24 pktNum
  | 4 => Encoder.writeU32 pktNum
  | _ => Act.throw .invalidPacket
  return len

/-- The packet number field, as `decrypt_header` reads it. -/
def readPacketNum (pktNumLen : ℕ) (buf : Bytes) : Result (ℕ × Bytes) :=
  match pktNumLen with
  | 1 => Decoder.readUint 1 buf
  | 2 => Decoder.readUint 2 buf
  | 3 => Decoder.readUint 3 buf
  | 4 => Decoder.readUint 4 buf
  | _ => .error .invalidPacket

/-! ## Completion -/

theorem decodePacketNum_eq (hpn : pn < 2 ^ 62) (hlen : len ≠ 0)
    (hlow : pn ≤ largest + 1 + 256 ^ len / 2) (hhigh : largest + 1 < pn + 256 ^ len / 2) :
    decodePacketNum largest (pn % 256 ^ len) len = pn := by
  have heven : 256 ^ len = 2 * (256 ^ len / 2) := by
    obtain ⟨k, rfl⟩ := Nat.exists_eq_succ_of_ne_zero hlen
    rw [pow_succ, show 256 ^ k * 256 = 2 * (256 ^ k * 128) by ring,
      Nat.mul_div_cancel_left _ two_pos]
  have hpos : 0 < 256 ^ len := by positivity
  have hexpected := Nat.div_add_mod (largest + 1) (256 ^ len)
  have hnum := Nat.div_add_mod pn (256 ^ len)
  have hexpectedMod := Nat.mod_lt (largest + 1) hpos
  have hnumMod := Nat.mod_lt pn hpos
  simp only [decodePacketNum]
  generalize 256 ^ len = win at *
  generalize win / 2 = half at *
  generalize (largest + 1) / win = q at *
  generalize pn / win = k at *
  generalize (largest + 1) % win = r at *
  generalize pn % win = t at *
  -- the number is in the window of the expected one, or in a window next to it
  have hnear (i j : ℕ) (hlt : win * j < win * i + 2 * win) : j ≤ i + 1 := by
    by_contra hgt
    have : win * (i + 2) ≤ win * j := Nat.mul_le_mul_left win (by omega)
    have : win * (i + 2) = win * i + 2 * win := by ring
    omega
  have hle := hnear q k (by omega)
  have hge := hnear k q (by omega)
  have hcomm : q * win = win * q := mul_comm q win
  rw [hcomm]
  have hcases : k = q ∨ k = q + 1 ∨ q = k + 1 := by omega
  rcases hcases with rfl | rfl | rfl
  · rw [if_neg (by omega), if_neg (by omega)]
    exact hnum
  · have hsucc : win * (q + 1) = win * q + win := by ring
    rw [if_pos (by omega)]
    omega
  · have hsucc : win * (k + 1) = win * k + win := by ring
    rw [if_neg (by omega), if_pos (by omega)]
    omega

/-! ## The checked operations -/

theorem and_not_mask {n k : ℕ} (hn : n ≤ u64Max) (hk : k ≤ 64) :
    n &&& (u64Max - (2 ^ k - 1)) = n / 2 ^ k * 2 ^ k := by
  have hmask : u64Max - (2 ^ k - 1) = (2 ^ (64 - k) - 1) <<< k := by
    have hsplit : 2 ^ (64 - k) * 2 ^ k = 2 ^ 64 := by rw [← pow_add, Nat.sub_add_cancel hk]
    have hpos : 0 < 2 ^ k := by positivity
    rw [Nat.shiftLeft_eq, Nat.sub_mul, hsplit, u64Max]
    omega
  have hlt : n < 2 ^ 64 := by rw [u64Max] at hn; omega
  rw [hmask, ← Nat.shiftRight_eq_div_pow, ← Nat.shiftLeft_eq]
  apply Nat.eq_of_testBit_eq
  intro i
  by_cases hik : k ≤ i
  · by_cases hi : i < 64
    · simp [hik, show i - k < 64 - k by omega, Nat.add_sub_cancel' hik]
    · have hzero : n.testBit i = false :=
        Nat.testBit_lt_two_pow (hlt.trans_le (Nat.pow_le_pow_right two_pos (not_lt.mp hi)))
      simp [hzero, Nat.add_sub_cancel' hik]
  · simp [hik]

theorem addU64_eq {a b : ℕ} (h : a + b ≤ u64Max) : addU64 a b = .ok (a + b) := if_pos h

theorem decodePacketNumChecked_eq {truncated : ℕ} (hlargest : largest < 2 ^ 63) (hlen : len ≤ 4)
    (htruncated : truncated < 256 ^ len) :
    decodePacketNumChecked largest truncated len = .ok (decodePacketNum largest truncated len) := by
  have hmax : u64Max = 2 ^ 64 - 1 := rfl
  have hwin : 2 ^ (len * 8) = 256 ^ len := by rw [mul_comm, pow_mul]; norm_num
  have hsmall : 256 ^ len ≤ 2 ^ 32 :=
    (Nat.pow_le_pow_right (by norm_num) hlen).trans (by norm_num)
  have hpos : 0 < 256 ^ len := by positivity
  have hfloor : (largest + 1) / 256 ^ len * 256 ^ len ≤ largest + 1 := Nat.div_mul_le_self _ _
  have hcandidate : (largest + 1 &&& (u64Max - (256 ^ len - 1))) ||| truncated =
      (largest + 1) / 256 ^ len * 256 ^ len + truncated := by
    rw [← hwin] at htruncated ⊢
    rw [and_not_mask (by omega) (by omega), Nat.or_comm, Encoder.or_pow_eq htruncated]
  have hbound : (largest + 1) / 256 ^ len * 256 ^ len + truncated ≤ 2 ^ 63 + 2 ^ 32 := by omega
  simp only [decodePacketNumChecked, decodePacketNum, oneShl, hwin]
  rw [addU64_eq (by omega), ok_bind, if_pos (by omega : len * 8 < 64), ok_bind,
    sub_of_le hpos, ok_bind, hcandidate]
  generalize (largest + 1) / 256 ^ len * 256 ^ len + truncated = candidate at hbound ⊢
  generalize 256 ^ len = win at hsmall ⊢
  rw [addU64_eq (by omega), ok_bind, sub_of_le (by omega), ok_bind]
  by_cases hlow : candidate + win / 2 ≤ largest + 1 ∧ candidate < 2 ^ 62 - win
  · rw [if_pos hlow, if_pos hlow, addU64_eq (by omega)]
  · rw [if_neg hlow, if_neg hlow, addU64_eq (by omega), ok_bind]
    by_cases hhigh : largest + 1 + win / 2 < candidate ∧ win ≤ candidate
    · rw [if_pos hhigh, if_pos hhigh, sub_of_le hhigh.2]
    · rw [if_neg hhigh, if_neg hhigh]

/-! ## The length of an encoding -/

theorem packetNumLen_eq (h : numUnacked pn acked < 2 ^ 31) :
    packetNumLen pn acked = (size (numUnacked pn acked) + 8) / 8 := by
  have hsize : .size (numUnacked pn acked) ≤ 31 := size_le.mpr h
  simp only [packetNumLen, leadingZeros]
  omega

theorem packetNumLen_mem (h : numUnacked pn acked < 2 ^ 31) :
    1 ≤ packetNumLen pn acked ∧ packetNumLen pn acked ≤ 4 := by
  have hsize : .size (numUnacked pn acked) ≤ 31 := size_le.mpr h
  rw [packetNumLen_eq h]
  omega

theorem numUnacked_lt (h : numUnacked pn acked < 2 ^ 31) :
    numUnacked pn acked < 256 ^ packetNumLen pn acked / 2 := by
  have hone := (packetNumLen_mem h).1
  have hhalf : 256 ^ packetNumLen pn acked / 2 = 2 ^ (8 * packetNumLen pn acked - 1) := by
    have hle : 1 ≤ 8 * packetNumLen pn acked := by omega
    rw [← Nat.pow_div hle two_pos, pow_mul]
    norm_num
  rw [hhalf]
  apply (Nat.lt_size_self (numUnacked pn acked)).trans_le
  apply Nat.pow_le_pow_right two_pos
  rw [packetNumLen_eq h]
  omega

theorem le_of_numUnacked (hpn : pn < 2 ^ 62) (hacked : ∀ a ∈ acked, a ≤ largest)
    (h : numUnacked pn acked < 2 ^ 31) : pn ≤ largest + 1 + 256 ^ packetNumLen pn acked / 2 := by
  have hlt := numUnacked_lt h
  cases acked with
  | none =>
    have hnone : numUnacked pn none = pn + 1 := min_eq_left (by rw [u64Max]; omega)
    omega
  | some a =>
    have hle := hacked a rfl
    have hsome : numUnacked pn (some a) = pn - a := rfl
    omega

/-! ## Sender and receiver -/

theorem encodePacketNum_eq (hlen : 1 ≤ len ∧ len ≤ 4) (pn : ℕ) {room : ℕ} (hroom : len ≤ room) :
    encodePacketNum pn len ⟨[], room⟩ = .ok (⟨BigEndian.toBytes len pn, room - len⟩, .ok len) := by
  have hfits : (Encoder.writeUint len pn) ⟨[], room⟩ =
      .ok (⟨toBytes len pn, room - len⟩, .ok ()) := by
    have hwrites := (Encoder.writes_writeUint len pn).fits ⟨[], room⟩
    rw [length_toBytes] at hwrites
    exact hwrites hroom
  obtain ⟨hone, hfour⟩ := hlen
  interval_cases len <;> exact Act.bind_of_ok hfits

theorem readPacketNum_eq (hlen : 1 ≤ len ∧ len ≤ 4) (pn : ℕ) (buf : Bytes) :
    readPacketNum len (BigEndian.toBytes len pn ++ buf) = .ok (pn % 256 ^ len, buf) := by
  have hread : Decoder.readUint len (toBytes len pn ++ buf) = .ok (pn % 256 ^ len, buf) := by
    rw [Decoder.readUint, Decoder.read_append_of_length (length_toBytes len pn)]
    exact congrArg (fun n => Except.ok (n, buf)) (ofBytes_toBytes len pn)
  obtain ⟨hone, hfour⟩ := hlen
  interval_cases len <;> exact hread

/-- A number that is sent next to the largest acknowledged one is read back by a receiver that
expects none half a window above it. -/
theorem decodePacketNum_encodePacketNum {pn largest : ℕ} {acked : Option ℕ} (hpn : pn < 2 ^ 62)
    (hacked : ∀ a ∈ acked, a ≤ largest) (hunacked : numUnacked pn acked < 2 ^ 31)
    (hwindow : largest + 1 < pn + 256 ^ packetNumLen pn acked / 2) {room : ℕ}
    (hroom : packetNumLen pn acked ≤ room) :
    (1 ≤ packetNumLen pn acked ∧ packetNumLen pn acked ≤ 4) ∧
      ∃ sink truncated,
        encodePacketNum pn (packetNumLen pn acked) ⟨[], room⟩ =
          .ok (sink, .ok (packetNumLen pn acked)) ∧
        readPacketNum (packetNumLen pn acked) sink.written = .ok (truncated, []) ∧
        decodePacketNumChecked largest truncated (packetNumLen pn acked) = .ok pn := by
  have hlen := packetNumLen_mem hunacked
  have hlow := le_of_numUnacked hpn hacked hunacked
  have hsmall : 256 ^ packetNumLen pn acked ≤ 2 ^ 32 :=
    (Nat.pow_le_pow_right (by norm_num) hlen.2).trans (by norm_num)
  have hread := readPacketNum_eq hlen pn []
  rw [List.append_nil] at hread
  refine ⟨hlen, _, _, encodePacketNum_eq hlen pn hroom, hread, ?_⟩
  rw [decodePacketNumChecked_eq (by omega) hlen.2 (Nat.mod_lt _ (by positivity)),
    decodePacketNum_eq hpn (by omega) hlow hwindow]

theorem decodePacketNum_encodePacketNum_ten :
    ∃ sink truncated, encodePacketNum 10 (packetNumLen 10 (some 9)) ⟨[], 4⟩ =
        .ok (sink, .ok (packetNumLen 10 (some 9))) ∧
      readPacketNum (packetNumLen 10 (some 9)) sink.written = .ok (truncated, []) ∧
      decodePacketNumChecked 136 truncated (packetNumLen 10 (some 9)) = .ok 10 :=
  have hlen : packetNumLen 10 (some 9) = 1 := by decide +kernel
  (@decodePacketNum_encodePacketNum 10 136 (some 9) (by norm_num)
    (by rintro _ ⟨⟩; norm_num) (by decide +kernel) (by rw [hlen]; norm_num) 4
    (by rw [hlen]; norm_num)).2

/-- At the far end of the half window the number is taken for one of the next window. -/
theorem decodePacketNum_wraps :
    packetNumLen 10 (some 9) = 1 ∧ 9 ≤ 137 ∧ 137 < 10 + 256 ^ 1 / 2 ∧
      encodePacketNum 10 1 ⟨[], 1⟩ = .ok (⟨[10], 0⟩, .ok 1) ∧
      readPacketNum 1 [10] = .ok (10, []) ∧
      decodePacketNumChecked 137 10 1 = .ok 266 := by
  decide +kernel

end Tquic
