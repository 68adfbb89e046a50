import Tquic.Base.Sink
import Tquic.Error

/-!
# Wire data

A reader takes the octets that are left and returns its value with the octets after it, or
`BufferTooShort`. The length of a variable-length integer is in the two most significant bits of
its first octet.
-/

namespace Tquic

def vintMax : ℕ := 2 ^ 62 - 1

/-- `encode_varint_len`; larger values are not encodable. -/
def encodeVarintLen (n : ℕ) : Exec ℕ :=
  if n ≤ 63 then .ok 1
  else if n ≤ 16383 then .ok 2
  else if n ≤ 1073741823 then .ok 4
  else if n ≤ vintMax then .ok 8
  else .panic

theorem le_of_encodeVarintLen {n len : ℕ} (h : encodeVarintLen n = .ok len) : n ≤ vintMax := by
  unfold encodeVarintLen at h
  have hmax : vintMax = 4611686018427387903 := rfl
  split_ifs at h <;> omega

namespace Decoder

def readU8 : Bytes → Result (UInt8 × Bytes)
  | [] => .error .bufferTooShort
  | b :: buf => .ok (b, buf)

def read (buf : Bytes) (len : ℕ) : Result (Bytes × Bytes) :=
  if buf.length < len then .error .bufferTooShort else .ok (buf.take len, buf.drop len)

def readUint (width : ℕ) (buf : Bytes) : Result (ℕ × Bytes) := do
  let (bytes, buf) ← read buf width
  return (BigEndian.ofBytes bytes, buf)

def readU32 : Bytes → Result (ℕ × Bytes) := readUint 4

def readU64 : Bytes → Result (ℕ × Bytes) := readUint 8

def decodeVarintLen (first : UInt8) : ℕ :=
  2 ^ (first >>> 6).toNat

def readVarint (buf : Bytes) : Result (ℕ × Bytes) :=
  match buf with
  | [] => .error .bufferTooShort
  | first :: _ => do
      let len := decodeVarintLen first
      let (n, buf) ← readUint len buf
      -- The two length bits are masked off.
      return (n % 2 ^ (8 * len - 2), buf)

@[simp] theorem readU8_cons (b : UInt8) (buf : Bytes) : readU8 (b :: buf) = .ok (b, buf) := rfl

@[simp] theorem read_append (bytes buf : Bytes) :
    read (bytes ++ buf) bytes.length = .ok (bytes, buf) := by
  simp [read]

theorem read_append_of_length {bytes : Bytes} {len : ℕ} (h : bytes.length = len) (buf : Bytes) :
    read (bytes ++ buf) len = .ok (bytes, buf) := by
  rw [← h, read_append]

theorem readUint_toBytes {width n : ℕ} (h : n < 256 ^ width) (buf : Bytes) :
    readUint width (BigEndian.toBytes width n ++ buf) = .ok (n, buf) := by
  rw [readUint, read_append_of_length (BigEndian.length_toBytes width n)]
  exact congrArg (fun n => Except.ok (n, buf)) (BigEndian.ofBytes_toBytes_of_lt h)

theorem readU64_toBytes {n : ℕ} (h : n < 2 ^ 64) (buf : Bytes) :
    readU64 (BigEndian.toBytes 8 n ++ buf) = .ok (n, buf) :=
  readUint_toBytes (h.trans_le (by norm_num)) buf

end Decoder

/-! ## Writing -/

namespace Encoder

def write (src : Bytes) : Act Sink Error Unit := Sink.put .bufferTooShort src

/-- An unsigned integer on `width` octets; what does not fit is cut off. -/
def writeUint (width n : ℕ) : Act Sink Error Unit := write (BigEndian.toBytes width n)

def writeU8 (n : ℕ) : Act Sink Error Unit := writeUint 1 n

def writeU16 (n : ℕ) : Act Sink Error Unit := writeUint 2 n

def writeU24 (n : ℕ) : Act Sink Error Unit := writeUint 3 n

def writeU32 (n : ℕ) : Act Sink Error Unit := writeUint 4 n

theorem writes_writeUint (width n : ℕ) :
    Sink.Writes .bufferTooShort (writeUint width n) (BigEndian.toBytes width n) := Sink.writes_put _

theorem or_pow_eq {n k c : ℕ} (h : n < 2 ^ k) : n ||| c * 2 ^ k = c * 2 ^ k + n := by
  rw [Nat.or_comm, mul_comm c, Nat.two_pow_add_eq_or_of_lt h]

end Encoder

end Tquic
