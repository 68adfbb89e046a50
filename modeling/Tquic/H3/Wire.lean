import Tquic.Codec

/-!
# HTTP/3 errors and QPACK integers

A QPACK integer fills the low bits of its first octet and, if these are all set, goes on
in octets of seven bits, least significant first, as long as their high bit is set.
-/

namespace Tquic.H3

inductive Http3Error where
  | noError
  | generalProtocolError
  | internalError
  | streamCreationError
  | closedCriticalStream
  | frameUnexpected
  | frameError
  | excessiveLoad
  | idError
  | settingsError
  | missingSettings
  | requestRejected
  | requestCancelled
  | requestIncomplete
  | messageError
  | connectError
  | versionFallback
  | qpackDecompressionFailed
  | qpackEncoderStreamError
  | qpackDecoderStreamError
  | transportError (e : Error)
  | streamBlocked
  | done
  deriving DecidableEq, Repr

/-! ## Prefixed integers -/

def decodeRest (val shift : ℕ) : Bytes → Except Http3Error (ℕ × Bytes)
  | [] => .error .qpackDecompressionFailed
  | byte :: buf =>
    if 64 ≤ shift then .error .qpackDecompressionFailed
    else
      -- `checked_shl` looks at the shift only; the bits shifted out are dropped.
      let val := val + byte.toNat % 128 * 2 ^ shift % 2 ^ 64
      if 2 ^ 64 ≤ val then .error .qpackDecompressionFailed
      else if byte.toNat < 128 then .ok (val, buf)
      else decodeRest val (shift + 7) buf

/-- `decode_int`: the value and the number of octets read. -/
def decodeInt (buf : Bytes) (n : ℕ) : Except Http3Error (ℕ × ℕ) :=
  match buf with
  | [] => .error (.transportError .bufferTooShort)
  | first :: rest =>
    let mask := 2 ^ n - 1
    let val := first.toNat % 2 ^ n
    if val < mask then .ok (val, 1)
    else
      (decodeRest val 0 rest).map fun (val, rest') => (val, buf.length - rest'.length)

/-- What octets of seven bits denote, up to the first without the high bit, and how many
these are. -/
def restValue : Bytes → Option (ℕ × ℕ)
  | [] => none
  | byte :: buf =>
    if byte.toNat < 128 then some (byte.toNat, 1)
    else (restValue buf).map fun r => (byte.toNat % 128 + 128 * r.1, r.2 + 1)

/-- The integer that an encoding with a prefix of `n` bits denotes, and its length. -/
def intValue (buf : Bytes) (n : ℕ) : Option (ℕ × ℕ) :=
  match buf with
  | [] => none
  | first :: rest =>
    if first.toNat % 2 ^ n < 2 ^ n - 1 then some (first.toNat % 2 ^ n, 1)
    else (restValue rest).map fun r => (2 ^ n - 1 + r.1, r.2 + 1)

theorem seven_bits_lt (b : ℕ) {i : ℕ} (hi : i ≤ 8) : b % 128 * 2 ^ (7 * i) < 2 ^ 64 := calc
  b % 128 * 2 ^ (7 * i) < 2 ^ 7 * 2 ^ (7 * i) :=
    Nat.mul_lt_mul_of_pos_right (Nat.mod_lt b (by decide)) (by positivity)
  _ = 2 ^ (7 + 7 * i) := (pow_add 2 7 (7 * i)).symm
  _ ≤ 2 ^ 64 := Nat.pow_le_pow_right (by decide) (by omega)

theorem restValue_cons {byte : UInt8} {buf : Bytes} {w k : ℕ} (hmore : ¬byte.toNat < 128)
    (h : restValue (byte :: buf) = some (w, k)) :
    ∃ w' k', restValue buf = some (w', k') ∧ w = byte.toNat % 128 + 128 * w' ∧ k = k' + 1 := by
  rw [restValue, if_neg hmore] at h
  obtain ⟨⟨w', k'⟩, hrest, heq⟩ := Option.map_eq_some_iff.mp h
  cases heq
  exact ⟨w', k', hrest, rfl, rfl⟩

/-- The last octet bounds the value from both sides. -/
theorem restValue_bounds {buf : Bytes} {w k : ℕ} (h : restValue buf = some (w, k)) :
    ∃ last, buf[k - 1]? = some last ∧ 1 ≤ k ∧ last.toNat * 2 ^ (7 * (k - 1)) ≤ w ∧
      w < (last.toNat + 1) * 2 ^ (7 * (k - 1)) := by
  induction buf generalizing w k with
  | nil => cases h
  | cons byte buf ih =>
    by_cases hlast : byte.toNat < 128
    · cases (if_pos hlast).symm.trans h
      exact ⟨byte, rfl, le_rfl, by simp, by simp⟩
    · obtain ⟨w', k', hrest, rfl, rfl⟩ := restValue_cons hlast h
      obtain ⟨last, hget, hk, hle, hlt⟩ := ih hrest
      obtain ⟨m, rfl⟩ : ∃ m, k' = m + 1 := ⟨k' - 1, by omega⟩
      refine ⟨last, hget, by omega, ?_, ?_⟩ <;> simp only [Nat.add_sub_cancel] at hle hlt ⊢ <;>
        rw [Nat.mul_succ, pow_add, ← mul_assoc] <;> omega

theorem restValue_of_decodeRest {val i v : ℕ} {buf rest : Bytes}
    (h : decodeRest val (7 * i) buf = .ok (v, rest)) :
    ∃ w k, restValue buf = some (w, k) ∧ i + k ≤ 10 := by
  induction buf generalizing val i with
  | nil => cases h
  | cons byte buf ih =>
    unfold decodeRest at h
    dsimp only at h
    split_ifs at h with hshift _ hlast
    · exact ⟨byte.toNat, 1, if_pos hlast, by omega⟩
    · obtain ⟨w, k, hvalue, hle⟩ := ih (i := i + 1) h
      refine ⟨byte.toNat % 128 + 128 * w, k + 1, ?_, by omega⟩
      rw [restValue, if_neg hlast, hvalue, Option.map_some]

/-- The sum of the octets, less what is shifted out of the tenth. -/
theorem decodeRest_ok_iff {val i v w k : ℕ} {buf rest : Bytes} {last : UInt8}
    (hvalue : restValue buf = some (w, k)) (hlast : buf[k - 1]? = some last) (hk : i + k ≤ 10) :
    decodeRest val (7 * i) buf = .ok (v, rest) ↔
      rest = buf.drop k ∧ v < 2 ^ 64 ∧
        v + (if i + k = 10 then last.toNat / 2 * 2 ^ 64 else 0) = val + w * 2 ^ (7 * i) := by
  induction buf generalizing val i w k with
  | nil => cases hvalue
  | cons byte buf ih =>
    obtain ⟨last', hlast', hpos, hlow, -⟩ := restValue_bounds hvalue
    obtain rfl : last' = last := Option.some_inj.mp (hlast'.symm.trans hlast)
    unfold decodeRest
    rw [if_neg (by omega)]
    dsimp only
    by_cases hend : byte.toNat < 128
    · cases (if_pos hend).symm.trans hvalue
      obtain rfl : byte = last' := Option.some_inj.mp hlast
      rw [if_pos hend, Nat.mod_eq_of_lt hend]
      have hkept : byte.toNat * 2 ^ (7 * i) % 2 ^ 64 +
          (if i + 1 = 10 then byte.toNat / 2 * 2 ^ 64 else 0) = byte.toNat * 2 ^ (7 * i) := by
        split_ifs with hi
        · obtain rfl : i = 9 := by omega
          omega
        · have hbits := seven_bits_lt byte.toNat (i := i) (by omega)
          rw [Nat.mod_eq_of_lt hend] at hbits
          rw [Nat.mod_eq_of_lt hbits, Nat.add_zero]
      by_cases hlarge : 2 ^ 64 ≤ val + byte.toNat * 2 ^ (7 * i) % 2 ^ 64
      · rw [if_pos hlarge]
        exact iff_of_false nofun fun ⟨_, hlt, heq⟩ => by omega
      · rw [if_neg hlarge, Except.ok.injEq, Prod.mk.injEq, List.drop_one, List.tail_cons]
        exact ⟨fun ⟨hv, hrest⟩ => ⟨hrest.symm, by omega, by omega⟩,
          fun ⟨hrest, _, hv⟩ => ⟨by omega, hrest.symm⟩⟩
    · obtain ⟨w', k', hrest, rfl, rfl⟩ := restValue_cons hend hvalue
      obtain ⟨last'', hget, hpos', hlow', -⟩ := restValue_bounds hrest
      have hget' : buf[k' - 1]? = some last' := by
        rwa [Nat.add_sub_cancel, show k' = k' - 1 + 1 by omega, List.getElem?_cons_succ] at hlast
      obtain rfl : last'' = last' := Option.some_inj.mp (hget.symm.trans hget')
      rw [if_neg hend, Nat.mod_eq_of_lt (seven_bits_lt _ (by omega))]
      have hsum : val + (byte.toNat % 128 + 128 * w') * 2 ^ (7 * i) =
          val + byte.toNat % 128 * 2 ^ (7 * i) + w' * 2 ^ (7 * (i + 1)) := by
        rw [Nat.mul_succ, pow_add]
        ring
      -- no more is shifted out than the octets that follow hold
      have hspill : (if i + (k' + 1) = 10 then last''.toNat / 2 * 2 ^ 64 else 0) ≤
          w' * 2 ^ (7 * (i + 1)) := by
        split_ifs with hten
        · calc last''.toNat / 2 * 2 ^ 64
            _ ≤ last''.toNat * 2 ^ 63 := by omega
            _ = last''.toNat * 2 ^ (7 * (k' - 1)) * 2 ^ (7 * (i + 1)) := by
                rw [mul_assoc, ← pow_add, show 7 * (k' - 1) + 7 * (i + 1) = 63 by omega]
            _ ≤ w' * 2 ^ (7 * (i + 1)) := Nat.mul_le_mul_right _ hlow'
        · exact Nat.zero_le _
      rw [hsum]
      by_cases hlarge : 2 ^ 64 ≤ val + byte.toNat % 128 * 2 ^ (7 * i)
      · rw [if_pos hlarge]
        exact iff_of_false nofun fun ⟨_, hlt, heq⟩ => by omega
      · rw [if_neg hlarge, ← Nat.mul_succ, ih hrest hget' (by omega), List.drop_succ_cons,
          Nat.add_right_comm i 1 k', Nat.add_assoc i k' 1]

/-- An encoding whose value is kept: in one of eleven octets the last is at most one, or its low
bit makes the sum overflow. -/
def Kept (buf : Bytes) (n : ℕ) : Prop :=
  ∀ w byte, intValue buf n = some (w, 11) → buf[10]? = some byte →
    byte.toNat ≤ 1 ∨ byte.toNat % 2 = 1 ∧ 2 ^ 63 ≤ w - byte.toNat * 2 ^ 63

/-- What is decoded is the integer that is encoded, exactly for the encodings whose value is
kept. -/
theorem decodeInt_eq_intValue {buf : Bytes} {n : ℕ} (hn : 1 ≤ n ∧ n ≤ 8) :
    (∀ v k, decodeInt buf n = .ok (v, k) → intValue buf n = some (v, k) ∧ v < 2 ^ 64) ↔
      Kept buf n := by
  cases buf with
  | nil => exact iff_of_true nofun nofun
  | cons first rest =>
    have hmask : first.toNat % 2 ^ n < 2 ^ n := Nat.mod_lt _ (by positivity)
    have hpow : 2 ^ n ≤ 2 ^ 8 := Nat.pow_le_pow_right (by decide) hn.2
    unfold Kept decodeInt intValue
    dsimp only
    split_ifs with hshort
    · refine iff_of_true (fun v k h => ?_) nofun
      cases h
      exact ⟨rfl, by omega⟩
    have hfull : first.toNat % 2 ^ n = 2 ^ n - 1 := by omega
    rw [hfull]
    constructor
    · intro h w byte hw hbyte
      obtain ⟨⟨w', k'⟩, hrest, heq⟩ := Option.map_eq_some_iff.mp hw
      cases heq
      obtain ⟨last, hlast, hpos, hlow, hhigh⟩ := restValue_bounds hrest
      obtain rfl : last = byte := Option.some_inj.mp (hlast.symm.trans hbyte)
      simp only [Nat.reduceSub, Nat.reduceMul] at hlow hhigh
      by_contra hnot
      -- the value without what is shifted out is accepted
      have hdecode : decodeRest (2 ^ n - 1) 0 rest =
          .ok (2 ^ n - 1 + w' - last.toNat / 2 * 2 ^ 64, rest.drop 10) :=
        (decodeRest_ok_iff (i := 0) hrest hlast le_rfl).mpr ⟨rfl, by omega, by simp; omega⟩
      rw [hdecode] at h
      have hvalue := h _ _ rfl
      rw [hrest] at hvalue
      simp at hvalue
      omega
    · intro hkept v k h
      cases hdecode : decodeRest (2 ^ n - 1) 0 rest with
      | error =>
        rw [hdecode] at h
        cases h
      | ok r =>
        rw [hdecode] at h
        cases h
        obtain ⟨w, k, hrest, hk⟩ := restValue_of_decodeRest (i := 0) hdecode
        obtain ⟨last, hlast, hpos, hlow, hhigh⟩ := restValue_bounds hrest
        obtain ⟨hdrop, hlt, hsum⟩ := (decodeRest_ok_iff (i := 0) hrest hlast hk).mp hdecode
        have hv : r.1 = 2 ^ n - 1 + w := by
          by_cases hten : k = 10
          · subst hten
            have hbyte := hkept (2 ^ n - 1 + w) last (by rw [hrest]; rfl) hlast
            simp at hlow hhigh hsum hbyte
            omega
          · simpa [hten] using hsum
        have hlen : (first :: rest).length - r.2.length = k + 1 := by
          obtain ⟨hlt, -⟩ := List.getElem?_eq_some_iff.mp hlast
          rw [hdrop, List.length_drop, List.length_cons]
          omega
        rw [hrest, hlen, hv]
        exact ⟨rfl, hv ▸ hlt⟩

theorem decodeInt_eq_intValue_small :
    (∀ v k, decodeInt [0x1f, 0x9a, 0x0a] 5 = .ok (v, k) →
      intValue [0x1f, 0x9a, 0x0a] 5 = some (v, k) ∧ v < 2 ^ 64) ↔ Kept [0x1f, 0x9a, 0x0a] 5 :=
  decodeInt_eq_intValue (by decide)

/-- The value 2 ^ 64 + 127 is taken for 127. -/
theorem decodeInt_wraps :
    let buf : Bytes := [0x7f, 0x80, 0x80, 0x80, 0x80, 0x80, 0x80, 0x80, 0x80, 0x80, 0x02]
    intValue buf 7 = some (2 ^ 64 + 127, 11) ∧ decodeInt buf 7 = .ok (127, 11) := by
  decide +kernel

end Tquic.H3
