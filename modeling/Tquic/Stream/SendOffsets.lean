import Tquic.Stream.SendBuf

/-!
# The offsets of a send buffer

How much was written, how much of it was sent, and the final size. Only a write raises what was
written, and only abandoning the stream takes back what was not sent.
-/

namespace Tquic.SendBuf

open Exec List

variable {b b' b'' : SendBuf}

def isAbandoned (b : SendBuf) : Bool := b.shutdown || b.isStopped

/-- What flow control counts for the stream: the final size announced once it is abandoned, else
what was written. -/
def counted (b : SendBuf) : ℕ := if b.isAbandoned then b.finOff.getD 0 else b.writeOff

def Unfinished (b : SendBuf) : Prop := ∀ f, b.finOff = some f → b.writeOff < f

structure Accounted (b : SendBuf) : Prop where
  unsent_le : b.unsentOff ≤ b.writeOff
  final : ∀ f, b.finOff = some f → f = b.writeOff
  abandoned : b.isAbandoned = true →
    b.finOff = some b.writeOff ∧ b.unsentOff = b.writeOff ∧ b.data = []

theorem Accounted.new (maxData : ℕ) : Accounted (SendBuf.new maxData) := ⟨le_rfl, nofun, nofun⟩

theorem Accounted.counted_eq (h : Accounted b) : b.counted = b.writeOff := by
  rw [counted]
  split_ifs with habandoned
  · rw [(h.abandoned habandoned).1]
    rfl
  · rfl

theorem Accounted.not_abandoned (h : Accounted b) (hb : b.Unfinished) : b.isAbandoned = false := by
  cases habandoned : b.isAbandoned with
  | false => rfl
  | true => exact absurd (hb b.writeOff (h.abandoned habandoned).1) (lt_irrefl _)

/-- The buffer differs in what was sent, acknowledged or allowed, and not in what was written. -/
structure Continues (b b' : SendBuf) : Prop where
  writeOff_eq : b'.writeOff = b.writeOff
  finOff_eq : b'.finOff = b.finOff
  shutdown_eq : b'.shutdown = b.shutdown
  error_eq : b'.error = b.error
  unsent : b.unsentOff ≤ b.writeOff → b.unsentOff ≤ b'.unsentOff ∧ b'.unsentOff ≤ b'.writeOff
  data_nil : b.data = [] → b'.data = []

theorem Continues.refl (b : SendBuf) : Continues b b :=
  ⟨rfl, rfl, rfl, rfl, fun hle => ⟨le_rfl, hle⟩, id⟩

theorem Continues.trans (h : Continues b b') (h' : Continues b' b'') : Continues b b'' where
  writeOff_eq := h'.writeOff_eq.trans h.writeOff_eq
  finOff_eq := h'.finOff_eq.trans h.finOff_eq
  shutdown_eq := h'.shutdown_eq.trans h.shutdown_eq
  error_eq := h'.error_eq.trans h.error_eq
  unsent hle :=
    have hfirst := h.unsent hle
    have hsecond := h'.unsent hfirst.2
    ⟨hfirst.1.trans hsecond.1, hsecond.2⟩
  data_nil hnil := h'.data_nil (h.data_nil hnil)

theorem Continues.of_same (hwrite : b'.writeOff = b.writeOff) (hunsent : b'.unsentOff = b.unsentOff)
    (hfin : b'.finOff = b.finOff) (hshutdown : b'.shutdown = b.shutdown)
    (herror : b'.error = b.error) (hnil : b.data = [] → b'.data = []) : Continues b b' := by
  refine ⟨hwrite, hfin, hshutdown, herror, fun hle => ?_, hnil⟩
  rw [hunsent, hwrite]
  exact ⟨le_rfl, hle⟩

theorem Continues.isStopped_eq (h : Continues b b') : b'.isStopped = b.isStopped := by
  rw [isStopped, isStopped, h.error_eq]

theorem Continues.isAbandoned_eq (h : Continues b b') : b'.isAbandoned = b.isAbandoned := by
  rw [isAbandoned, isAbandoned, h.shutdown_eq, h.isStopped_eq]

theorem Accounted.continues (h : Accounted b) (hb : Continues b b') : Accounted b' where
  unsent_le := (hb.unsent h.unsent_le).2
  final f hf := by
    rw [hb.finOff_eq] at hf
    rw [hb.writeOff_eq]
    exact h.final f hf
  abandoned habandoned := by
    rw [hb.isAbandoned_eq] at habandoned
    obtain ⟨hfin, hall, hnil⟩ := h.abandoned habandoned
    obtain ⟨hge, hle⟩ := hb.unsent h.unsent_le
    refine ⟨by rw [hb.finOff_eq, hb.writeOff_eq, hfin], le_antisymm hle ?_, hb.data_nil hnil⟩
    rw [hb.writeOff_eq, ← hall]
    exact hge

/-! ## Sending -/

theorem continues_pollTransmit (b : SendBuf) (maxLen : ℕ) :
    Continues b (b.pollTransmit maxLen).1 := by
  unfold pollTransmit
  cases b.retransmits.popMin with
  | none =>
    exact ⟨rfl, rfl, rfl, rfl, fun hle =>
      ⟨le_min hle (Nat.le_add_right _ _), min_le_left _ _⟩, id⟩
  | some => exact .of_same rfl rfl rfl rfl rfl id

variable {outLen n size unsent : ℕ} {out data : List UInt8} {fin : Bool}

variable {stop fuel start : ℕ} {out' : List UInt8}

theorem copy_same
    (h : Exec.loop (copyNext outLen stop) fuel (b, start, out) = .ok (b', out')) :
    ∃ p, b' = { b with pos := p } := by
  have hround : ∀ s n, (∃ p, s.1 = { b with pos := p }) → copyNext outLen stop s = .ok n →
      Exec.Next.Holds (fun s => ∃ p, s.1 = { b with pos := p })
        (fun r => ∃ p, r.1 = { b with pos := p }) n := by
    rintro ⟨b₁, start₁, out₁⟩ n ⟨p, rfl⟩ hn
    unfold copyNext at hn
    dsimp only at hn
    split_ifs at hn
    · obtain ⟨⟨b₂, bytes⟩, hread, hn⟩ := bind_eq_ok.mp hn
      obtain ⟨-, -, hn⟩ := bind_eq_ok.mp hn
      obtain ⟨⟨pos, bytes'⟩, -, hread⟩ := bind_eq_ok.mp hread
      cases hread
      cases hn
      exact ⟨pos, rfl⟩
    · cases hn
      exact ⟨p, rfl⟩
  exact loop_valid _ hround fuel _ _ ⟨b.pos, rfl⟩ h

theorem continues_copy
    (h : Exec.loop (copyNext outLen stop) fuel (b, start, out) = .ok (b', out')) :
    Continues b b' := by
  obtain ⟨p, rfl⟩ := copy_same h
  exact .of_same rfl rfl rfl rfl rfl id

/-- Reading for a packet only moves the unsent offset, and forward. -/
theorem continues_read {len : ℕ} (h : b.read outLen = .ok (b', len, out, fin)) :
    Continues b b' := by
  have hround : ∀ s n, Continues b s.1 → readNext outLen s = .ok n →
      Exec.Next.Holds (fun s => Continues b s.1) (fun r => Continues b r.1) n := by
    rintro ⟨b₁, out₁, cap, nextOff⟩ n hb hn
    unfold readNext at hn
    dsimp only at hn
    split_ifs at hn
    · obtain ⟨rangeLen, -, hn⟩ := bind_eq_ok.mp hn
      obtain ⟨⟨b₂, out₂⟩, hcopy, hn⟩ := bind_eq_ok.mp hn
      obtain ⟨cap', -, hn⟩ := bind_eq_ok.mp hn
      cases hn
      exact (hb.trans (continues_pollTransmit b₁ cap)).trans (continues_copy hcopy)
    · cases hn
      exact hb
  obtain ⟨⟨b₁, out₁, cap, nextOff⟩, hloop, h⟩ := bind_eq_ok.mp h
  obtain ⟨len', -, h⟩ := bind_eq_ok.mp h
  cases h
  exact loop_valid (fun s : SendBuf × List UInt8 × ℕ × ℕ => Continues b s.1) hround _ _ _
    (.refl b) hloop

/-! ## Acknowledgement and loss -/

theorem continues_ackAndDrop {off len : ℕ} (h : b.ackAndDrop off len = .ok b') :
    Continues b b' := by
  unfold ackAndDrop at h
  dsimp only at h
  split_ifs at h
  · cases h
    exact .of_same rfl rfl rfl rfl rfl id
  · cases h
    exact .of_same rfl rfl rfl rfl rfl id
  · next hdata _ =>
      obtain ⟨base, -, h⟩ := bind_eq_ok.mp h
      obtain ⟨toAdvance, -, h⟩ := bind_eq_ok.mp h
      obtain ⟨unacked, -, h⟩ := bind_eq_ok.mp h
      obtain ⟨r, -, h⟩ := bind_eq_ok.mp h
      cases h
      exact .of_same rfl rfl rfl rfl rfl fun hnil => absurd (isEmpty_iff.mpr hnil) hdata

theorem continues_retransmit (b : SendBuf) (off len : ℕ) : Continues b (b.retransmit off len) := by
  unfold retransmit
  dsimp only
  split_ifs
  all_goals exact .of_same rfl rfl rfl rfl rfl id

/-! ## Writing -/

/-- The buffer after `n` more bytes, with the final size of `b'`. -/
structure Extends (b : SendBuf) (n : ℕ) (b' : SendBuf) : Prop where
  writeOff_eq : b'.writeOff = b.writeOff + n
  unsentOff_eq : b'.unsentOff = b.unsentOff
  shutdown_eq : b'.shutdown = b.shutdown
  error_eq : b'.error = b.error

theorem Extends.isStopped_eq (h : Extends b n b') : b'.isStopped = b.isStopped := by
  rw [isStopped, isStopped, h.error_eq]

theorem Extends.isAbandoned_eq (h : Extends b n b') : b'.isAbandoned = b.isAbandoned := by
  rw [isAbandoned, isAbandoned, h.shutdown_eq, h.isStopped_eq]

theorem extends_push {dataLen : ℕ}
    (h : Exec.loop (pushNext dataLen fin) fuel (b, data, 0) = .ok b') :
    Extends b data.length b' ∧ b'.finOff = b.finOff := by
  -- what is in the buffer and what is left to be cut add up
  let Inv (s : SendBuf × List UInt8 × ℕ) : Prop :=
    ∃ n, n + s.2.1.length = data.length ∧ Extends b n s.1 ∧ s.1.finOff = b.finOff
  have hpush : ∀ {b₁ : SendBuf} {n : ℕ} (chunk : List UInt8) (last : Bool), Extends b n b₁ →
      Extends b (n + chunk.length) (b₁.pushBlock chunk last) := by
    intro b₁ n chunk last hb
    refine ⟨?_, hb.unsentOff_eq, hb.shutdown_eq, hb.error_eq⟩
    rw [← add_assoc, ← hb.writeOff_eq]
    rfl
  have hround : ∀ s n, Inv s → pushNext dataLen fin s = .ok n →
      Exec.Next.Holds Inv (fun r => Extends b data.length r ∧ r.finOff = b.finOff) n := by
    rintro ⟨b₁, rest, len⟩ n ⟨k, hk, hb, hfin⟩ hn
    dsimp only at hk hb hfin
    unfold pushNext at hn
    dsimp only at hn
    split_ifs at hn with hlong hempty
    · cases hn
      refine ⟨k + (rest.take sendBufferSize).length, ?_, hpush _ _ hb, hfin⟩
      rw [length_take, length_drop]
      omega
    · cases hn
      exact ⟨hk ▸ hpush rest fin hb, hfin⟩
    · cases hn
      have hnil : rest = [] := by simpa using hempty
      subst hnil
      exact ⟨hk ▸ hb, hfin⟩
  exact loop_valid Inv hround _ _ _ ⟨0, zero_add _, ⟨rfl, rfl, rfl, rfl⟩, rfl⟩ h

theorem write_cases (h : b.write data fin = .ok (b', .ok n)) :
    ∃ room, b.violatesFinalSize (b.writeOff + data.length)
        (fin && decide (data.length ≤ room)) = false ∧
      n = (data.take room).length ∧ Extends b n b' ∧ (n = 0 → b'.data = b.data) ∧
      b'.finOff = if fin && decide (data.length ≤ room) then some (b.writeOff + data.length)
        else b.finOff := by
  obtain ⟨r, -, h⟩ := bind_eq_ok.mp h
  cases r with
  | error => cases h
  | ok room =>
    dsimp only at h
    generalize hfin : (fin && decide (data.length ≤ room)) = fin' at h
    by_cases hfinal : b.violatesFinalSize (b.writeOff + data.length) fin' = true
    · rw [if_pos hfinal] at h
      cases h
    rw [if_neg hfinal] at h
    refine ⟨room, by rw [hfin]; simpa using hfinal, ?_⟩
    rw [hfin]
    -- the buffer with its final size, before any block is pushed
    generalize hb₁ : (if fin' = true then { b with finOff := some (b.writeOff + data.length) }
      else b) = b₁ at h
    have hsame : Extends b 0 b₁ ∧ b₁.data = b.data ∧ b₁.finOff =
        if fin' then some (b.writeOff + data.length) else b.finOff := by
      rw [← hb₁]
      split_ifs
      · exact ⟨⟨rfl, rfl, rfl, rfl⟩, rfl, rfl⟩
      · exact ⟨⟨rfl, rfl, rfl, rfl⟩, rfl, rfl⟩
    split_ifs at h with hempty
    · cases h
      have hnil : data.take room = [] := by simpa using hempty
      rw [hnil]
      exact ⟨rfl, hsame.1, fun _ => hsame.2.1, hsame.2.2⟩
    · obtain ⟨b₂, hloop, h⟩ := bind_eq_ok.mp h
      cases h
      obtain ⟨hb, hfinOff⟩ := extends_push hloop
      have hpos : (data.take room).length ≠ 0 := by
        intro hzero
        exact hempty (isEmpty_iff.mpr (length_eq_zero_iff.mp hzero))
      refine ⟨rfl, ⟨?_, ?_, ?_, ?_⟩, fun hzero => absurd hzero hpos, hfinOff.trans hsame.2.2⟩
      · exact hb.writeOff_eq.trans (by rw [hsame.1.writeOff_eq, add_zero])
      · exact hb.unsentOff_eq.trans hsame.1.unsentOff_eq
      · exact hb.shutdown_eq.trans hsame.1.shutdown_eq
      · exact hb.error_eq.trans hsame.1.error_eq

/-- `write` takes a part of the data and moves the write offset by it. -/
theorem Accounted.write (h : Accounted b) (hwrite : b.write data fin = .ok (b', .ok n)) :
    n ≤ data.length ∧ b'.writeOff = b.writeOff + n ∧ Accounted b' ∧
      (b.isAbandoned = true → b'.isAbandoned = true ∧ b'.finOff = b.finOff) := by
  obtain ⟨room, hfinal, hn, hb, hdata, hfinOff⟩ := write_cases hwrite
  have hle : n ≤ data.length := by
    rw [hn, length_take]
    exact min_le_right _ _
  have habandoned := hb.isAbandoned_eq
  have hunsent : b'.unsentOff ≤ b'.writeOff := by
    rw [hb.unsentOff_eq, hb.writeOff_eq]
    exact h.unsent_le.trans (Nat.le_add_right _ _)
  cases hf : b.finOff with
  | none =>
    have hopen : b.isAbandoned = false := by
      cases habandon : b.isAbandoned with
      | false => rfl
      | true =>
        rw [(h.abandoned habandon).1] at hf
        cases hf
    rw [hf] at hfinOff
    refine ⟨hle, hb.writeOff_eq, ⟨hunsent, ?_, ?_⟩, ?_⟩
    · intro f hf'
      rw [hfinOff] at hf'
      split_ifs at hf' with hlast
      have hroom : data.length ≤ room := by
        simpa using (Bool.and_eq_true_iff.mp hlast).2
      rw [take_of_length_le hroom] at hn
      rw [hb.writeOff_eq, hn]
      exact (Option.some.inj hf').symm
    · intro habandon
      rw [habandoned, hopen] at habandon
      cases habandon
    · intro habandon
      rw [hopen] at habandon
      cases habandon
  | some f =>
    -- only an empty write that repeats the final size is accepted
    obtain rfl := h.final f hf
    rw [violatesFinalSize, hf] at hfinal
    have hempty : data.length = 0 := by
      by_contra hpos
      have hlt : b.writeOff < b.writeOff + data.length := by omega
      simp [hlt] at hfinal
    have hzero : n = 0 := by omega
    have hsame : b'.finOff = some b.writeOff := by
      rw [hfinOff, hempty, hf]
      split_ifs
      · rfl
      · rfl
    have hwritten : b'.writeOff = b.writeOff := by rw [hb.writeOff_eq, hzero, add_zero]
    refine ⟨hle, hb.writeOff_eq, ⟨hunsent, ?_, ?_⟩, ?_⟩
    · intro f' hf'
      rw [hsame] at hf'
      rw [hwritten]
      exact (Option.some.inj hf').symm
    · intro habandon
      rw [habandoned] at habandon
      obtain ⟨-, hall, hnil⟩ := h.abandoned habandon
      exact ⟨by rw [hsame, hwritten], by rw [hb.unsentOff_eq, hwritten, hall],
        (hdata hzero).trans hnil⟩
    · intro habandon
      exact ⟨habandoned.trans habandon, hsame⟩

theorem unfinished_of_write (h : b.write data fin = .ok (b', .ok n)) (hshort : n < data.length) :
    b'.Unfinished := by
  obtain ⟨room, hfinal, hn, hb, -, hfinOff⟩ := write_cases h
  have hroom : ¬data.length ≤ room := by
    rw [length_take] at hn
    omega
  rw [decide_eq_false hroom, Bool.and_false] at hfinal hfinOff
  intro f hf
  have hf' : b.finOff = some f := hfinOff.symm.trans hf
  rw [violatesFinalSize, hf'] at hfinal
  simp only [Bool.or_eq_false_iff, decide_eq_false_iff_not] at hfinal
  rw [hb.writeOff_eq]
  omega

/-! ## Abandoning the stream -/

/-- The stream is abandoned: what was not sent is taken back, and `size` is announced. -/
structure Abandons (b b' : SendBuf) (size unsent : ℕ) : Prop where
  unsent_eq : unsent = b.writeOff - b.unsentOff
  size_eq : size = b.unsentOff
  writeOff_eq : b'.writeOff = b.unsentOff
  unsentOff_eq : b'.unsentOff = b.unsentOff
  finOff_eq : b'.finOff = some b.unsentOff
  abandoned : b'.isAbandoned = true
  data_nil : b'.data = []

variable {code : ℕ}

theorem abandons_stop (h : b.stop code = (b', .ok (size, unsent))) : Abandons b b' size unsent := by
  unfold stop at h
  split_ifs at h
  · cases h
  · cases h
    exact ⟨rfl, rfl, rfl, rfl, rfl, Bool.or_true _, rfl⟩

theorem isStopped_stop {r : ℕ × ℕ} (h : b.stop code = (b', .ok r)) : b'.isStopped = true := by
  unfold stop at h
  split_ifs at h
  · cases h
  · cases h
    rfl

variable {e : Error}

theorem stop_error (h : b.stop code = (b', .error e)) : b' = b := by
  unfold stop at h
  split_ifs at h
  · exact (congrArg Prod.fst h).symm
  · cases h

theorem abandons_shutdownSend (h : b.shutdownSend = (b', .ok (size, unsent))) :
    Abandons b b' size unsent := by
  unfold shutdownSend at h
  split_ifs at h
  · cases h
  · cases h
    exact ⟨rfl, rfl, rfl, rfl, rfl, rfl, rfl⟩

theorem shutdownSend_error (h : b.shutdownSend = (b', .error e)) : b' = b := by
  unfold shutdownSend at h
  split_ifs at h
  · exact (congrArg Prod.fst h).symm
  · cases h

theorem Abandons.accounted (h : Abandons b b' size unsent) : Accounted b' where
  unsent_le := by rw [h.unsentOff_eq, h.writeOff_eq]
  final f hf := by
    rw [h.finOff_eq] at hf
    rw [h.writeOff_eq]
    exact (Option.some.inj hf).symm
  abandoned _ := by
    rw [h.finOff_eq, h.writeOff_eq]
    exact ⟨rfl, h.unsentOff_eq, h.data_nil⟩

theorem Abandons.finOff_again (h : Abandons b b' size unsent) (hb : Accounted b)
    (habandoned : b.isAbandoned = true) : b'.finOff = b.finOff := by
  obtain ⟨hfin, hall, -⟩ := hb.abandoned habandoned
  rw [h.finOff_eq, hfin, hall]

theorem Accounted.not_ready (h : Accounted b) (habandoned : b.isAbandoned = true) :
    b.ready = false := by
  rw [ready, (h.abandoned habandoned).2.2]
  rfl

end Tquic.SendBuf
