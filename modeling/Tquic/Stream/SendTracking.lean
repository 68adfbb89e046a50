import Tquic.Stream.SendBlocks

/-!
# What a send buffer tracks

The invariant `Tracked` ties the blocks, the two range sets, the three offsets and the cursor of a
send buffer to the bytes that the application has written. Each operation returns and keeps it.
-/

namespace Tquic.SendBuf

open Exec List RangeSet

variable {app : List UInt8} {b : SendBuf}

/-! ## The offsets -/

theorem sendOff_cases (b : SendBuf) :
    ((∀ x, x ∉ b.retransmits) ∧ b.sendOff = b.unsentOff) ∨
      (b.sendOff ∈ b.retransmits ∧ ∀ x ∈ b.retransmits, b.sendOff ≤ x) := by
  rw [sendOff]
  cases hmin : b.retransmits.min with
  | none => exact .inl ⟨min_eq_none_iff.mp hmin, rfl⟩
  | some => exact .inr (min_eq_some hmin)

theorem le_sendOff {x : ℕ} (hlost : ∀ y ∈ b.retransmits, x ≤ y) (hunsent : x ≤ b.unsentOff) :
    x ≤ b.sendOff := by
  rcases b.sendOff_cases with ⟨-, heq⟩ | ⟨hmem, -⟩
  · exact heq ▸ hunsent
  · exact hlost _ hmem

theorem ackOff_spec (b : SendBuf) : (∀ x < b.ackOff, x ∈ b.acked) ∧ b.ackOff ∉ b.acked := by
  rw [ackOff]
  cases hmin : b.acked.peekMin with
  | none =>
    exact ⟨fun x hx => absurd hx (Nat.not_lt_zero x), peekMin_eq_none_iff.mp hmin 0⟩
  | some e =>
    obtain ⟨start, stop⟩ := e
    obtain ⟨-, hmem, hle, hnext⟩ := peekMin_eq_some hmin
    cases start with
    | zero => exact ⟨fun x hx => hmem x (Nat.zero_le x) hx, hnext⟩
    | succ start =>
      refine ⟨fun x hx => absurd hx (Nat.not_lt_zero x), fun h => ?_⟩
      exact absurd (hle 0 h) (Nat.not_succ_le_zero start)

def baseOff (b : SendBuf) : ℕ := b.writeOff - b.unackedLen

structure Tracked (app : List UInt8) (b : SendBuf) : Prop where
  writeOff_eq : b.writeOff = app.length
  write_le : b.writeOff ≤ b.maxData
  max_lt : b.maxData < 2 ^ 64
  unsent_le : b.unsentOff ≤ b.writeOff
  unacked_le : b.unackedLen ≤ b.writeOff
  blocks : Contiguous app b.baseOff b.data b.writeOff
  acked : b.acked.Below b.unsentOff
  lost : b.retransmits.Below b.unsentOff
  not_both : ∀ x ∈ b.retransmits, x ∉ b.acked
  base_acked : ∀ x < b.baseOff, x ∈ b.acked
  base_not_acked : b.baseOff ∉ b.acked
  cursor : Cursor b b.sendOff
  fin : ∀ f, b.finOff = some f → f = b.writeOff
  noError : b.error = none

theorem Tracked.new (maxData : ℕ) (hmax : maxData < 2 ^ 64) : Tracked [] (SendBuf.new maxData) where
  writeOff_eq := rfl
  write_le := Nat.zero_le _
  max_lt := hmax
  unsent_le := le_rfl
  unacked_le := le_rfl
  blocks := rfl
  acked := .new _
  lost := .new _
  not_both _ hx := absurd hx (not_mem_new _ _)
  base_acked _ hx := absurd hx (Nat.not_lt_zero _)
  base_not_acked := not_mem_new _ _
  cursor := ⟨le_rfl, fun _ ht => absurd ht not_mem_nil⟩
  fin _ h := nomatch h
  noError := rfl

section

variable (h : Tracked app b)

include h

theorem Tracked.unsent_lt : b.unsentOff < 2 ^ 64 :=
  (h.unsent_le.trans h.write_le).trans_lt h.max_lt

theorem Tracked.base_le_unsent : b.baseOff ≤ b.unsentOff := by
  by_contra hlt
  exact lt_irrefl _ (h.acked.lt _ (h.base_acked _ (not_le.mp hlt)))

theorem Tracked.send_le_unsent : b.sendOff ≤ b.unsentOff := by
  rcases b.sendOff_cases with ⟨-, heq⟩ | ⟨hmem, -⟩
  · exact heq.le
  · exact (h.lost.lt _ hmem).le

theorem Tracked.base_le_send : b.baseOff ≤ b.sendOff := by
  rcases b.sendOff_cases with ⟨-, heq⟩ | ⟨hmem, -⟩
  · exact heq ▸ h.base_le_unsent
  · by_contra hlt
    exact h.not_both _ hmem (h.base_acked _ (not_le.mp hlt))

theorem Tracked.base_eq_of_empty (hdata : b.data = []) : b.baseOff = b.writeOff := by
  have := h.blocks
  rw [hdata] at this
  exact this

end

/-! ## Writing -/

def accepted (data : List UInt8) : Result ℕ → List UInt8
  | .ok n => data.take n
  | .error _ => []

theorem Tracked.append (h : Tracked app b) {data : List UInt8} {ts : List RangeBuf}
    (hblocks : Contiguous (app ++ data) b.baseOff (b.data ++ ts) (app ++ data).length)
    (hle : (app ++ data).length ≤ b.maxData) {finOff : Option ℕ}
    (hfin : ∀ f, finOff = some f → f = (app ++ data).length) :
    Tracked (app ++ data) { b with
      data := b.data ++ ts, writeOff := (app ++ data).length
      unackedLen := b.unackedLen + data.length, finOff := finOff } := by
  have hoff := h.writeOff_eq
  have hunsent := h.unsent_le
  have hunacked := h.unacked_le
  have hlen : (app ++ data).length = app.length + data.length := length_append
  have hbase : (app ++ data).length - (b.unackedLen + data.length) = b.baseOff := by
    rw [baseOff]
    omega
  refine ⟨rfl, hle, h.max_lt, by dsimp only; omega, by dsimp only; omega, ?_, h.acked, h.lost,
    h.not_both, ?_, ?_, ⟨?_, ?_⟩, hfin, h.noError⟩
  · simp only [baseOff, hbase]
    exact hblocks
  · simp only [baseOff, hbase]
    exact h.base_acked
  · simp only [baseOff, hbase]
    exact h.base_not_acked
  · have := h.cursor.le
    simp only [length_append]
    omega
  · simp only [take_append_of_le_length h.cursor.le]
    exact h.cursor.behind

theorem write_returns (h : Tracked app b) (data : List UInt8) (fin : Bool) :
    (b.write data fin).Returns fun r =>
      Tracked (app ++ accepted data r.2) r.1 ∧ r.1.unsentOff = b.unsentOff ∧
        r.1.acked = b.acked ∧ r.1.retransmits = b.retransmits := by
  have hcap : b.capacity = .ok (.ok (b.maxData - b.writeOff)) := by
    simp [capacity, h.noError, sub_of_le h.write_le]
  have hoff := h.writeOff_eq
  simp only [write, hcap, ok_bind]
  generalize hroom : b.maxData - b.writeOff = room
  generalize hfin' : (fin && decide (data.length ≤ room)) = fin'
  -- the flag survives only when all of the data fits
  have hall : fin' = true → data.take room = data := by
    intro hset
    rw [← hfin', Bool.and_eq_true, decide_eq_true_eq] at hset
    exact take_of_length_le hset.2
  by_cases hfinal : b.violatesFinalSize (b.writeOff + data.length) fin' = true
  · rw [if_pos hfinal]
    exact .intro ⟨by simpa [accepted] using h, rfl, rfl, rfl⟩
  rw [if_neg hfinal]
  by_cases hempty : data.take room = []
  · rw [if_pos (by simp [hempty])]
    have hset : Tracked app (if fin' = true then
        { b with finOff := some (b.writeOff + data.length) } else b) := by
      by_cases hset : fin' = true
      · have hnil : data = [] := (hall hset).symm.trans hempty
        rw [if_pos hset, hnil, length_nil, add_zero]
        exact ⟨h.writeOff_eq, h.write_le, h.max_lt, h.unsent_le, h.unacked_le, h.blocks, h.acked,
          h.lost, h.not_both, h.base_acked, h.base_not_acked, ⟨h.cursor.le, h.cursor.behind⟩,
          fun f hf => (Option.some.inj hf).symm, h.noError⟩
      · rw [if_neg hset]
        exact h
    refine .intro ⟨by simpa [accepted] using hset, ?_, ?_, ?_⟩ <;>
      cases fin' <;> rfl
  · rw [if_neg (by simpa using hempty)]
    have hpos : 0 < (data.take room).length := length_pos_iff.mpr hempty
    have hlen : (data.take room).length = min room data.length := length_take
    have hnone : b.finOff = none := by
      cases hf : b.finOff with
      | none => rfl
      | some f =>
        have := h.fin f hf
        have hlt : f < b.writeOff + data.length := by omega
        simp [violatesFinalSize, hf, hlt] at hfinal
    generalize hb₁ : (if fin' = true then
      { b with finOff := some (b.writeOff + data.length) } else b) = b₁
    have hb₁' : b₁ = { b with
        finOff := if fin' = true then some (b.writeOff + data.length) else none } := by
      rw [← hb₁]
      cases fin' with
      | true => rfl
      | false => simp [← hnone]
    have hblocks₁ : Contiguous app b.baseOff b₁.data b₁.writeOff := by
      rw [hb₁']
      exact h.blocks
    have hoff₁ : b₁.writeOff = app.length := by
      rw [hb₁']
      exact hoff
    apply (pushAll_returns hblocks₁ hoff₁ (data.take room).length fin').bind
    rintro b₂ ⟨⟨⟨ts, hsame⟩, hblocks⟩, hoff₂⟩
    rw [hsame, hoff₂, hb₁'] at hblocks
    have hfinOff : ∀ f, (if fin' = true then some (b.writeOff + data.length) else none) = some f →
        f = (app ++ data.take room).length := by
      intro f hf
      by_cases hset : fin' = true
      · rw [if_pos hset] at hf
        rw [hall hset, length_append, ← Option.some.inj hf, hoff]
      · rw [if_neg hset] at hf
        cases hf
    have hadd := h.append hblocks (by rw [length_append]; omega) hfinOff
    have htake : data.take (data.take room).length = data.take room := by
      rw [hlen, ← take_eq_take_min]
    rw [hsame, hoff₂, hb₁']
    exact .intro ⟨by simpa only [accepted, htake] using hadd, rfl, rfl, rfl⟩

/-! ## Reading -/

/-- What a read from `off` to `stop` has done to the sets and the offsets. -/
structure Emitted (b b' : SendBuf) (off stop : ℕ) : Prop where
  writeOff_eq : b'.writeOff = b.writeOff
  maxData_eq : b'.maxData = b.maxData
  finOff_eq : b'.finOff = b.finOff
  acked_eq : b'.acked = b.acked
  lost : ∀ x, x ∈ b.retransmits → x ∈ b'.retransmits ∨ off ≤ x ∧ x < stop
  unsent_le : b.unsentOff ≤ b'.unsentOff
  unsent : ∀ x, b.unsentOff ≤ x → x < b'.unsentOff → off ≤ x ∧ x < stop
  stop_le : stop ≤ b'.unsentOff

theorem Emitted.refl (h : Tracked app b) : Emitted b b b.sendOff b.sendOff :=
  ⟨rfl, rfl, rfl, rfl, fun _ hx => .inl hx, le_rfl, fun _ h₁ h₂ => absurd h₂ (not_lt.mpr h₁),
    h.send_le_unsent⟩

theorem Emitted.trans {b' b'' : SendBuf} {off mid stop : ℕ} (h : Emitted b b' off mid)
    (h' : Emitted b' b'' mid stop) (h₁ : off ≤ mid) (h₂ : mid ≤ stop) : Emitted b b'' off stop where
  writeOff_eq := h'.writeOff_eq.trans h.writeOff_eq
  maxData_eq := h'.maxData_eq.trans h.maxData_eq
  finOff_eq := h'.finOff_eq.trans h.finOff_eq
  acked_eq := h'.acked_eq.trans h.acked_eq
  lost x hx := by
    rcases h.lost x hx with hx | hx
    · exact (h'.lost x hx).imp_right (by omega)
    · exact .inr (by omega)
  unsent_le := h.unsent_le.trans h'.unsent_le
  unsent x hx hx' := by
    by_cases hlt : x < b'.unsentOff
    · have := h.unsent x hx hlt
      omega
    · have := h'.unsent x (not_lt.mp hlt) hx'
      omega
  stop_le := h'.stop_le

/-- The next range starts at the send offset, is not empty, and is taken out of what is to be sent;
the buffer is in order when the cursor has not passed the end of the range. -/
theorem pollTransmit_spec (h : Tracked app b) (hready : b.sendOff < b.writeOff) {maxLen : ℕ}
    (hlen : 0 < maxLen) {b' : SendBuf} {start stop : ℕ}
    (heq : b.pollTransmit maxLen = (b', start, stop)) :
    start = b.sendOff ∧ start < stop ∧ stop ≤ start + maxLen ∧ stop ≤ b.writeOff ∧
      b'.data = b.data ∧ b'.pos = b.pos ∧ Emitted b b' start stop ∧
      ∀ p, Cursor { b' with pos := p } stop → Tracked app { b' with pos := p } := by
  have hunsent := h.unsent_le
  rw [pollTransmit] at heq
  cases hpop : b.retransmits.popMin with
  | none =>
    have hnone := popMin_eq_none_iff.mp hpop
    simp only [hpop] at heq
    obtain ⟨rfl, rfl, rfl⟩ := heq
    have hsend : b.sendOff = b.unsentOff := by
      rcases b.sendOff_cases with ⟨-, hsend⟩ | ⟨hmem, -⟩
      · exact hsend
      · exact absurd hmem (hnone _)
    refine ⟨hsend.symm, by omega, by omega, by omega, rfl, rfl, ?_, fun p hcursor => ?_⟩
    · exact ⟨rfl, rfl, rfl, rfl, fun x hx => absurd hx (hnone x), by dsimp only; omega,
        fun x h₁ h₂ => ⟨h₁, h₂⟩, le_rfl⟩
    · refine ⟨h.writeOff_eq, h.write_le, h.max_lt, by dsimp only; omega, h.unacked_le, h.blocks,
        h.acked.mono (by dsimp only; omega), h.lost.mono (by dsimp only; omega), h.not_both,
        h.base_acked, h.base_not_acked, hcursor.mono ?_, h.fin, h.noError⟩
      exact le_sendOff (fun x hx => absurd hx (hnone x)) le_rfl
  | some popped =>
    obtain ⟨range, rest⟩ := popped
    obtain ⟨hpeek, hcap, hrest⟩ := popMin_eq_some hpop
    obtain ⟨hne, hrange, hmin, -⟩ := peekMin_eq_some hpeek
    have hlt : ∀ x, range.1 ≤ x → x < range.2 → x < b.unsentOff :=
      fun x h₁ h₂ => h.lost.lt x (hrange x h₁ h₂)
    have hsend : b.sendOff = range.1 := by
      rcases b.sendOff_cases with ⟨hnone, -⟩ | ⟨hmem, hle⟩
      · exact absurd (hrange range.1 le_rfl hne) (hnone _)
      · exact le_antisymm (hle _ (hrange range.1 le_rfl hne)) (hmin _ hmem)
    have hbelow : rest.Below b.unsentOff :=
      ⟨hcap.trans h.lost.capacity, fun x hx => h.lost.lt x ((hrest x).mp hx).1⟩
    have hlast := hlt (range.2 - 1) (by omega) (by omega)
    simp only [hpop] at heq
    obtain ⟨rfl, rfl, rfl⟩ := heq
    -- what stays queued is what the range does not take
    generalize hcut : (if min range.2 (range.1 + maxLen) ≠ range.2 then
      rest.insert (min range.2 (range.1 + maxLen)) range.2 else rest) = rest'
    have hrest' : ∀ x, x ∈ rest' ↔ x ∈ b.retransmits ∧
        ¬ (range.1 ≤ x ∧ x < min range.2 (range.1 + maxLen)) := by
      intro x
      rw [← hcut]
      split_ifs with hpart
      · rw [hbelow.mem_insert h.unsent_lt, hrest]
        constructor
        · rintro (hx | hx)
          · exact ⟨hx.1, by omega⟩
          · exact ⟨hrange x (by omega) hx.2, by omega⟩
        · rintro ⟨hx, hout⟩
          by_cases hx' : range.1 ≤ x ∧ x < range.2
          · exact .inr (by omega)
          · exact .inl ⟨hx, hx'⟩
      · rw [hrest, not_not.mp hpart]
    have hbelow' : rest'.Below b.unsentOff := by
      rw [← hcut]
      split_ifs
      · exact hbelow.insert h.unsent_lt fun x h₁ h₂ => hlt x (by omega) h₂
      · exact hbelow
    refine ⟨hsend.symm, by omega, by omega, by omega, rfl, rfl, ?_, fun p hcursor => ?_⟩
    · refine ⟨rfl, rfl, rfl, rfl, fun x hx => ?_, le_rfl,
        fun x h₁ h₂ => absurd h₂ (not_lt.mpr h₁), by dsimp only; omega⟩
      by_cases hin : range.1 ≤ x ∧ x < min range.2 (range.1 + maxLen)
      · exact .inr hin
      · exact .inl ((hrest' x).mpr ⟨hx, hin⟩)
    · refine ⟨h.writeOff_eq, h.write_le, h.max_lt, h.unsent_le, h.unacked_le, h.blocks, h.acked,
        hbelow', fun x hx => h.not_both x ((hrest' x).mp hx).1, h.base_acked, h.base_not_acked,
        hcursor.mono ?_, h.fin, h.noError⟩
      refine le_sendOff (fun x hx => ?_) (by dsimp only; omega)
      obtain ⟨hx, hout⟩ := (hrest' x).mp hx
      have := hmin x hx
      omega

/-- The state of the outer loop of `read`, which started from `b₀` with room for
`outLen` bytes. -/
structure Reading (app : List UInt8) (b₀ : SendBuf) (outLen : ℕ)
    (s : SendBuf × List UInt8 × ℕ × ℕ) : Prop where
  tracked : Tracked app s.1
  emitted : Emitted b₀ s.1 b₀.sendOff s.2.2.2
  le_next : b₀.sendOff ≤ s.2.2.2
  next_le : s.2.2.2 ≤ b₀.writeOff
  out_eq : s.2.1 = (app.drop b₀.sendOff).take (s.2.2.2 - b₀.sendOff)
  room : s.2.1.length + s.2.2.1 = outLen

theorem readNext_returns {b₀ : SendBuf} {outLen : ℕ} {s : SendBuf × List UInt8 × ℕ × ℕ}
    (h : Reading app b₀ outLen s) : (readNext outLen s).Returns
      (Next.Holds (fun s' => Reading app b₀ outLen s' ∧ s'.2.2.1 < s.2.2.1)
        (Reading app b₀ outLen)) := by
  obtain ⟨b, out, cap, nextOff⟩ := s
  simp only [readNext]
  split_ifs with hgo
  · obtain ⟨hcap, hready, rfl, -⟩ := hgo
    have hb : Tracked app b := h.tracked
    have hemitted : Emitted b₀ b b₀.sendOff b.sendOff := h.emitted
    have hle : b₀.sendOff ≤ b.sendOff := h.le_next
    have hout : out = (app.drop b₀.sendOff).take (b.sendOff - b₀.sendOff) := h.out_eq
    have hroom : out.length + cap = outLen := h.room
    have hlt : b.sendOff < b.writeOff := by
      rw [ready, Bool.and_eq_true, decide_eq_true_eq] at hready
      exact hready.2
    obtain ⟨⟨b₁, start, stop⟩, hpoll⟩ : ∃ r, b.pollTransmit cap = r := ⟨_, rfl⟩
    obtain ⟨rfl, hlt', hmax, hstop, hdata, hpos, hemitted', htracked⟩ :=
      pollTransmit_spec hb hlt hcap hpoll
    rw [hpoll]
    rw [sub_of_le hlt'.le, ok_bind]
    have hcursor : Cursor b₁ b.sendOff :=
      ⟨by rw [hdata, hpos]; exact hb.cursor.le, by rw [hdata, hpos]; exact hb.cursor.behind⟩
    have hblocks : Contiguous app b.baseOff b₁.data b.writeOff := by
      rw [hdata]
      exact hb.blocks
    apply (copyRange_returns hblocks hcursor hb.base_le_send hlt'.le hstop (by omega)).bind
    rintro ⟨b₂, out₂⟩ ⟨hout₂, p, rfl, hcursor₂⟩
    dsimp only at hout₂ ⊢
    rw [sub_of_le (by omega), ok_bind]
    have hlen : out₂.length = out.length + (stop - b.sendOff) := by
      have := hb.writeOff_eq
      rw [hout₂, length_append, length_take, length_drop]
      omega
    have hsum : b.sendOff + (stop - b.sendOff) = stop := by omega
    refine .intro ⟨⟨htracked p hcursor₂, ?_, ?_, ?_, ?_, ?_⟩, ?_⟩
    · simp only [hsum]
      have hemitted₂ : Emitted b { b₁ with pos := p } b.sendOff stop :=
        ⟨hemitted'.writeOff_eq, hemitted'.maxData_eq, hemitted'.finOff_eq, hemitted'.acked_eq,
          hemitted'.lost, hemitted'.unsent_le, hemitted'.unsent, hemitted'.stop_le⟩
      exact hemitted.trans hemitted₂ hle hlt'.le
    · simp only [hsum]
      omega
    · simp only [hsum]
      exact hstop.trans_eq hemitted.writeOff_eq
    · simp only [hsum]
      rw [hout₂, hout, show stop - b₀.sendOff = (b.sendOff - b₀.sendOff) + (stop - b.sendOff) by
        omega, take_add, drop_drop,
        show b₀.sendOff + (b.sendOff - b₀.sendOff) = b.sendOff by omega]
    · dsimp only
      omega
    · dsimp only
      omega
  · exact .intro h

/-- A read hands out the application's bytes at the send offset, and the fin flag exactly when these
end at the final size. -/
theorem read_returns (h : Tracked app b) (outLen : ℕ) : (b.read outLen).Returns fun r =>
    Tracked app r.1 ∧ Emitted b r.1 b.sendOff (b.sendOff + r.2.1) ∧
      r.2.1 = r.2.2.1.length ∧ r.2.1 ≤ outLen ∧ b.sendOff + r.2.1 ≤ b.writeOff ∧
      r.2.2.1 = (app.drop b.sendOff).take r.2.1 ∧
      (r.2.2.2 = true ↔ b.finOff = some (b.sendOff + r.2.1)) := by
  have hsend := h.send_le_unsent.trans h.unsent_le
  have hstart : Reading app b outLen (b, [], outLen, b.sendOff) :=
    ⟨h, .refl h, le_rfl, hsend, by simp, by simp⟩
  apply (loop_returns (Reading app b outLen) (fun s => s.2.2.1) (fun _ hs => readNext_returns hs)
    (outLen + 1) _ hstart (Nat.lt_succ_self _)).bind
  rintro ⟨b', out, cap, nextOff⟩ ⟨htracked, hemitted, hle, hle', hout, hroom⟩
  dsimp only at htracked hemitted hle hle' hout hroom ⊢
  have hlen : out.length = nextOff - b.sendOff := by
    have := h.writeOff_eq
    rw [hout, length_take, length_drop]
    omega
  have hnext : b.sendOff + (outLen - cap) = nextOff := by omega
  rw [sub_of_le (by omega), ok_bind]
  refine .intro ⟨htracked, ?_, by dsimp only; omega, by dsimp only; omega,
    by dsimp only; omega, ?_, ?_⟩
  · simpa only [hnext] using hemitted
  · rw [hout, show outLen - cap = nextOff - b.sendOff by omega]
  · simp only [hnext, decide_eq_true_eq]
    rw [hemitted.finOff_eq]

end Tquic.SendBuf
