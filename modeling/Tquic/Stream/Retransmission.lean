import Tquic.Base.Run
import Tquic.Stream.SendTracking

/-!
# Acknowledgement, loss and retransmission

Acknowledgements and losses come late, in any order, repeated and in parts. As long as they only
name what has been sent, every byte written stays acknowledged, queued, unsent or in flight.
-/

namespace Tquic.SendBuf

open Exec

variable {app : List UInt8} {b : SendBuf}

/-! ## Acknowledgement -/

def markAcked (b : SendBuf) (off len : ℕ) : SendBuf :=
  { b.ack off len with retransmits := b.retransmits.remove off (off + len) }

theorem ackAndDrop_of_ne_nil (hdata : b.data ≠ []) (off len : ℕ) :
    b.ackAndDrop off len =
      if (b.markAcked off len).ackOff < off then .ok (b.markAcked off len)
      else do
        let baseOff ← Exec.sub b.writeOff b.unackedLen
        let toAdvance ← Exec.sub (b.markAcked off len).ackOff baseOff
        let unackedLen ← Exec.sub b.unackedLen toAdvance
        let (data, dropBlocks) ← dropAcked b.data toAdvance 0
        return { b.markAcked off len with
          data := data, unackedLen := unackedLen, pos := b.pos - dropBlocks } := by
  have hempty : b.data.isEmpty = false := by simpa using hdata
  simp only [ackAndDrop, hempty, Bool.false_eq_true, if_false]
  rfl

section

variable {off len : ℕ}

theorem mem_markAcked_acked (h : Tracked app b) {x : ℕ} :
    x ∈ (b.markAcked off len).acked ↔ x ∈ b.acked ∨ off ≤ x ∧ x < off + len :=
  h.acked.mem_insert h.unsent_lt

theorem mem_markAcked_retransmits {x : ℕ} :
    x ∈ (b.markAcked off len).retransmits ↔ x ∈ b.retransmits ∧ ¬ (off ≤ x ∧ x < off + len) :=
  RangeSet.mem_remove

theorem sendOff_le_markAcked (h : Tracked app b) : b.sendOff ≤ (b.markAcked off len).sendOff := by
  refine le_sendOff (fun x hx => ?_) h.send_le_unsent
  rcases b.sendOff_cases with ⟨hnone, -⟩ | ⟨-, hmin⟩
  · exact absurd (mem_markAcked_retransmits.mp hx).1 (hnone x)
  · exact hmin x (mem_markAcked_retransmits.mp hx).1

section

variable (h : Tracked app b) (hsent : ∀ x, off ≤ x → x < off + len → x < b.unsentOff)

include h hsent

theorem Tracked.markAcked
    {data : List RangeBuf}
    {pos unackedLen : ℕ} (hle : unackedLen ≤ b.writeOff)
    (hblocks : Contiguous app (b.writeOff - unackedLen) data b.writeOff)
    (hbase : b.writeOff - unackedLen = (b.markAcked off len).ackOff)
    (hpos : pos ≤ data.length) (hbehind : ∀ t ∈ data.take pos, t.maxOff ≤ b.sendOff) :
    Tracked app { b.markAcked off len with
      data := data, unackedLen := unackedLen, pos := pos } := by
  obtain ⟨hacked, hnot⟩ := (b.markAcked off len).ackOff_spec
  refine ⟨h.writeOff_eq, h.write_le, h.max_lt, h.unsent_le, hle, hblocks,
    h.acked.insert h.unsent_lt hsent, h.lost.remove _ _, fun x hx => ?_, ?_, ?_,
    ⟨hpos, fun t ht => ?_⟩, h.fin, h.noError⟩
  · obtain ⟨hlost, hout⟩ := mem_markAcked_retransmits.mp hx
    intro hin
    exact ((mem_markAcked_acked h).mp hin).elim (h.not_both x hlost) hout
  · intro x hx
    exact hacked x (hbase ▸ hx)
  · simp only [baseOff]
    rw [show (b.markAcked off len).writeOff - unackedLen = (b.markAcked off len).ackOff from hbase]
    exact hnot
  · exact (hbehind t ht).trans (sendOff_le_markAcked h)

theorem ackAndDrop_returns :
    (b.ackAndDrop off len).Returns fun b' =>
      Tracked app b' ∧ b'.unsentOff = b.unsentOff ∧
        (∀ x, x ∈ b'.acked ↔ x ∈ b.acked ∨ off ≤ x ∧ x < off + len) ∧
        ∀ x, x ∈ b'.retransmits ↔ x ∈ b.retransmits ∧ ¬ (off ≤ x ∧ x < off + len) := by
  have hunsent := h.unsent_le
  by_cases hdata : b.data = []
  · -- everything is acknowledged, and so nothing is queued
    have hbase := h.base_eq_of_empty hdata
    have hall : ∀ x < b.unsentOff, x ∈ b.acked := fun x hx => h.base_acked x (by omega)
    have hnone : ∀ x, x ∉ b.retransmits := fun x hx =>
      h.not_both x hx (hall x (h.lost.lt x hx))
    have hclear : ∀ x, x ∉ b.retransmits.clear := RangeSet.not_mem_new _
    have heq : b.ackAndDrop off len = .ok { b with retransmits := b.retransmits.clear } := by
      simp [ackAndDrop, hdata]
    rw [heq]
    refine .intro ⟨⟨h.writeOff_eq, h.write_le, h.max_lt, h.unsent_le, h.unacked_le, h.blocks,
      h.acked, ⟨h.lost.capacity, fun x hx => absurd hx (hclear x)⟩,
      fun x hx => absurd hx (hclear x), h.base_acked, h.base_not_acked, ⟨h.cursor.le, ?_⟩, h.fin,
      h.noError⟩, rfl, fun x => ?_, fun x => ?_⟩
    · simp [hdata]
    · exact ⟨.inl, fun hx => hx.elim id fun hx => hall x (hsent x hx.1 hx.2)⟩
    · exact ⟨fun hx => absurd hx (hclear x), fun hx => absurd hx.1 (hnone x)⟩
  rw [ackAndDrop_of_ne_nil hdata]
  have hack := (b.markAcked off len).ackOff_spec
  have hacked : ∀ x, x ∈ (b.markAcked off len).acked ↔
      x ∈ b.acked ∨ off ≤ x ∧ x < off + len := fun x => mem_markAcked_acked h
  have hunacked := h.unacked_le
  have hbase : b.baseOff = b.writeOff - b.unackedLen := rfl
  -- acknowledged data reaches at least to the base and at most to what was sent
  have hge : b.baseOff ≤ (b.markAcked off len).ackOff := by
    by_contra hlt
    exact hack.2 ((hacked _).mpr (.inl (h.base_acked _ (not_le.mp hlt))))
  have hle : (b.markAcked off len).ackOff ≤ b.unsentOff := by
    by_contra hlt
    rcases (hacked _).mp (hack.1 _ (not_le.mp hlt)) with hx | hx
    · exact lt_irrefl _ (h.acked.lt _ hx)
    · exact lt_irrefl _ (hsent _ hx.1 hx.2)
  by_cases hgap : (b.markAcked off len).ackOff < off
  · rw [if_pos hgap]
    have heq : b.writeOff - b.unackedLen = (b.markAcked off len).ackOff := by
      by_contra hne
      rcases (hacked b.baseOff).mp (hack.1 _ (by omega)) with hx | hx
      · exact h.base_not_acked hx
      · omega
    refine .intro ⟨?_, rfl, hacked, fun x => mem_markAcked_retransmits⟩
    exact h.markAcked hsent h.unacked_le h.blocks heq h.cursor.le h.cursor.behind
  · rw [if_neg hgap, sub_of_le h.unacked_le, ok_bind, sub_of_le (by omega), ok_bind,
      sub_of_le (by omega), ok_bind]
    apply (dropAcked_returns h.blocks (by omega) 0).bind
    rintro ⟨data, dropped⟩ ⟨hblocks, j, hj, -, hmap⟩
    obtain rfl : dropped = j := by omega
    obtain ⟨hpos, hbehind⟩ := h.cursor.dropBlocks hmap
    refine .intro ⟨?_, rfl, hacked, fun x => mem_markAcked_retransmits⟩
    refine h.markAcked hsent (by omega) ?_ (by omega) hpos hbehind
    rwa [show b.writeOff - (b.unackedLen - ((b.markAcked off len).ackOff -
      (b.writeOff - b.unackedLen))) = b.baseOff + ((b.markAcked off len).ackOff -
      (b.writeOff - b.unackedLen)) by omega]

end

end

/-! ## Loss -/

/-- The set `r'` and the range left over hold, besides `r`, the offsets of the lost
range that no acknowledged range of `l` has. -/
structure Skipped (n : ℕ) (l : List (ℕ × ℕ)) (start stop : ℕ) (r : RangeSet) (start' stop' : ℕ)
    (r' : RangeSet) : Prop where
  below : r'.Below n
  lt : ∀ x, start' ≤ x → x < stop' → x < n
  mem_iff : ∀ x, (x ∈ r' ∨ start' ≤ x ∧ x < stop') ↔
    x ∈ r ∨ (start ≤ x ∧ x < stop) ∧ ∀ e ∈ l, ¬ (e.1 ≤ x ∧ x < e.2)

theorem skipAcked_spec {l : List (ℕ × ℕ)} (hgap : l.Pairwise fun e e' => e.2 < e'.1)
    (hne : ∀ e ∈ l, e.1 < e.2) {n : ℕ} (hn : n < 2 ^ 64) {start stop : ℕ}
    (hstop : stop ≤ n ∨ stop ≤ start) {r : RangeSet} (hr : r.Below n) :
    ∃ start' stop' r', skipAcked l start stop r = (start', stop', r') ∧
      Skipped n l start stop r start' stop' r' := by
  induction l generalizing start r with
  | nil => exact ⟨start, stop, r, rfl, hr, fun x h₁ h₂ => by omega, fun x => by simp⟩
  | cons e l ih =>
    obtain ⟨hnext, hgap⟩ := List.pairwise_cons.mp hgap
    have hne' : ∀ e ∈ l, e.1 < e.2 := fun e' he' => hne e' (.tail _ he')
    have hlt := hne e (by simp)
    -- up to the end of `e` the later ranges do not matter
    have hlater : ∀ x, x ≤ e.2 → ∀ e' ∈ l, ¬ (e'.1 ≤ x ∧ x < e'.2) := by
      intro x hx e' he'
      have := hnext e' he'
      omega
    by_cases h₁ : stop ≤ e.1
    · refine ⟨start, stop, r, by simp [skipAcked, h₁], hr, fun x _ _ => by omega, fun x => ?_⟩
      rw [List.forall_mem_cons]
      exact or_congr_right ⟨fun hx => ⟨hx, by omega, hlater x (by omega)⟩, .left⟩
    by_cases h₂ : e.2 ≤ start
    · obtain ⟨start', stop', r', heq, hbelow, hlt', hiff⟩ := ih hgap hne' hstop hr
      refine ⟨start', stop', r', by simp [skipAcked, h₁, h₂, heq], hbelow, hlt', fun x => ?_⟩
      rw [hiff, List.forall_mem_cons]
      exact or_congr_right ⟨fun hx => ⟨hx.1, by omega, hx.2⟩, fun hx => ⟨hx.1, hx.2.2⟩⟩
    have hstop' : stop ≤ n ∨ stop ≤ e.2 := by omega
    by_cases h₃ : start < e.1
    · by_cases h₄ : stop ≤ e.2
      · refine ⟨start, e.1, r, by simp [skipAcked, h₁, h₂, h₃, h₄], hr, fun x _ _ => by omega,
          fun x => ?_⟩
        rw [List.forall_mem_cons]
        exact or_congr_right
          ⟨fun hx => ⟨by omega, by omega, hlater x (by omega)⟩, fun hx => by omega⟩
      · have hinsert := hr.insert hn fun x (_ : start ≤ x) (hx : x < e.1) => by omega
        obtain ⟨start', stop', r', heq, hbelow, hlt', hiff⟩ := ih hgap hne' hstop' hinsert
        refine ⟨start', stop', r', by simp [skipAcked, h₁, h₂, h₃, h₄, heq], hbelow, hlt',
          fun x => ?_⟩
        rw [hiff, hr.mem_insert hn, or_assoc, List.forall_mem_cons]
        refine or_congr_right ?_
        constructor
        · rintro (hx | ⟨hx, hout⟩)
          · exact ⟨by omega, by omega, hlater x (by omega)⟩
          · exact ⟨by omega, by omega, hout⟩
        · rintro ⟨hx, hout, hout'⟩
          by_cases hfirst : x < e.1
          · exact .inl ⟨hx.1, hfirst⟩
          · exact .inr ⟨by omega, hout'⟩
    · by_cases h₄ : stop ≤ e.2
      · refine ⟨start, start, r, by simp [skipAcked, h₁, h₂, h₃, h₄], hr, fun x _ _ => by omega,
          fun x => ?_⟩
        rw [List.forall_mem_cons]
        exact or_congr_right ⟨fun hx => by omega, fun hx => by omega⟩
      · obtain ⟨start', stop', r', heq, hbelow, hlt', hiff⟩ := ih hgap hne' hstop' hr
        refine ⟨start', stop', r', by simp [skipAcked, h₁, h₂, h₃, h₄, heq], hbelow, hlt',
          fun x => ?_⟩
        rw [hiff, List.forall_mem_cons]
        exact or_congr_right ⟨fun hx => ⟨by omega, by omega, hx.2⟩, fun hx => ⟨by omega, hx.2.2⟩⟩

theorem mem_acked_iff {x : ℕ} : x ∈ b.acked ↔ ∃ e ∈ b.acked.iter, e.1 ≤ x ∧ x < e.2 := .rfl

theorem Tracked.requeue (h : Tracked app b) {r : RangeSet} (hbelow : r.Below b.unsentOff)
    (hnot : ∀ x ∈ r, x ∉ b.acked) :
    Tracked app (if ({ b with retransmits := r } : SendBuf).sendOff < b.sendOff then
      { b with retransmits := r, pos := 0 } else { b with retransmits := r }) := by
  split_ifs with hlt
  · exact ⟨h.writeOff_eq, h.write_le, h.max_lt, h.unsent_le, h.unacked_le, h.blocks, h.acked,
      hbelow, hnot, h.base_acked, h.base_not_acked, ⟨Nat.zero_le _, by simp⟩, h.fin, h.noError⟩
  · refine ⟨h.writeOff_eq, h.write_le, h.max_lt, h.unsent_le, h.unacked_le, h.blocks, h.acked,
      hbelow, hnot, h.base_acked, h.base_not_acked, ⟨h.cursor.le, fun t ht => ?_⟩, h.fin, h.noError⟩
    exact (h.cursor.behind t ht).trans (not_lt.mp hlt)

theorem retransmit_spec (h : Tracked app b) {off len : ℕ}
    (hsent : ∀ x, off ≤ x → x < off + len → x < b.unsentOff) :
    Tracked app (b.retransmit off len) ∧ (b.retransmit off len).unsentOff = b.unsentOff ∧
      (b.retransmit off len).acked = b.acked ∧
      ∀ x, x ∈ (b.retransmit off len).retransmits ↔
        x ∈ b.retransmits ∨ (off ≤ x ∧ x < off + len) ∧ x ∉ b.acked := by
  -- a range that is all acknowledged changes nothing
  by_cases hnothing : (∀ x, off ≤ x → x < off + len → x ∈ b.acked) ∧ b.retransmit off len = b
  · rw [hnothing.2]
    exact ⟨h, rfl, rfl, fun x => ⟨.inl, fun hx => hx.elim id fun hx =>
      absurd (hnothing.1 x hx.1.1 hx.1.2) hx.2⟩⟩
  have hunsent := h.unsent_le
  by_cases hdata : b.data = []
  · refine absurd ⟨fun x h₁ h₂ => h.base_acked x ?_, by simp [retransmit, hdata]⟩ hnothing
    have := hsent x h₁ h₂
    have := h.base_eq_of_empty hdata
    omega
  have hempty : b.data.isEmpty = false := by simpa using hdata
  by_cases hold : off + len ≤ b.ackOff
  · refine absurd ⟨fun x _ hx => b.ackOff_spec.1 x (by omega), ?_⟩ hnothing
    simp [retransmit, hempty, hold]
  have hstop : off + len ≤ b.unsentOff ∨ off + len ≤ off := by
    by_cases hzero : len = 0
    · exact .inr (by omega)
    · have := hsent (off + len - 1) (by omega) (by omega)
      exact .inl (by omega)
  obtain ⟨start, stop, r, heq, hbelow, hlt, hiff⟩ := skipAcked_spec
    b.acked.separated.pairwise_gap b.acked.separated.nonempty h.unsent_lt hstop h.lost
  have hmem : ∀ x, x ∈ r.insert start stop ↔
      x ∈ b.retransmits ∨ (off ≤ x ∧ x < off + len) ∧ x ∉ b.acked := by
    intro x
    rw [hbelow.mem_insert h.unsent_lt, hiff, mem_acked_iff]
    simp only [not_exists, not_and]
    exact .rfl
  have hnot : ∀ x ∈ r.insert start stop, x ∉ b.acked := fun x hx =>
    ((hmem x).mp hx).elim (h.not_both x) And.right
  have hresult : b.retransmit off len =
      if ({ b with retransmits := r.insert start stop } : SendBuf).sendOff < b.sendOff then
        { b with retransmits := r.insert start stop, pos := 0 }
      else { b with retransmits := r.insert start stop } := by
    simp only [retransmit, hempty, hold, if_false, Bool.false_eq_true]
    rw [show b.acked.iter = b.acked.set.entries from rfl, heq]
  rw [hresult]
  refine ⟨h.requeue (hbelow.insert h.unsent_lt hlt) hnot, ?_, ?_, fun x => ?_⟩
  · split_ifs <;> rfl
  · split_ifs <;> rfl
  · rw [← hmem x]
    split_ifs <;> rfl

/-! ## Runs -/

/-- A send buffer with the bytes taken from the application, the offsets ever sent, and those sent
and neither acknowledged nor lost since. -/
structure World where
  buf : SendBuf
  app : List UInt8
  sent : Set ℕ
  inFlight : Set ℕ

inductive Op where
  | write (data : List UInt8) (fin : Bool)
  | read (outLen : ℕ)
  | ackAndDrop (off len : ℕ)
  | retransmit (off len : ℕ)
  | updateMaxData (maxData : UInt64)

inductive Outcome where
  | wrote (r : Result ℕ)
  | emitted (off : ℕ) (out : List UInt8) (fin : Bool)
  | noted
  deriving DecidableEq

namespace World

def new (maxData : UInt64) : World := ⟨SendBuf.new maxData.toNat, [], ∅, ∅⟩

def step (w : World) : Op → Exec (World × Outcome)
  | .write data fin => do
      let (b, r) ← w.buf.write data fin
      return ({ w with buf := b, app := w.app ++ accepted data r }, .wrote r)
  | .read outLen => do
      let off := w.buf.sendOff
      let (b, len, out, fin) ← w.buf.read outLen
      let range := Set.Ico off (off + len)
      return ({ w with buf := b, sent := w.sent ∪ range, inFlight := w.inFlight ∪ range },
        .emitted off out fin)
  | .ackAndDrop off len => do
      let b ← w.buf.ackAndDrop off len
      return ({ w with buf := b, inFlight := w.inFlight \ Set.Ico off (off + len) }, .noted)
  | .retransmit off len =>
    return ({ w with
      buf := w.buf.retransmit off len
      inFlight := w.inFlight \ Set.Ico off (off + len) }, .noted)
  | .updateMaxData maxData =>
    return ({ w with buf := w.buf.updateMaxData maxData.toNat }, .noted)

def Legal (w : World) : Op → Prop
  | .ackAndDrop off len => Set.Ico off (off + len) ⊆ w.sent
  | .retransmit off len => Set.Ico off (off + len) ⊆ w.sent
  | _ => True

structure Safe (w : World) : Prop where
  tracked : Tracked w.app w.buf
  sent : ∀ x ∈ w.sent, x < w.buf.unsentOff
  accounted : ∀ x < w.buf.unsentOff, x ∈ w.buf.acked ∨ x ∈ w.buf.retransmits ∨ x ∈ w.inFlight

theorem Safe.new (maxData : UInt64) : (World.new maxData).Safe :=
  ⟨Tracked.new _ maxData.toNat_lt, fun _ hx => absurd hx (Set.notMem_empty _),
    fun _ hx => absurd hx (Nat.not_lt_zero _)⟩

/-- Every legal operation returns and keeps the buffer safe. -/
theorem step_returns {w : World} (h : w.Safe) {op : Op} (hop : w.Legal op) :
    (w.step op).Returns fun r => r.1.Safe := by
  cases op with
  | write data fin =>
    apply (write_returns h.tracked data fin).bind
    rintro ⟨b, r⟩ ⟨htracked, hunsent, hacked, hlost⟩
    dsimp only at htracked hunsent hacked hlost
    refine .intro ⟨htracked, ?_, ?_⟩
    · simpa only [hunsent] using h.sent
    · simpa only [hunsent, hacked, hlost] using h.accounted
  | read outLen =>
    apply (read_returns h.tracked outLen).bind
    rintro ⟨b, len, out, fin⟩ ⟨htracked, hemitted, -⟩
    refine .intro ⟨htracked, fun x hx => ?_, fun x hx => ?_⟩
    · rcases hx with hx | hx
      · exact (h.sent x hx).trans_le hemitted.unsent_le
      · exact hx.2.trans_le hemitted.stop_le
    · rw [hemitted.acked_eq]
      by_cases hold : x < w.buf.unsentOff
      · rcases h.accounted x hold with hx' | hx' | hx'
        · exact .inl hx'
        · exact .inr ((hemitted.lost x hx').imp_right .inr)
        · exact .inr (.inr (.inl hx'))
      · exact .inr (.inr (.inr (hemitted.unsent x (not_lt.mp hold) hx)))
  | ackAndDrop off len =>
    have hrange : ∀ x, off ≤ x → x < off + len → x < w.buf.unsentOff :=
      fun x h₁ h₂ => h.sent x (hop ⟨h₁, h₂⟩)
    apply (ackAndDrop_returns h.tracked hrange).bind
    rintro b ⟨htracked, hunsent, hacked, hlost⟩
    refine .intro ⟨htracked, ?_, fun x hx => ?_⟩
    · simpa only [hunsent] using h.sent
    · rw [hunsent] at hx
      rw [hacked, hlost]
      by_cases hin : off ≤ x ∧ x < off + len
      · exact .inl (.inr hin)
      · rcases h.accounted x hx with hx' | hx' | hx'
        · exact .inl (.inl hx')
        · exact .inr (.inl ⟨hx', hin⟩)
        · exact .inr (.inr ⟨hx', hin⟩)
  | retransmit off len =>
    have hrange : ∀ x, off ≤ x → x < off + len → x < w.buf.unsentOff :=
      fun x h₁ h₂ => h.sent x (hop ⟨h₁, h₂⟩)
    obtain ⟨htracked, hunsent, hacked, hlost⟩ := retransmit_spec h.tracked hrange
    refine .intro ⟨htracked, ?_, fun x hx => ?_⟩
    · simpa only [hunsent] using h.sent
    · rw [hunsent] at hx
      rw [hacked, hlost]
      rcases h.accounted x hx with hx' | hx' | hx'
      · exact .inl hx'
      · exact .inr (.inl (.inl hx'))
      · by_cases hin : off ≤ x ∧ x < off + len
        · by_cases hack : x ∈ w.buf.acked
          · exact .inl hack
          · exact .inr (.inl (.inr ⟨hin, hack⟩))
        · exact .inr (.inr ⟨hx', hin⟩)
  | updateMaxData maxData =>
    have ht := h.tracked
    have hlt := maxData.toNat_lt
    have hmax := ht.max_lt
    have hle := ht.write_le
    refine .intro ⟨⟨ht.writeOff_eq, ?_, ?_, ht.unsent_le, ht.unacked_le, ht.blocks,
      ht.acked, ht.lost, ht.not_both, ht.base_acked, ht.base_not_acked,
      ⟨ht.cursor.le, ht.cursor.behind⟩, ht.fin, ht.noError⟩, h.sent, h.accounted⟩
    · simp only [updateMaxData]
      omega
    · simp only [updateMaxData]
      omega

theorem run_returns {maxData : UInt64} {ops : List Op}
    (hlegal : Follows step Legal (new maxData) ops) :
    (Exec.run step (new maxData) ops).Returns fun r => r.1.Safe :=
  Exec.run_returns Safe (fun _ _ hs hi => step_returns hs hi) (.new maxData) hlegal

def lossyRun : List Op :=
  [.write [1, 2, 3] true, .read 2, .ackAndDrop 0 1, .retransmit 1 1]

theorem follows_lossyRun : Follows step Legal (new 10) lossyRun := by
  refine ⟨trivial, ?_⟩
  rintro _ _ ⟨⟩
  refine ⟨trivial, ?_⟩
  rintro _ _ ⟨⟩
  -- two bytes have been sent
  constructor
  · rintro x ⟨-, hx⟩
    exact .inr ⟨Nat.zero_le x, Nat.lt_succ_of_lt hx⟩
  rintro _ _ ⟨⟩
  refine ⟨?_, fun _ _ _ => trivial⟩
  rintro x ⟨-, hx⟩
  exact .inr ⟨Nat.zero_le x, hx⟩

/-- After every legal run the next read returns exactly the bytes that the application wrote at the
send offset, with the fin flag only when these end at the final size. -/
theorem reads_exactly (maxData : UInt64) (ops : List Op)
    (hlegal : Follows step Legal (new maxData) ops) :
    (Exec.run step (new maxData) ops).Returns fun r ↦ ∀ outLen,
      (r.1.buf.read outLen).Returns fun s ↦
        s.2.1 = s.2.2.1.length ∧ s.2.1 ≤ outLen ∧
          r.1.buf.sendOff + s.2.1 ≤ r.1.app.length ∧
          s.2.2.1 = (r.1.app.drop r.1.buf.sendOff).take s.2.1 ∧
          (s.2.2.2 = true → r.1.buf.finOff = some (r.1.buf.sendOff + s.2.1) ∧
            r.1.buf.sendOff + s.2.1 = r.1.app.length) := by
  refine (run_returns hlegal).mono fun r hr outLen => ?_
  refine (read_returns hr.tracked outLen).mono ?_
  rintro s ⟨-, -, hlen, hle, hwrite, hout, hfin⟩
  have hoff := hr.tracked.writeOff_eq
  refine ⟨hlen, hle, by omega, hout, fun hset => ⟨hfin.mp hset, ?_⟩⟩
  have := hr.tracked.fin _ (hfin.mp hset)
  omega

theorem reads_exactly_lossyRun : (Exec.run step (new 10) lossyRun).Returns fun r ↦
    (r.1.buf.read 5).Returns fun s ↦
      s.2.1 ≤ 5 ∧ s.2.2.1 = (r.1.app.drop r.1.buf.sendOff).take s.2.1 := by
  refine (reads_exactly 10 lossyRun follows_lossyRun).mono fun r hr => ?_
  exact (hr 5).mono fun s hs => ⟨hs.2.1, hs.2.2.2.1⟩

/-- After every legal run each byte written is acknowledged, queued again, not yet sent or in
flight; none is both acknowledged and queued; and those not acknowledged are still stored. -/
theorem accounts_for_every_byte (maxData : UInt64) (ops : List Op)
    (hlegal : Follows step Legal (new maxData) ops) :
    (Exec.run step (new maxData) ops).Returns fun r ↦
      r.1.buf.writeOff = r.1.app.length ∧ r.1.buf.writeOff ≤ r.1.buf.maxData ∧
        (∀ x < r.1.buf.writeOff, x ∈ r.1.buf.acked ∨ x ∈ r.1.buf.retransmits ∨
          r.1.buf.unsentOff ≤ x ∨ x ∈ r.1.inFlight) ∧
        (∀ x, ¬ (x ∈ r.1.buf.acked ∧ x ∈ r.1.buf.retransmits)) ∧
        ∀ x < r.1.buf.writeOff, x ∉ r.1.buf.acked →
          ∃ t ∈ r.1.buf.data, t.off ≤ x ∧ x < t.maxOff ∧ t.data <+: r.1.app.drop t.off := by
  refine (run_returns hlegal).mono fun r hr => ?_
  have ht := hr.tracked
  refine ⟨ht.writeOff_eq, ht.write_le, fun x hx => ?_, fun x hx => ht.not_both x hx.2 hx.1,
    fun x hx hack => ?_⟩
  · by_cases hlt : x < r.1.buf.unsentOff
    · rcases hr.accounted x hlt with hx' | hx' | hx'
      · exact .inl hx'
      · exact .inr (.inl hx')
      · exact .inr (.inr (.inr hx'))
    · exact .inr (.inr (.inl (not_lt.mp hlt)))
  · have hbase : r.1.buf.baseOff ≤ x := not_lt.mp fun hlt => hack (ht.base_acked x hlt)
    exact ht.blocks.exists_mem hbase hx

theorem accounts_for_every_byte_lossyRun : (Exec.run step (new 10) lossyRun).Returns fun r ↦
    ∀ x < r.1.buf.writeOff, x ∈ r.1.buf.acked ∨ x ∈ r.1.buf.retransmits ∨
      r.1.buf.unsentOff ≤ x ∨ x ∈ r.1.inFlight :=
  (accounts_for_every_byte 10 lossyRun follows_lossyRun).mono fun _ hr => hr.2.2.1

end World

end Tquic.SendBuf
