import Tquic.Stream.Retransmission
import Tquic.Stream.SendOffsets

/-!
# Finishing a stream

When the last byte of the stream is sent after the final size is known, FIN is in flight,
delivered or still to be sent exactly when that byte is, and it cannot get lost on its own.
-/

namespace Tquic.SendBuf

open Exec RangeSet

variable {app : List UInt8} {b b' : SendBuf} {f : ℕ}

/-! ## Reads that finish the stream -/

/-- Reads return, and after finitely many with room, however much, one has the fin flag. -/
inductive EmitsFin : SendBuf → Prop
  | intro {b : SendBuf} (hreturns : ∀ outLen, ∃ r, b.read outLen = .ok r)
      (hnext : ∀ outLen b' len out, 0 < outLen → b.read outLen = .ok (b', len, out, false) →
        EmitsFin b') : EmitsFin b

def LastPending (b : SendBuf) (f : ℕ) : Prop := f - 1 ∈ b.retransmits ∨ b.unsentOff ≤ f - 1

theorem Tracked.ready_of_waiting (h : Tracked app b) {x : ℕ} (hx : x < b.writeOff)
    (hwaits : x ∈ b.retransmits ∨ b.unsentOff ≤ x) : b.ready = true := by
  have hsend : b.sendOff ≤ x := by
    rcases b.sendOff_cases with ⟨hnone, heq⟩ | ⟨-, hmin⟩
    · exact heq ▸ hwaits.resolve_left (hnone x)
    · exact hwaits.elim (hmin x) h.send_le_unsent.trans
  have hdata : b.data ≠ [] := by
    intro hnil
    have hbase := h.base_eq_of_empty hnil
    have hle := h.base_le_send
    omega
  rw [ready, Bool.and_eq_true, decide_eq_true_eq]
  exact ⟨by simpa using hdata, by omega⟩

/-- A buffer whose last byte waits has something to send. -/
theorem Tracked.ready_of_pending (h : Tracked app b) (hfin : b.finOff = some f) (hpos : 0 < f)
    (hleft : b.LastPending f) : b.ready = true := by
  have hend := h.fin f hfin
  exact h.ready_of_waiting (by omega) hleft

theorem stop_le_sendOff (h : Tracked app b) {maxLen start stop : ℕ}
    (heq : b.pollTransmit maxLen = (b', start, stop)) : stop ≤ b'.sendOff := by
  unfold pollTransmit at heq
  cases hpop : b.retransmits.popMin with
  | none =>
    rw [hpop] at heq
    cases heq
    exact le_sendOff (fun y hy => absurd hy (popMin_eq_none_iff.mp hpop y)) le_rfl
  | some popped =>
    obtain ⟨range, rest⟩ := popped
    obtain ⟨hpeek, hcap, hrest⟩ := popMin_eq_some hpop
    obtain ⟨hne, hrange, hmin, -⟩ := peekMin_eq_some hpeek
    have hlast : range.2 - 1 < b.unsentOff := h.lost.lt _ (hrange _ (by omega) (by omega))
    have hbelow : rest.Below b.unsentOff :=
      ⟨hcap.trans h.lost.capacity, fun x hx => h.lost.lt x ((hrest x).mp hx).1⟩
    have hbehind : ∀ y ∈ rest, range.2 ≤ y := by
      intro y hy
      obtain ⟨hin, hout⟩ := (hrest y).mp hy
      have := hmin y hin
      omega
    rw [hpop] at heq
    cases heq
    apply le_sendOff
    · intro y hy
      split_ifs at hy
      · rcases (hbelow.mem_insert h.unsent_lt).mp hy with hy | hy
        · exact (min_le_left _ _).trans (hbehind y hy)
        · exact hy.1
      · exact (min_le_left _ _).trans (hbehind y hy)
    · have hle : range.2 ≤ b.unsentOff := by omega
      exact (min_le_left _ _).trans hle

variable {outLen len : ℕ} {out data : List UInt8} {fin : Bool}

theorem read_progress (h : Tracked app b) (hready : b.ready = true) (hroom : 0 < outLen)
    (hread : b.read outLen = .ok (b', len, out, fin)) : 0 < len ∧ b.sendOff + len ≤ b'.sendOff := by
  have hstart : Reading app b outLen (b, [], outLen, b.sendOff) :=
    ⟨h, .refl h, le_rfl, h.send_le_unsent.trans h.unsent_le, by simp, by simp⟩
  -- after the first round the next offset is past the first one
  let Past (s : SendBuf × List UInt8 × ℕ × ℕ) : Prop :=
    b.sendOff < s.2.2.2 ∧ s.2.2.2 ≤ s.1.sendOff
  have hround : ∀ s n, (Reading app b outLen s ∧ (s = (b, [], outLen, b.sendOff) ∨ Past s)) →
      readNext outLen s = .ok n →
      Next.Holds (fun s => Reading app b outLen s ∧ (s = (b, [], outLen, b.sendOff) ∨ Past s))
        (fun s => Reading app b outLen s ∧ Past s) n := by
    rintro ⟨b₁, out₁, cap, nextOff⟩ n ⟨hreading, hwhere⟩ hn
    have hkeep := (readNext_returns hreading).of_eq hn
    unfold readNext at hn
    dsimp only at hn
    split_ifs at hn with hgo
    · obtain ⟨hcap, hready₁, rfl, -⟩ := hgo
      have hlt : b₁.sendOff < b₁.writeOff := by
        rw [ready, Bool.and_eq_true, decide_eq_true_eq] at hready₁
        exact hready₁.2
      obtain ⟨⟨b₂, start, stop⟩, hpoll⟩ : ∃ r, b₁.pollTransmit cap = r := ⟨_, rfl⟩
      have htracked : Tracked app b₁ := hreading.tracked
      obtain ⟨rfl, hlt', -⟩ := pollTransmit_spec htracked hlt hcap hpoll
      have hstop := stop_le_sendOff htracked hpoll
      rw [hpoll] at hn
      rw [sub_of_le hlt'.le, ok_bind] at hn
      obtain ⟨⟨b₃, out₃⟩, hcopy, hn⟩ := bind_eq_ok.mp hn
      obtain ⟨q, rfl⟩ := copy_same hcopy
      obtain ⟨cap', -, hn⟩ := bind_eq_ok.mp hn
      cases hn
      refine ⟨hkeep.1, .inr ⟨?_, ?_⟩⟩
      · have hle : b.sendOff ≤ b₁.sendOff := hreading.le_next
        dsimp only
        omega
      · have hnext : b₁.sendOff + (stop - b₁.sendOff) = stop := by omega
        rw [hnext]
        exact hstop
    · cases hn
      refine ⟨hkeep, ?_⟩
      rcases hwhere with heq | hpast
      · -- the first round does not end the loop
        cases heq
        have hlt : b.sendOff < b.writeOff := by
          rw [ready, Bool.and_eq_true, decide_eq_true_eq] at hready
          exact hready.2
        exact absurd ⟨hroom, hready, rfl, hlt.trans_le h.write_le⟩ hgo
      · exact hpast
  obtain ⟨⟨b₁, out₁, cap, nextOff⟩, hloop, hread⟩ := bind_eq_ok.mp hread
  obtain ⟨hreading, hpast, hle⟩ := loop_valid _ hround _ _ _ ⟨hstart, .inl rfl⟩ hloop
  have hout : out₁.length = nextOff - b.sendOff := by
    have heq : out₁ = (app.drop b.sendOff).take (nextOff - b.sendOff) := hreading.out_eq
    have hnext : nextOff ≤ b.writeOff := hreading.next_le
    have hoff := h.writeOff_eq
    rw [heq, List.length_take, List.length_drop]
    omega
  have hcap : out₁.length + cap = outLen := hreading.room
  dsimp only at hread hpast hle
  rw [sub_of_le (by omega), ok_bind] at hread
  cases hread
  omega

theorem Tracked.pending_of_read (h : Tracked app b) (hfin : b.finOff = some f) (hpos : 0 < f)
    (hleft : b.LastPending f) (hread : b.read outLen = .ok (b', len, out, false)) :
    b'.LastPending f := by
  obtain ⟨-, hemitted, -, -, hle, -, hflag⟩ := (read_returns h outLen).of_eq hread
  dsimp only at hemitted hle hflag
  have hend := h.fin f hfin
  -- a range with the last byte would have ended at the final size
  have hout : ¬(b.sendOff ≤ f - 1 ∧ f - 1 < b.sendOff + len) := by
    intro hin
    have hstop : f = b.sendOff + len := by omega
    exact absurd (hflag.mpr (hstop ▸ hfin)) Bool.false_ne_true
  rcases hleft with hlost | hunsent
  · exact (hemitted.lost _ hlost).imp_right fun hin => absurd hin hout
  · by_cases hlt : f - 1 < b'.unsentOff
    · exact absurd (hemitted.unsent _ hunsent hlt) hout
    · exact .inr (not_lt.mp hlt)

theorem Tracked.emitsFin (h : Tracked app b) (hfin : b.finOff = some f) (hpos : 0 < f)
    (hleft : b.LastPending f) : b.EmitsFin := by
  -- what is behind the send offset shrinks with every read
  obtain ⟨n, hn⟩ : ∃ n, b.writeOff - b.sendOff = n := ⟨_, rfl⟩
  induction n using Nat.strong_induction_on generalizing b with
  | _ n ih =>
    refine .intro (fun outLen => ?_) ?_
    · obtain ⟨r, hr, -⟩ := read_returns h outLen
      exact ⟨r, hr⟩
    · intro outLen b' len out hroom hread
      have hready := h.ready_of_pending hfin hpos hleft
      obtain ⟨hlen, hsend⟩ := read_progress h hready hroom hread
      obtain ⟨htracked, hemitted, -, -, hle, -⟩ := (read_returns h outLen).of_eq hread
      dsimp only at htracked hemitted hle
      have hoff := hemitted.writeOff_eq
      refine ih (b'.writeOff - b'.sendOff) ?_ htracked (hemitted.finOff_eq.trans hfin)
        (h.pending_of_read hfin hpos hleft hread) rfl
      omega

/-! ## Frames on their way -/

abbrev Parcel := ℕ × ℕ × Bool

def Parcel.Covers (e : Parcel) (x : ℕ) : Prop := e.1 ≤ x ∧ x < e.1 + e.2.1

def Parcel.Ends (e : Parcel) (f : ℕ) : Prop := e.2.2 = true ∧ e.1 + e.2.1 = f

/-- Every byte that was sent is acknowledged, queued again or in a frame that is still out, and
the acknowledged bytes are those of the frames delivered; FIN is sent at the final size, and if
`strict` every frame with the last byte carries it. -/
structure Shipped (strict : Prop) (flight delivered : Set Parcel) (b : SendBuf) : Prop where
  tracked : ∃ app, Tracked app b
  sent_le : ∀ e ∈ flight ∪ delivered, e.1 + e.2.1 ≤ b.unsentOff
  accounted : ∀ x < b.unsentOff, x ∈ b.acked ∨ x ∈ b.retransmits ∨ ∃ e ∈ flight, e.Covers x
  acked_from : ∀ x ∈ b.acked, ∃ e ∈ delivered, e.Covers x
  received : ∀ e ∈ delivered, ∀ x, e.Covers x → x ∈ b.acked
  ends : ∀ e ∈ flight ∪ delivered, e.2.2 = true → b.finOff = some (e.1 + e.2.1)
  final : strict → ∀ f, b.finOff = some f →
    0 < f ∧ ∀ e ∈ flight ∪ delivered, e.Covers (f - 1) → e.Ends f

variable {strict : Prop} {flight flight' delivered : Set Parcel}

theorem Shipped.new (maxData : ℕ) (hmax : maxData < 2 ^ 64) :
    Shipped strict ∅ ∅ (SendBuf.new maxData) where
  tracked := ⟨[], .new maxData hmax⟩
  sent_le e he := by simp at he
  accounted x hx := absurd hx (Nat.not_lt_zero x)
  acked_from x hx := absurd hx (not_mem_new _ _)
  received e he := absurd he (Set.notMem_empty e)
  ends e he := by simp at he
  final _ f hf := nomatch hf

theorem Shipped.updateBlockedAt (h : Shipped strict flight delivered b) (blockedAt : Option ℕ) :
    Shipped strict flight delivered (b.updateBlockedAt blockedAt) := by
  obtain ⟨app, ht⟩ := h.tracked
  refine ⟨⟨app, ?_⟩, h.sent_le, h.accounted, h.acked_from, h.received, h.ends, h.final⟩
  exact ⟨ht.writeOff_eq, ht.write_le, ht.max_lt, ht.unsent_le, ht.unacked_le, ht.blocks, ht.acked,
    ht.lost, ht.not_both, ht.base_acked, ht.base_not_acked, ⟨ht.cursor.le, ht.cursor.behind⟩,
    ht.fin, ht.noError⟩

theorem Shipped.updateMaxData (h : Shipped strict flight delivered b) {maxData : ℕ}
    (hmax : maxData < 2 ^ 64) : Shipped strict flight delivered (b.updateMaxData maxData) := by
  obtain ⟨app, ht⟩ := h.tracked
  refine ⟨⟨app, ?_⟩, h.sent_le, h.accounted, h.acked_from, h.received, h.ends, h.final⟩
  exact ⟨ht.writeOff_eq, ht.write_le.trans (le_max_left _ _), max_lt ht.max_lt hmax, ht.unsent_le,
    ht.unacked_le, ht.blocks, ht.acked, ht.lost, ht.not_both, ht.base_acked, ht.base_not_acked,
    ⟨ht.cursor.le, ht.cursor.behind⟩, ht.fin, ht.noError⟩

variable {n : ℕ}

theorem Tracked.write_final (h : Tracked app b) (hf : b.finOff = some f)
    (hwrite : b.write data fin = .ok (b', .ok n)) : b'.finOff = some f := by
  obtain ⟨room, hfinal, -, -, -, hfinOff⟩ := write_cases hwrite
  have hend := h.fin f hf
  simp only [violatesFinalSize, hf, Bool.or_eq_false_iff, decide_eq_false_iff_not] at hfinal
  rw [hfinOff]
  split_ifs
  · exact congrArg some (by omega)
  · exact hf

/-- FIN comes with data, or while data waits to be sent for the first time, or again. -/
def FinishedWith (b : SendBuf) (data : List UInt8) : Prop :=
  data ≠ [] ∨ b.unsentOff < b.writeOff ∨ b.finOff.isSome = true

instance (b : SendBuf) (data : List UInt8) : Decidable (b.FinishedWith data) :=
  inferInstanceAs (Decidable (_ ∨ _))

/-- `write` changes nothing about the frames in flight and delivered. -/
theorem Shipped.write (h : Shipped strict flight delivered b)
    (hfinish : strict → fin = true → b.FinishedWith data)
    (hwrite : b.write data fin = .ok (b', .ok n)) : Shipped strict flight delivered b' := by
  obtain ⟨app, ht⟩ := h.tracked
  obtain ⟨htracked, hunsent, hacked, hlost⟩ := (write_returns ht data fin).of_eq hwrite
  obtain ⟨room, -, -, -, -, hfinOff⟩ := write_cases hwrite
  refine ⟨⟨_, htracked⟩, ?_, ?_, ?_, ?_, ?_, ?_⟩
  · rw [hunsent]
    exact h.sent_le
  · rw [hunsent, hacked, hlost]
    exact h.accounted
  · rw [hacked]
    exact h.acked_from
  · rw [hacked]
    exact h.received
  · exact fun e he hflag => ht.write_final (h.ends e he hflag) hwrite
  · intro hstrict f hf
    rw [hfinOff] at hf
    split_ifs at hf with hset
    · rw [Option.some.injEq] at hf
      rw [Bool.and_eq_true] at hset
      cases hold : b.finOff with
      | some f₀ =>
        -- the final size is repeated
        have hsame : b'.finOff = some f₀ := ht.write_final hold hwrite
        rw [hfinOff, if_pos (by rw [Bool.and_eq_true]; exact hset), Option.some.injEq] at hsame
        exact h.final hstrict f (by rw [hold, ← hf, hsame])
      | none =>
        -- the last byte has not been sent yet
        have hlast : b.unsentOff < f := by
          have hle := ht.unsent_le
          rcases hfinish hstrict hset.1 with hdata | hwaits | hknown
          · have := List.length_pos_iff.mpr hdata
            omega
          · omega
          · rw [hold] at hknown
            cases hknown
        refine ⟨by omega, fun e he hcovers => ?_⟩
        have hend := h.sent_le e he
        have hin := hcovers.2
        omega
    · exact h.final hstrict f hf

variable {off : ℕ}

theorem Tracked.ready_of_ack (h : Tracked app b)
    (hsent : ∀ x, off ≤ x → x < off + len → x < b.unsentOff) (hack : b.ackAndDrop off len = .ok b')
    (hready : b'.ready = true) : b.ready = true := by
  obtain ⟨-, hunsent, -, hlost⟩ := (ackAndDrop_returns h hsent).of_eq hack
  have hcontinues := continues_ackAndDrop hack
  have hsend : b.sendOff ≤ b'.sendOff := by
    refine le_sendOff (fun y hy => ?_) (hunsent ▸ h.send_le_unsent)
    rcases b.sendOff_cases with ⟨hnone, -⟩ | ⟨-, hmin⟩
    · exact absurd ((hlost y).mp hy).1 (hnone y)
    · exact hmin y ((hlost y).mp hy).1
  rw [ready, Bool.and_eq_true, decide_eq_true_eq, hcontinues.writeOff_eq] at hready
  rw [ready, Bool.and_eq_true, decide_eq_true_eq]
  refine ⟨?_, hsend.trans_lt hready.2⟩
  by_contra hempty
  have hnil : b.data = [] := by simpa using hempty
  simp [hcontinues.data_nil hnil] at hready

section

variable (h : Shipped strict flight delivered b)

include h

/-- A frame that is read for a packet goes into flight. -/
theorem Shipped.read
    (hread : b.read outLen = .ok (b', len, out, fin)) :
    Shipped strict (insert (b.sendOff, len, fin) flight) delivered b' := by
  obtain ⟨app, ht⟩ := h.tracked
  obtain ⟨htracked, hemitted, -, -, hle, -, hflag⟩ := (read_returns ht outLen).of_eq hread
  dsimp only at htracked hemitted hle hflag
  refine ⟨⟨app, htracked⟩, ?_, ?_, ?_, ?_, ?_, ?_⟩
  · rw [Set.insert_union]
    rintro e (rfl | he)
    · exact hemitted.stop_le
    · exact (h.sent_le e he).trans hemitted.unsent_le
  · intro x hx
    rw [hemitted.acked_eq]
    have hnew : b.sendOff ≤ x ∧ x < b.sendOff + len →
        ∃ e ∈ insert (b.sendOff, len, fin) flight, Parcel.Covers e x :=
      fun hin => ⟨_, .inl rfl, hin⟩
    by_cases hold : x < b.unsentOff
    · rcases h.accounted x hold with hx' | hx' | ⟨e, he, hcovers⟩
      · exact .inl hx'
      · exact .inr ((hemitted.lost x hx').imp_right hnew)
      · exact .inr (.inr ⟨e, .inr he, hcovers⟩)
    · exact .inr (.inr (hnew (hemitted.unsent x (not_lt.mp hold) hx)))
  · rw [hemitted.acked_eq]
    exact h.acked_from
  · rw [hemitted.acked_eq]
    exact h.received
  · rw [hemitted.finOff_eq, Set.insert_union]
    rintro e (rfl | he) hend
    · exact hflag.mp hend
    · exact h.ends e he hend
  · intro hstrict f hf
    rw [hemitted.finOff_eq] at hf
    obtain ⟨hpos, hends⟩ := h.final hstrict f hf
    refine ⟨hpos, ?_⟩
    rw [Set.insert_union]
    rintro e (rfl | he) hcovers
    · -- the frame has the last byte, so it ends at the final size
      have hend := ht.fin f hf
      obtain ⟨hlow, hhigh⟩ := hcovers
      have hstop : b.sendOff + len = f := by
        dsimp only at hlow hhigh
        omega
      exact ⟨hflag.mpr (hstop ▸ hf), hstop⟩
    · exact hends e he hcovers

variable {e : Parcel}

theorem Shipped.ack (he : e ∈ flight)
    (hsub : flight' ⊆ flight) (hrest : flight ⊆ insert e flight')
    (hack : b.ackAndDrop e.1 e.2.1 = .ok b') : Shipped strict flight' (insert e delivered) b' := by
  obtain ⟨app, ht⟩ := h.tracked
  have hsent : ∀ x, e.1 ≤ x → x < e.1 + e.2.1 → x < b.unsentOff :=
    fun x _ hx => hx.trans_le (h.sent_le e (.inl he))
  obtain ⟨htracked, hunsent, hacked, hlost⟩ := (ackAndDrop_returns ht hsent).of_eq hack
  have hfin : b'.finOff = b.finOff := (continues_ackAndDrop hack).finOff_eq
  have hfewer : flight' ∪ insert e delivered ⊆ flight ∪ delivered := by
    apply Set.union_subset (hsub.trans Set.subset_union_left)
    exact Set.insert_subset (.inl he) Set.subset_union_right
  refine ⟨⟨app, htracked⟩, ?_, ?_, ?_, ?_, ?_, ?_⟩
  · rw [hunsent]
    exact fun e' he' => h.sent_le e' (hfewer he')
  · intro x hx
    rw [hunsent] at hx
    rw [hacked, hlost]
    by_cases hin : e.1 ≤ x ∧ x < e.1 + e.2.1
    · exact .inl (.inr hin)
    · rcases h.accounted x hx with hx' | hx' | ⟨e', he', hcovers⟩
      · exact .inl (.inl hx')
      · exact .inr (.inl ⟨hx', hin⟩)
      · rcases hrest he' with rfl | he'
        · exact absurd hcovers hin
        · exact .inr (.inr ⟨e', he', hcovers⟩)
  · intro x hx
    rcases (hacked x).mp hx with hx | hin
    · obtain ⟨e', he', hcovers⟩ := h.acked_from x hx
      exact ⟨e', .inr he', hcovers⟩
    · exact ⟨e, .inl rfl, hin⟩
  · rintro e' (rfl | he') x hcovers
    · exact (hacked x).mpr (.inr hcovers)
    · exact (hacked x).mpr (.inl (h.received e' he' x hcovers))
  · rw [hfin]
    exact fun e' he' => h.ends e' (hfewer he')
  · intro hstrict f hf
    obtain ⟨hpos, hends⟩ := h.final hstrict f (hfin ▸ hf)
    exact ⟨hpos, fun e' he' => hends e' (hfewer he')⟩

theorem Shipped.lose (he : e ∈ flight)
    (hsub : flight' ⊆ flight) (hrest : flight ⊆ insert e flight') :
    Shipped strict flight' delivered (b.retransmit e.1 e.2.1) := by
  obtain ⟨app, ht⟩ := h.tracked
  have hsent : ∀ x, e.1 ≤ x → x < e.1 + e.2.1 → x < b.unsentOff :=
    fun x _ hx => hx.trans_le (h.sent_le e (.inl he))
  obtain ⟨htracked, hunsent, hacked, hlost⟩ := retransmit_spec ht hsent
  have hfin := (continues_retransmit b e.1 e.2.1).finOff_eq
  have hfewer : flight' ∪ delivered ⊆ flight ∪ delivered := Set.union_subset_union_left _ hsub
  refine ⟨⟨app, htracked⟩, ?_, ?_, ?_, ?_, ?_, ?_⟩
  · rw [hunsent]
    exact fun e' he' => h.sent_le e' (hfewer he')
  · intro x hx
    rw [hunsent] at hx
    rw [hacked, hlost]
    rcases h.accounted x hx with hx' | hx' | ⟨e', he', hcovers⟩
    · exact .inl hx'
    · exact .inr (.inl (.inl hx'))
    · rcases hrest he' with rfl | he'
      · by_cases hin : x ∈ b.acked
        · exact .inl hin
        · exact .inr (.inl (.inr ⟨hcovers, hin⟩))
      · exact .inr (.inr ⟨e', he', hcovers⟩)
  · rw [hacked]
    exact h.acked_from
  · rw [hacked]
    exact h.received
  · rw [hfin]
    exact fun e' he' => h.ends e' (hfewer he')
  · intro hstrict f hf
    obtain ⟨hpos, hends⟩ := h.final hstrict f (hfin ▸ hf)
    exact ⟨hpos, fun e' he' => hends e' (hfewer he')⟩

theorem Shipped.complete (hstrict : strict) (hdone : b.isComplete = true) :
    ∃ f, b.finOff = some f ∧ ∃ e ∈ delivered, e.Ends f := by
  unfold isComplete at hdone
  cases hfin : b.finOff with
  | none =>
    rw [hfin] at hdone
    cases hdone
  | some f =>
    rw [hfin] at hdone
    obtain ⟨hpos, hends⟩ := h.final hstrict f hfin
    simp only [Bool.or_eq_true, decide_eq_true_eq] at hdone
    have hall := (eqRange_iff hpos).mp (hdone.resolve_left hpos.ne')
    obtain ⟨e, he, hcovers⟩ := h.acked_from (f - 1) ((hall _).mpr ⟨Nat.zero_le _, by omega⟩)
    exact ⟨f, rfl, e, he, hends e (.inr he) hcovers⟩

theorem Shipped.isComplete
    (he : e ∈ delivered) (hflag : e.2.2 = true)
    (hall : ∀ x < e.1 + e.2.1, ∃ e' ∈ delivered, e'.Covers x) : b.isComplete = true := by
  obtain ⟨app, ht⟩ := h.tracked
  have hfin := h.ends e (.inr he) hflag
  have hend := ht.fin _ hfin
  unfold SendBuf.isComplete
  rw [hfin]
  rcases eq_zero_or_pos (e.1 + e.2.1) with hzero | hpos
  · simp [hzero]
  · have hrange : b.acked.eqRange 0 (e.1 + e.2.1) = true := by
      rw [eqRange_iff hpos]
      intro x
      constructor
      · intro hx
        have hlt := ht.acked.lt x hx
        have hle := ht.unsent_le
        exact ⟨Nat.zero_le x, by omega⟩
      · rintro ⟨-, hlt⟩
        obtain ⟨e', he', hcovers⟩ := hall x hlt
        exact h.received e' he' x hcovers
    simp [hrange]

theorem Shipped.fin_somewhere (hstrict : strict)
    (hfin : b.finOff = some f) :
    (∃ e ∈ flight ∪ delivered, e.Ends f) ∨ b.ready = true ∧ b.EmitsFin := by
  obtain ⟨app, ht⟩ := h.tracked
  obtain ⟨hpos, hends⟩ := h.final hstrict f hfin
  by_cases hlast : f - 1 < b.unsentOff
  · rcases h.accounted _ hlast with hacked | hlost | ⟨e, he, hcovers⟩
    · obtain ⟨e, he, hcovers⟩ := h.acked_from _ hacked
      exact .inl ⟨e, .inr he, hends e (.inr he) hcovers⟩
    · exact .inr ⟨ht.ready_of_pending hfin hpos (.inl hlost), ht.emitsFin hfin hpos (.inl hlost)⟩
    · exact .inl ⟨e, .inl he, hends e (.inl he) hcovers⟩
  · have hunsent : b.LastPending f := .inr (not_lt.mp hlast)
    exact .inr ⟨ht.ready_of_pending hfin hpos hunsent, ht.emitsFin hfin hpos hunsent⟩

end

/-! ## Abandoned buffers -/

structure Cleared (b : SendBuf) : Prop where
  data_nil : b.data = []
  final : b.finOff = some b.unsentOff
  writeOff_eq : b.writeOff = b.unsentOff
  lt : b.unsentOff < 2 ^ 64
  below : b.acked.Below b.unsentOff
  all : ∀ x < b.unsentOff, x ∈ b.acked

theorem cleared_reset (hlt : b.unsentOff < 2 ^ 64) (hbelow : b.acked.Below b.unsentOff) :
    Cleared b.reset.1 := by
  refine ⟨rfl, rfl, rfl, hlt, ?_, ?_⟩
  · refine hbelow.insert hlt ?_
    intro x _ hx
    simpa using hx
  · intro x hx
    exact (hbelow.mem_insert hlt).mpr (.inr ⟨Nat.zero_le x, by simpa [reset, ack] using hx⟩)

theorem Cleared.isComplete (h : Cleared b) : b.isComplete = true := by
  unfold SendBuf.isComplete
  rw [h.final]
  rcases eq_zero_or_pos b.unsentOff with hzero | hpos
  · simp [hzero]
  · have hrange : b.acked.eqRange 0 b.unsentOff = true := by
      rw [eqRange_iff hpos]
      intro x
      exact ⟨fun hx => ⟨Nat.zero_le x, h.below.lt x hx⟩, fun hx => h.all x hx.2⟩
    simp [hrange]

variable {code : ℕ} {r : ℕ × ℕ}

theorem cleared_of_abandons (hlt : b.unsentOff < 2 ^ 64)
    (hbelow : b.acked.Below b.unsentOff)
    (h : b.stop code = (b', .ok r) ∨ b.shutdownSend = (b', .ok r)) : Cleared b' := by
  rcases h with h | h
  · unfold stop at h
    split_ifs at h
    · cases h
    · cases h
      have hreset := cleared_reset hlt hbelow
      exact ⟨hreset.data_nil, hreset.final, hreset.writeOff_eq, hreset.lt, hreset.below, hreset.all⟩
  · unfold shutdownSend at h
    split_ifs at h
    · cases h
    · cases h
      exact cleared_reset (b := { b with shutdown := true }) hlt hbelow

theorem Cleared.ackAndDrop (h : Cleared b) (hack : b.ackAndDrop off len = .ok b') : Cleared b' := by
  unfold SendBuf.ackAndDrop at hack
  rw [if_pos (by simp [h.data_nil])] at hack
  cases hack
  exact ⟨h.data_nil, h.final, h.writeOff_eq, h.lt, h.below, h.all⟩

theorem Cleared.retransmit (h : Cleared b) (off len : ℕ) : Cleared (b.retransmit off len) := by
  unfold SendBuf.retransmit
  rw [if_pos (by simp [h.data_nil])]
  exact h

theorem Cleared.read (h : Cleared b) (hread : b.read outLen = .ok (b', len, out, fin)) :
    Cleared b' := by
  have hready : b.ready = false := by simp [ready, h.data_nil]
  have hround : ∀ s n, s.1 = b → readNext outLen s = .ok n →
      Next.Holds (fun s => s.1 = b) (fun r : SendBuf × List UInt8 × ℕ × ℕ => r.1 = b) n := by
    rintro ⟨b₁, out₁, cap, nextOff⟩ n rfl hn
    unfold readNext at hn
    dsimp only at hn
    rw [if_neg (by simp [hready])] at hn
    cases hn
    rfl
  obtain ⟨⟨b₁, out₁, cap, nextOff⟩, hloop, hread⟩ := bind_eq_ok.mp hread
  have hsame := loop_valid _ hround _ _ _ rfl hloop
  obtain ⟨len', -, hread⟩ := bind_eq_ok.mp hread
  cases hread
  cases hsame
  exact h

theorem Cleared.updateBlockedAt (h : Cleared b) (blockedAt : Option ℕ) :
    Cleared (b.updateBlockedAt blockedAt) :=
  ⟨h.data_nil, h.final, h.writeOff_eq, h.lt, h.below, h.all⟩

theorem Cleared.updateMaxData (h : Cleared b) (maxData : ℕ) : Cleared (b.updateMaxData maxData) :=
  ⟨h.data_nil, h.final, h.writeOff_eq, h.lt, h.below, h.all⟩

theorem Cleared.write (h : Cleared b) (hwrite : b.write data fin = .ok (b', .ok n)) :
    Cleared b' := by
  obtain ⟨room, hcapacity, hwrite⟩ := bind_eq_ok.mp hwrite
  cases room with
  | error => cases hwrite
  | ok room =>
    dsimp only at hwrite
    generalize hfin : (fin && decide (data.length ≤ room)) = fin' at hwrite
    by_cases hfinal : b.violatesFinalSize (b.writeOff + data.length) fin' = true
    · rw [if_pos hfinal] at hwrite
      cases hwrite
    rw [if_neg hfinal] at hwrite
    have hnil : data = [] := by
      simp only [violatesFinalSize, h.final, h.writeOff_eq, Bool.or_eq_true, not_or,
        decide_eq_true_eq, not_lt] at hfinal
      exact List.length_eq_zero_iff.mp (by omega)
    subst hnil
    rw [List.take_nil, if_pos List.isEmpty_nil] at hwrite
    cases hwrite
    split_ifs
    · exact ⟨h.data_nil, congrArg some h.writeOff_eq, h.writeOff_eq, h.lt, h.below, h.all⟩
    · exact h

theorem Shipped.cleared (h : Shipped strict flight delivered b)
    (hb : b.stop code = (b', .ok r) ∨ b.shutdownSend = (b', .ok r)) : Cleared b' := by
  obtain ⟨app, ht⟩ := h.tracked
  exact cleared_of_abandons ht.unsent_lt ht.acked hb

end Tquic.SendBuf
