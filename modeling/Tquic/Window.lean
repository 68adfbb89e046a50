import Tquic.Base.BitField
import Tquic.Packet.Number

/-!
# The window of received packet numbers

A bit field of the last 128 sequence numbers, the highest one at bit 0. Numbers
below the window count as received.
-/

namespace Tquic

open BitField

def seqNumWindowSize : ℕ := 128

structure SeqNumWindow where
  lower : ℕ := 0
  window : BitVec 128 := 0
  deriving DecidableEq

namespace SeqNumWindow

variable {w : SeqNumWindow} {s seq : ℕ}

def upper (w : SeqNumWindow) : ℕ := saturatingAdd w.lower seqNumWindowSize - 1

def slide (w : SeqNumWindow) (diff : ℕ) : SeqNumWindow where
  lower := wrap (w.lower + diff)
  -- the distance is cast to 32 bits before the shift
  window := (BitField.checkedShl w.window diff).getD 0

def mark (w : SeqNumWindow) (seq : ℕ) : SeqNumWindow :=
  { w with window := w.window ||| BitField.bit 128 (w.upper - seq) }

def insert (w : SeqNumWindow) (seq : ℕ) : SeqNumWindow :=
  if seq < w.lower then w
  else if w.upper < seq then (w.slide (seq - w.upper)).mark seq
  else w.mark seq

def contains (w : SeqNumWindow) (seq : ℕ) : Bool :=
  if w.upper < seq then false
  else if seq < w.lower then true
  else w.window &&& BitField.bit 128 (w.upper - seq) ≠ 0#128

def insertAll (w : SeqNumWindow) (seqs : List ℕ) : SeqNumWindow := seqs.foldl insert w

/-! ## What the window records -/

/-- The window records the numbers in `seen`: they lie below its upper edge, and inside
of it the bits are theirs. -/
structure Records (w : SeqNumWindow) (seen : ℕ → Prop) : Prop where
  lower_lt : w.lower < 2 ^ 62
  le_upper : ∀ s, seen s → s ≤ w.upper
  bit_iff : ∀ s, w.lower ≤ s → s ≤ w.upper →
    (w.window.getLsbD (w.upper - s) = true ↔ seen s)

theorem upper_eq (h : w.lower < 2 ^ 62) : w.upper = w.lower + 127 := by
  simp only [upper, saturatingAdd, seqNumWindowSize, u64Max]
  omega

theorem records_default : Records {} (fun _ => False) := by
  refine ⟨by decide, fun s hs => hs.elim, fun s _ _ => ?_⟩
  simp

variable {seen : ℕ → Prop}

theorem Records.contains_iff (h : Records w seen) : w.contains s = true ↔ seen s ∨ s < w.lower := by
  have hupper := upper_eq h.lower_lt
  by_cases hhigh : w.upper < s
  · rw [contains, if_pos hhigh]
    constructor
    · intro hfalse
      cases hfalse
    · rintro (hs | hlow)
      · have := h.le_upper s hs
        omega
      · omega
  · by_cases hlow : s < w.lower
    · simp [contains, hhigh, hlow]
    · rw [contains, if_neg hhigh, if_neg hlow, decide_eq_true_iff]
      have hmask : w.upper - s < 128 := by omega
      rw [and_bit_ne_zero hmask, h.bit_iff s (by omega) (by omega)]
      simp [hlow]

theorem Records.mark (h : Records w seen) (hlow : w.lower ≤ seq) (hhigh : seq ≤ w.upper) :
    Records (w.mark seq) (fun s => seen s ∨ s = seq) := by
  have hupper := upper_eq h.lower_lt
  refine ⟨h.lower_lt, ?_, ?_⟩
  · rintro s (hs | rfl)
    · exact h.le_upper s hs
    · exact hhigh
  · intro s hls hsu
    change w.lower ≤ s at hls
    change s ≤ w.upper at hsu
    have hmask : w.upper - seq < 128 := by omega
    change (w.window ||| bit 128 (w.upper - seq)).getLsbD (w.upper - s) = true ↔ _
    rw [getLsbD_or_bit hmask, h.bit_iff s hls hsu]
    have hpos : w.upper - s = w.upper - seq ↔ s = seq := by omega
    rw [hpos]

/-- An insertion shifts by the distance the window moves: it fits into 32 bits, or its low 32 bits
still shift everything out. -/
def Slides (w : SeqNumWindow) (seq : ℕ) : Prop :=
  seq - w.upper < 2 ^ 32 ∨ 128 ≤ (seq - w.upper) % 2 ^ 32

instance (w : SeqNumWindow) (seq : ℕ) : Decidable (w.Slides seq) :=
  inferInstanceAs (Decidable (_ ∨ _))

theorem Records.slide (h : Records w seen) (hseq : seq < 2 ^ 62) (hhigh : w.upper < seq)
    (hslides : w.Slides seq) :
    Records (w.slide (seq - w.upper)) seen ∧ (w.slide (seq - w.upper)).upper = seq := by
  have hupper := upper_eq h.lower_lt
  have hlower : (w.slide (seq - w.upper)).lower = seq - 127 := by
    simp only [SeqNumWindow.slide, wrap]
    omega
  have hupper' : (w.slide (seq - w.upper)).upper = seq := by
    rw [upper_eq (by omega), hlower]
    omega
  refine ⟨⟨by omega, ?_, ?_⟩, hupper'⟩
  · intro s hs
    have := h.le_upper s hs
    omega
  · intro s hls hsu
    rw [hupper'] at hsu ⊢
    have hi : seq - s < 128 := by omega
    change ((checkedShl w.window (seq - w.upper)).getD 0).getLsbD (seq - s) = true ↔ _
    rw [getLsbD_checkedShl hi hslides]
    constructor
    · rintro ⟨hle, hbit⟩
      have hpos : seq - s - (seq - w.upper) = w.upper - s := by omega
      rw [hpos, h.bit_iff s (by omega) (by omega)] at hbit
      exact hbit
    · intro hs
      have hle := h.le_upper s hs
      refine ⟨by omega, ?_⟩
      have hpos : seq - s - (seq - w.upper) = w.upper - s := by omega
      rw [hpos, h.bit_iff s (by omega) hle]
      exact hs

theorem Records.insert {seen : ℕ → Prop} (h : Records w seen) (hseq : seq < 2 ^ 62)
    (hslides : w.Slides seq) :
    Records (w.insert seq) (fun s => seen s ∨ s = seq) := by
  have hupper := upper_eq h.lower_lt
  by_cases hlow : seq < w.lower
  · rw [SeqNumWindow.insert, if_pos hlow]
    refine ⟨h.lower_lt, ?_, ?_⟩
    · rintro s (hs | rfl)
      · exact h.le_upper s hs
      · omega
    · intro s hls hsu
      rw [h.bit_iff s hls hsu, or_iff_left]
      omega
  · rw [SeqNumWindow.insert, if_neg hlow]
    split_ifs with hhigh
    · obtain ⟨hrec, hu⟩ := h.slide hseq hhigh hslides
      have hul := upper_eq hrec.lower_lt
      exact hrec.mark (by omega) (by omega)
    · exact h.mark (by omega) (by omega)

def SlidesAll (w : SeqNumWindow) : List ℕ → Prop
  | [] => True
  | seq :: seqs => w.Slides seq ∧ (w.insert seq).SlidesAll seqs

instance decidableSlidesAll : (w : SeqNumWindow) → (seqs : List ℕ) → Decidable (w.SlidesAll seqs)
  | _, [] => .isTrue trivial
  | w, seq :: seqs =>
    have := decidableSlidesAll (w.insert seq) seqs
    inferInstanceAs (Decidable (_ ∧ _))

theorem Records.insertAll {seqs : List ℕ} (h : Records w seen) (hseqs : ∀ seq ∈ seqs, seq < 2 ^ 62)
    (hslides : w.SlidesAll seqs) : Records (w.insertAll seqs) (fun s => seen s ∨ s ∈ seqs) := by
  induction seqs generalizing w seen with
  | nil => simpa [SeqNumWindow.insertAll] using h
  | cons seq seqs ih =>
    obtain ⟨hfirst, hrest⟩ := hslides
    have hstep := h.insert (hseqs seq (by simp)) hfirst
    have hall := ih hstep (fun s hs => hseqs s (by simp [hs])) hrest
    have hsame : (fun s => seen s ∨ s ∈ seq :: seqs) = fun s => (seen s ∨ s = seq) ∨ s ∈ seqs := by
      funext s
      rw [List.mem_cons, or_assoc]
    rw [hsame]
    exact hall

/-! ## The numbers of received packets -/

/-- The numbers that `recv_packet` inserts, where each packet has the octets of its number and how
many these are; a duplicate is dropped. -/
def received (largest : ℕ) (w : SeqNumWindow) : List (ℕ × ℕ) → List ℕ
  | [] => []
  | (truncated, len) :: packets =>
    let pktNum := decodePacketNum largest truncated len
    if w.contains pktNum then received largest w packets
    else pktNum :: received (max largest pktNum) (w.insert pktNum) packets

theorem decodePacketNum_le {largest truncated len : ℕ} (h : truncated < 256 ^ len) :
    decodePacketNum largest truncated len ≤ max (largest + 2 + 256 ^ len / 2) (256 ^ len) := by
  have hdiv := Nat.div_mul_le_self (largest + 1) (256 ^ len)
  simp only [decodePacketNum]
  split_ifs <;> omega

/-- A number is completed from four octets at most, so the window never slides too far. -/
theorem Records.slidesAll_received {packets : List (ℕ × ℕ)} {largest : ℕ} (h : Records w seen)
    (hlargest : largest = 0 ∨ seen largest)
    (hpackets : ∀ p ∈ packets, p.2 ≤ 4 ∧ p.1 < 256 ^ p.2)
    (hseqs : ∀ seq ∈ received largest w packets, seq < 2 ^ 62) :
    w.SlidesAll (received largest w packets) := by
  induction packets generalizing w seen largest with
  | nil => trivial
  | cons p packets ih =>
    obtain ⟨⟨hlen, htruncated⟩, hpackets⟩ := List.forall_mem_cons.mp hpackets
    unfold received at hseqs ⊢
    dsimp only at hseqs ⊢
    generalize hnum : decodePacketNum largest p.1 p.2 = pktNum at hseqs ⊢
    split_ifs at hseqs ⊢
    · exact ih h hlargest hpackets hseqs
    · obtain ⟨hseq, hseqs⟩ := List.forall_mem_cons.mp hseqs
      have hslides : w.Slides pktNum := by
        have hnear : pktNum ≤ _ := hnum ▸ decodePacketNum_le htruncated
        have hpow : 256 ^ p.2 ≤ 256 ^ 4 := Nat.pow_le_pow_right (by decide) hlen
        have hupper := upper_eq h.lower_lt
        have hle : largest ≤ w.upper := hlargest.elim (fun h0 => by omega) (h.le_upper largest)
        left
        omega
      refine ⟨hslides, ih (h.insert hseq hslides) ?_ hpackets hseqs⟩
      rcases max_choice largest pktNum with hmax | hmax
      · rw [hmax]
        exact hlargest.imp_right .inl
      · rw [hmax]
        exact .inr (.inr rfl)

/-- The window reports exactly the numbers inserted and those below it, if no insertion slides it
too far; those of `recv_packet` never do. -/
theorem contains_insertAll_iff :
    (∀ seqs : List ℕ, (∀ seq ∈ seqs, seq < 2 ^ 62) → SlidesAll {} seqs → ∀ s,
      (insertAll {} seqs).contains s = true ↔ s ∈ seqs ∨ s < (insertAll {} seqs).lower) ∧
    ∀ packets : List (ℕ × ℕ), (∀ p ∈ packets, p.2 ≤ 4 ∧ p.1 < 256 ^ p.2) →
      (∀ seq ∈ received 0 {} packets, seq < 2 ^ 62) → SlidesAll {} (received 0 {} packets) := by
  refine ⟨fun seqs hseqs hslides s => ?_, fun packets hpackets hseqs => ?_⟩
  · rw [(records_default.insertAll hseqs hslides).contains_iff]
    simp
  · exact records_default.slidesAll_received (.inl rfl) hpackets hseqs

/-- A window that slides by a few numbers, by more than its width and back, and the numbers of
three packets, the last of them a duplicate. -/
theorem contains_insertAll_three :
    ((insertAll {} [3, 2 ^ 40 + 1000, 2 ^ 40 + 990]).contains (2 ^ 40 + 995) = true ↔
      2 ^ 40 + 995 ∈ [3, 2 ^ 40 + 1000, 2 ^ 40 + 990] ∨
        2 ^ 40 + 995 < (insertAll {} [3, 2 ^ 40 + 1000, 2 ^ 40 + 990]).lower) ∧
    received 0 {} [(200, 1), (90, 2), (200, 1)] = [200, 90] ∧
      SlidesAll {} (received 0 {} [(200, 1), (90, 2), (200, 1)]) :=
  ⟨contains_insertAll_iff.1 _ (by decide) (by decide +kernel) _, by decide +kernel,
    contains_insertAll_iff.2 _ (by decide) (by decide +kernel)⟩

/-- A slide by `2 ^ 32` does not shift: the bit of number 0 becomes that of `2 ^ 32`. -/
theorem contains_never_inserted :
    (insertAll {} [0, 2 ^ 32 + 127]).contains (2 ^ 32) = true ∧
      2 ^ 32 ∉ [0, 2 ^ 32 + 127] ∧ ¬ 2 ^ 32 < (insertAll {} [0, 2 ^ 32 + 127]).lower := by
  decide +kernel

end SeqNumWindow

end Tquic
