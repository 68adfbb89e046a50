import Tquic.Stream.RecvOffsets

/-!
# Layout of a receive buffer

Whatever a peer sends, the stored chunks lie apart and behind what has been read. So an end of
stream in an empty frame can be collected, and `write` leaves a buffer that is over only in two
other cases.
-/

namespace Tquic.RecvBuf

open SortedMap Exec RangeBuf

variable {b b' : RecvBuf}

/-- The stored chunks lie apart, in the order of their keys, and behind what was read. -/
structure Layout (b : RecvBuf) : Prop where
  keyed : ∀ e ∈ b.data, e.1 = e.2.maxOff
  apart : ∀ e ∈ b.data, ∀ e' ∈ b.data, e.1 < e'.1 → e.2.maxOff ≤ e'.2.off
  unread : ∀ e ∈ b.data, b.readOff ≤ e.2.off

/-- Everything up to the final size is consumed, and nothing is left to be collected. -/
def Over (b : RecvBuf) : Prop := b.isComplete = true ∧ b.ready = false

theorem Layout.of_empty (h : ∀ e, e ∉ b.data) : Layout b :=
  ⟨fun e he => absurd he (h e), fun e he => absurd he (h e), fun e he => absurd he (h e)⟩

theorem Layout.new (maxData maxWindow : ℕ) : Layout (RecvBuf.new maxData maxWindow) :=
  .of_empty not_mem_empty

/-! ## Writing -/

/-- The piece that a scan leaves is part of the chunk and apart from the chunks scanned. -/
def Scan.Fits (l : List (ℕ × RangeBuf)) (buf : RangeBuf) : Scan → Prop
  | .covered _ => True
  | .store buf' _ => buf.off ≤ buf'.off ∧ buf'.maxOff ≤ buf.maxOff ∧
      ∀ e ∈ l, e.2.maxOff ≤ buf'.off ∨ buf'.maxOff ≤ e.2.off

theorem scan_fits {l : List (ℕ × RangeBuf)} (hl : l.Pairwise fun e e' => e.2.maxOff ≤ e'.2.off) :
    ∀ {buf : RangeBuf} {tmpBufs : List RangeBuf} {r : Scan}, scan l buf tmpBufs = .ok r →
      r.Fits l buf := by
  induction l with
  | nil =>
    intro buf tmpBufs r h
    cases h
    exact ⟨le_rfl, le_rfl, by simp⟩
  | cons e l ih =>
    intro buf tmpBufs r h
    obtain ⟨hhead, htail⟩ := List.pairwise_cons.mp hl
    have hend : e.2.off ≤ e.2.maxOff := Nat.le_add_right _ _
    -- what fits the rest of the list and lies apart from its head
    have hcons : ∀ buf₁ : RangeBuf, buf.off ≤ buf₁.off → buf₁.maxOff ≤ buf.maxOff →
        e.2.maxOff ≤ buf₁.off ∨ buf₁.maxOff ≤ e.2.off → r.Fits l buf₁ → r.Fits (e :: l) buf := by
      intro buf₁ hoff hmax happart hfits
      cases r with
      | covered => trivial
      | store =>
        obtain ⟨hoff', hmax', hrest⟩ := hfits
        refine ⟨hoff.trans hoff', hmax'.trans hmax, ?_⟩
        intro e' he'
        rcases List.mem_cons.mp he' with rfl | he'
        · exact happart.imp (fun hle => hle.trans hoff') fun hle => hmax'.trans hle
        · exact hrest e' he'
    unfold scan at h
    split_ifs at h with hbefore hcovered hfirst hinside
    · cases h
      refine ⟨le_rfl, le_rfl, ?_⟩
      intro e' he'
      rcases List.mem_cons.mp he' with rfl | he'
      · exact .inr hbefore.le
      · exact .inr (hbefore.le.trans (hend.trans (hhead e' he')))
    · cases h
      trivial
    · obtain ⟨buf₁, hadvance, h⟩ := bind_eq_ok.mp h
      have hmax := advance_maxOff hadvance
      obtain ⟨hle, rfl⟩ := advance_cases hadvance
      refine hcons _ (Nat.le_add_right _ _) hmax.le (.inl ?_) (ih htail h)
      dsimp only
      omega
    · obtain ⟨⟨buf₁, tail⟩, hsplit, h⟩ := bind_eq_ok.mp h
      have hmax := (splitOff_maxOff hsplit).1
      obtain ⟨hle, rfl, rfl⟩ := splitOff_cases hsplit
      refine hcons ⟨buf.data.take (e.2.off - buf.off), buf.off, false⟩ le_rfl hmax (.inr ?_)
        (ih htail h)
      simp only [maxOff, len, List.length_take]
      omega
    · refine hcons buf le_rfl le_rfl ?_ (ih htail h)
      omega

def Reaching (b : RecvBuf) : Prop := ∀ e ∈ b.data, e.2.maxOff ≤ b.recvOff

variable {buf : RangeBuf}

theorem Layout.scanStored (h : Layout b) (hreach : b.Reaching) {tmpBufs : List RangeBuf} {r : Scan}
    (hscan : b.scanStored buf tmpBufs = .ok r) : r.Fits b.data.entries buf := by
  unfold RecvBuf.scanStored at hscan
  split_ifs at hscan with hsome
  · have hsorted : (b.data.rangeFrom buf.off).Pairwise fun e e' => e.2.maxOff ≤ e'.2.off :=
      (pairwise_rangeFrom b.data buf.off).imp_of_mem fun he he' hlt =>
        h.apart _ (mem_rangeFrom.mp he).1 _ (mem_rangeFrom.mp he').1 hlt
    have hfits := scan_fits hsorted hscan
    cases r with
    | covered => trivial
    | store =>
      obtain ⟨hoff, hmax, hrest⟩ := hfits
      refine ⟨hoff, hmax, ?_⟩
      intro e he
      by_cases hle : buf.off ≤ e.1
      · exact hrest e (mem_rangeFrom.mpr ⟨he, hle⟩)
      · -- the chunks before the new one are not scanned
        have hkey := h.keyed e he
        exact .inl (by omega)
  · cases hscan
    push Not at hsome
    exact ⟨le_rfl, le_rfl, fun e he => .inl ((hreach e he).trans hsome.1)⟩

theorem trim_off {buf' : RangeBuf} (h : b.trim buf = .ok buf') : b.readOff ≤ buf'.off := by
  unfold trim at h
  split_ifs at h with hlt
  · obtain ⟨-, rfl⟩ := advance_cases h
    dsimp only
    omega
  · cases h
    exact not_lt.mp hlt

theorem Layout.storeChunk (h : Layout b) (hread : b.readOff ≤ buf.off)
    (happart : ∀ e ∈ b.data, e.2.maxOff ≤ buf.off ∨ buf.maxOff ≤ e.2.off) :
    Layout (b.storeChunk buf) := by
  unfold RecvBuf.storeChunk
  dsimp only
  split_ifs
  · exact ⟨h.keyed, h.apart, h.unread⟩
  refine ⟨?_, ?_, ?_⟩
  · intro e he
    rcases mem_insert.mp he with rfl | ⟨he, -⟩
    · rfl
    · exact h.keyed e he
  · intro e he e' he' hlt
    have hself : buf.off ≤ buf.maxOff := Nat.le_add_right _ _
    rcases mem_insert.mp he with rfl | ⟨he, -⟩
    · rcases mem_insert.mp he' with rfl | ⟨he', -⟩
      · exact absurd hlt (lt_irrefl _)
      · have hkey := h.keyed e' he'
        rcases happart e' he' with hle | hle
        · omega
        · exact hle
    · rcases mem_insert.mp he' with rfl | ⟨he', -⟩
      · have hkey := h.keyed e he
        have hend : e.2.off ≤ e.2.maxOff := Nat.le_add_right _ _
        rcases happart e he with hle | hle
        · exact hle
        · omega
      · exact h.apart e he e' he' hlt
  · intro e he
    rcases mem_insert.mp he with rfl | ⟨he, -⟩
    · exact hread
    · exact h.unread e he

theorem Reaching.storeChunk (h : b.Reaching) (buf : RangeBuf) : (b.storeChunk buf).Reaching := by
  intro e he
  rw [storeChunk_recvOff]
  unfold RecvBuf.storeChunk at he
  dsimp only at he
  split_ifs at he
  · exact (h e he).trans (le_max_left _ _)
  · rcases mem_insert.mp he with rfl | ⟨he, -⟩
    · exact le_max_right _ _
    · exact (h e he).trans (le_max_left _ _)

theorem Layout.storeNext {s : RecvBuf × List RangeBuf}
    {n : Exec.Next (RecvBuf × List RangeBuf) RecvBuf} (h : Layout s.1 ∧ s.1.Reaching)
    (hround : storeNext s = .ok n) :
    Exec.Next.Holds (fun s => Layout s.1 ∧ s.1.Reaching) (fun b => Layout b ∧ b.Reaching) n := by
  obtain ⟨b, queue⟩ := s
  cases queue with
  | nil =>
    cases hround
    exact h
  | cons =>
    obtain ⟨buf₁, htrim, hround⟩ := bind_eq_ok.mp hround
    obtain ⟨r, hscan, hround⟩ := bind_eq_ok.mp hround
    have hfits := h.1.scanStored h.2 hscan
    cases r with
    | covered =>
      cases hround
      exact h
    | store buf' =>
      cases hround
      obtain ⟨hoff, -, happart⟩ := hfits
      exact ⟨h.1.storeChunk ((trim_off htrim).trans hoff) happart, h.2.storeChunk buf'⟩

variable {off : ℕ} {data : List UInt8} {fin : Bool}

/-- `write` keeps the stored chunks apart. -/
theorem Layout.write (h : Layout b) (hs : Sane b)
    (hwrite : b.write off data fin = .ok (b', .ok ())) : Layout b' := by
  obtain ⟨-, -, hcase⟩ := write_cases hwrite
  rcases hcase with ⟨-, rfl⟩ | ⟨-, hstore⟩
  · exact h
  have hlearn : Layout (b.learnFinal (.new data off fin)) ∧
      (b.learnFinal (.new data off fin)).Reaching := by
    unfold learnFinal
    split_ifs
    · exact ⟨⟨h.keyed, h.apart, h.unread⟩, hs.chunk_le⟩
    · exact ⟨h, hs.chunk_le⟩
  unfold storeNew at hstore
  split_ifs at hstore
  · cases hstore
    exact hlearn.1
  · cases hstore
    exact hlearn.1
  · have hdone := loop_valid (fun s : RecvBuf × List RangeBuf => Layout s.1 ∧ s.1.Reaching)
      (fun s n hs hround => storeNext hs hround) _ _ _ hlearn hstore
    exact hdone.1

/-! ## An end of stream without data -/

theorem mem_of_storeNew (hopen : b.shutdown = false) (hfin : buf.fin = true)
    (hempty : buf.isEmpty = true) (hstore : b.storeNew buf = .ok b') : ∃ e, e ∈ b'.data := by
  unfold storeNew at hstore
  rw [if_neg (by simp [hfin]), if_neg (by simp [hempty])] at hstore
  let Inv (s : RecvBuf × List RangeBuf) : Prop :=
    s.1.shutdown = false ∧ ((∃ e, e ∈ s.1.data) ∨ s.2 ≠ [])
  have hround : ∀ s n, Inv s → storeNext s = .ok n →
      Exec.Next.Holds Inv (fun b => ∃ e, e ∈ b.data) n := by
    rintro ⟨b₁, queue⟩ n ⟨hopen₁, hsome⟩ hn
    cases queue with
    | nil =>
      cases hn
      exact hsome.resolve_right fun hne => hne rfl
    | cons =>
      obtain ⟨buf₂, -, hn⟩ := bind_eq_ok.mp hn
      obtain ⟨r, hscan, hn⟩ := bind_eq_ok.mp hn
      cases r with
      | covered =>
        cases hn
        refine ⟨hopen₁, .inl ?_⟩
        unfold scanStored at hscan
        split_ifs at hscan
        swap
        · cases hscan
        cases hl : b₁.data.rangeFrom buf₂.off with
        | nil =>
          rw [hl] at hscan
          cases hscan
        | cons e =>
          have he : e ∈ b₁.data.rangeFrom buf₂.off := hl ▸ .head _
          exact ⟨e, (mem_rangeFrom.mp he).1⟩
      | store buf' =>
        cases hn
        refine ⟨(sameRest_storeChunk b₁ buf').shutdown.trans hopen₁, .inl ?_⟩
        refine ⟨(buf'.maxOff, buf'), ?_⟩
        unfold storeChunk
        dsimp only
        split_ifs with hshut
        · rw [hopen₁] at hshut
          cases hshut
        · exact mem_insert.mpr (.inl rfl)
  exact loop_valid Inv hround _ _ _ ⟨hopen, .inr (List.cons_ne_nil _ _)⟩ hstore

theorem Layout.ready_of_mem (h : Layout b) (hs : Sane b) (heq : b.recvOff = b.readOff)
    {e : ℕ × RangeBuf} (he : e ∈ b.data) : b.ready = true := by
  obtain ⟨e', he', hfirst⟩ := exists_first_of_mem he
  have hlow := h.unread e' he'
  have hhigh := hs.chunk_le e' he'
  have hend : e'.2.off ≤ e'.2.maxOff := Nat.le_add_right _ _
  have hoff : e'.2.off = b.readOff := by omega
  simpa [ready, hfirst] using hoff

theorem Layout.over_of_write (h : Layout b) (hs : Sane b)
    (hwrite : b.write off data fin = .ok (b', .ok ())) (hover : b'.Over) :
    b.Over ∨ fin = true ∧ b.finOff = none ∧
      (b.shutdown = true ∨ data ≠ [] ∧ off + data.length ≤ b.readOff) := by
  obtain ⟨hcomplete, hready⟩ := hover
  have hwritten := hs.write hwrite
  obtain ⟨-, hfinal, hcase⟩ := write_cases hwrite
  rcases hcase with ⟨-, rfl⟩ | ⟨hnot, hstore⟩
  · exact .inl ⟨hcomplete, hready⟩
  have hnot' : b.finOff ≠ some b.readOff := by simpa [isFin] using hnot
  have hend : b'.finOff = some b.readOff := by
    rw [isComplete, decide_eq_true_eq, hwritten.readOff] at hcomplete
    exact hcomplete
  have hlearn := hs.write_finOff hwrite
  rw [hend] at hlearn
  cases fin with
  | false => exact absurd hlearn.symm hnot'
  | true =>
    have htop : b.readOff = off + data.length := Option.some.inj hlearn
    have hnone : b.finOff = none := by
      cases hf : b.finOff with
      | none => rfl
      | some =>
        have hagain := hs.write_final hf hwrite
        rw [hend] at hagain
        exact absurd (hf.trans hagain.symm) hnot'
    refine .inr ⟨rfl, hnone, ?_⟩
    by_contra hother
    push Not at hother
    obtain ⟨hopen, hdata⟩ := hother
    have hopen' : b.shutdown = false := by simpa using hopen
    have hnil : data = [] := by
      by_contra hne
      exact absurd (hdata hne) (not_lt.mpr htop.symm.le)
    subst hnil
    -- nothing was received behind the read offset, so the end can be collected
    have hrecv : b'.recvOff = b'.readOff := by
      have hsane := hwritten.sane
      exact le_antisymm (hwritten.readOff ▸ hsane.recv_le_fin _ hend) hsane.read_le
    have hshut : (b.learnFinal (.new [] off true)).shutdown = false := hopen'
    obtain ⟨e, he⟩ := mem_of_storeNew hshut rfl rfl hstore
    have := (h.write hs hwrite).ready_of_mem hwritten.sane hrecv he
    rw [hready] at this
    cases this

/-! ## Reading and abandoning -/

/-- One round of the loop of `read`: the first chunk is cut or removed, the others lie behind. -/
theorem Layout.readNext {s : RecvBuf × List UInt8 × ℕ}
    {n : Exec.Next (RecvBuf × List UInt8 × ℕ) (RecvBuf × List UInt8)} (h : Layout s.1)
    (hround : readNext s = .ok n) :
    Exec.Next.Holds (fun s => Layout s.1) (fun r => Layout r.1) n := by
  obtain ⟨b, out, cap⟩ := s
  unfold RecvBuf.readNext at hround
  dsimp only at hround h
  split_ifs at hround with hgo
  swap
  · cases hround
    exact h
  cases hfirst : b.data.first? with
  | none =>
    rw [hfirst] at hround
    cases hround
    exact h
  | some e =>
    obtain ⟨hmem, hmin⟩ := first?_eq_some_iff.mp hfirst
    have hoff : e.2.off = b.readOff := by
      have hready := hgo.2
      unfold ready at hready
      rw [hfirst] at hready
      simpa using hready
    have hkey := h.keyed e hmem
    have hlen : e.2.maxOff = e.2.off + e.2.len := rfl
    -- the other chunks start behind the first one
    have hbehind : ∀ e' ∈ b.data, e'.1 ≠ e.1 → e.2.maxOff ≤ e'.2.off :=
      fun e' he' hne => h.apart e hmem e' he' (lt_of_le_of_ne (hmin e' he') hne.symm)
    rw [hfirst] at hround
    dsimp only at hround
    split_ifs at hround with hpart
    · obtain ⟨buf, hconsume, hround⟩ := bind_eq_ok.mp hround
      cases hround
      have hmax := advance_maxOff hconsume
      have hstart : buf.off = e.2.off + min e.2.len cap := by
        obtain ⟨-, rfl⟩ := advance_cases hconsume
        rfl
      refine ⟨?_, ?_, ?_⟩
      · intro e' he'
        rcases mem_insert.mp he' with rfl | ⟨he', -⟩
        · exact hkey.trans hmax.symm
        · exact h.keyed e' he'
      · intro e₁ he₁ e₂ he₂ hlt
        rcases mem_insert.mp he₁ with rfl | ⟨he₁, hne₁⟩
        · rcases mem_insert.mp he₂ with rfl | ⟨he₂, hne₂⟩
          · exact absurd hlt (lt_irrefl _)
          · exact hmax.le.trans (hbehind e₂ he₂ hne₂)
        · rcases mem_insert.mp he₂ with rfl | ⟨he₂, -⟩
          · exact absurd (hmin e₁ he₁) (not_le.mpr hlt)
          · exact h.apart e₁ he₁ e₂ he₂ hlt
      · intro e' he'
        rcases mem_insert.mp he' with rfl | ⟨he', hne⟩
        · dsimp only
          omega
        · have := hbehind e' he' hne
          dsimp only
          omega
    · cases hround
      refine ⟨?_, ?_, ?_⟩
      · exact fun e' he' => h.keyed e' (mem_erase.mp he').1
      · exact fun e₁ he₁ e₂ he₂ =>
          h.apart e₁ (mem_erase.mp he₁).1 e₂ (mem_erase.mp he₂).1
      · intro e' he'
        obtain ⟨he', hne⟩ := mem_erase.mp he'
        have := hbehind e' he' hne
        dsimp only
        omega

theorem Layout.read (h : Layout b) {cap : ℕ} {out : List UInt8} {fin : Bool}
    (hread : b.read cap = .ok (b', .ok (out, fin))) : Layout b' := by
  unfold RecvBuf.read at hread
  split_ifs at hread
  · cases hread
  split at hread
  · cases hread
  · obtain ⟨⟨b₁, out₁⟩, hloop, hread⟩ := bind_eq_ok.mp hread
    cases hread
    have hdone : Layout b₁ :=
      @Exec.loop_valid _ _ _ (fun s => Layout s.1) (fun r => Layout r.1)
        (fun s n hs hround => readNext hs hround) _ _ _ h hloop
    exact ⟨hdone.keyed, hdone.apart, hdone.unread⟩

theorem off_of_write_end {size : ℕ} (hempty : ∀ e, e ∉ b.data) (hread : b.readOff ≤ size)
    (hwrite : b.write size [] true = .ok (b', .ok ())) : ∀ e ∈ b'.data, e.2.off = size := by
  obtain ⟨-, -, hcase⟩ := write_cases hwrite
  rcases hcase with ⟨-, rfl⟩ | ⟨-, hstore⟩
  · exact fun e he => absurd he (hempty e)
  let Inv (s : RecvBuf × List RangeBuf) : Prop :=
    s.1.readOff ≤ size ∧ ((∀ e, e ∉ s.1.data) ∧ s.2 = [.new [] size true] ∨
      (∀ e ∈ s.1.data, e.2.off = size) ∧ s.2 = [])
  have hround : ∀ s n, Inv s → storeNext s = .ok n →
      Exec.Next.Holds Inv (fun b => ∀ e ∈ b.data, e.2.off = size) n := by
    rintro ⟨b₁, queue⟩ n ⟨hread₁, ⟨hempty₁, hqueue⟩ | ⟨hoff, hqueue⟩⟩ hn <;>
      obtain rfl : queue = _ := hqueue
    · obtain ⟨buf, htrim, hn⟩ := bind_eq_ok.mp hn
      have hbehind : ¬(RangeBuf.new [] size true).off < b₁.readOff := not_lt.mpr hread₁
      unfold trim at htrim
      rw [if_neg hbehind] at htrim
      cases htrim
      have hnone : b₁.data.rangeFrom (RangeBuf.new [] size true).off = [] := by
        apply List.eq_nil_iff_forall_not_mem.mpr
        exact fun e he => hempty₁ e (mem_rangeFrom.mp he).1
      have hscan : b₁.scanStored (.new [] size true) [] = .ok (.store (.new [] size true) []) := by
        unfold scanStored
        rw [if_pos (.inr rfl), hnone]
        rfl
      rw [hscan] at hn
      cases hn
      refine ⟨(sameRest_storeChunk b₁ _).readOff.le.trans hread₁, .inr ⟨?_, rfl⟩⟩
      intro e he
      unfold storeChunk at he
      dsimp only at he
      split_ifs at he
      · exact absurd he (hempty₁ e)
      · rcases mem_insert.mp he with rfl | ⟨he, -⟩
        · rfl
        · exact absurd he (hempty₁ e)
    · cases hn
      exact hoff
  unfold storeNew at hstore
  rw [if_neg (by simp [RangeBuf.new]), if_neg (by simp [RangeBuf.new, RangeBuf.isEmpty,
    len])] at hstore
  exact loop_valid Inv hround _ _ _ ⟨hread, .inl ⟨hempty, rfl⟩⟩ hstore

theorem Layout.reset (h : Layout b) (hs : Sane b) {code size delta : ℕ}
    (hreset : b.reset code size = .ok (b', .ok delta)) : Layout b' := by
  unfold RecvBuf.reset at hreset
  split_ifs at hreset with hfin hsize herror
  · cases hreset
  · cases hreset
  · cases hreset
    exact h
  · obtain ⟨⟨b₁, res⟩, hwrite, hreset⟩ := bind_eq_ok.mp hreset
    cases res with
    | error => cases hreset
    | ok =>
      cases hreset
      have hcleared : Sane { b with error := some code, data := .empty } :=
        ⟨hs.read_le, hs.clear.chunk_le, hs.recv_le_fin, hs.clear.drained⟩
      have hlayout : Layout b₁ := (of_empty not_mem_empty).write hcleared hwrite
      have hread : b.readOff ≤ size := hs.read_le.trans (not_lt.mp hsize)
      have hoff : ∀ e ∈ b₁.data, e.2.off = size :=
        off_of_write_end (b := { b with error := some code, data := .empty })
          not_mem_empty hread hwrite
      exact ⟨hlayout.keyed, hlayout.apart, fun e he => (hoff e he).ge⟩

end Tquic.RecvBuf
