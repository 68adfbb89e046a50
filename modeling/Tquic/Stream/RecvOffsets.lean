import Tquic.Stream.RecvBuf

/-!
# Offsets of a receive buffer

How `write`, `read`, `reset` and `shutdown` move the offsets of a receive buffer, for any frames
that a peer may send, whether or not they agree.
-/

namespace Tquic

open SortedMap Exec List RangeBuf

variable {n : ℕ}

theorem advance_cases {b b' : RangeBuf} (h : b.advance n = .ok b') :
    n ≤ b.len ∧ b' = ⟨b.data.drop n, b.off + n, b.fin⟩ := by
  by_cases hn : n ≤ b.len
  · rw [advance_of_le hn] at h
    exact ⟨hn, (ok.inj h).symm⟩
  · obtain ⟨u, hassert, -⟩ := bind_eq_ok.mp h
    simp [assert, hn] at hassert

theorem advance_maxOff {b b' : RangeBuf} (h : b.advance n = .ok b') :
    b'.maxOff = b.maxOff := by
  obtain ⟨hn, rfl⟩ := advance_cases h
  simp only [maxOff, len, length_drop] at hn ⊢
  omega

theorem splitOff_cases {b b' tail : RangeBuf} (h : b.splitOff n = .ok (b', tail)) :
    n ≤ b.len ∧ b' = ⟨b.data.take n, b.off, false⟩ ∧ tail = ⟨b.data.drop n, b.off + n, b.fin⟩ := by
  by_cases hn : n ≤ b.len
  · rw [splitOff_of_le hn] at h
    obtain ⟨rfl, rfl⟩ := Prod.mk.inj (ok.inj h)
    exact ⟨hn, rfl, rfl⟩
  · obtain ⟨u, hassert, -⟩ := bind_eq_ok.mp h
    simp [assert, hn] at hassert

theorem splitOff_maxOff {b b' tail : RangeBuf} (h : b.splitOff n = .ok (b', tail)) :
    b'.maxOff ≤ b.maxOff ∧ tail.maxOff = b.maxOff := by
  obtain ⟨hn, rfl, rfl⟩ := splitOff_cases h
  simp only [maxOff, len, length_drop, length_take] at hn ⊢
  omega

namespace RecvBuf

variable {buf : RangeBuf} {fin : Bool} {tmpBufs : List RangeBuf} {data : List UInt8} {off : ℕ}

/-! ## Writing -/

/-- The pieces that a scan leaves of a chunk ending at `top`: none goes beyond it, and
one of them or a stored chunk reaches it. -/
def Scan.Reaches (l : List (ℕ × RangeBuf)) (top : ℕ) (tmpBufs : List RangeBuf) : Scan → Prop
  | .covered tmpBufs' => ∃ new, tmpBufs' = tmpBufs ++ new ∧ (∀ t ∈ new, t.maxOff ≤ top) ∧
      ((∃ t ∈ new, t.maxOff = top) ∨ ∃ e ∈ l, top ≤ e.2.maxOff)
  | .store buf tmpBufs' => ∃ new, tmpBufs' = tmpBufs ++ new ∧ (∀ t ∈ buf :: new, t.maxOff ≤ top) ∧
      ∃ t ∈ buf :: new, t.maxOff = top

variable {l : List (ℕ × RangeBuf)}

theorem Scan.Reaches.cons {top : ℕ} {r : Scan} (h : r.Reaches l top tmpBufs) (e : ℕ × RangeBuf) :
    r.Reaches (e :: l) top tmpBufs := by
  cases r with
  | store => exact h
  | covered =>
    obtain ⟨new, heq, hle, hreach⟩ := h
    refine ⟨new, heq, hle, ?_⟩
    rcases hreach with htop | ⟨e', he', htop⟩
    · exact .inl htop
    · exact .inr ⟨e', .tail _ he', htop⟩

theorem Scan.Reaches.queue {top top' : ℕ} {tail : RangeBuf} {r : Scan}
    (h : r.Reaches l top' (tmpBufs ++ [tail])) (hle : top' ≤ top) (htail : tail.maxOff = top) :
    r.Reaches l top tmpBufs := by
  cases r with
  | store buf =>
    obtain ⟨new, heq, hnew, -⟩ := h
    refine ⟨tail :: new, by simpa using heq, ?_, tail, by simp, htail⟩
    intro t ht
    simp only [mem_cons] at ht
    rcases ht with rfl | rfl | ht
    · exact (hnew t mem_cons_self).trans hle
    · exact htail.le
    · exact (hnew t (.tail _ ht)).trans hle
  | covered =>
    obtain ⟨new, heq, hnew, -⟩ := h
    refine ⟨tail :: new, by simpa using heq, ?_, .inl ⟨tail, by simp, htail⟩⟩
    intro t ht
    rcases mem_cons.mp ht with rfl | ht
    · exact htail.le
    · exact (hnew t ht).trans hle

/-- What the scan hands on still reaches the end of the data at hand. -/
theorem scan_reaches :
    ∀ {buf : RangeBuf} {tmpBufs : List RangeBuf} {r : Scan}, scan l buf tmpBufs = .ok r →
      r.Reaches l buf.maxOff tmpBufs := by
  induction l with
  | nil =>
    intro buf tmpBufs r h
    cases h
    exact ⟨[], by simp, by simp, buf, by simp, rfl⟩
  | cons e l ih =>
    intro buf tmpBufs r h
    unfold scan at h
    split_ifs at h with hbefore hcovered hfirst hinside
    · cases h
      exact ⟨[], by simp, by simp, buf, by simp, rfl⟩
    · cases h
      exact ⟨[], by simp, by simp, .inr ⟨e, .head _, hcovered.2⟩⟩
    · obtain ⟨buf', hadvance, h⟩ := bind_eq_ok.mp h
      have hreach := ih h
      rw [advance_maxOff hadvance] at hreach
      exact hreach.cons e
    · obtain ⟨⟨buf', tail⟩, hsplit, h⟩ := bind_eq_ok.mp h
      obtain ⟨hle, htail⟩ := splitOff_maxOff hsplit
      exact ((ih h).queue hle htail).cons e
    · exact (ih h).cons e

structure Sane (b : RecvBuf) : Prop where
  read_le : b.readOff ≤ b.recvOff
  chunk_le : ∀ e ∈ b.data, e.2.maxOff ≤ b.recvOff
  recv_le_fin : ∀ f, b.finOff = some f → b.recvOff ≤ f
  drained : b.shutdown = true → ∀ e, e ∉ b.data

theorem Sane.new (maxData maxWindow : ℕ) : Sane (RecvBuf.new maxData maxWindow) where
  read_le := le_rfl
  chunk_le := fun _ he => absurd he (not_mem_empty _)
  recv_le_fin := fun _ hf => by cases hf
  drained := fun hf => by cases hf

structure SameRest (b b' : RecvBuf) : Prop where
  readOff : b'.readOff = b.readOff
  finOff : b'.finOff = b.finOff
  error : b'.error = b.error
  shutdown : b'.shutdown = b.shutdown
  flowControl : b'.flowControl = b.flowControl

theorem SameRest.refl (b : RecvBuf) : SameRest b b := ⟨rfl, rfl, rfl, rfl, rfl⟩

theorem SameRest.trans {b b' b'' : RecvBuf} (h : SameRest b b') (h' : SameRest b' b'') :
    SameRest b b'' where
  readOff := h'.readOff.trans h.readOff
  finOff := h'.finOff.trans h.finOff
  error := h'.error.trans h.error
  shutdown := h'.shutdown.trans h.shutdown
  flowControl := h'.flowControl.trans h.flowControl

theorem sameRest_storeChunk (b : RecvBuf) (buf : RangeBuf) : SameRest b (b.storeChunk buf) := by
  unfold storeChunk
  dsimp only
  split_ifs <;> exact ⟨rfl, rfl, rfl, rfl, rfl⟩

theorem storeChunk_recvOff (b : RecvBuf) (buf : RangeBuf) :
    (b.storeChunk buf).recvOff = max b.recvOff buf.maxOff := by
  unfold storeChunk
  dsimp only
  split_ifs <;> rfl

/-- The state of the outer loop of `write` for data that ends at `top`. -/
structure Storing (b₀ : RecvBuf) (top : ℕ) (s : RecvBuf × List RangeBuf) : Prop where
  same : SameRest b₀ s.1
  chunk_le : ∀ e ∈ s.1.data, e.2.maxOff ≤ s.1.recvOff
  drained : s.1.shutdown = true → ∀ e, e ∉ s.1.data
  low : b₀.recvOff ≤ s.1.recvOff
  high : s.1.recvOff ≤ max b₀.recvOff top
  queue : ∀ t ∈ s.2, t.maxOff ≤ top
  reach : top ≤ s.1.recvOff ∨ ∃ t ∈ s.2, t.maxOff = top

theorem trim_maxOff {b : RecvBuf} {buf buf' : RangeBuf} (h : b.trim buf = .ok buf') :
    buf'.maxOff = buf.maxOff := by
  unfold trim at h
  split_ifs at h
  · exact advance_maxOff h
  · cases h
    rfl

theorem scanStored_reaches {b : RecvBuf} {r : Scan}
    (h : b.scanStored buf tmpBufs = .ok r) : r.Reaches b.data.entries buf.maxOff tmpBufs := by
  unfold scanStored at h
  split_ifs at h
  · have hreach := scan_reaches h
    cases r with
    | store => exact hreach
    | covered =>
      obtain ⟨new, heq, hle, hreach⟩ := hreach
      refine ⟨new, heq, hle, hreach.imp_right ?_⟩
      rintro ⟨e, he, htop⟩
      exact ⟨e, (mem_rangeFrom.mp he).1, htop⟩
  · cases h
    exact ⟨[], by simp, by simp, buf, by simp, rfl⟩

variable {b b' b₀ : RecvBuf} {top : ℕ}

theorem Storing.covered {tmpBufs new : List RangeBuf}
    (h : Storing b₀ top (b, buf :: tmpBufs)) (hnew : ∀ t ∈ new, t.maxOff ≤ buf.maxOff)
    (hreach : (∃ t ∈ new, t.maxOff = buf.maxOff) ∨ ∃ e ∈ b.data.entries, buf.maxOff ≤ e.2.maxOff) :
    Storing b₀ top (b, tmpBufs ++ new) where
  same := h.same
  chunk_le := h.chunk_le
  drained := h.drained
  low := h.low
  high := h.high
  queue := by
    intro t ht
    rcases mem_append.mp ht with ht | ht
    · exact h.queue t (.tail _ ht)
    · exact (hnew t ht).trans (h.queue buf mem_cons_self)
  reach := by
    rcases h.reach with hdone | ⟨t, ht, htop⟩
    · exact .inl hdone
    rcases mem_cons.mp ht with rfl | ht
    · -- the piece that reaches the end is the one that was scanned
      rcases hreach with ⟨t', ht', htop'⟩ | ⟨e, he, hle⟩
      · exact .inr ⟨t', mem_append_right tmpBufs ht', htop'.trans htop⟩
      · exact .inl (htop.symm.le.trans (hle.trans (h.chunk_le e he)))
    · exact .inr ⟨t, mem_append_left new ht, htop⟩

theorem Storing.store {buf buf' : RangeBuf} {tmpBufs new : List RangeBuf}
    (h : Storing b₀ top (b, buf :: tmpBufs)) (hnew : ∀ t ∈ buf' :: new, t.maxOff ≤ buf.maxOff)
    (hreach : ∃ t ∈ buf' :: new, t.maxOff = buf.maxOff) :
    Storing b₀ top (b.storeChunk buf', tmpBufs ++ new) where
  same := h.same.trans (sameRest_storeChunk b buf')
  chunk_le := by
    intro e he
    rw [storeChunk_recvOff]
    unfold storeChunk at he
    dsimp only at he
    split_ifs at he
    · exact (h.chunk_le e he).trans (le_max_left _ _)
    · rcases mem_insert.mp he with rfl | ⟨he, -⟩
      · exact le_max_right _ _
      · exact (h.chunk_le e he).trans (le_max_left _ _)
  drained := by
    intro hshut e he
    rw [(sameRest_storeChunk b buf').shutdown] at hshut
    unfold storeChunk at he
    rw [if_pos hshut] at he
    exact h.drained hshut e he
  low := by
    rw [storeChunk_recvOff]
    exact h.low.trans (le_max_left _ _)
  high := by
    rw [storeChunk_recvOff]
    have hbuf : buf'.maxOff ≤ top :=
      (hnew buf' mem_cons_self).trans (h.queue buf mem_cons_self)
    exact max_le h.high (hbuf.trans (le_max_right _ _))
  queue := by
    intro t ht
    rcases mem_append.mp ht with ht | ht
    · exact h.queue t (.tail _ ht)
    · exact (hnew t (mem_cons_of_mem buf' ht)).trans (h.queue buf mem_cons_self)
  reach := by
    rw [storeChunk_recvOff]
    rcases h.reach with hdone | ⟨t, ht, htop⟩
    · exact .inl (hdone.trans (le_max_left _ _))
    rcases mem_cons.mp ht with rfl | ht
    · obtain ⟨t', ht', htop'⟩ := hreach
      rcases mem_cons.mp ht' with rfl | ht'
      · exact .inl ((htop'.trans htop).symm.le.trans (le_max_right _ _))
      · exact .inr ⟨t', mem_append_right tmpBufs ht', htop'.trans htop⟩
    · exact .inr ⟨t, mem_append_left new ht, htop⟩

/-- One round of the loop of `write` keeps the offsets it is to reach. -/
theorem storeNext_storing {s : RecvBuf × List RangeBuf}
    {n : Exec.Next (RecvBuf × List RangeBuf) RecvBuf} (h : Storing b₀ top s)
    (hround : storeNext s = .ok n) :
    Exec.Next.Holds (Storing b₀ top) (fun b => Storing b₀ top (b, [])) n := by
  obtain ⟨b, queue⟩ := s
  cases queue with
  | nil =>
    cases hround
    exact h
  | cons =>
    obtain ⟨buf₁, htrim, hround⟩ := bind_eq_ok.mp hround
    obtain ⟨r, hscan, hround⟩ := bind_eq_ok.mp hround
    have hreach := scanStored_reaches hscan
    rw [trim_maxOff htrim] at hreach
    cases r with
    | covered =>
      cases hround
      obtain ⟨new, rfl, hnew, hreach⟩ := hreach
      exact h.covered hnew hreach
    | store =>
      cases hround
      obtain ⟨new, rfl, hnew, hreach⟩ := hreach
      exact h.store hnew hreach

theorem Sane.storing (h : Sane b) : Storing b buf.maxOff (b, [buf]) where
  same := .refl b
  chunk_le := h.chunk_le
  drained := h.drained
  low := le_rfl
  high := le_max_left _ _
  queue := by simp
  reach := .inr ⟨buf, by simp, rfl⟩

/-- The outcome of `write` for data that ends at `top`; only an empty frame without
the end of the stream may leave the received offset behind it. -/
structure Written (b : RecvBuf) (top : ℕ) (counts : Prop) (b' : RecvBuf) : Prop where
  sane : Sane b'
  readOff : b'.readOff = b.readOff
  error : b'.error = b.error
  shutdown : b'.shutdown = b.shutdown
  flowControl : b'.flowControl = b.flowControl
  low : b.recvOff ≤ b'.recvOff
  high : b'.recvOff ≤ max b.recvOff top
  reach : counts → b'.recvOff = max b.recvOff top

theorem le_of_not_violatesFinalSize {f : ℕ} (hf : b.finOff = some f)
    (hfinal : b.violatesFinalSize buf = false) : buf.maxOff ≤ f := by
  unfold violatesFinalSize at hfinal
  rw [hf] at hfinal
  simp only [Bool.or_eq_false_iff, decide_eq_false_iff_not] at hfinal
  exact not_lt.mp hfinal.1.1

theorem Sane.learnFinal (h : Sane b) (hfinal : b.violatesFinalSize buf = false) :
    Sane (b.learnFinal buf) ∧ SameRest { b with finOff := (b.learnFinal buf).finOff }
      (b.learnFinal buf) ∧ (b.learnFinal buf).recvOff = b.recvOff ∧
      ∀ f, (b.learnFinal buf).finOff = some f → buf.maxOff ≤ f := by
  unfold RecvBuf.learnFinal
  split_ifs with hfin
  · refine ⟨⟨h.read_le, h.chunk_le, ?_, h.drained⟩, ⟨rfl, rfl, rfl, rfl, rfl⟩, rfl, ?_⟩
    · intro f hf
      unfold violatesFinalSize at hfinal
      simp only [hfin, Bool.or_eq_false_iff, Bool.true_and, decide_eq_false_iff_not] at hfinal
      cases hf
      exact not_lt.mp hfinal.2
    · intro f hf
      exact (Option.some.inj hf).le
  · refine ⟨h, ⟨rfl, rfl, rfl, rfl, rfl⟩, rfl, ?_⟩
    intro f hf
    exact le_of_not_violatesFinalSize hf hfinal

theorem write_cases
    (h : b.write off data fin = .ok (b', .ok ())) :
    off + data.length ≤ b.maxData ∧
      b.violatesFinalSize (RangeBuf.new data off fin) = false ∧
      (b.isFin = true ∧ b' = b ∨ b.isFin = false ∧
        (b.learnFinal (RangeBuf.new data off fin)).storeNew (RangeBuf.new data off fin) =
          .ok b') := by
  unfold write at h
  dsimp only at h
  split_ifs at h with hmax hfinal hfin
  · cases h
  · cases h
  · cases h
    exact ⟨not_lt.mp hmax, by simpa using hfinal, .inl ⟨hfin, rfl⟩⟩
  · obtain ⟨b₁, hstore, h⟩ := bind_eq_ok.mp h
    cases h
    exact ⟨not_lt.mp hmax, by simpa using hfinal, .inr ⟨by simpa using hfin, hstore⟩⟩

theorem Sane.storeNew (h : Sane b)
    (hend : ∀ f, b.finOff = some f → buf.maxOff ≤ f) (hstore : b.storeNew buf = .ok b') :
    Written b buf.maxOff (¬(buf.len = 0 ∧ buf.fin = false ∧ b.recvOff < buf.off)) b' ∧
      b'.finOff = b.finOff := by
  have hunchanged (hreach : ¬(buf.len = 0 ∧ buf.fin = false ∧ b.recvOff < buf.off) →
      buf.maxOff ≤ b.recvOff) :
      Written b buf.maxOff (¬(buf.len = 0 ∧ buf.fin = false ∧ b.recvOff < buf.off)) b :=
    ⟨h, rfl, rfl, rfl, rfl, le_rfl, le_max_left _ _, fun hcounts =>
      (max_eq_left (hreach hcounts)).symm⟩
  unfold RecvBuf.storeNew at hstore
  split_ifs at hstore with hempty hold
  · cases hstore
    refine ⟨hunchanged ?_, rfl⟩
    intro hcounts
    simp [RangeBuf.isEmpty_iff] at hempty
    have hoff : ¬ b.recvOff < buf.off := fun hlt => hcounts ⟨hempty.2, hempty.1, hlt⟩
    rw [RangeBuf.maxOff]
    omega
  · cases hstore
    exact ⟨hunchanged fun _ => hold.1.trans h.read_le, rfl⟩
  · have hdone : Storing b buf.maxOff (b', []) :=
      loop_valid (Storing b buf.maxOff) (fun s n hs hround => storeNext_storing hs hround)
        _ _ _ h.storing hstore
    have htop : buf.maxOff ≤ b'.recvOff := by
      rcases hdone.reach with hdone | ⟨t, ht, -⟩
      · exact hdone
      · cases ht
    refine ⟨⟨⟨?_, hdone.chunk_le, ?_, hdone.drained⟩, hdone.same.readOff, hdone.same.error,
      hdone.same.shutdown, hdone.same.flowControl, hdone.low, hdone.high, fun _ =>
      le_antisymm hdone.high (max_le hdone.low htop)⟩, hdone.same.finOff⟩
    · exact hdone.same.readOff.le.trans (h.read_le.trans hdone.low)
    · intro f hf
      rw [hdone.same.finOff] at hf
      exact hdone.high.trans (max_le (h.recv_le_fin f hf) (hend f hf))

/-- `write` keeps the offsets in order and moves the received offset to the end of the data. -/
theorem Sane.write (h : Sane b)
    (hwrite : b.write off data fin = .ok (b', .ok ())) :
    Written b (off + data.length) (¬(data = [] ∧ fin = false ∧ b.recvOff < off)) b' := by
  obtain ⟨-, hfinal, hcase⟩ := write_cases hwrite
  rcases hcase with ⟨hfin, rfl⟩ | ⟨-, hstore⟩
  · -- everything was read, and the frame does not go beyond the final size
    have hfinOff : b'.finOff = some b'.readOff := by simpa [isFin] using hfin
    have hend : off + data.length ≤ b'.recvOff :=
      (le_of_not_violatesFinalSize hfinOff hfinal).trans h.read_le
    exact ⟨h, rfl, rfl, rfl, rfl, le_rfl, le_max_left _ _, fun _ => (max_eq_left hend).symm⟩
  · obtain ⟨hsane, hsame, hrecv, hend⟩ := h.learnFinal hfinal
    obtain ⟨hwritten, -⟩ := hsane.storeNew hend hstore
    have hcounts : data = [] ∧ fin = false ∧ b.recvOff < off ↔
        (RangeBuf.new data off fin).len = 0 ∧ (RangeBuf.new data off fin).fin = false ∧
          (b.learnFinal (.new data off fin)).recvOff < (RangeBuf.new data off fin).off := by
      rw [hrecv]
      simp [RangeBuf.new, RangeBuf.len]
    rw [hcounts]
    have hlow := hwritten.low
    have hhigh := hwritten.high
    have hreach := hwritten.reach
    rw [hrecv] at hlow hhigh
    rw [hrecv] at hreach
    exact ⟨hwritten.sane, hwritten.readOff.trans hsame.readOff, hwritten.error.trans hsame.error,
      hwritten.shutdown.trans hsame.shutdown, hwritten.flowControl.trans hsame.flowControl,
      hlow, hhigh, fun hc => hreach (by rwa [hrecv] at hc)⟩

theorem Sane.write_finOff (h : Sane b)
    (hwrite : b.write off data fin = .ok (b', .ok ())) :
    b'.finOff = if fin then some (off + data.length) else b.finOff := by
  obtain ⟨-, hfinal, hcase⟩ := write_cases hwrite
  rcases hcase with ⟨hfin, rfl⟩ | ⟨-, hstore⟩
  · have hfinOff : b'.finOff = some b'.readOff := by simpa [isFin] using hfin
    split_ifs with hend
    · unfold violatesFinalSize at hfinal
      rw [hfinOff] at hfinal ⊢
      simp only [RangeBuf.new, hend, Bool.true_and, Bool.or_eq_false_iff, bne_eq_false_iff_eq]
        at hfinal
      exact congrArg some hfinal.1.2
    · rfl
  · obtain ⟨hsane, -, -, hend⟩ := h.learnFinal hfinal
    rw [(hsane.storeNew hend hstore).2]
    cases fin with
    | true => rfl
    | false => rfl

theorem Sane.write_final (h : Sane b) {f off : ℕ}
    (hf : b.finOff = some f) (hwrite : b.write off data fin = .ok (b', .ok ())) :
    b'.finOff = some f := by
  rw [h.write_finOff hwrite]
  obtain ⟨-, hfinal, -⟩ := write_cases hwrite
  split_ifs with hfin
  · unfold violatesFinalSize at hfinal
    rw [hf] at hfinal
    simp only [RangeBuf.new, hfin, Bool.true_and, Bool.or_eq_false_iff, bne_eq_false_iff_eq]
      at hfinal
    exact congrArg some hfinal.1.2.symm
  · exact hf

/-! ## Reading -/

/-- The state of the loop of `read`, after `out` was copied. -/
structure Copying (b₀ b : RecvBuf) (out : List UInt8) : Prop where
  sane : Sane b
  readOff : b.readOff = b₀.readOff + out.length
  recvOff : b.recvOff = b₀.recvOff
  finOff : b.finOff = b₀.finOff
  error : b.error = b₀.error
  shutdown : b.shutdown = b₀.shutdown
  flowControl : b.flowControl = b₀.flowControl

/-- One round of the loop of `read`: as many bytes are copied as the offset moves. -/
theorem readNext_copying {s : RecvBuf × List UInt8 × ℕ}
    {n : Exec.Next (RecvBuf × List UInt8 × ℕ) (RecvBuf × List UInt8)}
    (h : Copying b₀ s.1 s.2.1) (hround : readNext s = .ok n) :
    Exec.Next.Holds (fun s => Copying b₀ s.1 s.2.1) (fun r => Copying b₀ r.1 r.2) n := by
  obtain ⟨b, out, cap⟩ := s
  unfold readNext at hround
  dsimp only at hround h
  split_ifs at hround with hgo
  swap
  · cases hround
    exact h
  cases hfirst : b.data.first? with
  | none =>
    rw [hfirst] at hround
    cases hround
    exact h
  | some e =>
    have hmem : e ∈ b.data := (first?_eq_some_iff.mp hfirst).1
    have hoff : e.2.off = b.readOff := by
      have hready := hgo.2
      unfold ready at hready
      rw [hfirst] at hready
      simpa using hready
    have hend := h.sane.chunk_le e hmem
    have hopen : b.shutdown = false := by
      cases hshut : b.shutdown with
      | false => rfl
      | true => exact absurd hmem (h.sane.drained hshut e)
    have htake : (e.2.data.take (min e.2.len cap)).length = min e.2.len cap := by
      simp [len]
    have hlen : b.readOff + min e.2.len cap =
        b₀.readOff + (out ++ e.2.data.take (min e.2.len cap)).length := by
      rw [length_append, htake, h.readOff]
      omega
    have hle : b.readOff + min e.2.len cap ≤ b.recvOff := by
      rw [maxOff, hoff] at hend
      omega
    rw [hfirst] at hround
    dsimp only at hround
    split_ifs at hround with hpart
    · obtain ⟨buf, hconsume, hround⟩ := bind_eq_ok.mp hround
      cases hround
      refine ⟨⟨hle, ?_, h.sane.recv_le_fin, ?_⟩, hlen, h.recvOff, h.finOff, h.error,
        h.shutdown, h.flowControl⟩
      · intro e' he'
        rcases mem_insert.mp he' with rfl | ⟨he', -⟩
        · exact (advance_maxOff hconsume).le.trans hend
        · exact h.sane.chunk_le e' he'
      · intro hshut
        rw [hopen] at hshut
        cases hshut
    · cases hround
      refine ⟨⟨hle, ?_, h.sane.recv_le_fin, ?_⟩, hlen, h.recvOff, h.finOff, h.error,
        h.shutdown, h.flowControl⟩
      · intro e' he'
        exact h.sane.chunk_le e' (mem_erase.mp he').1
      · intro hshut
        rw [hopen] at hshut
        cases hshut

structure HasRead (b : RecvBuf) (n : ℕ) (b' : RecvBuf) : Prop where
  sane : Sane b'
  readOff : b'.readOff = b.readOff + n
  recvOff : b'.recvOff = b.recvOff
  finOff : b'.finOff = b.finOff
  error : b'.error = b.error
  shutdown : b'.shutdown = b.shutdown
  flowControl : b'.flowControl = b.flowControl.increaseReadOff n

/-- `read` moves the read offset by exactly the bytes it returns. -/
theorem Sane.read (h : Sane b) {cap : ℕ} {out : List UInt8}
    (hread : b.read cap = .ok (b', .ok (out, fin))) : HasRead b out.length b' := by
  unfold RecvBuf.read at hread
  split_ifs at hread
  · cases hread
  split at hread
  · cases hread
  · obtain ⟨⟨b₁, out₁⟩, hloop, hread⟩ := bind_eq_ok.mp hread
    cases hread
    have hdone : Copying b b₁ out :=
      @Exec.loop_valid _ _ _ (fun s => Copying b s.1 s.2.1) (fun r => Copying b r.1 r.2)
        (fun s n hs hround => readNext_copying hs hround) _ _ _
        ⟨h, rfl, rfl, rfl, rfl, rfl, rfl⟩ hloop
    exact ⟨⟨hdone.sane.read_le, hdone.sane.chunk_le, hdone.sane.recv_le_fin, hdone.sane.drained⟩,
      hdone.readOff, hdone.recvOff, hdone.finOff, hdone.error, hdone.shutdown,
      congrArg (FlowControl.increaseReadOff · out.length) hdone.flowControl⟩

theorem Sane.clear (h : Sane b) : Sane { b with data := SortedMap.empty } where
  read_le := h.read_le
  chunk_le := fun _ he => absurd he (not_mem_empty _)
  recv_le_fin := h.recv_le_fin
  drained := fun _ => not_mem_empty

theorem read_error {cap : ℕ} {e : Error} (hread : b.read cap = .ok (b', .error e)) :
    b' = b ∨ b' = { b with data := SortedMap.empty } := by
  unfold read at hread
  split_ifs at hread
  · cases hread
    exact .inl rfl
  split at hread
  · cases hread
    exact .inr rfl
  · obtain ⟨⟨b₁, out₁⟩, -, hread⟩ := bind_eq_ok.mp hread
    cases hread

/-! ## Abandoning the stream -/

structure HasReset (b : RecvBuf) (size : ℕ) (b' : RecvBuf) : Prop where
  sane : Sane b'
  readOff : b'.readOff = size
  recvOff : b'.recvOff = size
  finOff : b'.finOff = some size
  error : b'.error.isSome = true
  shutdown : b'.shutdown = b.shutdown
  flowControl : b'.flowControl = b.flowControl
  le_maxData : size ≤ b.maxData

/-- `reset` fixes the final size and gives up everything below it. -/
theorem Sane.reset (h : Sane b) {code size delta : ℕ}
    (hreset : b.reset code size = .ok (b', .ok delta)) :
    delta = size - b.recvOff ∧ b.recvOff ≤ size ∧
      (b.error.isSome = true ∧ b' = b ∧ (∀ f, b.finOff = some f → f = size) ∨
        b.error.isSome = false ∧ HasReset b size b') := by
  unfold RecvBuf.reset at hreset
  split_ifs at hreset with hfin hsize herror
  · cases hreset
  · cases hreset
  · cases hreset
    refine ⟨rfl, not_lt.mp hsize, .inl ⟨herror, rfl, ?_⟩⟩
    intro f hf
    rw [hf] at hfin
    simpa using hfin
  · obtain ⟨⟨b₁, res⟩, hwrite, hreset⟩ := bind_eq_ok.mp hreset
    cases res with
    | error => cases hreset
    | ok =>
      cases hreset
      have hcleared : Sane { b with error := some code, data := .empty } :=
        ⟨h.read_le, h.clear.chunk_le, h.recv_le_fin, h.clear.drained⟩
      have hwritten := hcleared.write hwrite
      have hrecv : b₁.recvOff = size := by
        rw [hwritten.reach (by simp)]
        exact max_eq_right (not_lt.mp hsize)
      refine ⟨rfl, not_lt.mp hsize, .inr ⟨by simpa using herror, ⟨?_, rfl, hrecv, ?_, ?_,
        hwritten.shutdown, hwritten.flowControl, (write_cases hwrite).1⟩⟩⟩
      · exact ⟨hrecv.symm.le, hwritten.sane.chunk_le, hwritten.sane.recv_le_fin,
          hwritten.sane.drained⟩
      · exact hcleared.write_finOff hwrite
      · change b₁.error.isSome = true
        rw [hwritten.error]
        rfl

theorem reset_refused {code size : ℕ} {e : Error}
    (hreset : b.reset code size = .ok (b', .error e)) :
    b' = b ∨ b' = { b with error := some code, data := SortedMap.empty } := by
  unfold reset at hreset
  split_ifs at hreset
  · cases hreset
    exact .inl rfl
  · cases hreset
    exact .inl rfl
  · cases hreset
  · obtain ⟨⟨b₁, res⟩, hwrite, hreset⟩ := bind_eq_ok.mp hreset
    cases res with
    | ok => cases hreset
    | error =>
      cases hreset
      exact .inr (write_error hwrite).1

theorem shutdownRecv_ok {unread : ℕ} (h : b.shutdownRecv = (b', .ok unread)) :
    b.shutdown = false ∧ unread = b.recvOff - b.readOff ∧
      b' = { b with shutdown := true, data := SortedMap.empty, readOff := b.recvOff } := by
  unfold shutdownRecv at h
  split_ifs at h with hshut
  · cases h
  · cases h
    exact ⟨by simpa using hshut, rfl, rfl⟩

end RecvBuf

end Tquic
