import Tquic.Stream.RecvBuf

/-!
# Storing received chunks

Frames cut anywhere out of a byte stream `S`, in any order and overlap, are put together by
`write`: the buffer stores exactly the received bytes not read yet. This is shown for one scan, for
the outer loop and for the whole call.
-/

namespace Tquic.RecvBuf

open SortedMap Exec List RangeBuf

variable {S : List UInt8} {b : RecvBuf} {received : Set ℕ}

/-- A piece of the stream as it is stored or queued; only the end of it is an empty chunk. -/
structure Chunk (S : List UInt8) (buf : RangeBuf) : Prop where
  carries : buf.Carries S
  le : buf.maxOff ≤ S.length
  final : buf.len = 0 → buf.off = S.length

def covers (l : List (ℕ × RangeBuf)) : Set ℕ := {x | ∃ e ∈ l, e.2.off ≤ x ∧ x < e.2.maxOff}

/-! ## One scan -/

/-- What a scan of the chunks `l` does to the new chunk `buf`. -/
inductive Scanned (S : List UInt8) (l : List (ℕ × RangeBuf)) (buf : RangeBuf)
    (tmpBufs : List RangeBuf) : Scan → Prop
  | covered (hcov : ∀ x, buf.off ≤ x → x < buf.maxOff → x ∈ covers l) :
      Scanned S l buf tmpBufs (.covered tmpBufs)
  | store (buf' : RangeBuf) (tails : List RangeBuf) (hbuf' : Chunk S buf')
      (hle : buf.off ≤ buf'.off ∧ buf'.maxOff ≤ buf.maxOff) (hne : 0 < buf.len → 0 < buf'.len)
      (hapart : ∀ e ∈ l, e.2.maxOff ≤ buf'.off ∨ buf'.maxOff ≤ e.2.off)
      (hempty : buf.len = 0 → ∀ e ∈ l, e.2.maxOff < buf'.off)
      (htails : tails = [] ∨ ∃ t, tails = [t] ∧ Chunk S t ∧ 0 < t.len ∧ t.len < buf.len ∧
        buf.off ≤ t.off ∧ t.maxOff = buf.maxOff)
      (hcov : ∀ x, buf.off ≤ x → x < buf.maxOff →
        x ∈ covers l ∨ (buf'.off ≤ x ∧ x < buf'.maxOff) ∨
          ∃ t ∈ tails, t.off ≤ x ∧ x < t.maxOff) :
      Scanned S l buf tmpBufs (.store buf' (tmpBufs ++ tails))

variable {l : List (ℕ × RangeBuf)} {buf : RangeBuf} {tmpBufs : List RangeBuf} {off : ℕ}
  {data : List UInt8}

theorem scan_of_before (h : ∀ e ∈ l, buf.maxOff < e.2.off) :
    scan l buf tmpBufs = .ok (.store buf tmpBufs) := by
  cases l with
  | nil => rfl
  | cons e =>
    have := h e (by simp)
    simp [scan, this]

theorem Scanned.unchanged (hbuf : Chunk S buf)
    (hapart : ∀ e ∈ l, e.2.maxOff ≤ buf.off ∨ buf.maxOff ≤ e.2.off)
    (hempty : buf.len = 0 → ∀ e ∈ l, e.2.maxOff < buf.off) (tmpBufs : List RangeBuf) :
    Scanned S l buf tmpBufs (.store buf tmpBufs) := by
  have hstore : Scanned S l buf tmpBufs (.store buf (tmpBufs ++ [])) :=
    .store buf [] hbuf ⟨le_rfl, le_rfl⟩ id hapart hempty (.inl rfl)
      fun x h₁ h₂ => .inr (.inl ⟨h₁, h₂⟩)
  rwa [append_nil] at hstore

theorem Scanned.cons {e : ℕ × RangeBuf} {buf₁ : RangeBuf} {r : Scan}
    (h : Scanned S l buf₁ tmpBufs r) (hoff : buf.off ≤ buf₁.off) (hmax : buf₁.maxOff = buf.maxOff)
    (hne : 0 < buf.len → 0 < buf₁.len) (hapart : e.2.maxOff ≤ buf₁.off ∨ buf₁.maxOff ≤ e.2.off)
    (hempty : buf.len = 0 → e.2.maxOff < buf.off)
    (hcov : ∀ x, buf.off ≤ x → x < buf₁.off → e.2.off ≤ x ∧ x < e.2.maxOff) :
    Scanned S (e :: l) buf tmpBufs r := by
  have hlen : buf₁.len ≤ buf.len := by
    simp only [maxOff] at hmax
    omega
  have hmem : ∀ x, buf.off ≤ x → x < buf₁.off → x ∈ covers (e :: l) :=
    fun x h₁ h₂ => ⟨e, by simp, hcov x h₁ h₂⟩
  have hcons : ∀ x ∈ covers l, x ∈ covers (e :: l) := by
    rintro x ⟨e', he', hx⟩
    exact ⟨e', .tail _ he', hx⟩
  cases h with
  | covered hcov' =>
    refine .covered fun x h₁ h₂ => ?_
    by_cases hx : x < buf₁.off
    · exact hmem x h₁ hx
    · exact hcons x (hcov' x (not_lt.mp hx) (by omega))
  | store buf' tails hbuf' hle hne' hapart' hempty' htails hcov' =>
    refine .store buf' tails hbuf' ⟨by omega, by omega⟩ (fun h => hne' (hne h)) ?_ ?_ ?_ ?_
    · intro e' he'
      rcases mem_cons.mp he' with rfl | he'
      · exact hapart.imp (by omega) (by omega)
      · exact hapart' e' he'
    · intro hzero e' he'
      rcases mem_cons.mp he' with rfl | he'
      · omega
      · exact hempty' (by omega) e' he'
    · refine htails.imp_right ?_
      rintro ⟨t, rfl, ht, h₁, h₂, h₃, h₄⟩
      exact ⟨t, rfl, ht, h₁, by omega, by omega, by omega⟩
    · intro x h₁ h₂
      by_cases hx : x < buf₁.off
      · exact .inl (hmem x h₁ hx)
      · exact (hcov' x (not_lt.mp hx) (by omega)).imp_left (hcons x)

theorem scan_returns (hl : ∀ e ∈ l, Chunk S e.2)
    (horder : l.Pairwise fun e e' => e.2.maxOff ≤ e'.2.off) (hbuf : Chunk S buf)
    (tmpBufs : List RangeBuf) : (scan l buf tmpBufs).Returns (Scanned S l buf tmpBufs) := by
  induction l generalizing buf with
  | nil => exact .intro (.unchanged hbuf (by simp) (by simp) tmpBufs)
  | cons e l ih =>
    obtain ⟨k, c⟩ := e
    obtain ⟨hnext, horder⟩ := pairwise_cons.mp horder
    replace hnext : ∀ e ∈ l, c.maxOff ≤ e.2.off := hnext
    have hc : Chunk S c := hl (k, c) (by simp)
    have ih := fun {buf : RangeBuf} (hbuf : Chunk S buf) =>
      ih (fun e he => hl e (.tail _ he)) horder hbuf
    have hcmax : c.maxOff = c.off + c.len := rfl
    have hmax : buf.maxOff = buf.off + buf.len := rfl
    have hcle := hc.le
    have hfinal := hbuf.final
    simp only [scan]
    split_ifs with hbreak hdup hfirst hsplit
    · refine .intro (.unchanged hbuf (fun e he => .inr ?_) (by omega) tmpBufs)
      rcases mem_cons.mp he with rfl | he
      · exact hbreak.le
      · have := hnext e he
        omega
    · exact .intro (.covered fun x h₁ h₂ => ⟨(k, c), by simp, by dsimp only; omega⟩)
    · apply (advance_returns hbuf.carries (by omega)).bind
      rintro buf₁ ⟨hcarries, hoff₁, hmax₁, -⟩
      have hmax₁' : buf₁.maxOff = buf₁.off + buf₁.len := rfl
      have hle := hbuf.le
      have hbuf₁ : Chunk S buf₁ := ⟨hcarries, by omega, by omega⟩
      refine (ih hbuf₁).mono fun r hr => ?_
      exact hr.cons (by omega) hmax₁ (by omega) (.inl (by dsimp only; omega)) (by omega)
        (fun x h₁ h₂ => by dsimp only; omega)
    · apply (splitOff_returns hbuf.carries (by omega)).bind
      rintro ⟨buf₁, tail⟩ ⟨⟨hcarries, hoff₁, hmax₁⟩, hcarries', hoff', hmax'⟩
      dsimp only at *
      have hle := hbuf.le
      have hmax₁' : buf₁.maxOff = buf₁.off + buf₁.len := rfl
      have hmaxt : tail.maxOff = tail.off + tail.len := rfl
      have hne : c.len ≠ 0 := fun h => by
        have := hc.final h
        omega
      -- the first part ends where `c` starts, and the later chunks start after `c`
      rw [scan_of_before fun e he => by have := hnext e he; omega]
      refine .intro (.store buf₁ [tail] ⟨hcarries, by omega, by omega⟩
        ⟨by omega, by omega⟩ (by omega) (fun e he => .inr ?_) (by omega)
        (.inr ⟨tail, rfl, ⟨hcarries', by omega, by omega⟩, by omega, by omega, by omega, hmax'⟩)
        fun x h₁ h₂ => ?_)
      · rcases mem_cons.mp he with rfl | he
        · dsimp only
          omega
        · have := hnext e he
          omega
      · by_cases hx : x < c.off
        · exact .inr (.inl ⟨by omega, by omega⟩)
        · exact .inr (.inr ⟨tail, by simp, by omega, by omega⟩)
    · refine (ih hbuf).mono fun r hr => ?_
      exact hr.cons le_rfl rfl id (by dsimp only; omega) (fun h => by dsimp only; omega)
        (fun x h₁ h₂ => by omega)

/-! ## The stored chunks -/

/-- A buffer that was neither reset nor shut down, with chunks of the stream `S`
that lie apart from each other and from what has been read. -/
structure Stored (S : List UInt8) (b : RecvBuf) : Prop where
  keyed : ∀ e ∈ b.data, e.1 = e.2.maxOff
  chunk : ∀ e ∈ b.data, Chunk S e.2
  disjoint : ∀ e ∈ b.data, ∀ e' ∈ b.data, e.1 < e'.1 → e.2.maxOff ≤ e'.2.off
  unread : ∀ e ∈ b.data, b.readOff ≤ e.2.off
  recv : ∀ e ∈ b.data, e.1 ≤ b.recvOff
  read_le : b.readOff ≤ b.recvOff
  recv_le : b.recvOff ≤ S.length
  noError : b.error = none
  noShutdown : b.shutdown = false
  fin : ∀ e ∈ b.data, e.2.len = 0 → b.finOff = some S.length

def stored (b : RecvBuf) : Set ℕ := covers b.data.entries

theorem mem_stored {x : ℕ} : x ∈ b.stored ↔ ∃ e ∈ b.data, e.2.off ≤ x ∧ x < e.2.maxOff := .rfl

theorem Stored.insert (h : Stored S b) {buf : RangeBuf} (hbuf : Chunk S buf)
    (hread : b.readOff ≤ buf.off)
    (hapart : ∀ e ∈ b.data, e.2.maxOff ≤ buf.off ∨ buf.maxOff ≤ e.2.off)
    (hempty : buf.len = 0 → b.finOff = some S.length ∧ ∀ e ∈ b.data, e.2.maxOff < buf.off) :
    Stored S { b with
      recvOff := max b.recvOff buf.maxOff, data := b.data.insert buf.maxOff buf } where
  keyed e he := by
    rcases mem_insert.mp he with rfl | ⟨he, -⟩
    · rfl
    · exact h.keyed e he
  chunk e he := by
    rcases mem_insert.mp he with rfl | ⟨he, -⟩
    · exact hbuf
    · exact h.chunk e he
  disjoint e he e' he' hlt := by
    have hmax : buf.maxOff = buf.off + buf.len := rfl
    rcases mem_insert.mp he with rfl | ⟨he, -⟩ <;> rcases mem_insert.mp he' with rfl | ⟨he', -⟩
    · exact absurd hlt (lt_irrefl _)
    · have hkey := h.keyed e' he'
      rcases hapart e' he' with hle | hle
      · omega
      · exact hle
    · have hkey := h.keyed e he
      have hmax' : e.2.maxOff = e.2.off + e.2.len := rfl
      rcases hapart e he with hle | hle
      · exact hle
      · omega
    · exact h.disjoint e he e' he' hlt
  unread e he := by
    rcases mem_insert.mp he with rfl | ⟨he, -⟩
    · exact hread
    · exact h.unread e he
  recv e he := by
    rcases mem_insert.mp he with rfl | ⟨he, -⟩
    · exact le_max_right _ _
    · exact (h.recv e he).trans (le_max_left _ _)
  read_le := h.read_le.trans (le_max_left _ _)
  recv_le := max_le h.recv_le hbuf.le
  noError := h.noError
  noShutdown := h.noShutdown
  fin e he hzero := by
    rcases mem_insert.mp he with rfl | ⟨he, -⟩
    · exact (hempty hzero).1
    · exact h.fin e he hzero

section

variable (h : Stored S b)

include h

theorem Stored.storeChunk_eq (buf : RangeBuf) :
    b.storeChunk buf = { b with
      recvOff := max b.recvOff buf.maxOff, data := b.data.insert buf.maxOff buf } := by
  simp [storeChunk, h.noShutdown]

theorem Stored.covers_insert
    (hapart : ∀ e ∈ b.data, e.2.maxOff ≤ buf.off ∨ buf.maxOff ≤ e.2.off)
    (hempty : buf.len = 0 → ∀ e ∈ b.data, e.2.maxOff < buf.off) (x : ℕ) :
    x ∈ covers (b.data.insert buf.maxOff buf).entries ↔
      x ∈ b.stored ∨ buf.off ≤ x ∧ x < buf.maxOff := by
  have hmax : buf.maxOff = buf.off + buf.len := rfl
  constructor
  · rintro ⟨e, he, hx⟩
    rcases mem_insert.mp he with rfl | ⟨he, -⟩
    · exact .inr hx
    · exact .inl ⟨e, he, hx⟩
  · rintro (⟨e, he, hx⟩ | hx)
    · refine ⟨e, mem_insert.mpr (.inr ⟨he, fun hkey => ?_⟩), hx⟩
      have hkey' := h.keyed e he
      rcases hapart e he with hle | hle
      · have := hempty (by omega) e he
        omega
      · omega
    · exact ⟨(buf.maxOff, buf), mem_insert.mpr (.inl rfl), hx⟩

/-! ## The outer loop of `write` -/

theorem trim_returns (hbuf : Chunk S buf)
    (hahead : b.readOff < buf.maxOff ∨ buf.len = 0) :
    (b.trim buf).Returns fun buf' =>
      Chunk S buf' ∧ buf'.off = max buf.off b.readOff ∧ buf'.maxOff = buf.maxOff := by
  have hmax : buf.maxOff = buf.off + buf.len := rfl
  have hread := h.read_le
  have hrecv := h.recv_le
  have hfinal := hbuf.final
  by_cases hlt : buf.off < b.readOff
  · rw [trim, if_pos hlt]
    refine (advance_returns hbuf.carries (by omega)).mono ?_
    rintro buf' ⟨hcarries, hoff, hmax', -⟩
    have hmax'' : buf'.maxOff = buf'.off + buf'.len := rfl
    have hle := hbuf.le
    exact ⟨⟨hcarries, by omega, by omega⟩, by omega, hmax'⟩
  · rw [trim, if_neg hlt]
    exact .intro ⟨hbuf, by omega, rfl⟩

theorem Stored.pairwise_rangeFrom (k : ℕ) :
    (b.data.rangeFrom k).Pairwise fun e e' => e.2.maxOff ≤ e'.2.off :=
  (SortedMap.pairwise_rangeFrom b.data k).imp_of_mem fun he he' hlt =>
    h.disjoint _ (mem_rangeFrom.mp he).1 _ (mem_rangeFrom.mp he').1 hlt

theorem Scanned.of_rangeFrom {r : Scan}
    (hr : Scanned S (b.data.rangeFrom buf.off) buf tmpBufs r) :
    Scanned S b.data.entries buf tmpBufs r := by
  have hcovers : ∀ x ∈ covers (b.data.rangeFrom buf.off), x ∈ covers b.data.entries :=
    fun x ⟨e, he, hx⟩ => ⟨e, (mem_rangeFrom.mp he).1, hx⟩
  have hrest : ∀ e ∈ b.data.entries, e ∈ b.data.rangeFrom buf.off ∨ e.2.maxOff < buf.off := by
    intro e he
    rw [← h.keyed e he]
    by_cases hle : buf.off ≤ e.1
    · exact .inl (mem_rangeFrom.mpr ⟨he, hle⟩)
    · exact .inr (not_le.mp hle)
  cases hr with
  | covered hcov => exact .covered fun x h₁ h₂ => hcovers x (hcov x h₁ h₂)
  | store buf' tails hbuf' hle hne hapart hempty htails hcov =>
    refine .store buf' tails hbuf' hle hne ?_ ?_ htails fun x h₁ h₂ =>
      (hcov x h₁ h₂).imp_left (hcovers x)
    · intro e he
      rcases hrest e he with he | hlt
      · exact hapart e he
      · exact .inl (by omega)
    · intro hzero e he
      rcases hrest e he with he | hlt
      · exact hempty hzero e he
      · omega

theorem scanStored_returns (hbuf : Chunk S buf) (tmpBufs : List RangeBuf) :
    (b.scanStored buf tmpBufs).Returns (Scanned S b.data.entries buf tmpBufs) := by
  by_cases hscan : buf.off < b.recvOff ∨ buf.isEmpty
  · rw [scanStored, if_pos hscan]
    refine (scan_returns (fun e he => h.chunk e (mem_rangeFrom.mp he).1)
      (h.pairwise_rangeFrom buf.off) hbuf tmpBufs).mono fun r hr => ?_
    exact hr.of_rangeFrom h
  · rw [scanStored, if_neg hscan]
    push Not at hscan
    refine .intro (.unchanged hbuf (fun e he => .inl ?_) (fun hzero => ?_) tmpBufs)
    · rw [← h.keyed e he]
      exact (h.recv e he).trans hscan.1
    · exact absurd (isEmpty_iff.mpr hzero) hscan.2

end

/-- The state of the outer loop: the bytes of `target` are read, stored or still
queued. -/
structure Pending (S : List UInt8) (target : Set ℕ) (b₀ : RecvBuf)
    (s : RecvBuf × List RangeBuf) : Prop where
  stored : Stored S s.1
  chunk : ∀ t ∈ s.2, Chunk S t
  ahead : ∀ t ∈ s.2, s.1.readOff < t.maxOff ∨ t.len = 0
  fin : ∀ t ∈ s.2, t.len = 0 → s.1.finOff = some S.length
  mem_iff : ∀ x, x ∈ target ↔ x < s.1.readOff ∨ x ∈ s.1.stored ∨
    ∃ t ∈ s.2, t.off ≤ x ∧ x < t.maxOff
  readOff_eq : s.1.readOff = b₀.readOff
  finOff_eq : s.1.finOff = b₀.finOff
  flowControl_eq : s.1.flowControl = b₀.flowControl

def queued (s : RecvBuf × List RangeBuf) : ℕ := (s.2.map fun t => t.len + 1).sum

variable {target : Set ℕ}

theorem storeNext_returns {b₀ : RecvBuf} {s : RecvBuf × List RangeBuf}
    (h : Pending S target b₀ s) : (storeNext s).Returns
      (Next.Holds (fun s' => Pending S target b₀ s' ∧ queued s' < queued s)
        fun b => Pending S target b₀ (b, [])) := by
  obtain ⟨b, tmpBufs⟩ := s
  cases tmpBufs with
  | nil => exact .intro h
  | cons buf tmpBufs =>
    have hb := h.stored
    have hchunk : ∀ t ∈ tmpBufs, Chunk S t := fun t ht =>
      h.chunk t (.tail _ ht)
    have hahead : ∀ t ∈ tmpBufs, b.readOff < t.maxOff ∨ t.len = 0 := fun t ht =>
      h.ahead t (.tail _ ht)
    have hfin : ∀ t ∈ tmpBufs, t.len = 0 → b.finOff = some S.length := fun t ht =>
      h.fin t (.tail _ ht)
    have hread := h.readOff_eq
    dsimp only at hb hread
    apply (trim_returns hb (h.chunk buf (by simp)) (h.ahead buf (by simp))).bind
    rintro buf₁ ⟨hbuf₁, hoff₁, hmax₁⟩
    have hmax : buf.maxOff = buf.off + buf.len := rfl
    have hmax₁' : buf₁.maxOff = buf₁.off + buf₁.len := rfl
    have hahead₁ := h.ahead buf (by simp)
    dsimp only at hahead₁
    -- the bytes of the target, with the trimmed chunk in place of the first one
    have hmem : ∀ x, x ∈ target ↔ x < b.readOff ∨ x ∈ b.stored ∨
        (buf₁.off ≤ x ∧ x < buf₁.maxOff) ∨ ∃ t ∈ tmpBufs, t.off ≤ x ∧ x < t.maxOff := by
      intro x
      rw [h.mem_iff]
      simp only [mem_cons, exists_eq_or_imp]
      by_cases hx : x < b.readOff
      · simp [hx]
      · have : (buf.off ≤ x ∧ x < buf.maxOff) ↔ (buf₁.off ≤ x ∧ x < buf₁.maxOff) := by omega
        rw [this]
    apply (scanStored_returns hb hbuf₁ tmpBufs).bind
    intro r hr
    cases hr with
    | covered hcov =>
      refine .intro ⟨⟨hb, hchunk, hahead, hfin, fun x => ?_, hread, h.finOff_eq,
        h.flowControl_eq⟩, by simp [queued]⟩
      rw [hmem]
      have := hcov x
      constructor
      · rintro (hx | hx | hx | hx)
        · exact .inl hx
        · exact .inr (.inl hx)
        · exact .inr (.inl (this hx.1 hx.2))
        · exact .inr (.inr hx)
      · rintro (hx | hx | hx)
        · exact .inl hx
        · exact .inr (.inl hx)
        · exact .inr (.inr (.inr hx))
    | store buf' tails hbuf' hle hne hapart hempty htails hcov =>
      -- what is left of an empty chunk is the empty chunk
      have hempty' : buf'.len = 0 → b.finOff = some S.length ∧
          ∀ e ∈ b.data, e.2.maxOff < buf'.off :=
        fun hzero => ⟨h.fin buf (by simp) (by omega), hempty (by omega)⟩
      have htail : ∀ t ∈ tails, Chunk S t ∧ 0 < t.len ∧ b.readOff < t.maxOff ∧
          buf₁.off ≤ t.off ∧ t.maxOff ≤ buf₁.maxOff := by
        rcases htails with rfl | ⟨t, rfl, ht, h₁, h₂, h₃, h₄⟩
        · simp
        · simp only [mem_singleton, forall_eq]
          exact ⟨ht, h₁, by omega, h₃, h₄.le⟩
      have hdrop : (tails.map fun t => t.len + 1).sum < buf.len + 1 := by
        rcases htails with rfl | ⟨t, rfl, -, -, h₂, -, -⟩
        · simp
        · simp only [map_cons, map_nil, sum_cons, sum_nil]
          omega
      dsimp only
      rw [hb.storeChunk_eq]
      refine .intro ⟨⟨hb.insert hbuf' (by omega) hapart hempty', ?_, ?_, ?_, ?_, hread,
        h.finOff_eq, h.flowControl_eq⟩, ?_⟩
      · intro t ht
        exact (mem_append.mp ht).elim (hchunk t) fun ht => (htail t ht).1
      · intro t ht
        exact (mem_append.mp ht).elim (hahead t) fun ht => .inl (htail t ht).2.2.1
      · intro t ht hzero
        refine (mem_append.mp ht).elim (fun ht => hfin t ht hzero) fun ht => ?_
        have := (htail t ht).2.1
        omega
      · intro x
        have hinsert := hb.covers_insert hapart (fun hzero => (hempty' hzero).2) x
        rw [hmem]
        simp only [stored, mem_append, or_and_right, exists_or] at hinsert ⊢
        rw [hinsert]
        constructor
        · rintro (hx | hx | hx | hx)
          · exact .inl hx
          · exact .inr (.inl (.inl hx))
          · rcases hcov x hx.1 hx.2 with hx | hx | hx
            · exact .inr (.inl (.inl hx))
            · exact .inr (.inl (.inr hx))
            · exact .inr (.inr (.inr hx))
          · exact .inr (.inr (.inl hx))
        · rintro (hx | (hx | hx) | hx | ⟨t, ht, hx⟩)
          · exact .inl hx
          · exact .inr (.inl hx)
          · exact .inr (.inr (.inl (by omega)))
          · exact .inr (.inr (.inr hx))
          · have := htail t ht
            exact .inr (.inr (.inl (by omega)))
      · simp only [queued, map_append, map_cons, sum_append, sum_cons]
        omega

theorem storeLoop_returns (h : Pending S target b (b, [buf])) :
    (Exec.loop storeNext (buf.len + 2) (b, [buf])).Returns fun b' =>
      Pending S target b (b', []) :=
  loop_returns (Pending S target b) queued (fun _ hs => storeNext_returns hs) _ _ h
    (by simp [queued])

/-! ## One call of `write` -/

/-- The buffer holds what was received and not read of the stream `S`, and knows
the final size once a frame has carried it. -/
structure Holds (S : List UInt8) (received : Set ℕ) (finSeen : Bool) (b : RecvBuf) : Prop where
  stored : Stored S b
  mem_iff : ∀ x, x ∈ received ↔ x < b.readOff ∨ x ∈ b.stored
  finOff_eq : b.finOff = if finSeen then some S.length else none

/-- A frame of the stream `S` within the limit: its bytes are those at its offset, and it marks the
end only there. -/
structure Frame (S : List UInt8) (maxData off : ℕ) (data : List UInt8) (fin : Bool) : Prop where
  carries : data <+: S.drop off
  le_size : off + data.length ≤ S.length
  le_maxData : off + data.length ≤ maxData
  fin_size : fin = true → off + data.length = S.length

variable {finSeen : Bool}

section

variable (h : Holds S received finSeen b)

include h

theorem Holds.isFin_iff : b.isFin = true ↔ finSeen = true ∧ b.readOff = S.length := by
  rw [isFin, h.finOff_eq]
  cases finSeen <;> simp [eq_comm]

variable {fin : Bool}

theorem Holds.not_violatesFinalSize {maxData : ℕ}
    (hframe : Frame S maxData off data fin) :
    b.violatesFinalSize (RangeBuf.new data off fin) = false := by
  have hmax : (RangeBuf.new data off fin).maxOff = off + data.length := rfl
  have hfin : (RangeBuf.new data off fin).fin = fin := rfl
  have hle := hframe.le_size
  have hsize := hframe.fin_size
  have hrecv := h.stored.recv_le
  rw [violatesFinalSize, h.finOff_eq, hmax, hfin]
  cases finSeen <;> cases fin <;> simp <;> grind

theorem Holds.of_subset {len : ℕ}
    (hsub : ∀ x, off ≤ x → x < off + len → x < b.readOff) :
    Holds S (received ∪ Set.Ico off (off + len)) finSeen b where
  stored := h.stored
  mem_iff x := by
    simp only [Set.mem_union, Set.mem_Ico, h.mem_iff]
    tauto
  finOff_eq := h.finOff_eq

theorem Holds.learnFinal
    (hfin : buf.fin = true → buf.maxOff = S.length) :
    Holds S received (finSeen || buf.fin) (b.learnFinal buf) ∧
      (b.learnFinal buf).readOff = b.readOff ∧
      (b.learnFinal buf).flowControl = b.flowControl := by
  rw [RecvBuf.learnFinal]
  split_ifs with hset
  · rw [hset, Bool.or_true, hfin hset]
    have hb := h.stored
    exact ⟨⟨⟨hb.keyed, hb.chunk, hb.disjoint, hb.unread, hb.recv, hb.read_le, hb.recv_le,
      hb.noError, hb.noShutdown, fun _ _ _ => rfl⟩, h.mem_iff, rfl⟩, rfl, rfl⟩
  · rw [eq_false_of_ne_true hset, Bool.or_false]
    exact ⟨h, rfl, rfl⟩

theorem storeNew_returns (hcarries : buf.Carries S)
    (hle : buf.maxOff ≤ S.length) (hfin : buf.fin = true → finSeen = true ∧ buf.maxOff = S.length) :
    (b.storeNew buf).Returns fun b' => b'.readOff = b.readOff ∧ b'.flowControl = b.flowControl ∧
      Holds S (received ∪ Set.Ico buf.off (buf.off + buf.len)) finSeen b' := by
  have hmax : buf.maxOff = buf.off + buf.len := rfl
  rw [storeNew]
  split_ifs with hnothing hold
  · have hzero : buf.len = 0 := isEmpty_iff.mp (Bool.and_eq_true _ _ ▸ hnothing).2
    exact .intro ⟨rfl, rfl, h.of_subset fun x h₁ h₂ => by omega⟩
  · exact .intro ⟨rfl, rfl, h.of_subset fun x h₁ h₂ => by omega⟩
  have hempty : buf.len = 0 → buf.fin = true := by
    intro hzero
    simpa [isEmpty_iff.mpr hzero] using hnothing
  have hahead : b.readOff < buf.maxOff ∨ buf.len = 0 := by
    by_contra hnot
    push Not at hnot
    refine hold ⟨hnot.1, ?_⟩
    rw [Bool.not_eq_true', ← Bool.not_eq_true, RangeBuf.isEmpty_iff]
    exact hnot.2
  have hpending : Pending S (received ∪ .Ico buf.off (buf.off + buf.len)) b (b, [buf]) := by
    refine ⟨h.stored, ?_, ?_, ?_, fun x => ?_, rfl, rfl, rfl⟩
    · simp only [mem_singleton, forall_eq]
      refine ⟨hcarries, hle, fun hzero => ?_⟩
      have := (hfin (hempty hzero)).2
      omega
    · simpa only [mem_singleton, forall_eq] using hahead
    · simp only [mem_singleton, forall_eq]
      intro hzero
      rw [h.finOff_eq, (hfin (hempty hzero)).1, if_pos rfl]
    · simp only [Set.mem_union, Set.mem_Ico, h.mem_iff, mem_singleton, exists_eq_left,
        or_assoc]
      exact .rfl
  refine (storeLoop_returns hpending).mono fun b' hb' => ?_
  refine ⟨hb'.readOff_eq, hb'.flowControl_eq, hb'.stored, fun x => ?_,
    hb'.finOff_eq.trans h.finOff_eq⟩
  simp [hb'.mem_iff]

theorem Holds.write_of_isFin
    (hframe : Frame S b.maxData off data fin) (hfin : b.isFin = true) :
    b.write off data fin = .ok (b, .ok ()) := by
  have hlimit : ¬ b.maxData < (RangeBuf.new data off fin).maxOff := not_lt.mpr hframe.le_maxData
  simp [write, hlimit, h.not_violatesFinalSize hframe, hfin]

theorem write_returns
    (hframe : Frame S b.maxData off data fin) : (b.write off data fin).Returns fun r =>
      r.2 = .ok () ∧ r.1.readOff = b.readOff ∧ r.1.flowControl = b.flowControl ∧
        Holds S (received ∪ Set.Ico off (off + data.length)) (finSeen || fin) r.1 := by
  by_cases hdone : b.isFin
  · -- everything has been read
    rw [h.write_of_isFin hframe hdone]
    obtain ⟨rfl, hend⟩ := h.isFin_iff.mp hdone
    have hle := hframe.le_size
    exact .intro ⟨rfl, rfl, rfl, h.of_subset fun x h₁ h₂ => by omega⟩
  have hlimit : ¬ b.maxData < (RangeBuf.new data off fin).maxOff := not_lt.mpr hframe.le_maxData
  have hsize : (RangeBuf.new data off fin).fin = true →
      (RangeBuf.new data off fin).maxOff = S.length := hframe.fin_size
  simp only [write, hlimit, h.not_violatesFinalSize hframe, hdone, if_false, Bool.false_eq_true]
  obtain ⟨hlearn, hread, hflow⟩ := h.learnFinal hsize
  have hcarries : (RangeBuf.new data off fin).Carries S := hframe.carries
  apply (storeNew_returns hlearn hcarries hframe.le_size fun hfin => ?_).bind
  · rintro b' ⟨hread', hflow', hb'⟩
    exact .intro ⟨rfl, hread'.trans hread, hflow'.trans hflow, hb'⟩
  · exact ⟨by rw [hfin, Bool.or_true], hsize hfin⟩

end

end Tquic.RecvBuf
