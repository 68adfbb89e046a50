import Tquic.Stream.SendBuf

/-!
# The blocks of a send buffer

The queue holds the bytes from the first unacknowledged offset to the write offset, in contiguous
non-empty blocks. Three walks over it cut new data into blocks, copy a range out, and drop what was
acknowledged.
-/

namespace Tquic.SendBuf

open Exec RangeBuf

variable {app : List UInt8}

def Contiguous (app : List UInt8) : ℕ → List RangeBuf → ℕ → Prop
  | lo, [], hi => lo = hi
  | lo, t :: ts, hi => t.off = lo ∧ 0 < t.len ∧ t.Carries app ∧ Contiguous app t.maxOff ts hi

variable {lo hi start : ℕ} {ts : List RangeBuf} {b : SendBuf}

theorem contiguous_append {us : List RangeBuf} :
    Contiguous app lo (ts ++ us) hi ↔
      ∃ mid, Contiguous app lo ts mid ∧ Contiguous app mid us hi := by
  induction ts generalizing lo with
  | nil => simp [Contiguous]
  | cons t ts ih =>
    simp only [List.cons_append, Contiguous, ih]
    constructor
    · rintro ⟨h₁, h₂, h₃, mid, h₄, h₅⟩
      exact ⟨mid, ⟨h₁, h₂, h₃, h₄⟩, h₅⟩
    · rintro ⟨mid, ⟨h₁, h₂, h₃, h₄⟩, h₅⟩
      exact ⟨h₁, h₂, h₃, mid, h₄, h₅⟩

theorem Contiguous.le_of_forall {mid x : ℕ} (h : Contiguous app lo ts mid) (hlo : lo ≤ x)
    (hts : ∀ t ∈ ts, t.maxOff ≤ x) : mid ≤ x := by
  induction ts generalizing lo with
  | nil => exact h ▸ hlo
  | cons t ts ih =>
    exact ih h.2.2.2 (hts t (by simp)) fun u hu => hts u (.tail _ hu)

theorem Contiguous.mono {app' : List UInt8} (h : Contiguous app lo ts hi) (hle : app <+: app') :
    Contiguous app' lo ts hi := by
  induction ts generalizing lo with
  | nil => exact h
  | cons t ts ih =>
    obtain ⟨h₁, h₂, h₃, h₄⟩ := h
    exact ⟨h₁, h₂, h₃.trans (hle.drop t.off), ih h₄⟩

theorem Contiguous.exists_mem {x : ℕ} (h : Contiguous app lo ts hi) (hlo : lo ≤ x) (hhi : x < hi) :
    ∃ t ∈ ts, t.off ≤ x ∧ x < t.maxOff ∧ t.Carries app := by
  induction ts generalizing lo with
  | nil =>
    have : lo = hi := h
    omega
  | cons t ts ih =>
    obtain ⟨hoff, -, hcarries, hrest⟩ := h
    by_cases hx : x < t.maxOff
    · exact ⟨t, by simp, by omega, hx, hcarries⟩
    · obtain ⟨u, hu, hin⟩ := ih hrest (not_lt.mp hx)
      exact ⟨u, .tail _ hu, hin⟩

/-! ## Copying a range -/

/-- The walk finds the block with the start of the range, copies its part, and leaves only blocks
behind that end within what was copied. -/
theorem readBlocks_returns {stop : ℕ} (h : Contiguous app lo ts hi) (hlo : lo ≤ start)
    (hlt : start < stop) (hstop : stop ≤ hi) (pos : ℕ) :
    (readBlocks ts pos start stop).Returns fun r =>
      r.2 <+: app.drop start ∧ 0 < r.2.length ∧ start + r.2.length ≤ stop ∧
        ∃ k ≤ ts.length, r.1 = pos + k ∧ ∀ t ∈ ts.take k, t.maxOff ≤ start + r.2.length := by
  induction ts generalizing lo pos with
  | nil =>
    have : lo = hi := h
    omega
  | cons t ts ih =>
    obtain ⟨hoff, hpos, hcarries, hrest⟩ := h
    have hmax : t.maxOff = t.off + t.len := rfl
    by_cases hin : t.off ≤ start ∧ start < t.maxOff
    · have hlen : ((t.data.take (min (stop - t.off) t.len)).drop (start - t.off)).length =
          min stop t.maxOff - start := by
        rw [List.length_drop, List.length_take]
        have : t.data.length = t.len := rfl
        omega
      simp only [readBlocks, if_pos hin, sub_of_le (show t.off ≤ stop by omega), ok_bind, pure_def]
      rw [assert_pos (by omega), ok_bind]
      refine .intro ⟨?_, by dsimp only; omega, by dsimp only; omega, ?_⟩
      · have hdrop := (carries_drop
          (carries_take hcarries (min (stop - t.off) t.len) false)
          (start - t.off) false)
        rwa [show t.off + (start - t.off) = start by omega] at hdrop
      · by_cases hwhole : min (stop - t.off) t.len = t.len
        · refine ⟨1, by simp, by rw [if_pos hwhole], ?_⟩
          simp only [List.take_succ_cons, List.take_zero, List.mem_singleton, forall_eq]
          omega
        · exact ⟨0, by simp, by rw [if_neg hwhole, add_zero], by simp⟩
    · simp only [readBlocks, if_neg hin]
      refine (ih hrest (by omega) (pos + 1)).mono ?_
      rintro ⟨pos', bytes⟩ ⟨h₁, h₂, h₃, k, hk, hpos', hends⟩
      refine ⟨h₁, h₂, h₃, k + 1, by simp [hk], by dsimp only at hpos' ⊢; omega, ?_⟩
      intro u hu
      rcases List.mem_cons.mp hu with rfl | hu
      · omega
      · exact hends u hu

/-- The cursor has not passed the block that holds `start`. -/
structure Cursor (b : SendBuf) (start : ℕ) : Prop where
  le : b.pos ≤ b.data.length
  behind : ∀ t ∈ b.data.take b.pos, t.maxOff ≤ start

theorem Cursor.mono {start' : ℕ} (h : Cursor b start) (hle : start ≤ start') : Cursor b start' :=
  ⟨h.le, fun t ht => (h.behind t ht).trans hle⟩

theorem readRange_returns {stop : ℕ} (h : Contiguous app lo b.data hi) (hcursor : Cursor b start)
    (hlo : lo ≤ start) (hlt : start < stop) (hstop : stop ≤ hi) :
    (b.readRange start stop).Returns fun r =>
      r.2 <+: app.drop start ∧ 0 < r.2.length ∧ start + r.2.length ≤ stop ∧
        ∃ p, r.1 = { b with pos := p } ∧ Cursor { b with pos := p } (start + r.2.length) := by
  rw [← List.take_append_drop b.pos b.data] at h
  obtain ⟨mid, hbefore, hafter⟩ := contiguous_append.mp h
  have hmid : mid ≤ start := hbefore.le_of_forall hlo hcursor.behind
  apply (readBlocks_returns hafter hmid hlt hstop b.pos).bind
  rintro ⟨p, bytes⟩ ⟨h₁, h₂, h₃, k, hk, rfl, hends⟩
  refine .intro ⟨h₁, h₂, h₃, b.pos + k, rfl, ?_, ?_⟩
  · have := hcursor.le
    rw [List.length_drop] at hk
    dsimp only
    omega
  · intro t ht
    rw [List.take_add] at ht
    rcases List.mem_append.mp ht with ht | ht
    · exact (hcursor.behind t ht).trans (Nat.le_add_right _ _)
    · exact hends t ht

theorem copyRange_returns {stop outLen : ℕ} {out : List UInt8} (h : Contiguous app lo b.data hi)
    (hcursor : Cursor b start) (hlo : lo ≤ start) (hle : start ≤ stop) (hstop : stop ≤ hi)
    (hroom : out.length + (stop - start) ≤ outLen) :
    (loop (copyNext outLen stop) (stop - start + 1) (b, start, out)).Returns fun r =>
      r.2 = out ++ (app.drop start).take (stop - start) ∧
        ∃ p, r.1 = { b with pos := p } ∧ Cursor { b with pos := p } stop := by
  let Inv : SendBuf × ℕ × List UInt8 → Prop := fun s =>
    start ≤ s.2.1 ∧ s.2.1 ≤ stop ∧ s.2.2 = out ++ (app.drop start).take (s.2.1 - start) ∧
      s.2.2.length = out.length + (s.2.1 - start) ∧
      ∃ p, s.1 = { b with pos := p } ∧ Cursor { b with pos := p } s.2.1
  refine loop_returns Inv (fun s => stop - s.2.1) ?_ _ _
    ⟨le_rfl, hle, by simp, by simp, b.pos, rfl, hcursor⟩ (by dsimp only; omega)
  rintro ⟨b', start', out'⟩ ⟨hge, hle', hout, hlen, p, rfl, hcursor'⟩
  dsimp only at hge hle' hout hlen hcursor'
  simp only [copyNext]
  by_cases hdone : start' = stop
  · subst hdone
    rw [if_neg (not_not.mpr rfl)]
    exact .intro ⟨hout, p, rfl, hcursor'⟩
  · rw [if_pos hdone]
    have hdata : Contiguous app lo ({ b with pos := p } : SendBuf).data hi := h
    apply (readRange_returns hdata hcursor' (by omega) (by omega) hstop).bind
    rintro ⟨b'', bytes⟩ ⟨h₁, h₂, h₃, p', rfl, hcursor''⟩
    dsimp only at h₁ h₂ h₃ hcursor'' ⊢
    rw [assert_pos (by omega)]
    refine .intro ⟨⟨by dsimp only; omega, h₃, ?_, ?_, p', rfl, hcursor''⟩, by dsimp only; omega⟩
    · have hbytes := List.prefix_iff_eq_take.mp h₁
      have hsplit : start' + bytes.length - start = (start' - start) + bytes.length := by omega
      rw [hsplit, List.take_add, List.drop_drop, show start + (start' - start) = start' by omega,
        ← hbytes, ← List.append_assoc, hout]
    · rw [List.length_append]
      dsimp only
      omega

/-! ## Dropping acknowledged blocks -/

theorem dropAcked_returns {n : ℕ} (h : Contiguous app lo ts hi) (hn : lo + n ≤ hi) (k : ℕ) :
    (dropAcked ts n k).Returns fun r =>
      Contiguous app (lo + n) r.1 hi ∧ ∃ j, r.2 = k + j ∧ j ≤ ts.length ∧
        r.1.map maxOff = (ts.drop j).map maxOff := by
  induction ts generalizing lo n k with
  | nil =>
    have : lo = hi := h
    obtain rfl : n = 0 := by omega
    exact .intro ⟨h, 0, rfl, le_rfl, rfl⟩
  | cons t ts ih =>
    cases n with
    | zero => exact .intro ⟨h, 0, rfl, Nat.zero_le _, rfl⟩
    | succ n =>
      obtain ⟨hoff, hpos, hcarries, hrest⟩ := h
      have hmax : t.maxOff = t.off + t.len := rfl
      simp only [dropAcked]
      split_ifs with hwhole
      · refine (ih hrest (by omega) (k + 1)).mono ?_
        rintro ⟨ts', k'⟩ ⟨h₁, j, hj, hle, hmap⟩
        refine ⟨?_, j + 1, ?_, by simp [hle], by simpa using hmap⟩
        · rwa [show t.maxOff + (n + 1 - t.len) = lo + (n + 1) by omega] at h₁
        · omega
      · apply (advance_returns hcarries (by omega)).bind
        rintro t' ⟨hcarries', hoff', hmax', -⟩
        have hmax'' : t'.maxOff = t'.off + t'.len := rfl
        refine .intro ⟨⟨by omega, by omega, hcarries', ?_⟩, 0, rfl, Nat.zero_le _, ?_⟩
        · rwa [hmax']
        · simp [hmax']

theorem Cursor.dropBlocks {j : ℕ} (h : Cursor b start)
    (hmap : ts.map maxOff = (b.data.drop j).map maxOff) :
    b.pos - j ≤ ts.length ∧ ∀ t ∈ ts.take (b.pos - j), t.maxOff ≤ start := by
  have hlen : ts.length = b.data.length - j := by
    simpa using congrArg List.length hmap
  have hle := h.le
  refine ⟨by omega, fun t ht => ?_⟩
  have hmem : t.maxOff ∈ (ts.take (b.pos - j)).map maxOff :=
    List.mem_map_of_mem ht
  rw [List.map_take, hmap, ← List.map_take, ← List.drop_take] at hmem
  obtain ⟨u, hu, heq⟩ := List.mem_map.mp hmem
  rw [← heq]
  exact h.behind u (List.mem_of_mem_drop hu)

/-! ## Cutting new data into blocks -/

structure Pushed (app : List UInt8) (lo : ℕ) (b b' : SendBuf) : Prop where
  same : ∃ ts, b' = { b with data := b.data ++ ts, writeOff := b'.writeOff }
  contiguous : Contiguous app lo b'.data b'.writeOff

theorem Pushed.pushBlock {b' : SendBuf} (h : Pushed app lo b b') {chunk : List UInt8}
    (hchunk : chunk <+: app.drop b'.writeOff) (hne : 0 < chunk.length) (fin : Bool) :
    Pushed app lo b (b'.pushBlock chunk fin) where
  same := by
    obtain ⟨ts, heq⟩ := h.same
    refine ⟨ts ++ [.new chunk b'.writeOff fin], ?_⟩
    rw [heq]
    simp [SendBuf.pushBlock]
  contiguous := contiguous_append.mpr ⟨b'.writeOff, h.contiguous, rfl, hne, hchunk, rfl⟩

theorem pushAll_returns {data : List UInt8} (h : Contiguous app lo b.data b.writeOff)
    (hoff : b.writeOff = app.length) (n : ℕ) (fin : Bool) :
    (loop (pushNext n fin) (data.length + 1) (b, data, 0)).Returns fun b' =>
      Pushed (app ++ data) lo b b' ∧ b'.writeOff = (app ++ data).length := by
  let Inv : SendBuf × List UInt8 × ℕ → Prop := fun s =>
    Pushed (app ++ data) lo b s.1 ∧ s.2.1 = (app ++ data).drop s.1.writeOff ∧
      s.1.writeOff + s.2.1.length = (app ++ data).length
  have hstart : Inv (b, data, 0) := by
    refine ⟨⟨⟨[], by simp⟩, h.mono (List.prefix_append app data)⟩, ?_, ?_⟩
    · rw [hoff, List.drop_left]
    · rw [hoff, List.length_append]
  refine loop_returns Inv (fun s => s.2.1.length) ?_ _ _ hstart (Nat.lt_succ_self _)
  rintro ⟨b', rest, len⟩ ⟨hpushed, hrest, hsum⟩
  dsimp only at hpushed hrest hsum
  simp only [pushNext]
  by_cases hlong : sendBufferSize < rest.length
  · rw [if_pos hlong]
    have hsize : (rest.take sendBufferSize).length = sendBufferSize := by
      rw [List.length_take]
      omega
    have hpos : 0 < sendBufferSize := by decide
    have hchunk : rest.take sendBufferSize <+: (app ++ data).drop b'.writeOff :=
      hrest ▸ List.take_prefix _ _
    refine .intro ⟨⟨hpushed.pushBlock hchunk (by omega) _, ?_, ?_⟩, ?_⟩
    · simp only [pushBlock, hsize]
      rw [hrest, List.drop_drop]
    · simp only [pushBlock, hsize, List.length_drop]
      omega
    · simp only [List.length_drop]
      omega
  rw [if_neg hlong]
  by_cases hempty : rest = []
  · rw [hempty] at hsum ⊢
    exact .intro ⟨hpushed, by simpa using hsum⟩
  · rw [if_pos (by simpa using hempty)]
    have hchunk : rest <+: (app ++ data).drop b'.writeOff := hrest ▸ List.prefix_rfl
    exact .intro ⟨hpushed.pushBlock hchunk (List.length_pos_iff.mpr hempty) fin, hsum⟩

end Tquic.SendBuf
