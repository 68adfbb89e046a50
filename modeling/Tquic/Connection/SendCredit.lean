import Tquic.Connection.Announcements

/-!
# Credit for sending

The credit used is the sum of what is counted for the streams that were ever created, and a stream
that was abandoned counts with the final size that its RESET_STREAM frames announce.
-/

namespace Tquic

namespace Purse

variable {loose : Prop} {p p' : Purse} {id : ℕ} {b : SendBuf}

/-! ## Credit -/

def written (p : Purse) : ℕ :=
  p.streams.total SendBuf.writeOff + (p.destroyed.map fun e => e.2.writeOff).sum

theorem written_setSend (hget : p.streams.get? id = some b) (b' : SendBuf) :
    (p.setSend id b').written + b.writeOff = p.written + b'.writeOff := by
  have hinsert : (p.streams.insert id b').total SendBuf.writeOff =
      b'.writeOff + (p.streams.erase id).total SendBuf.writeOff := SortedMap.total_insert _ _ _ _
  have htotal := SortedMap.total_eq_of_get? SendBuf.writeOff hget
  simp only [written, setSend]
  omega

theorem written_setSend_new (hget : p.streams.get? id = none) (b : SendBuf) :
    (p.setSend id b).written = p.written + b.writeOff := by
  have hinsert := SortedMap.total_insert_new SendBuf.writeOff hget b
  simp only [written, setSend]
  omega

theorem written_remove (hget : p.streams.get? id = some b) :
    (p.remove id b).written = p.written := by
  have htotal := SortedMap.total_eq_of_get? SendBuf.writeOff hget
  simp only [written, remove, List.map_cons, List.sum_cons]
  omega

structure Balanced (p : Purse) : Prop where
  used : p.txData = p.written
  within : p.txData ≤ p.maxData
  rest : p.capacity = p.maxData - p.txData

theorem Balanced.grant (h : p.Balanced) (n : ℕ) : (p.grant n).Balanced where
  used := h.used
  within := h.within.trans (le_max_left _ _)
  rest := wrappingSub_of_le (h.within.trans (le_max_left _ _))

theorem Balanced.step (h : p.Balanced) (hs : p.Sound) (hstep : Step loose p p') : p'.Balanced := by
  have hused := h.used
  have hwithin := h.within
  have hrest := h.rest
  cases hstep with
  | created id maxTx hget =>
    refine ⟨?_, hwithin, hrest⟩
    rw [written_setSend_new hget]
    exact hused
  | @continued id b b' hget hb =>
    refine ⟨?_, hwithin, hrest⟩
    have hsum := written_setSend hget b'
    have hsame := hb.writeOff_eq
    change p.txData = (p.setSend id b').written
    omega
  | @wrote id written data fin b b' hget hroom hwrite =>
    obtain ⟨hle, hoff, -, -⟩ := (hs.accounted _ _ (.inl hget)).write hwrite
    have hsum := written_setSend hget b'
    refine ⟨?_, ?_, ?_⟩
    · change p.txData + written = (p.setSend id b').written
      omega
    · change p.txData + written ≤ p.maxData
      omega
    · change wrappingSub p.capacity written = p.maxData - (p.txData + written)
      rw [wrappingSub_of_le (by omega)]
      omega
  | @abandoned id size unsent b b' code hget hb =>
    have hsum := written_setSend hget b'
    have hunsent := hb.unsent_eq
    have hoff := hb.writeOff_eq
    have hle := (hs.accounted _ _ (.inl hget)).unsent_le
    have htotal := SortedMap.total_eq_of_get? SendBuf.writeOff hget
    refine ⟨?_, ?_, ?_⟩
    · change p.txData - unsent = (p.setSend id b').written
      simp only [Purse.written] at hused hsum ⊢
      omega
    · change p.txData - unsent ≤ p.maxData
      omega
    · change wrappingSub p.maxData (p.txData - unsent) = p.maxData - (p.txData - unsent)
      exact wrappingSub_of_le (by omega)
  | removed hget =>
    refine ⟨?_, hwithin, hrest⟩
    rw [written_remove hget]
    exact hused
  -- the other steps leave the limits and the buffers alone
  | _ => exact ⟨hused, hwithin, hrest⟩

theorem Balanced.path (h : p.Balanced) (hs : p.Sound) (hpath : Path loose p p') : p'.Balanced := by
  induction hpath with
  | refl => exact h
  | tail hbefore hstep ih => exact ih.step (hs.path hbefore) hstep

theorem Path.maxData_eq (hpath : Path loose p p') : p'.maxData = p.maxData := by
  induction hpath with
  | refl => rfl
  | tail _ hstep ih =>
    rw [← ih]
    cases hstep
    all_goals rfl

end Purse

namespace StreamMap

variable {m : StreamMap}

def countedSum (m : StreamMap) : ℕ :=
  m.streams.total (fun s => s.send.counted) + (m.destroyed.map fun e => e.2.send.counted).sum

theorem countedSum_eq (hs : m.purse.Sound) : m.countedSum = m.purse.written := by
  have hlive : m.streams.total (fun s => s.send.counted) =
      (m.streams.mapValues Stream.send).total SendBuf.writeOff := by
    simp only [SortedMap.total, SortedMap.mapValues, List.map_map]
    congr 1
    apply List.map_congr_left
    intro e he
    have hget : m.get? e.1 = some e.2 := SortedMap.get?_eq_some_iff.mpr he
    exact (hs.accounted e.1 e.2.send (.inl (purse_get? hget))).counted_eq
  have hgone : (m.destroyed.map fun e => e.2.send.counted) =
      (m.destroyed.map fun e => (e.1, e.2.send)).map fun e => e.2.writeOff := by
    rw [List.map_map]
    apply List.map_congr_left
    intro e he
    have hhas : m.purse.Has e.1 e.2.send := .inr (List.mem_map.mpr ⟨e, he, rfl⟩)
    exact (hs.accounted e.1 e.2.send hhas).counted_eq
  rw [countedSum, hlive, hgone]
  rfl

theorem exists_of_announced {id size : ℕ} (h : m.purse.Announced id size) :
    ∃ s, (m.get? id = some s ∨ (id, s) ∈ m.destroyed) ∧ s.send.isAbandoned = true ∧
      s.send.counted = size := by
  obtain ⟨b, hb, habandoned, hfin⟩ := h
  have hcounted : b.counted = size := by rw [SendBuf.counted, if_pos habandoned, hfin]; rfl
  rcases hb with hget | hmem
  · change (m.streams.mapValues Stream.send).get? id = some b at hget
    rw [SortedMap.get?_mapValues] at hget
    obtain ⟨s, hs, rfl⟩ := Option.map_eq_some_iff.mp hget
    exact ⟨s, .inl hs, habandoned, hcounted⟩
  · obtain ⟨e, he, heq⟩ := List.mem_map.mp hmem
    cases heq
    exact ⟨e.2, .inr he, habandoned, hcounted⟩

/-! ## Runs -/

namespace World

variable {w w' : World} {op : Op} {o : Outcome}

structure Fair (w : World) : Prop extends w.Honest where
  balanced : w.map.purse.Balanced

theorem Fair.step (h : w.Fair) (hstep : w.step op = .ok (w', o)) :
    w'.Fair ∧ w'.map.purse.maxData = max w.map.purse.maxData (w.grants op) := by
  obtain ⟨hhonest, hadvances⟩ := h.toHonest.step (.inl trivial) hstep
  rcases hadvances with ⟨hnone, hpath⟩ | heq
  · rw [hnone, Nat.max_zero]
    exact ⟨⟨hhonest, h.balanced.path h.sound hpath⟩, hpath.maxData_eq⟩
  · refine ⟨⟨hhonest, ?_⟩, ?_⟩
    · rw [heq]
      exact h.balanced.grant _
    · rw [heq]
      rfl

theorem fair_start (conf : ReceiveConfig) (isServer endpoint : Bool) :
    (start conf isServer endpoint).Fair :=
  ⟨honest_start conf isServer endpoint, ⟨rfl, le_rfl, rfl⟩⟩

end World

/-- The streams of a connection with the largest limit for sending that was received. -/
structure Funded where
  world : World
  limit : ℕ

namespace Funded

open World

def start (conf : ReceiveConfig) (isServer endpoint : Bool) : Funded :=
  ⟨World.start conf isServer endpoint, 0⟩

def step (f : Funded) (op : Op) : Exec (Funded × Outcome) := do
  let (world, o) ← f.world.step op
  return (⟨world, max f.limit (f.world.grants op)⟩, o)

theorem fair_of_reaches {conf : ReceiveConfig} {isServer endpoint : Bool} {f : Funded}
    (h : Exec.Reaches step (fun _ _ => True) (start conf isServer endpoint) f) :
    f.world.Fair ∧ f.world.map.purse.maxData = f.limit := by
  refine h.invariant (fun f => f.world.Fair ∧ f.world.map.purse.maxData = f.limit) ?_
    ⟨fair_start conf isServer endpoint, rfl⟩
  rintro f op f' o ⟨hfair, hlimit⟩ - hstep
  obtain ⟨⟨world, o'⟩, hworld, hstep⟩ := Exec.bind_eq_ok.mp hstep
  cases hstep
  obtain ⟨hfair', hmax⟩ := hfair.step hworld
  exact ⟨hfair', by rw [hmax, hlimit]⟩

theorem exists_limit {w w' : World} (h : Exec.Reaches World.step (fun _ _ => True) w w')
    (limit : ℕ) :
    ∃ limit', Exec.Reaches step (fun _ _ => True) ⟨w, limit⟩ ⟨w', limit'⟩ := by
  induction h with
  | refl => exact ⟨limit, .refl⟩
  | @tail w₁ w₂ op o _ hlegal hstep ih =>
    obtain ⟨limit₁, hreach⟩ := ih
    refine ⟨max limit₁ (w₁.grants op), .tail (i := op) (o := o) hreach hlegal ?_⟩
    simp only [step, hstep, Exec.ok_bind, Exec.pure_def]

/-- The credit used is what is counted for the streams, within the largest limit received, the
capacity is the difference, and RESET_STREAM frames announce what is counted for their stream. -/
theorem txData_eq_countedSum {conf : ReceiveConfig} {isServer endpoint : Bool} {f : Funded}
    (h : Exec.Reaches step (fun _ _ ↦ True) (start conf isServer endpoint) f) :
    f.world.map.sendCapacity.txData = f.world.map.countedSum ∧
      f.world.map.sendCapacity.txData ≤ f.limit ∧
      f.world.map.sendCapacity.maxData = f.limit ∧
      f.world.map.sendCapacity.capacity = f.limit - f.world.map.sendCapacity.txData ∧
      ∀ frames ∈ f.world.acked :: f.world.dropped :: f.world.sent, ∀ id code size,
        .resetStream id code size ∈ frames →
          ∃ s, (f.world.map.get? id = some s ∨ (id, s) ∈ f.world.map.destroyed) ∧
            s.send.isAbandoned = true ∧ s.send.counted = size := by
  obtain ⟨hfair, hlimit⟩ := fair_of_reaches h
  obtain ⟨hused, hwithin, hrest⟩ := hfair.balanced
  rw [hlimit] at hwithin hrest
  refine ⟨hused.trans (countedSum_eq hfair.sound).symm, hwithin, hlimit, hrest, ?_⟩
  intro frames hframes id code size hmem
  apply exists_of_announced
  rcases List.mem_cons.mp hframes with rfl | hframes
  · exact hfair.acked id code size hmem
  · rcases List.mem_cons.mp hframes with rfl | hsent
    · exact hfair.dropped id code size hmem
    · exact hfair.sent frames hsent id code size hmem

def tenBytes : {p : StreamTransportParams // p.Encodable} :=
  ⟨⟨10, 10, 10, 10, 4, 4⟩, by constructor <;> decide⟩

/-- A client that shut down a stream with three bytes sent and two not, wrote four bytes to another,
and was then allowed twenty. -/
def clientWithReset : World :=
  Exec.follow World.step (fun _ _ => True) (World.start .new false true)
    [.peerParams tenBytes, .streamNew true 127 true, .write 0 [1, 2, 3] false,
      .sendPacket ⟨true, 100, 0, 0, 0, 0, {}⟩, .write 0 [4, 5] false, .shutdown 0 .write 7,
      .sendPacket ⟨true, 100, 0, 0, 0, 0, {}⟩, .streamNew true 127 true,
      .write 4 [1, 2, 3, 4] false, .receive (.maxData 20)]

theorem txData_eq_countedSum_seven :
    clientWithReset.map.sendCapacity.txData = 7 ∧ clientWithReset.map.countedSum = 7 ∧
      clientWithReset.map.sendCapacity.maxData = 20 ∧
      clientWithReset.map.sendCapacity.capacity = 13 ∧
      ∃ s, (clientWithReset.map.get? 0 = some s ∨ (0, s) ∈ clientWithReset.map.destroyed) ∧
        s.send.isAbandoned = true ∧ s.send.counted = 3 := by
  have hworld : Exec.Reaches World.step (fun _ _ => True) (World.start .new false true)
      clientWithReset := Exec.reaches_follow _ _
  obtain ⟨limit, hreach⟩ := exists_limit hworld 0
  obtain ⟨hused, -, hmax, hrest, hresets⟩ := txData_eq_countedSum hreach
  have htx : clientWithReset.map.sendCapacity.txData = 7 := by decide +kernel
  have hlimit : clientWithReset.map.sendCapacity.maxData = 20 := by decide +kernel
  have hsent : clientWithReset.sent =
      [[.stream 0 0 3 false], [.resetStream 0 7 3, .stream 0 3 0 true]] := by decide +kernel
  dsimp only at hused hmax hrest
  rw [← hmax, hlimit, htx] at hrest
  refine ⟨htx, hused.symm.trans htx, hlimit, hrest, ?_⟩
  dsimp only at hresets
  rw [hsent] at hresets
  exact hresets [.resetStream 0 7 3, .stream 0 3 0 true] (by simp) 0 7 3 List.mem_cons_self

end Funded

end StreamMap

end Tquic
