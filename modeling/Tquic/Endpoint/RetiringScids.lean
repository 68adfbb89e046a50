import Tquic.Connection.Scids
import Tquic.Endpoint.Hosting

/-!
# RETIRE_CONNECTION_ID frames

What such a frame does to the ids and paths of a connection, and to its routes at the
endpoint. A number that was never issued is taken for one already retired.
-/

namespace Tquic.Links

variable {c : Links}

theorem onRetireConnectionId_of_stored (hsourced : c.cids.Sourced) (hplaced : c.Placed)
    (hscids : c.cids.zeroLengthScid = false) {seqNum : ℕ} {pktDcid : ConnectionId}
    {item e : ConnectionIdItem} (hget : c.cids.scids.get? seqNum = some item)
    (hcid : item.cid ≠ pktDcid) (he : e ∈ c.cids.scids.queue) (hne : e.seq ≠ seqNum)
    (hle : c.cids.retirePriorTo ≤ e.seq) :
    ∃ paths, c.onRetireConnectionId seqNum pktDcid =
        ({ c with cids := (c.cids.retireScid seqNum pktDcid).1, paths := paths }, .ok ()) ∧
      ∀ i, paths.get? i = (c.paths.get? i).map fun p =>
        if item.pathId = some i ∧ p.scidSeq = some seqNum then { p with scidSeq := none }
        else p := by
  obtain ⟨lowest, hok⟩ := ConnectionIdMgr.retireScid_ok hsourced hget hcid he hne hle
  rw [onRetireConnectionId, if_neg (by simp [hscids]), if_neg (by simp [hget]), hok]
  cases hpath : item.pathId with
  | none => exact ⟨c.paths, rfl, fun i => by simp⟩
  | some j =>
    have hj := hplaced.scids item (Keyed.find?_some hget).1 j hpath
    dsimp only
    rw [PathMap.get?, List.getElem?_eq_getElem hj]
    refine ⟨_, rfl, fun i => ?_⟩
    rw [get?_update]
    by_cases hi : i = j
    · simp [hi]
    · simp [Ne.symm hi]

theorem spare_of_retireScid {m : ConnectionIdMgr} (hsourced : m.Sourced) {seqNum : ℕ}
    {pktDcid : ConnectionId} {item : ConnectionIdItem} {pathId : Option ℕ}
    (hget : m.scids.get? seqNum = some item)
    (hok : (m.retireScid seqNum pktDcid).2 = .ok pathId) :
    item.cid ≠ pktDcid ∧ ∃ e ∈ m.scids.queue, e.seq ≠ seqNum ∧ m.retirePriorTo ≤ e.seq := by
  unfold ConnectionIdMgr.retireScid ConnectionIdDeque.remove at hok
  split_ifs at hok
  simp only [hget] at hok
  split_ifs at hok with hcid
  refine ⟨hcid, ?_⟩
  unfold ConnectionIdMgr.lowestActiveScidSeq at hok
  cases hmin : (((Keyed.remove ConnectionIdItem.seq m.scids.queue seqNum).map (·.seq)).filter
      (m.retirePriorTo ≤ ·)).min? with
  | none => simp [hmin] at hok
  | some lowest =>
    have hmem := List.min?_mem hmin
    simp only [List.mem_filter, List.mem_map, decide_eq_true_eq] at hmem
    obtain ⟨⟨e, he, rfl⟩, hle⟩ := hmem
    obtain ⟨he, hne⟩ := hsourced.seqs.mem_remove.mp he
    exact ⟨e, he, hne, hle⟩

/-- What a frame with the number is to do: a number that was never issued violates the protocol,
one no longer stored changes nothing, and a stored one is removed with its route and from the
path that it was used on. -/
structure Classified (c : Links) (pktDcid : ConnectionId) (seqNum : ℕ)
    (out : Links × Result Unit) : Prop where
  unissued : c.cids.nextScidSeq ≤ seqNum → out.2 = .error .protocolViolation
  retired : seqNum < c.cids.nextScidSeq → (∀ e ∈ c.cids.scids.queue, e.seq ≠ seqNum) →
    out = (c, .ok ()) ∧
      ∀ host : Hosted, host.cids = c.cids → host.onRetireConnectionId seqNum pktDcid = host
  removed : ∀ item ∈ c.cids.scids.queue, item.seq = seqNum →
    out.2 = .ok () ∧
    (∀ e, e ∈ out.1.cids.scids.queue ↔ e ∈ c.cids.scids.queue ∧ e.seq ≠ seqNum) ∧
    (∀ i, out.1.paths.get? i = (c.paths.get? i).map fun p ↦
      if item.pathId = some i ∧ p.scidSeq = some seqNum then { p with scidSeq := none } else p) ∧
    ∀ host : Hosted, host.cids = c.cids →
      host.onRetireConnectionId seqNum pktDcid = { host with
        cids := out.1.cids, events := host.events ++ [.scidRetired item.cid] } ∧
      ∀ idx fresh routes, (Hosting.handleEvent idx fresh host routes (.scidRetired item.cid)).2 =
        { routes with cidTable := Function.update routes.cidTable item.cid none }

/-- The number was issued, and if it is stored, it is not that of the destination id of the
packet and another active id remains. -/
def Retirable (c : Links) (pktDcid : ConnectionId) (seqNum : ℕ) : Prop :=
  seqNum < c.cids.nextScidSeq ∧ ∀ item ∈ c.cids.scids.get? seqNum, item.cid ≠ pktDcid ∧
    ∃ e ∈ c.cids.scids.queue, e.seq ≠ seqNum ∧ c.cids.retirePriorTo ≤ e.seq

instance (pktDcid : ConnectionId) (seqNum : ℕ) : Decidable (c.Retirable pktDcid seqNum) :=
  inferInstanceAs (Decidable (_ ∧ _))

theorem recv_retireConnectionId (s : Setup)
    (h : Exec.Reaches step (fun _ _ ↦ True) (start s) c) (hscids : c.cids.zeroLengthScid = false)
    {pktDcid : ConnectionId} {pathId seqNum : ℕ} :
    c.Classified pktDcid seqNum
        (c.recvFrame .oneRtt pktDcid pathId (.retireConnectionId seqNum)) ↔
      c.Retirable pktDcid seqNum := by
  obtain ⟨hsourced, hplaced⟩ := placed_of_reaches s h
  have hframe : c.recvFrame .oneRtt pktDcid pathId (.retireConnectionId seqNum) =
      c.onRetireConnectionId seqNum pktDcid := rfl
  rw [hframe]
  -- a number that is not stored is never an error
  have hignored (hget : c.cids.scids.get? seqNum = none) :
      c.onRetireConnectionId seqNum pktDcid = (c, .ok ()) := by
    rw [onRetireConnectionId, if_neg (by simp [hscids]), if_pos (by simp [hget])]
  constructor
  · intro hclass
    cases hget : c.cids.scids.get? seqNum with
    | none =>
      refine ⟨Nat.lt_of_not_le fun hle => ?_, fun item hitem => absurd hitem (by simp [hget])⟩
      have herror := hclass.unissued hle
      rw [hignored hget] at herror
      cases herror
    | some item =>
      obtain ⟨hmem, hkey⟩ := Keyed.find?_some hget
      refine ⟨hkey ▸ hsourced.below item hmem, fun item' hitem' => ?_⟩
      cases hget.symm.trans hitem'
      have hout := (hclass.removed item hmem hkey).1
      rw [onRetireConnectionId, if_neg (by simp [hscids]), if_neg (by simp [hget])] at hout
      rcases hretire : c.cids.retireScid seqNum pktDcid with ⟨cids, e | pathId⟩
      · simp [hretire] at hout
      · exact spare_of_retireScid hsourced hget (by rw [hretire])
  · rintro ⟨hissued, hspare⟩
    refine ⟨fun hle => absurd hissued (Nat.not_lt.mpr hle), fun _ hnone => ?_,
      fun item hitem hkey => ?_⟩
    · have hget : c.cids.scids.get? seqNum = none := Keyed.find?_eq_none_iff.mpr hnone
      refine ⟨hignored hget, fun host hhost => ?_⟩
      rw [Hosted.onRetireConnectionId, hhost, if_neg (by simp [hscids]), hget]
    · have hget : c.cids.scids.get? seqNum = some item :=
        hsourced.seqs.find?_eq_some_iff.mpr ⟨hitem, hkey⟩
      obtain ⟨hcid, e, he, hne, hle⟩ := hspare item hget
      obtain ⟨lowest, hok⟩ := ConnectionIdMgr.retireScid_ok hsourced hget hcid he hne hle
      obtain ⟨paths, hout, hpaths⟩ :=
        onRetireConnectionId_of_stored hsourced hplaced hscids hget hcid he hne hle
      rw [hout]
      refine ⟨rfl, fun e' => ?_, hpaths, fun host hhost => ⟨?_, fun idx fresh routes => rfl⟩⟩
      · rw [hok]
        exact hsourced.seqs.mem_remove
      · rw [Hosted.onRetireConnectionId, hhost, if_neg (by simp [hscids]), hget]
        rfl

/-- A server whose second and third ids were announced; the second one is retired. -/
theorem recv_retireConnectionId_second :
    let c := Exec.follow step (fun _ _ ↦ True) (start server) announcement
    c.cids.scids.queue.map (·.seq) = [0, 2, 3] ∧
      c.Classified (.new [1]) 2 (c.recvFrame .oneRtt (.new [1]) 0 (.retireConnectionId 2)) :=
  ⟨by decide +kernel, (recv_retireConnectionId server (Exec.reaches_follow _ _)
    (by decide +kernel)).mpr (by decide +kernel)⟩

/-- A number that was never issued is not an error, and the only id cannot be retired. -/
theorem unissued_number_ignored :
    let c := start server
    c.cids.nextScidSeq = 1 ∧
      (c.recvFrame .oneRtt (.new [1]) 0 (.retireConnectionId 9)).2 = .ok () ∧
      (c.recvFrame .oneRtt (.new [1]) 0 (.retireConnectionId 0)).2 = .error .internalError := by
  decide +kernel

end Tquic.Links
