import Tquic.Connection.Advertised
import Tquic.Connection.DcidRuns

/-!
# Destination ids in use and those to be retired

The id that a path sends to is stored and bound to it, while the ids that wait for their retirement
lie below the threshold of the peer. So the loops that write frames about ids end.
-/

namespace Tquic

open List LinkWriter ConnectionIdMgr Act PathMap LinkPromise Exec

variable {i k retirePriorTo resetToken : ℕ} {retired : List (ℕ × ℕ)} {cid : ConnectionId}

namespace ConnectionIdMgr

variable {m m' : ConnectionIdMgr}

theorem Settled.congr (h : m.Settled) (hdcids : m'.dcids = m.dcids)
    (hlargest : m'.largestPeerRetirePriorTo = m.largestPeerRetirePriorTo)
    (hwaiting : m'.dcidsToRetire = m.dcidsToRetire) : m'.Settled := by
  refine ⟨?_, ?_, ?_, ?_⟩
  · rw [hdcids]
    exact h.seqs
  · rw [hdcids]
    exact h.cids
  · rw [hdcids, hlargest]
    exact h.above
  · rw [hwaiting, hlargest]
    exact h.queued

theorem Settled.setPath (h : m.Settled) (seq i : ℕ) :
    { m with dcids := m.dcids.setPath seq i }.Settled := by
  have hseqs := map_setPath (g := ConnectionIdItem.seq) (fun _ _ => rfl) m.dcids seq i
  have hcids := map_setPath (g := ConnectionIdItem.cid) (fun _ _ => rfl) m.dcids seq i
  refine ⟨?_, ?_, ?_, h.queued⟩
  · rw [Keyed.Distinct, hseqs]
    exact h.seqs
  · rw [Keyed.Distinct, hcids]
    exact h.cids
  · intro e he
    have hmem : e.seq ∈ m.dcids.queue.map ConnectionIdItem.seq := by
      rw [← hseqs]
      exact mem_map_of_mem he
    obtain ⟨e', he', hseq⟩ := mem_map.mp hmem
    change m.largestPeerRetirePriorTo ≤ e.seq
    rw [← hseq]
    exact h.above e' he'

def BoundTo (m : ConnectionIdMgr) (seq i : ℕ) : Prop :=
  ∃ e ∈ m.dcids.queue, e.seq = seq ∧ e.pathId = some i

theorem BoundTo.setPath (h : m.Settled) {seq s : ℕ} (hseq : m.lowestUnusedDcidSeq = some seq)
    (hbound : m.BoundTo s k) : { m with dcids := m.dcids.setPath seq i }.BoundTo s k := by
  obtain ⟨e, he, rfl, hpath⟩ := hbound
  refine ⟨e, h.seqs.mem_alter.mpr (.inl ⟨he, ?_⟩), rfl, hpath⟩
  intro hkey
  obtain ⟨item, hitem, hitemseq, hnone⟩ := Links.lowestUnused_mem hseq
  obtain rfl := h.seqs.eq_of_key he hitem (hkey.trans hitemseq.symm)
  simp [hnone] at hpath

theorem boundTo_setPath (h : m.Settled) {seq : ℕ} (hseq : m.lowestUnusedDcidSeq = some seq)
    (i : ℕ) : { m with dcids := m.dcids.setPath seq i }.BoundTo seq i := by
  obtain ⟨item, hitem, hitemseq, -⟩ := Links.lowestUnused_mem hseq
  exact ⟨_, h.seqs.mem_alter.mpr (.inr ⟨item, hitem, hitemseq, rfl⟩), hitemseq, rfl⟩

theorem BoundTo.lowers {s : ℕ} (h : m.BoundTo s k)
    (hlow : Lowers m retirePriorTo m' retired) : m'.BoundTo s k ∨ (s, k) ∈ retired := by
  cases hlow with
  | kept => exact .inl h
  | raised =>
    obtain ⟨e, he, rfl, hpath⟩ := h
    rcases lt_or_ge e.seq retirePriorTo with hseq | hseq
    · refine .inr (mem_filterMap.mpr ⟨e, mem_filter.mpr ⟨he, by simpa using hseq⟩, ?_⟩)
      rw [hpath]
      rfl
    · exact .inl ⟨e, mem_filter.mpr ⟨he, by simpa using hseq⟩, rfl, hpath⟩

theorem BoundTo.adds {seq s : ℕ}
    (h : m.BoundTo s k)
    (hadds : AddsDcid m cid seq resetToken retirePriorTo (m', .ok retired)) :
    m'.BoundTo s k ∨ (s, k) ∈ retired := by
  cases hadds with
  | repeated | late => exact .inl h
  | stored _ _ _ _ hlow =>
    rcases h.lowers hlow with ⟨e, he, hrest⟩ | hretired
    · exact .inl ⟨e, mem_append_left _ he, hrest⟩
    · exact .inr hretired

end ConnectionIdMgr

/-! ## The ids that paths send to -/

variable {f : Path → Path}

namespace PathMap

variable {m m' : PathMap}

def dcidAt (m : PathMap) (i : ℕ) : Option ℕ := (m.get? i).bind Path.dcidSeq

theorem dcidAt_update (hf : ∀ q, (f q).dcidSeq = q.dcidSeq) (m : PathMap)
    (i k : ℕ) : (m.update i f).dcidAt k = m.dcidAt k := by
  rw [dcidAt, Links.get?_update, dcidAt]
  split_ifs
  · cases m.get? k with
    | none => rfl
    | some q => exact hf q
  · rfl

variable {seq : ℕ}

theorem dcidAt_update_some {dcidSeq : Option ℕ}
    (h : (m.update i fun q => { q with dcidSeq := dcidSeq }).dcidAt k = some seq) :
    i = k ∧ dcidSeq = some seq ∨ i ≠ k ∧ m.dcidAt k = some seq := by
  rw [dcidAt, Links.get?_update] at h
  split_ifs at h with hik
  · cases hq : m.get? k with
    | none => simp [hq] at h
    | some =>
      rw [hq] at h
      exact .inl ⟨hik, h⟩
  · exact .inr ⟨hik, h⟩

theorem Turns.dcidAt (h : m.Turns m') (hseq : m'.dcidAt k = some seq) : m.dcidAt k = some seq := by
  obtain ⟨q', hq', hdcid⟩ := Option.bind_eq_some_iff.mp hseq
  obtain ⟨q, hq, hturn⟩ := exists_left_of_forall₂ h.paths hq'
  rw [PathMap.dcidAt, PathMap.get?, hq]
  exact hturn.dcidSeq.symm.trans hdcid

theorem dcidAt_insertPath {path : Path} (hnone : path.dcidSeq = none)
    (h : m.insertPath path = .ok (i, m')) (hseq : m'.dcidAt k = some seq) :
    m.dcidAt k = some seq := by
  obtain ⟨q, hq, hdcid⟩ := Option.bind_eq_some_iff.mp hseq
  rcases (inserts_of_insertPath h).get?_cases hq with ⟨-, rfl⟩ | ⟨-, hold⟩
  · simp [hnone] at hdcid
  · rw [dcidAt, hold]
    exact hdcid

theorem dcidAt_lt (h : m.dcidAt i = some seq) : i < m.paths.length := by
  obtain ⟨q, hq, -⟩ := Option.bind_eq_some_iff.mp h
  exact Links.get?_lt hq

end PathMap

/-- The peer announces no id that waits for its retirement, and a Retry packet comes before any
packet that names the server's id. -/
abbrev LinkPromise.toNew : LinkPromise where
  frame c _ frame := ∀ seq ∈ frame.announces?, seq ∉ c.cids.dcidsToRetire
  retry c := c.gotPeerCid = false

namespace Links

variable {p : LinkPromise} {c c' : Links}

/-- What ties the destination ids to the paths, the queue and the frames. -/
structure Assigned (c : Links) : Prop where
  settled : c.cids.Settled
  frames : ∀ frame ∈ c.frames, ∀ seq ∈ frame.retires?, seq < c.cids.largestPeerRetirePriorTo
  bound : ∀ i seq, c.paths.dcidAt i = some seq → c.gotPeerCid = true →
    c.cids.zeroLengthDcid = false → c.cids.BoundTo seq i
  unnamed : c.gotPeerCid = false →
    c.cids.largestPeerRetirePriorTo = 0 ∧ c.paths.paths.length = 1
  empty : c.cids.zeroLengthDcid = true → c.cids.largestPeerRetirePriorTo = 0
  completed : c.handshakeCompleted = true → c.gotPeerCid = true

/-! ## A NEW_CONNECTION_ID frame -/

/-- Some paths still have to give up the ids that were retired. -/
def Pending (c : Links) (retired : List (ℕ × ℕ)) : Prop :=
  ∀ i seq, c.paths.dcidAt i = some seq → c.cids.BoundTo seq i ∨ (seq, i) ∈ retired

theorem pending_reassignDcid {first : ℕ × ℕ} {rest : List (ℕ × ℕ)} (hsettled : c.cids.Settled)
    (hpending : c.Pending (first :: rest)) (h : c.reassignDcid first = (c', .ok ())) :
    c'.cids.Settled ∧ c'.Pending rest ∧ (∃ dcids, c'.cids = { c.cids with dcids := dcids }) ∧
      (∃ paths, c' = { c with cids := c'.cids, paths := paths }) := by
  obtain ⟨s, j⟩ := first
  -- what another path holds does not change
  have hother : ∀ i seq, c.paths.dcidAt i = some seq → (seq, i) ≠ (s, j) →
      c.cids.BoundTo seq i ∨ (seq, i) ∈ rest := by
    intro i seq hseq hne
    rcases hpending i seq hseq with hbound | hmem
    · exact .inl hbound
    · exact .inr ((mem_cons.mp hmem).resolve_left hne)
  rw [reassignDcid] at h
  split at h
  · cases h
  next path hpath =>
  split_ifs at h with hdcid
  · cases h
    refine ⟨hsettled, ?_, ⟨c.cids.dcids, rfl⟩, ⟨c.paths, rfl⟩⟩
    intro i seq hseq
    apply hother i seq hseq
    intro heq
    cases heq
    rw [dcidAt, hpath] at hseq
    exact hdcid hseq
  · split at h
    · cases h
      refine ⟨hsettled, ?_, ⟨c.cids.dcids, rfl⟩, ⟨_, rfl⟩⟩
      intro i seq hseq
      rcases dcidAt_update_some hseq with ⟨-, hnone⟩ | ⟨hne, hseq⟩
      · cases hnone
      · exact hother i seq hseq fun heq => hne (Prod.mk.inj heq).2.symm
    · next seq' hlowest =>
        dsimp only at h
        rw [markDcidUsed_lowest hlowest] at h
        cases h
        refine ⟨hsettled.setPath seq' j, ?_, ⟨_, rfl⟩, ⟨_, rfl⟩⟩
        intro i seq hseq
        rcases dcidAt_update_some hseq with ⟨rfl, hsome⟩ | ⟨hne, hseq⟩
        · cases hsome
          exact .inl (boundTo_setPath hsettled hlowest j)
        · rcases hother i seq hseq fun heq => hne (Prod.mk.inj heq).2.symm with hbound | hmem
          · exact .inl (hbound.setPath hsettled hlowest)
          · exact .inr hmem

theorem pending_reassignDcids (hsettled : c.cids.Settled)
    (hpending : c.Pending retired) (h : reassignDcids retired c = (c', .ok ())) :
    c'.cids.Settled ∧ c'.Pending [] ∧ (∃ dcids, c'.cids = { c.cids with dcids := dcids }) ∧
      (∃ paths, c' = { c with cids := c'.cids, paths := paths }) := by
  induction retired generalizing c with
  | nil =>
    cases h
    exact ⟨hsettled, hpending, ⟨_, rfl⟩, ⟨_, rfl⟩⟩
  | cons first rest ih =>
    rw [reassignDcids] at h
    rcases heq : c.reassignDcid first with ⟨d, r⟩
    rw [heq] at h
    cases r with
    | error => cases h
    | ok _ =>
      obtain ⟨hd, hpending', ⟨dcids, hcids⟩, ⟨paths, hlinks⟩⟩ :=
        pending_reassignDcid hsettled hpending heq
      obtain ⟨hc', hdone, ⟨dcids', hcids'⟩, ⟨paths', hlinks'⟩⟩ := ih hd hpending' h
      refine ⟨hc', hdone, ⟨dcids', ?_⟩, ⟨paths', ?_⟩⟩
      · rw [hcids', hcids]
      · rw [hlinks', hlinks]

section

variable (h : c.Assigned)

include h

theorem Assigned.onNewConnectionId {seqNum : ℕ}
    {connId : ConnectionId} (hgot : c.gotPeerCid = true)
    (hseq : seqNum ∉ c.cids.dcidsToRetire)
    (hok : (c.onNewConnectionId seqNum retirePriorTo connId resetToken).2 = .ok ()) :
    (c.onNewConnectionId seqNum retirePriorTo connId resetToken).1.Assigned := by
  have hadds := c.cids.addDcid_cases connId seqNum resetToken retirePriorTo
  rw [Links.onNewConnectionId] at hok ⊢
  rcases heq : c.cids.addDcid connId seqNum resetToken retirePriorTo with ⟨cids, r⟩
  rw [heq] at hadds hok
  cases r with
  | error => cases hok
  | ok retired =>
    dsimp only at hok ⊢
    have hzero := hadds.zeroLengthDcid
    obtain ⟨dcids, waiting, largest, hfst⟩ := hadds.fst
    dsimp only at hfst
    have hpending : { c with cids := cids }.Pending retired := by
      intro i seq hseq
      exact (h.bound i seq hseq hgot hzero).adds hadds
    rcases heq' : reassignDcids retired { c with cids := cids } with ⟨c', r'⟩
    rw [heq'] at hok
    subst hok
    obtain ⟨hc', hdone, ⟨dcids', hcids⟩, ⟨paths', hlinks⟩⟩ :=
      pending_reassignDcids (h.settled.adds hseq hadds) hpending heq'
    have hsame : c'.cids.largestPeerRetirePriorTo = cids.largestPeerRetirePriorTo ∧
        c'.cids.zeroLengthDcid = false := by
      rw [hcids, hfst]
      exact ⟨rfl, hzero⟩
    have hgot' : c'.gotPeerCid = true := by
      rw [hlinks]
      exact hgot
    have hframes' : c'.frames = c.frames := by
      rw [hlinks]
      rfl
    refine ⟨hc', ?_, ?_, ?_, ?_, fun _ => hgot'⟩
    · rw [hframes', hsame.1]
      exact fun frame hframe seq hseq => (h.frames frame hframe seq hseq).trans_le hadds.largest.1
    · intro i seq hseq _ _
      exact (hdone i seq hseq).resolve_right not_mem_nil
    · simp [hgot']
    · simp [hsame.2]

/-! ## The other moves -/

theorem Assigned.of_paths {paths : PathMap}
    (hdcid : ∀ i seq, paths.dcidAt i = some seq → c.paths.dcidAt i = some seq)
    (hlen : c.gotPeerCid = false → paths.paths.length = c.paths.paths.length) :
    { c with paths := paths }.Assigned := by
  refine ⟨h.settled, h.frames, ?_, ?_, h.empty, h.completed⟩
  · exact fun i seq hseq => h.bound i seq (hdcid i seq hseq)
  · intro hgot
    exact ⟨(h.unnamed hgot).1, (hlen hgot).trans (h.unnamed hgot).2⟩

theorem Assigned.update (i : ℕ)
    (hf : ∀ q, (f q).dcidSeq = q.dcidSeq) : { c with paths := c.paths.update i f }.Assigned := by
  apply h.of_paths
  · intro k seq hseq
    rwa [dcidAt_update hf] at hseq
  · exact fun _ => length_update c.paths i f

theorem Assigned.of_cids {cids : ConnectionIdMgr}
    (hdcids : cids.dcids = c.cids.dcids)
    (hlargest : cids.largestPeerRetirePriorTo = c.cids.largestPeerRetirePriorTo)
    (hwaiting : cids.dcidsToRetire = c.cids.dcidsToRetire)
    (hzero : cids.zeroLengthDcid = c.cids.zeroLengthDcid) :
    { c with cids := cids }.Assigned := by
  refine ⟨h.settled.congr hdcids hlargest hwaiting, ?_, ?_, ?_, ?_, h.completed⟩
  · intro frame hframe seq hseq
    exact hlargest ▸ h.frames frame hframe seq hseq
  · intro i seq hseq hgot hz
    obtain ⟨e, he, hrest⟩ := h.bound i seq hseq hgot (hzero ▸ hz)
    exact ⟨e, hdcids ▸ he, hrest⟩
  · exact fun hgot => ⟨hlargest.trans (h.unnamed hgot).1, (h.unnamed hgot).2⟩
  · exact fun hz => hlargest.trans (h.empty (hzero ▸ hz))

theorem Assigned.of_frames {draft : List LinkFrame} {sent : List (List LinkFrame)}
    {lost : List LinkFrame}
    (hframes : ∀ frame ∈ draft ++ sent.flatten ++ lost, ∀ seq ∈ frame.retires?,
      seq < c.cids.largestPeerRetirePriorTo) :
    { c with draft := draft, sent := sent, lost := lost }.Assigned :=
  ⟨h.settled, hframes, h.bound, h.unnamed, h.empty, h.completed⟩

theorem Assigned.drafted {frame : LinkFrame}
    (hframe : ∀ seq ∈ frame.retires?, seq < c.cids.largestPeerRetirePriorTo) :
    { c with draft := c.draft ++ [frame] }.Assigned := by
  apply h.of_frames
  intro frame' hframe'
  have hcases : frame' ∈ c.frames ∨ frame' = frame := by
    simp only [Links.frames, mem_append, mem_singleton] at hframe' ⊢
    tauto
  rcases hcases with hold | rfl
  · exact h.frames frame' hold
  · exact hframe

theorem Assigned.setInitialDcid {resetToken : Option ℕ}
    (hi : i < c.paths.paths.length) (hgot : c.gotPeerCid = false) (got didRetry : Bool) :
    { c.setInitialDcid cid resetToken i with
      gotPeerCid := got, didRetry := didRetry }.Assigned := by
  obtain ⟨hlargest, hlen⟩ := h.unnamed hgot
  have hnone : c.handshakeCompleted = false := by
    by_contra hdone
    have hgot' := h.completed (by simpa using hdone)
    simp [hgot] at hgot'
  refine ⟨⟨nodup_singleton _, nodup_singleton _, ?_, h.settled.queued⟩, h.frames, ?_, ?_,
    fun _ => hlargest, ?_⟩
  · intro e _
    change c.cids.largestPeerRetirePriorTo ≤ e.seq
    omega
  · intro k seq hseq _ _
    have hk : k < c.paths.paths.length := by
      have hlt := dcidAt_lt hseq
      change k < (c.paths.update i fun q => { q with dcidSeq := some 0 }).paths.length at hlt
      rwa [length_update] at hlt
    obtain rfl : i = k := by omega
    rcases dcidAt_update_some hseq with ⟨-, hsome⟩ | ⟨hne, -⟩
    · cases hsome
      exact ⟨_, mem_singleton_self _, rfl, rfl⟩
    · exact absurd rfl hne
  · intro _
    refine ⟨hlargest, ?_⟩
    rw [← hlen]
    exact length_update _ _ _
  · intro hdone
    exact absurd hdone (by simp [Links.setInitialDcid, hnone])

end

theorem closing_move (h : c.closing = true) (hmove : Move p c c') : c'.closing = true := by
  cases hmove with
  | noted resetToken closing hclosing => exact hclosing h
  | retireFrame seqNum pktDcid =>
    obtain ⟨cids, i, f, hfst, -⟩ := onRetireConnectionId_fst c seqNum pktDcid
    rw [hfst]
    exact h
  | newIdFrame seqNum retirePriorTo connId resetToken =>
    rw [(onNewConnectionId_core c seqNum retirePriorTo connId resetToken).2]
    exact h
  | newIdRefused => rfl
  | completed =>
    rw [complete]
    split_ifs
    · exact h
    · exact h
  | _ => exact h

/-- Every move keeps the ids assigned, or closes the connection. -/
theorem Assigned.move (h : c.Assigned) (hmove : Move .toNew c c') :
    c'.closing = true ∨ c'.Assigned := by
  cases hmove with
  | turned paths hturns =>
    exact .inr (h.of_paths (fun i seq => hturns.dcidAt) fun _ => hturns.length_eq)
  | noted | spaceAdded =>
    exact .inr ⟨h.settled, h.frames, h.bound, h.unnamed, h.empty, h.completed⟩
  | handled draft sent lost hframes =>
    exact .inr (h.of_frames fun frame hframe => h.frames frame (hframes frame hframe))
  | challenged | answered => exact .inr (h.drafted (by rintro seq ⟨⟩))
  | abandoned i => exact .inr (h.update i fun _ => rfl)
  | inserted path i paths hfresh hdone hins =>
    refine .inr (h.of_paths (fun k seq => dcidAt_insertPath hfresh.dcidSeq hins) ?_)
    intro hgot
    have hgot' := h.completed hdone
    simp [hgot] at hgot'
  | activated i =>
    right
    rw [activate]
    split
    · exact h.update i fun _ => rfl
    · split
      · next old hold =>
          have hold' : { c with paths := c.paths.update old fun q =>
              { q with active := false } }.Assigned := h.update old fun _ => rfl
          exact hold'.update i fun _ => rfl
      · exact h.update i fun _ => rfl
  | scidUsed i => exact .inr (h.update i fun _ => rfl)
  | scidMarked => exact .inr (h.of_cids rfl rfl rfl rfl)
  | retireFrame seqNum pktDcid =>
    obtain ⟨cids, i, f, hfst, hcids, hf⟩ := onRetireConnectionId_fst c seqNum pktDcid
    right
    rw [hfst]
    have hpaths : { c with paths := c.paths.update i f }.Assigned := by
      apply h.update
      intro q
      rcases hf q with heq | ⟨-, heq⟩
      · rw [heq]
      · rw [heq]
    rcases hcids with rfl | rfl
    · exact hpaths
    · obtain ⟨queue, retirePriorTo, hretire, -⟩ :=
        retireScid_fst c.cids seqNum pktDcid
      rw [hretire]
      exact hpaths.of_cids rfl rfl rfl rfl
  | newIdFrame seqNum retirePriorTo connId resetToken pktDcid hframe hgot hok =>
    exact .inr (h.onNewConnectionId hgot (hframe seqNum rfl) hok)
  | newIdRefused => exact .inl rfl
  | dcidAssigned i seq hi hzero hseq =>
    refine .inr ⟨h.settled.setPath seq i, h.frames, ?_, ?_, h.empty, h.completed⟩
    · intro k s hs hgot _
      rcases dcidAt_update_some hs with ⟨rfl, hsome⟩ | ⟨-, hs⟩
      · cases hsome
        exact boundTo_setPath h.settled hseq i
      · exact (h.bound k s hs hgot hzero).setPath h.settled hseq
    · intro hgot
      refine ⟨(h.unnamed hgot).1, ?_⟩
      rw [← (h.unnamed hgot).2]
      exact length_update _ _ _
  | dcidEmpty i dcids hi hzero hdcids =>
    have hsettled : { c.cids with dcids := dcids }.Settled := by
      rcases hdcids with rfl | rfl
      · exact h.settled
      · exact h.settled.setPath 0 i
    refine .inr ⟨hsettled, h.frames, ?_, ?_, h.empty, h.completed⟩
    · intro k s _ _ hzero'
      simp [hzero] at hzero'
    · intro hgot
      refine ⟨(h.unnamed hgot).1, ?_⟩
      rw [← (h.unnamed hgot).2]
      exact length_update _ _ _
  | named cid resetToken i hi hgot => exact .inr (h.setInitialDcid hi hgot true c.didRetry)
  | retried cid i hi hretry => exact .inr (h.setInitialDcid hi hretry false true)
  | scidAdded cid token retireIfNeeded =>
    right
    change { c with cids := (c.cids.addScid cid (some token) true none retireIfNeeded).1 }.Assigned
    obtain ⟨r, heq | heq⟩ := addScid_fst c.cids cid token retireIfNeeded
    · rw [heq]
      exact h.of_cids rfl rfl rfl rfl
    · rw [heq]
      exact h.of_cids rfl rfl rfl rfl
  | scidLimited => exact .inr (h.of_cids rfl rfl rfl rfl)
  | completed =>
    right
    rw [complete]
    split_ifs with hskip
    · exact h
    · have hgot : c.gotPeerCid = true := by
        by_contra hgot
        simp [hgot] at hskip
      exact ⟨h.settled, h.frames, h.bound, h.unnamed, h.empty, fun _ => hgot⟩
  | advertised seq frame hhead hframe =>
    right
    have hmarked : { c with cids := c.cids.markScidToAdvertise seq false }.Assigned :=
      h.of_cids rfl rfl rfl rfl
    apply hmarked.drafted
    intro s hs
    rw [createNewConnectionIdFrame] at hframe
    split at hframe
    · cases hframe
    · split at hframe
      · cases hframe
      · cases hframe
        cases hs
  | retiredDcid seq hhead =>
    right
    have hqueued := h.settled.queued seq (mem_of_head? hhead)
    have hmarked : { c with cids := c.cids.markDcidToRetire seq false }.Assigned :=
      ⟨h.settled.markDcidToRetire (by rintro ⟨⟩), h.frames, h.bound,
        h.unnamed, h.empty, h.completed⟩
    apply hmarked.drafted
    intro s hs
    cases hs
    exact hqueued
  | relisted frame rest hlost =>
    right
    have hframe : ∀ seq ∈ frame.retires?, seq < c.cids.largestPeerRetirePriorTo := by
      apply h.frames
      simp [Links.frames, hlost]
    have hrest : { c with lost := rest }.Assigned := by
      apply h.of_frames
      intro frame' hframe'
      apply h.frames
      simp only [Links.frames, hlost, mem_append, mem_cons] at hframe' ⊢
      tauto
    cases frame with
    | newConnectionId => exact hrest.of_cids rfl rfl rfl rfl
    | retireConnectionId seqNum =>
      exact ⟨hrest.settled.markDcidToRetire fun _ => hframe seqNum rfl,
        hrest.frames, hrest.bound, hrest.unnamed, hrest.empty, hrest.completed⟩
    | pathChallenge | pathResponse => exact hrest

theorem assigned_start (s : Setup) : (start s).Assigned := by
  have hbase : ({
      isServer := s.isServer
      cids := new s.activeConnIdLimit s.scid 0 s.resetToken
      paths := new (if s.isServer then
          { Path.new s.localAddr s.remoteAddr true s.time with
            verifiedPeerAddress := s.validToken, peerVerifiedLocalAddress := true }
        else Path.new s.localAddr s.remoteAddr true s.time) s.activeConnIdLimit s.antiAmplFactor
        s.isServer } : Links).Assigned := by
    refine ⟨⟨nodup_nil, nodup_nil, ?_, ?_⟩, ?_, ?_, fun _ => ⟨rfl, rfl⟩, fun _ => rfl, ?_⟩
    · exact fun e he => absurd he not_mem_nil
    · exact fun e he => absurd he not_mem_nil
    · exact fun frame hframe => absurd hframe not_mem_nil
    · exact fun i seq _ hgot => nomatch hgot
    · exact nofun
  rw [start]
  split_ifs with hserver
  · rw [if_pos hserver] at hbase
    exact hbase
  · rw [if_neg hserver] at hbase
    exact hbase.setInitialDcid (Nat.zero_lt_one) rfl false false

def Open (c : Links) : Prop := c.closing = false ∧ c.Assigned

theorem Open.move (h : c.Open) (hmove : Move .toNew c c') (hclosing : c'.closing = c.closing) :
    c'.Open := by
  have hopen : c'.closing = false := hclosing.trans h.1
  refine ⟨hopen, (h.2.move hmove).resolve_left ?_⟩
  simp [hopen]

theorem Assigned.head_ne (h : c.Assigned) {seq : ℕ} (hseq : seq ∈ c.cids.dcidsToRetire) :
    c.paths.dcidAt i ≠ some seq := by
  intro hdcid
  have hless := h.settled.queued seq hseq
  have hgot : c.gotPeerCid = true := by
    by_contra hgot
    have hzero := (h.unnamed (by simpa using hgot)).1
    omega
  have hzero : c.cids.zeroLengthDcid = false := by
    by_contra hzero
    have hnone := h.empty (by simpa using hzero)
    omega
  obtain ⟨e, he, rfl, -⟩ := h.bound i seq hdcid hgot hzero
  have habove := h.settled.above e he
  omega

theorem length_filter_head {l : List ℕ} {a : ℕ} (h : l.head? = some a) :
    (l.filter (· ≠ a)).length < l.length := by
  cases l with
  | nil => cases h
  | cons =>
    cases h
    rw [filter_cons_of_neg (by simp), length_cons]
    exact Nat.lt_succ_of_le (length_filter_le _ _)

end Links

namespace LinkWriter

variable {w w' : LinkWriter} {rounds : ℕ}

variable {room : ℕ}

theorem advertiseNext_again (hw : w.links.Open)
    (h : advertiseNext room w = .ok (w', .ok (.again ⟨⟩))) :
    w'.links.Open ∧
      w'.links.cids.scidsToAdvertise.length < w.links.cids.scidsToAdvertise.length ∧
      w'.links.cids.dcidsToRetire = w.links.cids.dcidsToRetire := by
  have hcases := advertiseNext_cases room w
  rw [h] at hcases
  cases hcases with
  | advertised seq frame _ hhead hframe hlinks =>
    rw [hlinks]
    refine ⟨hw.move (Links.Move.advertised seq frame hhead hframe) rfl, ?_, rfl⟩
    exact Links.length_filter_head hhead

theorem retireNext_again (hw : w.links.Open)
    (h : retireNext room i w = .ok (w', .ok (.again ⟨⟩))) :
    w'.links.Open ∧ w'.links.cids.dcidsToRetire.length < w.links.cids.dcidsToRetire.length := by
  have hcases := retireNext_cases room i w
  rw [h] at hcases
  cases hcases with
  | stuck seq hhead hdcid => exact absurd hdcid (hw.2.head_ne (mem_of_head? hhead))
  | retired seq _ hhead hlinks =>
    rw [hlinks]
    exact ⟨hw.move (Links.Move.retiredDcid seq hhead) rfl, Links.length_filter_head hhead⟩

theorem advertiseLoop_ne_diverge (hw : w.links.Open)
    (hrounds : w.links.cids.scidsToAdvertise.length < rounds) :
    Act.iterate (fun _ => advertiseNext room) rounds PUnit.unit w ≠ .diverge := by
  apply iterate_ne_diverge (fun _ w => w.links.Open)
    (fun _ w => w.links.cids.scidsToAdvertise.length) ?_ ?_ hw hrounds
  · intro _ w _ h
    have hcases := advertiseNext_cases room w
    rw [h] at hcases
    cases hcases
  · intro _ w _ w' hw h
    obtain ⟨hw', hless, -⟩ := advertiseNext_again hw h
    exact ⟨hw', hless⟩

theorem valid_advertiseLoop (room : ℕ) (waiting : List ℕ) :
    Act.Valid (fun w => w.links.Open ∧ w.links.cids.dcidsToRetire = waiting)
      (Act.iterate (fun _ => advertiseNext room) rounds PUnit.unit)
      (fun _ w => w.links.Open ∧ w.links.cids.dcidsToRetire = waiting) (fun _ _ => True) := by
  apply valid_iterate fun (_ : PUnit) (w : LinkWriter) =>
    w.links.Open ∧ w.links.cids.dcidsToRetire = waiting
  rintro _ w ⟨w', r⟩ ⟨hw, hwaiting⟩ hout
  match r with
  | .error e => exact trivial
  | .ok (.again ⟨⟩) =>
    obtain ⟨hw', -, hsame⟩ := advertiseNext_again hw hout
    exact ⟨hw', hsame.trans hwaiting⟩
  | .ok (.done ⟨⟩) =>
    have hcases := advertiseNext_cases room w
    rw [hout] at hcases
    cases hcases
    exact ⟨hw, hwaiting⟩

theorem retireLoop_ne_diverge (hw : w.links.Open)
    (hrounds : w.links.cids.dcidsToRetire.length < rounds) :
    Act.iterate (fun _ => retireNext room i) rounds PUnit.unit w ≠ .diverge := by
  apply iterate_ne_diverge (fun _ w => w.links.Open)
    (fun _ w => w.links.cids.dcidsToRetire.length) ?_ ?_ hw hrounds
  · intro _ w _ h
    have hcases := retireNext_cases room i w
    rw [h] at hcases
    cases hcases
  · intro _ w _ w' hw h
    exact retireNext_again hw h

theorem cidControl_ne_diverge (hw : w.links.closing = true ∨ w.links.Assigned)
    (hrounds : w.links.rounds ≤ rounds) : tryWriteCidControlFrame rounds room i w ≠ .diverge := by
  rw [tryWriteCidControlFrame, get_bind]
  rw [Links.rounds] at hrounds
  split_ifs with hclosing
  · exact nofun
  have hopen : w.links.Open := ⟨by simpa using hclosing, hw.resolve_left hclosing⟩
  apply bind_ne_diverge (advertiseLoop_ne_diverge hopen (by omega))
  intro _ w' hloop
  obtain ⟨hopen', hsame⟩ :=
    valid_advertiseLoop room w.links.cids.dcidsToRetire w _ ⟨hopen, rfl⟩ hloop
  rw [get_bind]
  cases w'.links.paths.get? i with
  | none => exact nofun
  | some =>
    dsimp only
    split
    · exact nofun
    · apply retireLoop_ne_diverge hopen'
      rw [hsame]
      omega

end LinkWriter

namespace Links

variable {c : Links}

theorem closing_or_assigned {s : Setup}
    (h : Exec.Reaches step (Keeps LinkPromise.toNew) (start s) c) :
    c.closing = true ∨ c.Assigned := by
  apply invariant_of_moves (.inr (assigned_start s)) ?_ h
  rintro d d' (hclosing | hassigned) hmove
  · exact .inl (closing_move hclosing hmove)
  · exact hassigned.move hmove

/-- The loops that write frames about ids end after as many rounds as their queues have entries, if
the peer announces no id that waits for its retirement. -/
theorem cid_loops_terminate (s : Setup)
    (h : Exec.Reaches step (Keeps LinkPromise.toNew) (start s) c) {rounds : ℕ}
    (hrounds : c.rounds ≤ rounds) (room i written : ℕ) (challenge : Option UInt64) :
    LinkWriter.tryWriteCidControlFrame rounds room i ⟨c, written, challenge⟩ ≠ .diverge := by
  exact cidControl_ne_diverge (closing_or_assigned h) hrounds

def renewedIds : List Op :=
  [.receive (client.handshakePacket [3]), .complete true,
    .receive (client.packet client.main [1] [.newConnectionId 1 0 (.new [4]) 7]),
    .addPath (client.other 2) 0, .sendPacket ⟨1, 1000, 0, 1200, 99, 0⟩,
    .receive (client.packet (client.other 2) [1] [.pathResponse 99]),
    .receive (client.packet client.main [1] [.newConnectionId 2 1 (.new [5]) 8]),
    .sendPacket ⟨1, 1000, 0, 1200, 99, 0⟩, .losePacket 1, .handleLost,
    .receive (client.packet client.main [1] [.newConnectionId 3 2 (.new [6]) 9])]

theorem cid_loops_terminate_renewedIds :
    let c := Exec.follow step (Keeps LinkPromise.toNew) (start client) renewedIds
    c.cids.dcidsToRetire = [0, 1] ∧ c.paths.paths.map (·.dcidSeq) = [some 2, some 3] ∧
      LinkWriter.tryWriteCidControlFrame c.rounds 1000 1 ⟨c, 0, none⟩ ≠ .diverge := by
  refine ⟨by decide +kernel, by decide +kernel, ?_⟩
  exact cid_loops_terminate client (reaches_follow (start client) renewedIds) le_rfl 1000 1 0
    none

theorem cidControl_diverges {i seq : ℕ} (hclosing : c.closing = false)
    (hnone : c.cids.scidsToAdvertise = []) (hhead : c.cids.dcidsToRetire.head? = some seq)
    (hpath : ∃ path ∈ c.paths.get? i, path.isActive = true ∧ path.dcidSeq = some seq)
    (rounds room written : ℕ) (challenge : Option UInt64) :
    LinkWriter.tryWriteCidControlFrame rounds room i ⟨c, written, challenge⟩ = .diverge := by
  obtain ⟨path, hpath, hactive, hdcid⟩ := hpath
  rw [Option.mem_def] at hpath
  rw [tryWriteCidControlFrame, get_bind, if_neg (by simp [hclosing])]
  cases rounds with
  | zero => rfl
  | succ rounds =>
    have hfirst : iterate (fun _ => advertiseNext room) (rounds + 1) PUnit.unit
        ⟨c, written, challenge⟩ = .ok (⟨c, written, challenge⟩, .ok PUnit.unit) := by
      have hdone : advertiseNext room ⟨c, written, challenge⟩ =
          .ok (⟨c, written, challenge⟩, .ok (.done PUnit.unit)) := by
        rw [advertiseNext, get_bind]
        simp only [hnone]
        rfl
      exact bind_of_ok hdone
    rw [bind_of_ok hfirst, get_bind]
    simp only [hpath, hactive, Bool.not_true, Bool.false_eq_true, if_false]
    apply iterate_diverges fun _ w => w = ⟨c, written, challenge⟩
    · rintro _ _ rfl
      right
      refine ⟨PUnit.unit, ⟨c, written, challenge⟩, ?_, rfl⟩
      rw [retireNext, get_bind]
      simp only [hhead, hpath, Option.bind_some, hdcid, if_true]
      rfl
    · rfl

/-- The peer announces again an id that waits for its retirement; it is stored again, given to a
second path, and no packet on this path is ever finished. -/
theorem repeated_id_hangs :
    ∃ c, Exec.Reaches step (fun _ _ ↦ True) (start client) c ∧
      ∀ rounds, LinkWriter.tryWriteCidControlFrame rounds 1000 1 ⟨c, 0, none⟩ = .diverge := by
  refine ⟨follow step (fun _ _ => True) (start client)
    [.receive (client.handshakePacket [3]), .complete false,
      .receive (client.packet client.main [1] [.newConnectionId 1 1 (.new [4]) 7]),
      .sendPacket ⟨0, 1000, 0, 1200, 99, 0⟩,
      .receive (client.packet client.main [1] [.newConnectionId 2 2 (.new [5]) 8]),
      .receive (client.packet client.main [1] [.newConnectionId 1 1 (.new [4]) 7]),
      .addPath (client.other 2) 0, .migratePath (client.other 2)],
    reaches_follow _ _, fun rounds => ?_⟩
  exact @cidControl_diverges _ 1 1 (by decide +kernel) (by decide +kernel) (by decide +kernel)
    (by decide +kernel) rounds 1000 0 none

end Links

end Tquic
