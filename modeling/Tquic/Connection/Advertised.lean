import Tquic.Connection.DcidChanges

/-!
# Source ids to be announced

Every sequence number that waits for its NEW_CONNECTION_ID frame names a stored id
with a reset token, unless the peer retires an id that waits, or a frame for a retired
id is declared lost.
-/

namespace Tquic

namespace ConnectionIdMgr

variable {m m' : ConnectionIdMgr}

structure Sourced (m : ConnectionIdMgr) : Prop where
  seqs : Keyed.Distinct ConnectionIdItem.seq m.scids.queue
  below : ∀ e ∈ m.scids.queue, e.seq < m.nextScidSeq

def HasToken (d : ConnectionIdDeque) (seq : ℕ) : Prop :=
  ∃ e ∈ d.queue, e.seq = seq ∧ e.resetToken.isSome = true

instance (d : ConnectionIdDeque) (seq : ℕ) : Decidable (HasToken d seq) :=
  inferInstanceAs (Decidable (∃ e ∈ d.queue, e.seq = seq ∧ e.resetToken.isSome = true))

def Listed (m : ConnectionIdMgr) : Prop := ∀ seq ∈ m.scidsToAdvertise, HasToken m.scids seq

variable {seq : ℕ}

theorem createNewConnectionIdFrame_ok (h : m.Sourced) (hseq : HasToken m.scids seq) :
    ∃ frame, LinkWriter.createNewConnectionIdFrame m seq = .ok frame := by
  obtain ⟨e, he, hkey, htoken⟩ := hseq
  have hfind : m.scids.get? seq = some e := h.seqs.find?_eq_some_iff.mpr ⟨he, hkey⟩
  obtain ⟨token, htoken⟩ := Option.isSome_iff_exists.mp htoken
  rw [LinkWriter.createNewConnectionIdFrame, hfind]
  dsimp only
  rw [htoken]
  exact ⟨_, rfl⟩

/-! ## Retiring a source id -/

theorem lowestActiveScidSeq_eq_ok {lowest : ℕ} (h : m.lowestActiveScidSeq = .ok lowest) :
    (∃ e ∈ m.scids.queue, e.seq = lowest) ∧ m.retirePriorTo ≤ lowest ∧
      ∀ e ∈ m.scids.queue, m.retirePriorTo ≤ e.seq → lowest ≤ e.seq := by
  rw [lowestActiveScidSeq] at h
  cases hmin : ((m.scids.queue.map (·.seq)).filter (m.retirePriorTo ≤ ·)).min? with
  | none =>
    rw [hmin] at h
    cases h
  | some seq =>
    rw [hmin] at h
    cases h
    obtain ⟨hmem, hleast⟩ := List.min?_eq_some_iff.mp hmin
    obtain ⟨hseq, hle⟩ := List.mem_filter.mp hmem
    refine ⟨List.mem_map.mp hseq, of_decide_eq_true hle, fun e he hactive => hleast e.seq ?_⟩
    exact List.mem_filter.mpr ⟨List.mem_map_of_mem he, decide_eq_true hactive⟩

theorem retireScid_fst (m : ConnectionIdMgr) (seq : ℕ) (pktDcid : ConnectionId) :
    ∃ queue retirePriorTo, (m.retireScid seq pktDcid).1 = { m with
        scids := { m.scids with queue := queue }
        retirePriorTo := retirePriorTo } ∧
      (queue = m.scids.queue ∨ queue = Keyed.remove ConnectionIdItem.seq m.scids.queue seq) ∧
      (retirePriorTo = m.retirePriorTo ∨
        { m with scids := { m.scids with queue := queue } }.lowestActiveScidSeq =
          .ok retirePriorTo) := by
  rw [retireScid]
  split_ifs
  · exact ⟨m.scids.queue, m.retirePriorTo, rfl, .inl rfl, .inl rfl⟩
  rw [ConnectionIdDeque.remove]
  split_ifs
  · exact ⟨m.scids.queue, m.retirePriorTo, rfl, .inl rfl, .inl rfl⟩
  · exact ⟨m.scids.queue, m.retirePriorTo, rfl, .inl rfl, .inl rfl⟩
  · cases m.scids.get? seq with
    | none => exact ⟨_, m.retirePriorTo, rfl, .inr rfl, .inl rfl⟩
    | some =>
      dsimp only
      split_ifs
      · exact ⟨_, m.retirePriorTo, rfl, .inr rfl, .inl rfl⟩
      · cases hlowest : lowestActiveScidSeq _ with
        | error => exact ⟨_, m.retirePriorTo, rfl, .inr rfl, .inl rfl⟩
        | ok lowest => exact ⟨_, lowest, rfl, .inr rfl, .inr hlowest⟩

theorem Sourced.retireScid (h : m.Sourced) (seq : ℕ) (pktDcid : ConnectionId) :
    (m.retireScid seq pktDcid).1.Sourced := by
  obtain ⟨queue, retirePriorTo, hfst, hqueue, -⟩ := retireScid_fst m seq pktDcid
  have hsub : queue.Sublist m.scids.queue := by
    rcases hqueue with rfl | rfl
    · exact .refl _
    · exact Keyed.remove_sublist _ _
  rw [hfst]
  exact ⟨h.seqs.sublist hsub, fun e he => h.below e (hsub.subset he)⟩

theorem Sourced.mem_retireScid (h : m.Sourced) {pktDcid : ConnectionId} {e : ConnectionIdItem}
    (he : e ∈ m.scids.queue) (hne : e.seq ≠ seq) :
    e ∈ (m.retireScid seq pktDcid).1.scids.queue := by
  obtain ⟨queue, retirePriorTo, hfst, hqueue, -⟩ := retireScid_fst m seq pktDcid
  rw [hfst]
  rcases hqueue with rfl | rfl
  · exact he
  · exact h.seqs.mem_remove.mpr ⟨he, hne⟩

theorem Listed.retireScid (h : m.Listed) (hsourced : m.Sourced) (hseq : seq ∉ m.scidsToAdvertise)
    (pktDcid : ConnectionId) : (m.retireScid seq pktDcid).1.Listed := by
  obtain ⟨queue, retirePriorTo, hfst, -⟩ := retireScid_fst m seq pktDcid
  have hqueue : (m.retireScid seq pktDcid).1.scidsToAdvertise = m.scidsToAdvertise := by
    rw [hfst]
  intro s hs
  rw [hqueue] at hs
  obtain ⟨e, he, rfl, htoken⟩ := h s hs
  refine ⟨e, hsourced.mem_retireScid he ?_, rfl, htoken⟩
  rintro rfl
  exact hseq hs

/-! ## Adding a source id -/

def withScid (m : ConnectionIdMgr) (cid : ConnectionId) (resetToken pathId : Option ℕ)
    (retirePriorTo : ℕ) : ConnectionIdMgr :=
  { m with
    scids := { m.scids with
      queue := m.scids.queue ++ [⟨cid, m.nextScidSeq, resetToken, pathId⟩] }
    retirePriorTo := retirePriorTo
    nextScidSeq := m.nextScidSeq + 1 }

def Forced (m : ConnectionIdMgr) (retireIfNeeded : Bool) (lowest : ℕ) : Prop :=
  m.scidLimit ≤ m.scids.queue.length ∧ retireIfNeeded = true ∧ m.lowestActiveScidSeq = .ok lowest

/-- What `add_scid` can do: the threshold is raised before the id is stored, which may fail. -/
inductive AddsScid (m : ConnectionIdMgr) (cid : ConnectionId) (resetToken : Option ℕ)
    (advertise : Bool) (pathId : Option ℕ) (retireIfNeeded : Bool) :
    ConnectionIdMgr × Result ℕ → Prop
  | refused (e : Error) :
      AddsScid m cid resetToken advertise pathId retireIfNeeded (m, .error e)
  | raised (lowest : ℕ) (e : Error) (hforced : m.Forced retireIfNeeded lowest)
      (hfailed : resetToken = none ∨ m.scids.queue.length = m.scids.capacity) :
      AddsScid m cid resetToken advertise pathId retireIfNeeded
        ({ m with retirePriorTo := lowest + 1 }, .error e)
  | stored (retirePriorTo : ℕ) (hprior : retirePriorTo = m.retirePriorTo ∨
        ∃ lowest, m.Forced retireIfNeeded lowest ∧ retirePriorTo = lowest + 1)
      (hzero : m.zeroLengthScid = false) :
      AddsScid m cid resetToken advertise pathId retireIfNeeded
        ((m.withScid cid resetToken pathId retirePriorTo).markScidToAdvertise m.nextScidSeq
          advertise, .ok m.nextScidSeq)

section

variable (m : ConnectionIdMgr) (cid : ConnectionId)

section

variable (resetToken : Option ℕ) (advertise : Bool) (pathId : Option ℕ)

theorem storeScid_cases :
    (∃ e, m.storeScid cid resetToken advertise pathId = (m, .error e) ∧
      (resetToken = none ∨ m.scids.queue.length = m.scids.capacity)) ∨
    m.storeScid cid resetToken advertise pathId =
      ((m.withScid cid resetToken pathId m.retirePriorTo).markScidToAdvertise m.nextScidSeq
        advertise, .ok m.nextScidSeq) := by
  rw [storeScid, ConnectionIdDeque.insert]
  split_ifs with htoken hfull
  · exact .inl ⟨_, rfl, .inl (Option.isNone_iff_eq_none.mp htoken.2)⟩
  · exact .inl ⟨_, rfl, .inr hfull⟩
  · exact .inr rfl

theorem addScid_cases
    (retireIfNeeded : Bool) :
    AddsScid m cid resetToken advertise pathId retireIfNeeded
      (m.addScid cid resetToken advertise pathId retireIfNeeded) := by
  rw [addScid]
  by_cases hzero : m.zeroLengthScid = true
  · rw [if_pos hzero]
    exact .refused _
  rw [if_neg hzero]
  replace hzero := Bool.eq_false_iff.mpr hzero
  split_ifs with hfull hforce
  · cases hlowest : m.lowestActiveScidSeq with
    | error e => exact .refused e
    | ok lowest =>
      dsimp only
      rcases storeScid_cases { m with retirePriorTo := lowest + 1 } cid resetToken advertise
        pathId with ⟨e, heq, hfailed⟩ | heq
      · rw [heq]
        exact .raised lowest e ⟨hfull, hforce, hlowest⟩ hfailed
      · rw [heq]
        exact .stored (lowest + 1) (.inr ⟨lowest, ⟨hfull, hforce, hlowest⟩, rfl⟩) hzero
  · exact .refused _
  · rcases storeScid_cases m cid resetToken advertise pathId with ⟨e, heq, -⟩ | heq
    · rw [heq]
      exact .refused e
    · rw [heq]
      exact .stored m.retirePriorTo (.inl rfl) hzero

end

theorem addScid_fst (token : ℕ)
    (retireIfNeeded : Bool) :
    ∃ retirePriorTo, (m.addScid cid (some token) true none retireIfNeeded).1 =
        { m with retirePriorTo := retirePriorTo } ∨
      (m.addScid cid (some token) true none retireIfNeeded).1 = { m with
        scids := { m.scids with
          queue := m.scids.queue ++ [⟨cid, m.nextScidSeq, some token, none⟩] }
        retirePriorTo := retirePriorTo
        nextScidSeq := m.nextScidSeq + 1
        scidsToAdvertise := m.scidsToAdvertise ++ [m.nextScidSeq] } := by
  have hcases := m.addScid_cases cid (some token) true none retireIfNeeded
  generalize m.addScid cid (some token) true none retireIfNeeded = out at hcases ⊢
  cases hcases with
  | refused => exact ⟨m.retirePriorTo, .inl rfl⟩
  | raised lowest => exact ⟨lowest + 1, .inl rfl⟩
  | stored r => exact ⟨r, .inr rfl⟩

end

theorem Sourced.addScid (h : m.Sourced) (cid : ConnectionId) (token : ℕ) (retireIfNeeded : Bool) :
    (m.addScid cid (some token) true none retireIfNeeded).1.Sourced := by
  obtain ⟨r, heq | heq⟩ := addScid_fst m cid token retireIfNeeded
  · rw [heq]
    exact ⟨h.seqs, h.below⟩
  · rw [heq]
    refine ⟨h.seqs.concat fun e he => (h.below e he).ne, ?_⟩
    intro e he
    rcases List.mem_append.mp he with he | he
    · exact (h.below e he).trans (Nat.lt_succ_self _)
    · rw [List.mem_singleton.mp he]
      exact Nat.lt_succ_self _

theorem Listed.addScid (h : m.Listed) (cid : ConnectionId) (token : ℕ) (retireIfNeeded : Bool) :
    (m.addScid cid (some token) true none retireIfNeeded).1.Listed := by
  obtain ⟨r, heq | heq⟩ := addScid_fst m cid token retireIfNeeded
  · rw [heq]
    exact h
  · rw [heq]
    intro seq hseq
    rcases List.mem_append.mp hseq with hseq | hseq
    · obtain ⟨e, he, hkey⟩ := h seq hseq
      exact ⟨e, List.mem_append_left _ he, hkey⟩
    · rw [List.mem_singleton.mp hseq]
      exact ⟨_, List.mem_append_right _ (List.mem_singleton_self _), rfl, rfl⟩

/-! ## Marking an id as used on a path -/

theorem map_setPath {β : Type*} {g : ConnectionIdItem → β}
    (hg : ∀ e i, g { e with pathId := some i } = g e) (d : ConnectionIdDeque) (seq i : ℕ) :
    (d.setPath seq i).queue.map g = d.queue.map g := by
  have halter : ∀ l : List ConnectionIdItem,
      (Keyed.alter ConnectionIdItem.seq (fun e => { e with pathId := some i }) seq l).map g =
        l.map g := by
    intro l
    induction l with
    | nil => rfl
    | cons e l ih =>
      rw [Keyed.alter]
      split_ifs
      · rw [List.map_cons, List.map_cons, hg]
      · rw [List.map_cons, List.map_cons, ih]
  exact halter d.queue

theorem Sourced.setPath (h : m.Sourced) (seq i : ℕ) :
    { m with scids := m.scids.setPath seq i }.Sourced := by
  have hmap := map_setPath (g := ConnectionIdItem.seq) (fun _ _ => rfl) m.scids seq i
  refine ⟨by rw [Keyed.Distinct, hmap]; exact h.seqs, fun e he => ?_⟩
  have hmem : e.seq ∈ m.scids.queue.map ConnectionIdItem.seq := by
    rw [← hmap]
    exact List.mem_map_of_mem he
  obtain ⟨e', he', hseq⟩ := List.mem_map.mp hmem
  rw [← hseq]
  exact h.below e' he'

theorem HasToken.setPath (hsourced : m.Sourced) {s : ℕ} (h : HasToken m.scids s) (seq i : ℕ) :
    HasToken (m.scids.setPath seq i) s := by
  obtain ⟨e, he, hkey, htoken⟩ := h
  by_cases hseq : e.seq = seq
  · exact ⟨_, hsourced.seqs.mem_alter.mpr (.inr ⟨e, he, hseq, rfl⟩), hkey, htoken⟩
  · exact ⟨e, hsourced.seqs.mem_alter.mpr (.inl ⟨he, hseq⟩), hkey, htoken⟩

theorem Listed.markScidToAdvertise (h : m.Listed) {advertise : Bool}
    (hseq : advertise = true → HasToken m.scids seq) :
    (m.markScidToAdvertise seq advertise).Listed := by
  intro s hs
  cases advertise with
  | true =>
    rcases List.mem_append.mp hs with hs | hs
    · exact h s hs
    · rw [List.mem_singleton.mp hs]
      exact hseq rfl
  | false => exact h s (List.mem_filter.mp hs).1

end ConnectionIdMgr

def LinkFrame.retires? : LinkFrame → Option ℕ
  | retireConnectionId seqNum => some seqNum
  | _ => none

def LinkFrame.announces? : LinkFrame → Option ℕ
  | newConnectionId seqNum _ _ _ => some seqNum
  | _ => none

/-- The peer retires no id that waits to be announced, and no lost frame is about an id
that was retired. -/
abbrev LinkPromise.toKnown : LinkPromise where
  frame c _ frame := ∀ seq ∈ frame.retires?, seq ∉ c.cids.scidsToAdvertise
  relist scids frame := ∀ seq ∈ frame.announces?, ConnectionIdMgr.HasToken scids seq

namespace Links

open ConnectionIdMgr List LinkWriter

variable {p : LinkPromise} {c c' : Links}

theorem sourced_move (h : c.cids.Sourced) (hmove : Move p c c') : c'.cids.Sourced := by
  have hdcids : ∀ {c'}, c.DcidsOnly c' → c'.cids.Sourced := by
    intro c' hdcids
    rw [hdcids.cids]
    exact ⟨h.seqs, h.below⟩
  cases hmove with
  | turned | noted | handled | spaceAdded | challenged | answered | abandoned | inserted | activated
  | scidUsed => exact h
  | scidMarked seq i => exact h.setPath seq i
  | retireFrame seqNum pktDcid =>
    obtain ⟨cids, i, f, hfst, hcids, -⟩ := onRetireConnectionId_fst c seqNum pktDcid
    rw [hfst]
    rcases hcids with rfl | rfl
    · exact h
    · exact h.retireScid seqNum pktDcid
  | newIdFrame => exact hdcids (dcidsOnly_onNewConnectionId _ _ _ _)
  | newIdRefused => exact hdcids ((dcidsOnly_onNewConnectionId _ _ _ _).close true)
  | dcidAssigned | dcidEmpty | named | retried | scidLimited | advertised | retiredDcid =>
    exact ⟨h.seqs, h.below⟩
  | scidAdded cid token retireIfNeeded => exact h.addScid cid token retireIfNeeded
  | completed =>
    rw [complete]
    split_ifs
    · exact h
    · exact h
  | relisted frame =>
    cases frame with
    | newConnectionId | retireConnectionId => exact ⟨h.seqs, h.below⟩
    | pathChallenge | pathResponse => exact h

theorem listed_move (h : c.cids.Listed) (hsourced : c.cids.Sourced)
    (hmove : Move .toKnown c c') : c'.cids.Listed := by
  have hdcids : ∀ {c'}, c.DcidsOnly c' → c'.cids.Listed := by
    intro c' hdcids
    rw [hdcids.cids]
    exact h
  cases hmove with
  | turned | noted | handled | spaceAdded | challenged | answered | abandoned | inserted | activated
  | scidUsed => exact h
  | scidMarked seq i => exact fun s hs => (h s hs).setPath hsourced seq i
  | retireFrame seqNum pktDcid hframe =>
    obtain ⟨cids, i, f, hfst, hcids, -⟩ := onRetireConnectionId_fst c seqNum pktDcid
    rw [hfst]
    rcases hcids with rfl | rfl
    · exact h
    · exact h.retireScid hsourced (hframe seqNum rfl) pktDcid
  | newIdFrame => exact hdcids (dcidsOnly_onNewConnectionId _ _ _ _)
  | newIdRefused => exact hdcids ((dcidsOnly_onNewConnectionId _ _ _ _).close true)
  | dcidAssigned | dcidEmpty | named | retried | scidLimited | retiredDcid => exact h
  | scidAdded cid token retireIfNeeded => exact h.addScid cid token retireIfNeeded
  | completed =>
    rw [complete]
    split_ifs
    · exact h
    · exact h
  | advertised => exact h.markScidToAdvertise nofun
  | relisted frame rest hlost hrelist =>
    cases frame with
    | newConnectionId seqNum =>
      exact h.markScidToAdvertise fun _ => hrelist seqNum rfl
    | retireConnectionId | pathChallenge | pathResponse => exact h

structure Waiting (c : Links) : Prop where
  sourced : c.cids.Sourced
  listed : c.cids.Listed

theorem Waiting.move (h : c.Waiting) (hmove : Move .toKnown c c') : c'.Waiting :=
  ⟨sourced_move h.sourced hmove, listed_move h.listed h.sourced hmove⟩

theorem waiting_start (s : Setup) : (start s).Waiting := by
  rw [start]
  split_ifs
  · exact ⟨⟨nodup_singleton _, by simp [new]⟩,
      fun seq hseq => absurd hseq not_mem_nil⟩
  · exact ⟨⟨nodup_singleton _, by simp [new, setInitialDcid,
      ConnectionIdMgr.setInitialDcid]⟩, fun seq hseq => absurd hseq not_mem_nil⟩

theorem valid_advertiseNext (room : ℕ) :
    Act.Valid (fun w => w.links.Waiting) (LinkWriter.advertiseNext room)
      (fun _ w => w.links.Waiting) (fun e _ => e = .done) := by
  intro w out hw hout
  have hcases := advertiseNext_cases room w
  rw [hout] at hcases
  cases hcases with
  | finished => exact hw
  | refused seq e hhead hframe =>
    -- the id is stored with a token, so that there is a frame
    obtain ⟨frame, hok⟩ :=
      createNewConnectionIdFrame_ok hw.sourced (hw.listed seq (mem_of_head? hhead))
    rw [hframe] at hok
    cases hok
  | full => exact rfl
  | advertised seq frame w' hhead hframe hlinks =>
    have hmove : Move .toKnown w.links w'.links := by
      rw [hlinks]
      exact .advertised seq frame hhead hframe
    exact hw.move hmove

/-- Every id that waits to be announced can be, if the peer retires no such id and no lost frame
announces a retired one; the loop that writes the frames stops at most for lack of room. -/
theorem waiting_ids_stored (s : Setup)
    (h : Exec.Reaches step (Keeps LinkPromise.toKnown) (start s) c) :
    (∀ seq ∈ c.cids.scidsToAdvertise,
      (∃ e ∈ c.cids.scids.queue, e.seq = seq ∧ e.resetToken.isSome = true) ∧
        ∃ frame, LinkWriter.createNewConnectionIdFrame c.cids seq = .ok frame) ∧
      ∀ rounds room written challenge w e,
        Act.iterate (fun _ ↦ LinkWriter.advertiseNext room) rounds ⟨⟩ ⟨c, written, challenge⟩ =
          .ok (w, .error e) → e = .done := by
  have hinv : c.Waiting := invariant_of_moves (waiting_start s) (fun _ _ hc hm => hc.move hm) h
  refine ⟨fun seq hseq => ⟨hinv.listed seq hseq, ?_⟩, ?_⟩
  · exact createNewConnectionIdFrame_ok hinv.sourced (hinv.listed seq hseq)
  · intro rounds room written challenge w e hloop
    have hvalid : Act.Valid (fun w : LinkWriter => w.links.Waiting)
        (.iterate (fun _ => advertiseNext room) rounds .unit)
        (fun _ _ => True) (fun e _ => e = .done) := by
      apply Act.valid_iterate fun (_ : PUnit) (w : LinkWriter) => w.links.Waiting
      intro _ w out hw hout
      have hpost := valid_advertiseNext room w out hw hout
      obtain ⟨w', r⟩ := out
      match r with
      | .error e => exact hpost
      | .ok (.again _) => exact hpost
      | .ok (.done _) => exact trivial
    exact hvalid _ _ hinv hloop

/-- A server announces two ids; the packet is lost, announced again and acknowledged,
then the peer retires one of them. -/
def announcement : List Op :=
  [.receive (server.handshakePacket [3]), .complete false, .peerParams 4 none,
    .addScid (.new [8]) 6 true, .addScid (.new [9]) 7 true, .sendPacket ⟨0, 1000, 0, 1200, 99, 0⟩,
    .losePacket 0, .handleLost, .sendPacket ⟨0, 1000, 0, 1200, 99, 0⟩, .ackPacket 0,
    .receive (server.packet server.main [1] [.retireConnectionId 1]),
    .addScid (.new [10]) 8 true]

theorem waiting_ids_stored_announcement :
    let c := Exec.follow step (Keeps .toKnown) (start server) announcement
    c.cids.scidsToAdvertise = [3] ∧ c.cids.scids.queue.map (·.seq) = [0, 2, 3] ∧
      ∀ seq ∈ c.cids.scidsToAdvertise,
        ∃ frame, LinkWriter.createNewConnectionIdFrame c.cids seq = .ok frame := by
  refine ⟨by decide +kernel, by decide +kernel, fun seq hseq => ?_⟩
  exact ((waiting_ids_stored server (Exec.reaches_follow (start server) announcement)).1
    seq hseq).2

/-- The peer retires an id whose announcement is then declared lost: the id waits again although it
is not stored, and no packet can be sent. -/
theorem retired_id_waits :
    let c := Exec.follow step (fun _ _ ↦ True) (start server)
      [.receive (server.handshakePacket [3]), .complete false, .addScid (.new [8]) 6 true,
        .sendPacket ⟨0, 1000, 0, 1200, 99, 0⟩,
        .receive (server.packet server.main [1] [.retireConnectionId 1]), .losePacket 0,
        .handleLost]
    c.closing = false ∧ c.cids.scidsToAdvertise = [1] ∧ c.cids.scids.queue.map (·.seq) = [0] ∧
      Exec.output? (c.step (.sendPacket ⟨0, 1000, 0, 1200, 99, 0⟩)) =
        some (.error .internalError) := by
  decide +kernel

end Links

end Tquic
