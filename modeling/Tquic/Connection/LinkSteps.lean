import Tquic.Connection.LinkMoves

/-!
# Steps of a connection as moves

What a promise asks of each operation, and that an operation which meets it is a
sequence of moves.
-/

variable {frame : LinkFrame}

namespace Tquic.Links

open ConnectionIdMgr PathMap Move Except

variable {p : LinkPromise} {c c' : Links}

/-! ## What a promise asks -/

/-- The frames of a packet, each in the state in which it is processed. -/
def FramesKept (p : LinkPromise) (pktType : PacketType) (pktDcid : ConnectionId) (pathId : ℕ) :
    List LinkFrame → Links → Prop
  | [], _ => True
  | frame :: rest, c =>
    p.frame c pktDcid frame ∧
      match c.recvFrame pktType pktDcid pathId frame with
      | (c', .ok ()) => FramesKept p pktType pktDcid pathId rest c'
      | (_, .error _) => True

/-- The state in which the frames of a packet are processed, and its path. -/
def openPacket (c : Links) (recvPid : Option ℕ) (a : Incoming) : Option (Links × ℕ) :=
  if c.closing then none
  else
    match c.scid with
    | .error _ => none
    | .ok _ =>
      match c.pathFor recvPid a with
      | (_, .error _) => none
      | (c, .ok pathId) =>
        if !a.authentic then none
        else some (c.trySetDcidForInitialPath pathId a.scid, pathId)

def opened (c : Links) (a : Incoming) : Option (Links × ℕ) :=
  match c.paths.getPathId a.addrs with
  | none => if !c.isServer then none else c.openPacket none a
  | some pathId =>
    { c with paths := c.paths.incAntiAmplLimit pathId a.len }.openPacket (some pathId) a

def ReceiptKept (p : LinkPromise) (c : Links) (a : Incoming) : Prop :=
  match c.opened a with
  | none => True
  | some (c', pathId) => FramesKept p a.pktType a.dcid pathId a.frames c'

def target (c : Links) (addrs : SocketAddr × SocketAddr) : Option Path :=
  (c.paths.getPathId addrs).bind c.paths.get?

def Keeps (p : LinkPromise) (c : Links) : Op → Prop
  | .receive a => c.ReceiptKept p a
  | .retry _ => p.retry c
  | .complete multipath => multipath = true → p.multipath
  | .migratePath addrs =>
    ∀ path ∈ c.target addrs, path.state ≠ .failed → path.isActive = false →
      p.migrate path.state path.isAbandon
  | .handleLost => ∀ frame ∈ c.lost, p.relist c.cids.scids frame
  | _ => True

instance decidableFramesKept [∀ c pktDcid frame, Decidable (p.frame c pktDcid frame)]
    (pktType : PacketType) (pktDcid : ConnectionId) (pathId : ℕ) :
    (frames : List LinkFrame) → (c : Links) →
      Decidable (FramesKept p pktType pktDcid pathId frames c)
  | [], _ => isTrue trivial
  | frame :: rest, c =>
    have : Decidable (match c.recvFrame pktType pktDcid pathId frame with
        | (c', .ok ()) => FramesKept p pktType pktDcid pathId rest c'
        | (_, .error _) => True) :=
      match c.recvFrame pktType pktDcid pathId frame with
      | (c', .ok ()) => decidableFramesKept pktType pktDcid pathId rest c'
      | (_, .error _) => isTrue trivial
    inferInstanceAs (Decidable (_ ∧ _))

instance [∀ c pktDcid frame, Decidable (p.frame c pktDcid frame)] (c : Links) (a : Incoming) :
    Decidable (c.ReceiptKept p a) :=
  match h : c.opened a with
  | none => isTrue (by simp [ReceiptKept, h])
  | some (c', pathId) =>
    decidable_of_iff (FramesKept p a.pktType a.dcid pathId a.frames c')
      (by simp [ReceiptKept, h])

instance [∀ c pktDcid frame, Decidable (p.frame c pktDcid frame)]
    [∀ state gone, Decidable (p.migrate state gone)] [∀ c, Decidable (p.retry c)]
    [∀ scids frame, Decidable (p.relist scids frame)] [Decidable p.multipath] (c : Links)
    (op : Op) : Decidable (c.Keeps p op) := by
  unfold Keeps
  split <;> infer_instance

/-! ## Packets from the peer -/

theorem moves_of_turns {paths : PathMap} (h : c.paths.Turns paths) :
    Moves p c { c with paths := paths } :=
  (turned paths h).once

theorem moves_close (h : Moves p c c') : Moves p c { c' with closing := true } :=
  h.tail (.noted c'.peerResetToken true fun _ => rfl)

variable {m : ConnectionIdMgr} {seq i : ℕ} {item : ConnectionIdItem} {a : Incoming}

variable {m' : ConnectionIdMgr}

theorem markScidUsed_eq_ok (h : m.markScidUsed seq i = .ok m') :
    m' = { m with scids := m.scids.setPath seq i } := by
  rw [markScidUsed] at h
  split at h
  · exact (ok.inj h).symm
  · cases h

theorem markDcidUsed_eq_ok (h : m.markDcidUsed seq i = .ok m') :
    m' = { m with dcids := m.dcids.setPath seq i } := by
  rw [markDcidUsed] at h
  split at h
  · exact (ok.inj h).symm
  · cases h

theorem findScid_mem {cid : ConnectionId} (h : m.findScid cid = some item) :
    item ∈ m.scids.queue ∧ item.cid = cid :=
  Keyed.find?_some h

theorem get?_lt {m : PathMap} {path : Path} (h : m.get? i = some path) : i < m.paths.length :=
  (getElem?_eq_some_iff.mp h).1

theorem moves_useScid (i : ℕ) (hitem : item ∈ c.cids.scids.queue) :
    Moves p c (c.useScid i item).1 := by
  rw [useScid]
  cases hpath : c.paths.get? i with
  | none => exact .refl
  | some path =>
    dsimp only
    by_cases hheld : (path.scidSeq.bind fun seq => (c.cids.scids.get? seq).map (·.cid)) =
        some item.cid
    · rw [if_pos hheld]
    · rw [if_neg hheld]
      have hused : Moves p c _ := (scidUsed i item.seq ⟨item, hitem, rfl⟩).once
      cases hmark : c.cids.markScidUsed item.seq i with
      | error => exact hused
      | ok =>
        rw [markScidUsed_eq_ok hmark]
        exact hused.tail (.scidMarked item.seq i (by simpa using get?_lt hpath))

theorem newSpace_fst (c : Links) (cidPid : Option ℕ) :
    (c.newSpace cidPid).1 = c ∨
      (c.newSpace cidPid).1 = { c with nextDataExtId := c.nextDataExtId + 1 } := by
  rw [newSpace.eq_def]
  split_ifs
  · exact .inl rfl
  · cases cidPid with
    | none => exact .inr rfl
    | some i =>
      dsimp only
      cases c.paths.get? i with
      | none => exact .inl rfl
      | some => exact .inl rfl

theorem moves_createPath (a : Incoming) (hitem : item ∈ c.cids.scids.queue)
    (hdone : c.handshakeCompleted = true) : Moves p c (c.createPath item a).1 := by
  rw [createPath]
  generalize (if c.cids.zeroLengthScid = true then none else item.pathId) = cidPid
  have hfst := newSpace_fst c cidPid
  rcases heq : c.newSpace cidPid with ⟨c', r⟩
  rw [heq] at hfst
  obtain ⟨hspace, hitem', hdone'⟩ : Moves p c c' ∧ item ∈ c'.cids.scids.queue ∧
      c'.handshakeCompleted = true := by
    rcases hfst with rfl | rfl
    · exact ⟨.refl, hitem, hdone⟩
    · exact ⟨spaceAdded.once, hitem, hdone⟩
  refine hspace.trans ?_
  cases r with
  | error => exact .refl
  | ok =>
    dsimp only
    split
    · exact .refl
    · next i paths hins =>
        have hinsert : Moves p c' { c' with paths := paths } := by
          refine (inserted _ i paths ⟨rfl, rfl, ?_⟩ hdone' hins).once
          intro seq hseq
          exact ⟨item, hitem', Option.some.inj hseq⟩
        split
        · split
          · exact hinsert
          · next cids hmark =>
              rw [markScidUsed_eq_ok hmark]
              exact hinsert.tail (.scidMarked item.seq i (inserts_of_insertPath hins).lt)
        · exact hinsert

theorem moves_pathFor (recvPid : Option ℕ) (a : Incoming) : Moves p c (c.pathFor recvPid a).1 := by
  rw [pathFor]
  split_ifs with honertt
  · rw [getOrCreatePath]
    cases hfind : c.cids.findScid a.dcid with
    | none => exact .refl
    | some =>
      obtain ⟨hitem, -⟩ := findScid_mem hfind
      cases recvPid with
      | some i => exact moves_useScid i hitem
      | none => exact moves_createPath a hitem honertt.2
  · exact .refl

variable {x : Links × Result Unit}

theorem moves_settle (h : Moves p c x.1) : Moves p c (settle x).1 := by
  obtain ⟨c', r⟩ := x
  cases r with
  | ok => exact h
  | error e =>
    cases e with
    | done => exact h
    | _ => exact moves_close h

/-- The frames of a packet have been processed up to an error, which closes the
connection. -/
def Led (p : LinkPromise) (c : Links) : Links × Result Unit → Prop
  | (c', .ok ()) => Moves p c c' ∧ c'.gotPeerCid = true
  | (c', .error e) => e ≠ .done ∧ Moves p c { c' with closing := true }

theorem Led.settle (h : Led p c x) : Moves p c (Links.settle x).1 := by
  obtain ⟨c', r⟩ := x
  cases r with
  | ok => exact h.1
  | error e =>
    cases e with
    | done => exact absurd rfl h.1
    | _ => exact h.2

def IdsOnly (c c' : Links) : Prop := c' = { c with cids := c'.cids, paths := c'.paths }

theorem IdsOnly.trans {c c' c'' : Links} (h : c.IdsOnly c') (h' : c'.IdsOnly c'') :
    c.IdsOnly c'' := by
  rw [IdsOnly] at h h' ⊢
  rw [h', h]

theorem reassignDcid_core (c : Links) (retired : ℕ × ℕ) :
    (c.reassignDcid retired).2 ≠ .error .done ∧ c.IdsOnly (c.reassignDcid retired).1 := by
  rw [reassignDcid]
  split
  · exact ⟨nofun, rfl⟩
  · split_ifs
    · exact ⟨nofun, rfl⟩
    · split
      · exact ⟨nofun, rfl⟩
      · dsimp only
        rw [markDcidUsed]
        split
        · next hmark =>
            split at hmark
            · cases hmark
            · cases hmark
              exact ⟨nofun, rfl⟩
        · exact ⟨nofun, rfl⟩

theorem reassignDcids_core (retired : List (ℕ × ℕ)) (c : Links) :
    (reassignDcids retired c).2 ≠ .error .done ∧ c.IdsOnly (reassignDcids retired c).1 := by
  induction retired generalizing c with
  | nil => exact ⟨nofun, rfl⟩
  | cons first rest ih =>
    obtain ⟨hdone, hfirst⟩ := reassignDcid_core c first
    rw [reassignDcids]
    rcases heq : c.reassignDcid first with ⟨c', r⟩
    rw [heq] at hdone hfirst
    cases r with
    | error => exact ⟨fun h => hdone (congrArg error (error.inj h)), hfirst⟩
    | ok => exact ⟨(ih c').1, hfirst.trans (ih c').2⟩

theorem onNewConnectionId_core (c : Links) (seqNum retirePriorTo : ℕ) (connId : ConnectionId)
    (resetToken : ℕ) :
    (c.onNewConnectionId seqNum retirePriorTo connId resetToken).2 ≠ .error .done ∧
      c.IdsOnly (c.onNewConnectionId seqNum retirePriorTo connId resetToken).1 := by
  have hadds := c.cids.addDcid_cases connId seqNum resetToken retirePriorTo
  rw [onNewConnectionId]
  rcases heq : c.cids.addDcid connId seqNum resetToken retirePriorTo with ⟨cids, r⟩
  rw [heq] at hadds
  cases r with
  | error =>
    refine ⟨fun h => ?_, rfl⟩
    cases h
    rcases hadds.isPeerError with hdone | hdone
    · cases hdone
    · cases hdone
  | ok retired =>
    obtain ⟨hdone, hrest⟩ := reassignDcids_core retired { c with cids := cids }
    have hfirst : c.IdsOnly { c with cids := cids } := rfl
    exact ⟨hdone, hfirst.trans hrest⟩

theorem retireScid_ne_done (m : ConnectionIdMgr) (seq : ℕ) (pktDcid : ConnectionId) :
    (m.retireScid seq pktDcid).2 ≠ .error .done := by
  rw [retireScid]
  split_ifs
  · rintro ⟨⟩
  rw [ConnectionIdDeque.remove]
  split_ifs
  · rintro ⟨⟩
  · rintro ⟨⟩
  · cases m.scids.get? seq with
    | none => rintro ⟨⟩
    | some =>
      dsimp only
      split_ifs
      · rintro ⟨⟩
      · rw [lowestActiveScidSeq]
        split
        · next hlow =>
            split at hlow
            · cases hlow
            · cases hlow
              rintro ⟨⟩
        · rintro ⟨⟩

theorem onRetireConnectionId_ne_done (c : Links) (seqNum : ℕ) (pktDcid : ConnectionId) :
    (c.onRetireConnectionId seqNum pktDcid).2 ≠ .error .done := by
  have hretire := retireScid_ne_done c.cids seqNum pktDcid
  rw [onRetireConnectionId]
  split_ifs
  · rintro ⟨⟩
  · rintro ⟨⟩
  rcases heq : c.cids.retireScid seqNum pktDcid with ⟨cids, r⟩
  rw [heq] at hretire
  match r with
  | .error e => exact fun h => hretire (congrArg error (error.inj h))
  | .ok none => rintro ⟨⟩
  | .ok (some i) =>
    dsimp only
    cases c.paths.get? i <;> rintro ⟨⟩

theorem onRetireConnectionId_fst (c : Links) (seqNum : ℕ) (pktDcid : ConnectionId) :
    ∃ cids i f, (c.onRetireConnectionId seqNum pktDcid).1 =
        { c with cids := cids, paths := c.paths.update i f } ∧
      (cids = c.cids ∨ cids = (c.cids.retireScid seqNum pktDcid).1) ∧
      ∀ q : Path, f q = q ∨ q.scidSeq = some seqNum ∧ f q = { q with scidSeq := none } := by
  have hid : c.paths = c.paths.update 0 id := by
    rw [update, List.modify_id]
  have hsame (cids : ConnectionIdMgr) := congrArg (fun paths => { c with cids, paths }) hid
  rw [onRetireConnectionId]
  split_ifs
  · exact ⟨c.cids, 0, id, hsame c.cids, .inl rfl, fun q => .inl rfl⟩
  · exact ⟨c.cids, 0, id, hsame c.cids, .inl rfl, fun q => .inl rfl⟩
  rcases heq : c.cids.retireScid seqNum pktDcid with ⟨cids, r⟩
  match r with
  | .error e => exact ⟨cids, 0, id, hsame cids, .inr rfl, fun q => .inl rfl⟩
  | .ok none => exact ⟨cids, 0, id, hsame cids, .inr rfl, fun q => .inl rfl⟩
  | .ok (some i) =>
    dsimp only
    cases c.paths.get? i with
    | none => exact ⟨cids, 0, id, hsame cids, .inr rfl, fun q => .inl rfl⟩
    | some =>
      refine ⟨cids, i, _, rfl, .inr rfl, fun q => ?_⟩
      by_cases hq : q.scidSeq = some seqNum
      · exact .inr ⟨hq, if_pos hq⟩
      · exact .inl (if_neg hq)

theorem led_recvFrame (pktType : PacketType) (pktDcid : ConnectionId) (i : ℕ)
    (hgot : c.gotPeerCid = true) (hframe : p.frame c pktDcid frame) :
    Led p c (c.recvFrame pktType pktDcid i frame) := by
  rw [recvFrame.eq_def]
  split_ifs with hallowed
  · exact ⟨nofun, moves_close .refl⟩
  cases frame with
  | newConnectionId seqNum retirePriorTo connId resetToken =>
    obtain ⟨hdone, hids⟩ := onNewConnectionId_core c seqNum retirePriorTo connId resetToken
    have hsame : (c.onNewConnectionId seqNum retirePriorTo connId resetToken).1.gotPeerCid =
        c.gotPeerCid := by
      rw [hids]
    have hok := newIdFrame seqNum retirePriorTo connId resetToken pktDcid hframe hgot
    have hrefused := @Move.newIdRefused p c seqNum retirePriorTo connId resetToken
    dsimp only
    rcases heq : c.onNewConnectionId seqNum retirePriorTo connId resetToken with ⟨c', r⟩
    rw [heq] at hdone hsame hok hrefused
    cases r with
    | ok => exact ⟨(hok rfl).once, hsame.trans hgot⟩
    | error => exact ⟨fun h => hdone (congrArg error h), hrefused.once⟩
  | retireConnectionId seqNum =>
    have hdone := onRetireConnectionId_ne_done c seqNum pktDcid
    obtain ⟨cids, j, f, hfst, -⟩ := onRetireConnectionId_fst c seqNum pktDcid
    have hsame := congrArg gotPeerCid hfst
    have hmove := retireFrame seqNum pktDcid hframe
    dsimp only
    rcases heq : c.onRetireConnectionId seqNum pktDcid with ⟨c', r⟩
    rw [heq] at hdone hsame hmove
    cases r with
    | ok => exact ⟨hmove.once, hsame.trans hgot⟩
    | error => exact ⟨fun h => hdone (congrArg error h), moves_close hmove.once⟩
  | pathChallenge data =>
    exact ⟨moves_of_turns (c.paths.turns_onPathChalReceived i data), hgot⟩
  | pathResponse data =>
    exact ⟨moves_of_turns (c.paths.turns_onPathRespReceived i data), hgot⟩

theorem led_recvFrames {pktType : PacketType} {pktDcid : ConnectionId} {frames : List LinkFrame}
    (hgot : c.gotPeerCid = true) (hkept : FramesKept p pktType pktDcid i frames c) :
    Led p c (recvFrames pktType pktDcid i frames c) := by
  induction frames generalizing c with
  | nil => exact ⟨.refl, hgot⟩
  | cons frame rest ih =>
    obtain ⟨hframe, hrest⟩ := hkept
    have hled := led_recvFrame pktType pktDcid i hgot hframe
    rw [recvFrames]
    rcases heq : c.recvFrame pktType pktDcid i frame with ⟨c', r⟩
    rw [heq] at hled hrest
    cases r with
    | error => exact hled
    | ok _ =>
      obtain ⟨hmoves, hgot'⟩ := hled
      have hlater := ih hgot' hrest
      dsimp only
      rcases heq' : recvFrames pktType pktDcid i rest c' with ⟨c'', r'⟩
      rw [heq'] at hlater
      cases r' with
      | ok => exact ⟨hmoves.trans hlater.1, hlater.2⟩
      | error => exact ⟨hlater.1, hmoves.trans hlater.2⟩

variable {recvPid : Option ℕ}

theorem pathFor_lt (h : c.pathFor recvPid a = (c', .ok i)) : i < c'.paths.paths.length := by
  rw [pathFor] at h
  split_ifs at h
  · rw [getOrCreatePath] at h
    split at h
    · cases h
    · split at h
      · rw [useScid] at h
        split at h
        · cases h
        · next path hpath =>
            dsimp only at h
            split_ifs at h
            · cases h
              exact get?_lt hpath
            · split at h
              · cases h
              · cases h
                simpa using get?_lt hpath
      · rw [createPath] at h
        dsimp only at h
        generalize (if c.cids.zeroLengthScid = true then none else _) = cidPid at h
        split at h
        · cases h
        · split at h
          · cases h
          · next hins =>
              have hlt := (inserts_of_insertPath hins).lt
              split at h
              · split at h
                · cases h
                · cases h
                  exact hlt
              · cases h
                exact hlt
  · obtain ⟨rfl, hactive⟩ := Prod.mk.inj h
    exact getActivePathId_lt hactive

theorem moves_trySetDcid {i : ℕ} (hi : i < c.paths.paths.length) (scid : ConnectionId) :
    Moves p c (c.trySetDcidForInitialPath i scid) ∧
      (c.trySetDcidForInitialPath i scid).gotPeerCid = true := by
  rw [trySetDcidForInitialPath]
  split_ifs with hgot
  · exact ⟨.refl, hgot⟩
  · exact ⟨(named scid c.peerResetToken i hi (by simpa using hgot)).once, rfl⟩

theorem moves_allocateDcids (ids : List ℕ) : Moves p c (allocateDcids ids c) := by
  induction ids generalizing c with
  | nil => exact .refl
  | cons i rest ih =>
    rw [allocateDcids]
    cases hpath : c.paths.get? i with
    | none => exact ih
    | some path =>
      dsimp only
      split_ifs with hsome hzero
      · exact ih
      · exact .head (.dcidEmpty i c.cids.dcids (get?_lt hpath) hzero (.inl rfl)) ih
      cases hseq : c.cids.lowestUnusedDcidSeq with
      | none => exact .refl
      | some seq =>
        exact .head (.dcidAssigned i seq (get?_lt hpath) (by simpa using hzero) hseq) ih

theorem moves_processPacket (hi : i < c.paths.paths.length)
    (hkept : FramesKept p a.pktType a.dcid i a.frames (c.trySetDcidForInitialPath i a.scid)) :
    Moves p c (settle (c.processPacket i a)).1 := by
  obtain ⟨hset, hgot⟩ := @moves_trySetDcid p c i hi a.scid
  have hled := led_recvFrames hgot hkept
  rw [processPacket]
  rcases heq : recvFrames a.pktType a.dcid i a.frames (c.trySetDcidForInitialPath i a.scid)
    with ⟨c', r⟩
  rw [heq] at hled
  cases r with
  | error => exact hset.trans hled.settle
  | ok _ =>
    refine (hset.trans hled.1).trans ((moves_allocateDcids _).trans (moves_of_turns ?_))
    apply turns_update
    intro path
    exact .of_eq rfl rfl rfl

theorem moves_recvPacket
    (hkept : ∀ c' i, c.openPacket recvPid a = some (c', i) →
      FramesKept p a.pktType a.dcid i a.frames c') :
    Moves p c (settle (c.recvPacket recvPid a)).1 := by
  rw [recvPacket]
  rw [openPacket] at hkept
  by_cases hclosing : c.closing = true
  · rw [if_pos hclosing]
    exact .refl
  rw [if_neg hclosing] at hkept ⊢
  cases hscid : c.scid with
  | error => exact moves_settle .refl
  | ok =>
    rw [hscid] at hkept
    have hpath := @moves_pathFor p c recvPid a
    rcases heq : c.pathFor recvPid a with ⟨c', r⟩
    rw [heq] at hpath hkept
    cases r with
    | error => exact moves_settle hpath
    | ok i =>
      dsimp only at hkept ⊢
      by_cases hauth : (!a.authentic) = true
      · rw [if_pos hauth]
        exact hpath
      · rw [if_neg hauth] at hkept ⊢
        exact hpath.trans (moves_processPacket (pathFor_lt heq) (hkept _ i rfl))

theorem moves_recv (hkept : c.ReceiptKept p a) : Moves p c (c.recv a).1 := by
  rw [recv]
  rw [ReceiptKept, opened] at hkept
  cases hid : c.paths.getPathId a.addrs with
  | none =>
    rw [hid] at hkept
    by_cases hserver : (!c.isServer) = true
    · rw [if_pos hserver]
    · rw [if_neg hserver] at hkept ⊢
      apply moves_recvPacket
      intro c' i hopen
      rwa [hopen] at hkept
  | some i =>
    rw [hid] at hkept
    dsimp only at hkept ⊢
    refine (moves_of_turns (c.paths.turns_incAntiAmplLimit i a.len)).trans ?_
    apply moves_recvPacket
    intro c' j hopen
    rwa [hopen] at hkept

theorem moves_processRetry (scid : ConnectionId) (hretry : p.retry c) :
    Moves p c (c.processRetry scid).1 := by
  rw [processRetry]
  split
  · exact .refl
  split
  · exact moves_settle .refl
  split
  · exact .refl
  split
  · exact moves_settle .refl
  · next hdcid =>
      split
      · next e hactive =>
          -- without an active path there is no destination id
          simp [dcid, getActive, hactive, bind, Except.bind] at hdcid
      · next i hactive =>
          exact (retried scid i (getActivePathId_lt hactive) hretry).once

/-! ## Calls of the application -/

theorem insertPath_dcid (m : PathMap) (path : Path) (dcidSeq : Option ℕ) :
    m.insertPath { path with dcidSeq := dcidSeq } =
      (m.insertPath path).map fun (i, m') =>
        (i, m'.update i fun q => { q with dcidSeq := dcidSeq }) := by
  rw [insertPath, insertPath]
  by_cases hfull : m.maxPaths ≤ m.paths.length
  · rw [if_pos hfull, if_pos hfull]
    cases hremove : m.toRemove with
    | none => rfl
    | some i =>
      have hi := toRemove_lt hremove
      simp only [Except.map, update]
      congr 3
      apply List.ext_getElem?
      intro k
      by_cases hk : i = k
      · subst hk
        simp [hi]
      · simp [hk]
  · rw [if_neg hfull, if_neg hfull]
    congr 3
    apply List.ext_getElem?
    intro k
    rw [List.getElem?_modify]
    rcases lt_trichotomy k m.paths.length with hk | hk | hk
    · simp [List.getElem?_append_left hk, ne_of_gt hk]
    · subst hk
      simp
    · have hbeyond : ∀ q : Path, (m.paths ++ [q])[k]? = none := by
        intro q
        simpa using hk
      simp [hbeyond]

theorem lowestUnused_mem (h : m.lowestUnusedDcidSeq = some seq) :
    ∃ item ∈ m.dcids.queue, item.seq = seq ∧ item.pathId = none := by
  have hmem := List.min?_mem h
  obtain ⟨item, hitem, hseq⟩ := List.mem_map.mp hmem
  obtain ⟨hin, hnone⟩ := List.mem_filter.mp hitem
  exact ⟨item, hin, hseq, by simpa using hnone⟩

theorem markDcidUsed_lowest (h : m.lowestUnusedDcidSeq = some seq) (i : ℕ) :
    m.markDcidUsed seq i = .ok { m with dcids := m.dcids.setPath seq i } := by
  obtain ⟨item, hin, hseq, -⟩ := lowestUnused_mem h
  obtain ⟨e, he⟩ := Keyed.exists_find?.mpr ⟨item, hin, hseq⟩
  rw [markDcidUsed, ConnectionIdDeque.get?, he]

theorem moves_markDcid {i : ℕ} (hi : i < c.paths.paths.length) {seq : ℕ}
    (hseq : (if c.cids.zeroLengthDcid then some 0 else c.cids.lowestUnusedDcidSeq) = some seq) :
    (∃ e, c.cids.markDcidUsed seq i = .error e ∧
      Moves p c { c with paths := c.paths.update i fun q => { q with dcidSeq := some seq } }) ∨
    ∃ cids, c.cids.markDcidUsed seq i = .ok cids ∧
      Moves p c { c with
        cids := cids
        paths := c.paths.update i fun q => { q with dcidSeq := some seq } } := by
  split_ifs at hseq with hzero
  · cases hseq
    cases hmark : c.cids.markDcidUsed 0 i with
    | error e =>
      exact .inl ⟨e, rfl, (dcidEmpty i c.cids.dcids hi hzero (.inl rfl)).once⟩
    | ok =>
      rw [markDcidUsed_eq_ok hmark]
      exact .inr ⟨_, rfl, (dcidEmpty i _ hi hzero (.inr rfl)).once⟩
  · refine .inr ⟨_, markDcidUsed_lowest hseq i, ?_⟩
    exact (dcidAssigned i seq hi (by simpa using hzero) hseq).once

theorem moves_initiate (i : ℕ) :
    Moves p c { c with paths := c.paths.update i Path.initiatePathChal } := by
  apply moves_of_turns
  apply turns_update
  intro path
  exact .of_eq rfl rfl rfl

theorem moves_addSpace (i : ℕ) : Moves p c (c.addSpace i) := by
  rw [addSpace]
  split_ifs
  · exact .refl
  · have hgiven : Moves p c { c with
        paths := c.paths.update i fun q => { q with spaceId := c.nextDataExtId } } := by
      apply moves_of_turns
      apply turns_update
      intro q
      exact .of_eq rfl rfl rfl
    exact hgiven.tail .spaceAdded

theorem moves_addPath (addrs : SocketAddr × SocketAddr) (now : ℤ) :
    Moves p c (c.addPath addrs now).1 := by
  rw [addPath]
  split
  · exact .refl
  next hallowed =>
  split
  · exact .refl
  have hdone : c.handshakeCompleted = true := by
    simp only [Bool.or_eq_true, not_or, Bool.not_eq_true, Bool.not_eq_false'] at hallowed
    exact hallowed.2
  have hfresh : c.Fresh (.new addrs.1 addrs.2 false now) :=
    ⟨rfl, rfl, fun seq hseq => by simp [Path.new] at hseq⟩
  dsimp only
  cases hseq : (if c.cids.zeroLengthDcid then some 0 else c.cids.lowestUnusedDcidSeq) with
  | none =>
    cases hins : c.paths.insertPath { Path.new addrs.1 addrs.2 false now with dcidSeq := none } with
    | error => exact .refl
    | ok r =>
      exact ((inserted _ r.1 r.2 hfresh hdone hins).once.trans (moves_initiate r.1)).trans
        (moves_addSpace r.1)
  | some seq =>
    rw [insertPath_dcid]
    cases hins : c.paths.insertPath (.new addrs.1 addrs.2 false now) with
    | error => exact .refl
    | ok r =>
      obtain ⟨i, paths⟩ := r
      have hinsert : Moves p c { c with paths := paths } :=
        (inserted _ i paths hfresh hdone hins).once
      have hi := (inserts_of_insertPath hins).lt
      have hmark := @moves_markDcid p { c with paths := paths } i hi seq hseq
      rcases hmark with ⟨e, hmark, hmoves⟩ | ⟨cids, hmark, hmoves⟩
      · dsimp only [Except.map] at hmark ⊢
        rw [hmark]
        exact hinsert.trans hmoves
      · dsimp only [Except.map] at hmark ⊢
        rw [hmark]
        exact ((hinsert.trans hmoves).trans (moves_initiate i)).trans (moves_addSpace i)

theorem get?_update (m : PathMap) (i k : ℕ) (f : Path → Path) :
    (m.update i f).get? k = if i = k then (m.get? k).map f else m.get? k := by
  rw [get?, update, List.getElem?_modify]
  by_cases hk : i = k
  · simp [hk, get?]
  · simp [hk, get?]

theorem mem_update {m : PathMap} {f : Path → Path} {q : Path} (h : q ∈ (m.update i f).paths) :
    q ∈ m.paths ∨ ∃ q', m.get? i = some q' ∧ q = f q' := by
  obtain ⟨k, hk⟩ := List.getElem?_of_mem h
  change (m.update i f).get? k = some q at hk
  rw [get?_update] at hk
  split_ifs at hk with hik
  · subst hik
    obtain ⟨q', hq', rfl⟩ := Option.map_eq_some_iff.mp hk
    exact .inr ⟨q', hq', rfl⟩
  · exact .inl (List.mem_of_getElem? hk)

theorem moves_migratePath {addrs : SocketAddr × SocketAddr}
    (hkept : ∀ path ∈ c.target addrs, path.state ≠ .failed → path.isActive = false →
      p.migrate path.state path.isAbandon) :
    Moves p c (c.migratePath addrs).1 := by
  rw [migratePath]
  split
  · exact .refl
  cases hid : c.paths.getPathId addrs with
  | none => exact .refl
  | some i =>
    dsimp only
    cases hpath : c.paths.get? i with
    | none => exact .refl
    | some path =>
      dsimp only
      by_cases hfailed : path.state = .failed
      · rw [if_pos hfailed]
      rw [if_neg hfailed]
      by_cases hactive : path.isActive = true
      · rw [if_pos hactive]
      rw [if_neg hactive]
      have hmigrate : p.migrate path.state path.isAbandon := by
        apply hkept path _ hfailed (by simpa using hactive)
        rw [target, hid]
        exact hpath
      rw [provideDcid]
      by_cases hsome : path.dcidSeq.isSome = true
      · rw [if_pos hsome]
        exact (activated i path hpath hmigrate).once
      rw [if_neg hsome]
      cases hseq : (if c.cids.zeroLengthDcid then some 0 else c.cids.lowestUnusedDcidSeq) with
      | none => exact .refl
      | some seq =>
        have hmark := @moves_markDcid p c i (get?_lt hpath) seq hseq
        rcases hmark with ⟨e, hmark, hmoves⟩ | ⟨cids, hmark, hmoves⟩
        · dsimp only at hmark ⊢
          rw [hmark]
          exact hmoves
        · dsimp only at hmark ⊢
          rw [hmark]
          refine hmoves.tail (.activated i { path with dcidSeq := some seq } ?_ hmigrate)
          simp [get?_update, hpath]

theorem moves_abandonPath (addrs : SocketAddr × SocketAddr) :
    Moves p c (c.abandonPath addrs).1 := by
  rw [abandonPath]
  split
  · exact .refl
  next hmulti =>
  cases c.paths.getPathId addrs with
  | none => exact .refl
  | some i =>
    dsimp only
    cases c.paths.get? i with
    | none => exact .refl
    | some =>
      dsimp only
      split_ifs
      · exact .refl
      · exact (abandoned i (by simpa using hmulti)).once

/-! ## Packets to the peer -/

end Tquic.Links

namespace Tquic.LinkWriter

variable {p : LinkPromise} {w w' : LinkWriter}

def Shift (p : LinkPromise) (w w' : LinkWriter) : Prop := Links.Move p w.links w'.links

theorem shift_same (h : w'.links = w.links) : Shift p w w' := by
  rw [Shift, h]
  exact .noted w.links.peerResetToken w.links.closing id

theorem moves_of_shifts (h : Relation.ReflTransGen (Shift p) w w') :
    Links.Moves p w.links w'.links :=
  h.lift links fun _ _ hshift => hshift

theorem writeFrame_cases {room : ℕ} {r : Except Error PUnit}
    (h : writeFrameToPacket room frame w = .ok (w', r)) :
    (w' = w ∧ r = .error .done) ∨
      (w'.links = { w.links with draft := w.links.draft ++ [frame] } ∧ r = .ok ⟨⟩) := by
  obtain ⟨len, -, h⟩ := Exec.bind_eq_ok.mp h
  split_ifs at h
  · cases h
    exact .inl ⟨rfl, rfl⟩
  · cases h
    exact .inr ⟨rfl, rfl⟩

theorem moves_writePathFrame (room : ℕ)
    (hframe : ∀ c : Links, Links.Move p c { c with draft := c.draft ++ [frame] }) :
    Act.Moves (Shift p) (writeFrameToPacket room frame) := by
  rintro w ⟨w', r⟩ h
  rcases writeFrame_cases h with ⟨rfl, -⟩ | ⟨hlinks, -⟩
  · exact .refl
  · refine .single ?_
    rw [Shift, hlinks]
    exact hframe w.links

theorem moves_writeResponses (room i : ℕ) (chals : List UInt64) :
    Act.Moves (Shift p) (writeResponses room i chals) := by
  induction chals with
  | nil => exact Act.moves_pure _
  | cons data rest ih =>
    refine Act.moves_bind ?_ fun _ =>
      Act.moves_bind (moves_writePathFrame room fun c => .answered data) fun _ => ih
    intro w out h
    cases h
    refine .single (.turned _ ?_)
    apply PathMap.turns_update
    intro path
    exact .of_eq rfl rfl rfl

theorem moves_pathValidation (room i : ℕ) (data : UInt64) :
    Act.Moves (Shift p) (tryWritePathValidationFrames room i data) := by
  refine Act.moves_bind Act.moves_get fun w => ?_
  cases w.links.paths.get? i with
  | none =>
    intro w out h
    cases h
    exact .refl
  | some path =>
    refine Act.moves_bind (moves_writeResponses room i path.recvChals) fun _ => ?_
    split
    · refine Act.moves_bind (moves_writePathFrame room fun c => .challenged data)
        fun _ => ?_
      intro w out h
      cases h
      exact .single (shift_same rfl)
    · exact Act.moves_pure _

theorem wireLen_ne_diverge (frame : LinkFrame) : frame.wireLen ≠ .diverge := by
  have hvint : ∀ n, encodeVarintLen n ≠ .diverge := by
    intro n
    rw [encodeVarintLen]
    split_ifs
    all_goals exact nofun
  cases frame with
  | newConnectionId seqNum retirePriorTo =>
    rw [LinkFrame.wireLen]
    cases hseq : encodeVarintLen seqNum with
    | diverge => exact absurd hseq (hvint seqNum)
    | panic => exact nofun
    | ok =>
      cases hretire : encodeVarintLen retirePriorTo with
      | diverge => exact absurd hretire (hvint retirePriorTo)
      | panic => exact nofun
      | ok => exact nofun
  | retireConnectionId seqNum =>
    rw [LinkFrame.wireLen]
    cases hseq : encodeVarintLen seqNum with
    | diverge => exact absurd hseq (hvint seqNum)
    | panic => exact nofun
    | ok => exact nofun
  | pathChallenge | pathResponse => exact nofun

theorem writeFrame_outcomes (room : ℕ) (frame : LinkFrame) (w : LinkWriter) :
    writeFrameToPacket room frame w = .panic ∨
      writeFrameToPacket room frame w = .ok (w, .error .done) ∨
      ∃ w', writeFrameToPacket room frame w = .ok (w', .ok ⟨⟩) ∧
        w'.links = { w.links with draft := w.links.draft ++ [frame] } := by
  cases hwrite : writeFrameToPacket room frame w with
  | panic => exact .inl rfl
  | diverge =>
    rw [writeFrameToPacket] at hwrite
    cases hlen : frame.wireLen with
    | diverge => exact absurd hlen (wireLen_ne_diverge frame)
    | panic =>
      rw [hlen] at hwrite
      cases hwrite
    | ok =>
      rw [hlen, Exec.ok_bind] at hwrite
      split_ifs at hwrite
  | ok r =>
    obtain ⟨w', r⟩ := r
    rcases writeFrame_cases hwrite with ⟨rfl, rfl⟩ | ⟨hlinks, rfl⟩
    · exact .inr (.inl rfl)
    · exact .inr (.inr ⟨w', rfl, hlinks⟩)

def announced (c : Links) (seq : ℕ) (frame : LinkFrame) : Links :=
  { c with
    cids := c.cids.markScidToAdvertise seq false
    draft := c.draft ++ [frame] }

def dismissed (c : Links) (seq : ℕ) : Links :=
  { c with
    cids := c.cids.markDcidToRetire seq false
    draft := c.draft ++ [.retireConnectionId seq] }

inductive Advertises (w : LinkWriter) :
    Exec (LinkWriter × Except Error (Exec.Next PUnit PUnit)) → Prop
  | finished (hhead : w.links.cids.scidsToAdvertise.head? = none) :
      Advertises w (.ok (w, .ok (.done ⟨⟩)))
  | refused (seq : ℕ) (e : Error) (hhead : w.links.cids.scidsToAdvertise.head? = some seq)
      (hframe : createNewConnectionIdFrame w.links.cids seq = .error e) :
      Advertises w (.ok (w, .error e))
  | full : Advertises w (.ok (w, .error .done))
  | panicked : Advertises w .panic
  | advertised (seq : ℕ) (frame : LinkFrame) (w' : LinkWriter)
      (hhead : w.links.cids.scidsToAdvertise.head? = some seq)
      (hframe : createNewConnectionIdFrame w.links.cids seq = .ok frame)
      (hlinks : w'.links = announced w.links seq frame) :
      Advertises w (.ok (w', .ok (.again ⟨⟩)))

theorem advertiseNext_cases (room : ℕ) (w : LinkWriter) : Advertises w (advertiseNext room w) := by
  rw [advertiseNext, Act.get_bind]
  cases hhead : w.links.cids.scidsToAdvertise.head? with
  | none => exact .finished hhead
  | some seq =>
    dsimp only
    cases hframe : createNewConnectionIdFrame w.links.cids seq with
    | error e =>
      exact .refused seq e hhead hframe
    | ok frame =>
      rw [Act.bind_of_ok (Act.lift_apply _ _)]
      rcases writeFrame_outcomes room frame w with hwrite | hwrite | ⟨w', hwrite, hlinks⟩
      · rw [Act.bind_of_panic hwrite]
        exact .panicked
      · rw [Act.bind_of_error hwrite]
        exact .full
      · rw [Act.bind_of_ok hwrite]
        refine .advertised seq frame _ hhead hframe ?_
        change { w'.links with cids := w'.links.cids.markScidToAdvertise seq false } = _
        rw [hlinks]
        rfl

theorem moves_advertiseNext (room : ℕ) : Act.Moves (Shift p) (advertiseNext room) := by
  intro w out h
  have hcases := advertiseNext_cases room w
  rw [h] at hcases
  cases hcases with
  | finished | refused | full => exact .refl
  | advertised seq frame w' hhead hframe hlinks =>
    refine .single ?_
    rw [Shift, hlinks]
    exact .advertised seq frame hhead hframe

inductive Retires (i : ℕ) (w : LinkWriter) :
    Exec (LinkWriter × Except Error (Exec.Next PUnit PUnit)) → Prop
  | finished (hhead : w.links.cids.dcidsToRetire.head? = none) :
      Retires i w (.ok (w, .ok (.done ⟨⟩)))
  | unnamed (hdcid : (w.links.paths.get? i).bind Path.dcidSeq = none) :
      Retires i w (.ok (w, .error .internalError))
  | stuck (seq : ℕ) (hhead : w.links.cids.dcidsToRetire.head? = some seq)
      (hdcid : (w.links.paths.get? i).bind Path.dcidSeq = some seq) :
      Retires i w (.ok (w, .ok (.again ⟨⟩)))
  | full : Retires i w (.ok (w, .error .done))
  | panicked : Retires i w .panic
  | retired (seq : ℕ) (w' : LinkWriter) (hhead : w.links.cids.dcidsToRetire.head? = some seq)
      (hlinks : w'.links = dismissed w.links seq) :
      Retires i w (.ok (w', .ok (.again ⟨⟩)))

theorem retireNext_cases (room i : ℕ) (w : LinkWriter) : Retires i w (retireNext room i w) := by
  rw [retireNext, Act.get_bind]
  cases hhead : w.links.cids.dcidsToRetire.head? with
  | none => exact .finished hhead
  | some seq =>
    cases hdcid : (w.links.paths.get? i).bind Path.dcidSeq with
    | none => exact .unnamed hdcid
    | some dcidSeq =>
      dsimp only
      split_ifs with hsame
      · exact .stuck seq hhead (hsame ▸ hdcid)
      · rcases writeFrame_outcomes room (.retireConnectionId seq) w with
          hwrite | hwrite | ⟨w', hwrite, hlinks⟩
        · rw [Act.bind_of_panic hwrite]
          exact .panicked
        · rw [Act.bind_of_error hwrite]
          exact .full
        · rw [Act.bind_of_ok hwrite]
          refine .retired seq _ hhead ?_
          change { w'.links with cids := w'.links.cids.markDcidToRetire seq false } = _
          rw [hlinks]
          rfl

theorem moves_retireNext (room i : ℕ) : Act.Moves (Shift p) (retireNext room i) := by
  intro w out h
  have hcases := retireNext_cases room i w
  rw [h] at hcases
  cases hcases with
  | finished | unnamed | stuck | full => exact .refl
  | retired seq w' hhead hlinks =>
    refine .single ?_
    rw [Shift, hlinks]
    exact .retiredDcid seq hhead

theorem moves_cidControl (rounds room i : ℕ) :
    Act.Moves (Shift p) (tryWriteCidControlFrame rounds room i) := by
  refine Act.moves_bind Act.moves_get fun w => ?_
  split
  · exact Act.moves_pure _
  refine Act.moves_bind (Act.moves_iterate (fun _ => moves_advertiseNext room) rounds ⟨⟩)
    fun _ => ?_
  refine Act.moves_bind Act.moves_get fun w => ?_
  cases w.links.paths.get? i with
  | none =>
    intro w out h
    cases h
    exact .refl
  | some =>
    dsimp only
    split
    · exact Act.moves_pure _
    · exact Act.moves_iterate (fun _ => moves_retireNext room i) rounds ⟨⟩

end Tquic.LinkWriter

namespace Tquic.Links

variable {p : LinkPromise} {c c' : Links}

theorem moves_finishPacket (o : Outgoing) (w : LinkWriter) :
    Moves p w.links (finishPacket o w) := by
  have hsent : ∀ {paths}, w.links.paths.Turns paths → Moves p w.links { w.links with
      paths := paths.decAntiAmplLimit o.pathId o.size
      draft := []
      sent := if w.links.draft = [] then w.links.sent else w.links.sent ++ [w.links.draft] } := by
    intro paths hpaths
    have hpaid := (moves_of_turns (p := p) hpaths).trans
      (moves_of_turns (paths.turns_decAntiAmplLimit o.pathId o.size))
    refine hpaid.tail (.handled _ _ _ ?_)
    intro frame hframe
    dsimp only [frames] at hframe ⊢
    split_ifs at hframe
    · simp only [List.append_assoc, List.mem_append]
      rcases List.mem_append.mp hframe with h | h
      · exact .inr (.inl h)
      · exact .inr (.inr h)
    · simp only [List.nil_append, List.flatten_append, List.flatten_singleton,
        List.mem_append] at hframe ⊢
      tauto
  rw [finishPacket]
  cases w.challenge with
  | none => exact hsent (.refl _)
  | some data => exact hsent (w.links.paths.turns_onPathChalSent o.pathId data o.size o.time)

variable {r : Result Unit}

theorem moves_sendPacket {rounds : ℕ} {o : Outgoing}
    (h : c.sendPacket rounds o = .ok (c', r)) : Moves p c c' := by
  rw [sendPacket] at h
  cases hids : c.headerIds o.pathId with
  | error =>
    rw [hids] at h
    cases h
    exact .refl
  | ok _ =>
    rw [hids] at h
    obtain ⟨⟨w, r'⟩, hsend, h⟩ := Exec.bind_eq_ok.mp h
    have hshifts : Act.Moves (LinkWriter.Shift p) (sendFrames rounds o) :=
      Act.moves_bind (LinkWriter.moves_pathValidation o.room o.pathId o.data) fun _ =>
        LinkWriter.moves_cidControl rounds o.room o.pathId
    have hwritten : Moves p c w.links := LinkWriter.moves_of_shifts (hshifts _ _ hsend)
    -- a packet without frames is not sent
    have hdropped : Moves p c { w.links with draft := [] } := by
      refine hwritten.tail (.handled [] w.links.sent w.links.lost ?_)
      intro frame hframe
      simp only [List.nil_append, List.mem_append, frames] at hframe ⊢
      tauto
    cases r' with
    | ok =>
      cases h
      exact hwritten.trans (moves_finishPacket o w)
    | error e =>
      cases e with
      | done =>
        dsimp only at h
        split_ifs at h
        · cases h
          exact hwritten.trans (moves_finishPacket o w)
        · cases h
          exact hdropped
      | _ =>
        cases h
        exact hdropped

theorem mem_flatten_eraseIdx {α : Type*} {l : List (List α)} {k : ℕ} {a : α}
    (h : a ∈ (l.eraseIdx k).flatten) : a ∈ l.flatten := by
  obtain ⟨x, hx, ha⟩ := List.mem_flatten.mp h
  exact List.mem_flatten.mpr ⟨x, List.mem_of_mem_eraseIdx hx, ha⟩

theorem moves_ackPacket (k : ℕ) : Moves p c { c with sent := c.sent.eraseIdx k } := by
  refine (Move.handled c.draft (c.sent.eraseIdx k) c.lost ?_).once
  intro frame hframe
  simp only [List.mem_append, frames] at hframe ⊢
  rcases hframe with (h | h) | h
  · exact .inl (.inl h)
  · exact .inl (.inr (mem_flatten_eraseIdx h))
  · exact .inr h

theorem moves_losePacket (k : ℕ) : Moves p c (c.losePacket k) := by
  rw [losePacket]
  cases hk : c.sent[k]? with
  | none => exact .refl
  | some packet =>
    refine (Move.handled c.draft (c.sent.eraseIdx k) (c.lost ++ packet) ?_).once
    intro frame hframe
    simp only [List.mem_append, frames] at hframe ⊢
    rcases hframe with (h | h) | h | h
    · exact .inl (.inl h)
    · exact .inl (.inr (mem_flatten_eraseIdx h))
    · exact .inr h
    · exact .inl (.inr (List.mem_flatten.mpr ⟨packet, List.mem_of_getElem? hk, h⟩))

theorem moves_probePacket (k : ℕ) : Moves p c (c.probePacket k) := by
  rw [probePacket]
  cases hk : c.sent[k]? with
  | none => exact .refl
  | some packet =>
    refine (Move.handled c.draft c.sent (c.lost ++ packet) ?_).once
    intro frame hframe
    have hpacket : frame ∈ packet → frame ∈ c.sent.flatten := fun h =>
      List.mem_flatten.mpr ⟨packet, List.mem_of_getElem? hk, h⟩
    simp only [List.mem_append, frames] at hframe ⊢
    tauto

@[simp] theorem loseFrame_scids (m : ConnectionIdMgr) (frame : LinkFrame) :
    (loseFrame m frame).scids = m.scids := by
  cases frame with
  | newConnectionId | retireConnectionId | pathChallenge | pathResponse => rfl

theorem moves_handleLost (hkept : ∀ frame ∈ c.lost, p.relist c.cids.scids frame) :
    Moves p c c.handleLost := by
  rw [handleLost]
  induction hlost : c.lost generalizing c with
  | nil =>
    have heq : { c with cids := c.cids, lost := [] } = c := by rw [← hlost]
    exact heq ▸ .refl
  | cons frame rest ih =>
    refine .head (.relisted frame rest hlost (hkept frame (by simp [hlost]))) ?_
    refine ih (c := { c with cids := loseFrame c.cids frame, lost := rest }) ?_ rfl
    intro frame' hframe'
    rw [loseFrame_scids]
    exact hkept frame' (by simp only [hlost, List.mem_cons]; exact .inr hframe')

theorem voided_fst {α : Type} (x : Links × Result α) : (voided x).1 = x.1 := by
  obtain ⟨c, r⟩ := x
  cases r with
  | ok => rfl
  | error => rfl

/-- Every operation is a sequence of moves that the promise allows. -/
theorem moves_step {op : Op} (hkept : c.Keeps p op)
    (h : c.step op = .ok (c', r)) : Moves p c c' := by
  cases op with
  | receive =>
    obtain ⟨rfl, -⟩ := Prod.ext_iff.mp (Exec.ok.inj h)
    exact moves_recv hkept
  | retry scid =>
    obtain ⟨rfl, -⟩ := Prod.ext_iff.mp (Exec.ok.inj h)
    exact moves_processRetry scid hkept
  | peerParams limit resetToken =>
    cases h
    refine .head (.scidLimited limit) (.single ?_)
    exact .noted resetToken c.closing id
  | complete multipath =>
    cases h
    exact (Move.completed multipath hkept).once
  | addScid cid resetToken retireIfNeeded =>
    obtain ⟨rfl, -⟩ := Prod.ext_iff.mp (Exec.ok.inj h)
    rw [voided_fst]
    exact (Move.scidAdded cid resetToken retireIfNeeded).once
  | addPath addrs time =>
    obtain ⟨rfl, -⟩ := Prod.ext_iff.mp (Exec.ok.inj h)
    rw [voided_fst]
    exact moves_addPath addrs time
  | migratePath =>
    obtain ⟨rfl, -⟩ := Prod.ext_iff.mp (Exec.ok.inj h)
    exact moves_migratePath hkept
  | abandonPath addrs =>
    obtain ⟨rfl, -⟩ := Prod.ext_iff.mp (Exec.ok.inj h)
    exact moves_abandonPath addrs
  | sendPacket => exact moves_sendPacket h
  | ackPacket k =>
    cases h
    exact moves_ackPacket k
  | losePacket k =>
    cases h
    exact moves_losePacket k
  | probePacket k =>
    cases h
    exact moves_probePacket k
  | handleLost =>
    cases h
    exact moves_handleLost hkept
  | pathChalTimeout time =>
    cases h
    exact moves_of_turns (c.paths.turns_onPathChalTimeout time)
  | keepAlive time timeout =>
    cases h
    exact moves_of_turns (c.paths.turns_abandonStalePaths time timeout)
  | close =>
    cases h
    exact moves_close .refl

theorem framesKept_trivial (pktType : PacketType) (pktDcid : ConnectionId) (i : ℕ)
    (frames : List LinkFrame) (c : Links) : FramesKept {} pktType pktDcid i frames c := by
  induction frames generalizing c with
  | nil => trivial
  | cons frame rest ih =>
    refine ⟨trivial, ?_⟩
    split
    · exact ih _
    · trivial

/-- The promise that asks for nothing is kept by every operation. -/
theorem keeps_trivial (c : Links) (op : Op) : c.Keeps {} op := by
  cases op with
  | receive =>
    rw [Keeps, ReceiptKept]
    split
    · trivial
    · exact framesKept_trivial _ _ _ _ _
  | complete => exact fun _ => trivial
  | migratePath => exact fun _ _ _ _ => trivial
  | handleLost => exact fun _ _ => trivial
  | _ => trivial

/-- What holds at the start and along every move holds in every state of a run that
keeps the promise. -/
theorem invariant_of_moves {Inv : Links → Prop} (hstart : Inv c)
    (hmove : ∀ c c', Inv c → Move p c c' → Inv c')
    (h : Exec.Reaches step (Keeps p) c c') : Inv c' :=
  Exec.invariant_of_steps hmove
    (h.simulates id fun _ _ _ _ hkept hstep => moves_step hkept hstep) hstart

end Tquic.Links
