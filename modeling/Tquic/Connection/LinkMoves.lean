import Tquic.Connection.LinkRuns

/-!
# What a step can do to paths and connection ids

Every step of a connection is a sequence of moves, each of which changes one thing. A promise
restricts them by what is known about the peer's frames, migrations, Retry packets and lost frames.
-/

namespace Tquic

def Path.flags (p : Path) : Bool × PathState × Bool := (p.active, p.state, p.isAbandon)

/-- A path by itself keeps its ids; in use and validated it stays so, and it comes into use only if
several paths may be. -/
structure Path.Turns (multipath : Bool) (p p' : Path) : Prop where
  scidSeq : p'.scidSeq = p.scidSeq
  dcidSeq : p'.dcidSeq = p.dcidSeq
  steady : p.active = true → p.state = .validated → p.isAbandon = false → p'.flags = p.flags
  active : p.active = false → p'.active = true → multipath = true

structure PathMap.Turns (m m' : PathMap) : Prop where
  paths : List.Forall₂ (Path.Turns m.isMultipath) m.paths m'.paths
  addrs : m'.addrs = m.addrs
  isMultipath : m'.isMultipath = m.isMultipath

structure LinkPromise where
  frame : Links → ConnectionId → LinkFrame → Prop := fun _ _ _ => True
  migrate : PathState → Bool → Prop := fun _ _ => True
  retry : Links → Prop := fun _ => True
  relist : ConnectionIdDeque → LinkFrame → Prop := fun _ _ => True
  multipath : Prop := True

namespace Links

def frames (c : Links) : List LinkFrame := c.draft ++ c.sent.flatten ++ c.lost

structure Fresh (c : Links) (path : Path) : Prop where
  active : path.active = false
  dcidSeq : path.dcidSeq = none
  scidSeq : ∀ seq, path.scidSeq = some seq → ∃ item ∈ c.cids.scids.queue, item.seq = seq

inductive Move (p : LinkPromise) (c : Links) : Links → Prop
  | turned (paths : PathMap) (h : c.paths.Turns paths) : Move p c { c with paths := paths }
  | noted (resetToken : Option ℕ) (closing : Bool) (h : c.closing = true → closing = true) :
      Move p c { c with peerResetToken := resetToken, closing := closing }
  | handled (draft : List LinkFrame) (sent : List (List LinkFrame)) (lost : List LinkFrame)
      (h : ∀ frame ∈ draft ++ sent.flatten ++ lost, frame ∈ c.frames) :
      Move p c { c with draft := draft, sent := sent, lost := lost }
  | spaceAdded : Move p c { c with nextDataExtId := c.nextDataExtId + 1 }
  | challenged (data : UInt64) : Move p c { c with draft := c.draft ++ [.pathChallenge data] }
  | answered (data : UInt64) : Move p c { c with draft := c.draft ++ [.pathResponse data] }
  | abandoned (i : ℕ) (h : c.enableMultipath = true) :
      Move p c { c with
        paths := c.paths.update i fun path => { path with isAbandon := true } }
  | inserted (path : Path) (i : ℕ) (paths : PathMap) (hfresh : c.Fresh path)
      (hdone : c.handshakeCompleted = true) (h : c.paths.insertPath path = .ok (i, paths)) :
      Move p c { c with paths := paths }
  | activated (i : ℕ) (path : Path) (hpath : c.paths.get? i = some path)
      (hmigrate : p.migrate path.state path.isAbandon) : Move p c (c.activate i)
  | scidUsed (i seq : ℕ) (h : ∃ item ∈ c.cids.scids.queue, item.seq = seq) :
      Move p c { c with
        paths := c.paths.update i fun path => { path with scidSeq := some seq } }
  | scidMarked (seq i : ℕ) (hi : i < c.paths.paths.length) :
      Move p c { c with cids := { c.cids with scids := c.cids.scids.setPath seq i } }
  | retireFrame (seqNum : ℕ) (pktDcid : ConnectionId)
      (hframe : p.frame c pktDcid (.retireConnectionId seqNum)) :
      Move p c (c.onRetireConnectionId seqNum pktDcid).1
  | newIdFrame (seqNum retirePriorTo : ℕ) (connId : ConnectionId) (resetToken : ℕ)
      (pktDcid : ConnectionId)
      (hframe : p.frame c pktDcid (.newConnectionId seqNum retirePriorTo connId resetToken))
      (hgot : c.gotPeerCid = true)
      (hok : (c.onNewConnectionId seqNum retirePriorTo connId resetToken).2 = .ok ()) :
      Move p c (c.onNewConnectionId seqNum retirePriorTo connId resetToken).1
  | newIdRefused (seqNum retirePriorTo : ℕ) (connId : ConnectionId) (resetToken : ℕ) :
      Move p c { (c.onNewConnectionId seqNum retirePriorTo connId resetToken).1 with
        closing := true }
  | dcidAssigned (i seq : ℕ) (hi : i < c.paths.paths.length)
      (hzero : c.cids.zeroLengthDcid = false) (h : c.cids.lowestUnusedDcidSeq = some seq) :
      Move p c { c with
        cids := { c.cids with dcids := c.cids.dcids.setPath seq i }
        paths := c.paths.update i fun path => { path with dcidSeq := some seq } }
  | dcidEmpty (i : ℕ) (dcids : ConnectionIdDeque) (hi : i < c.paths.paths.length)
      (hzero : c.cids.zeroLengthDcid = true)
      (h : dcids = c.cids.dcids ∨ dcids = c.cids.dcids.setPath 0 i) :
      Move p c { c with
        cids := { c.cids with dcids := dcids }
        paths := c.paths.update i fun path => { path with dcidSeq := some 0 } }
  | named (cid : ConnectionId) (resetToken : Option ℕ) (i : ℕ) (hi : i < c.paths.paths.length)
      (hgot : c.gotPeerCid = false) :
      Move p c { c.setInitialDcid cid resetToken i with gotPeerCid := true }
  | retried (cid : ConnectionId) (i : ℕ) (hi : i < c.paths.paths.length) (hretry : p.retry c) :
      Move p c ({ c with didRetry := true, gotPeerCid := false }.setInitialDcid cid none i)
  | scidAdded (cid : ConnectionId) (resetToken : ℕ) (retireIfNeeded : Bool) :
      Move p c (c.addScid cid resetToken retireIfNeeded).1
  | scidLimited (limit : ℕ) : Move p c { c with cids := c.cids.setScidLimit limit }
  | completed (multipath : Bool) (hmulti : multipath = true → p.multipath) :
      Move p c (c.complete multipath)
  | advertised (seq : ℕ) (frame : LinkFrame) (hhead : c.cids.scidsToAdvertise.head? = some seq)
      (hframe : LinkWriter.createNewConnectionIdFrame c.cids seq = .ok frame) :
      Move p c { c with
        cids := c.cids.markScidToAdvertise seq false
        draft := c.draft ++ [frame] }
  | retiredDcid (seq : ℕ) (hhead : c.cids.dcidsToRetire.head? = some seq) :
      Move p c { c with
        cids := c.cids.markDcidToRetire seq false
        draft := c.draft ++ [.retireConnectionId seq] }
  | relisted (frame : LinkFrame) (rest : List LinkFrame) (hlost : c.lost = frame :: rest)
      (hrelist : p.relist c.cids.scids frame) :
      Move p c { c with cids := loseFrame c.cids frame, lost := rest }

abbrev Moves (p : LinkPromise) : Links → Links → Prop := Relation.ReflTransGen (Move p)

variable {p : LinkPromise} {c c' : Links}

theorem Move.once (h : Move p c c') : Moves p c c' := .single h

end Links

/-! ## Changes of a path by itself -/

theorem forall₂_modify {α : Type*} {R : α → α → Prop} (hrefl : ∀ a, R a a) {f : α → α}
    (hf : ∀ a, R a (f a)) (l : List α) (i : ℕ) : List.Forall₂ R l (l.modify i f) := by
  induction l generalizing i with
  | nil => simp
  | cons a l ih =>
    cases i with
    | zero =>
      exact .cons (hf a) (List.forall₂_same.mpr fun b _ => hrefl b)
    | succ i =>
      exact .cons (hrefl a) (ih i)

theorem exists_left_of_forall₂ {α β : Type*} {R : α → β → Prop} {l : List α} {l' : List β}
    (h : List.Forall₂ R l l') {i : ℕ} {b : β} (hb : l'[i]? = some b) :
    ∃ a, l[i]? = some a ∧ R a b := by
  induction h generalizing i with
  | nil => simp at hb
  | cons hab _ ih =>
    cases i with
    | zero =>
      obtain rfl : _ = b := by simpa using hb
      exact ⟨_, rfl, hab⟩
    | succ => exact ih (by simpa using hb)

namespace Path

variable {multipath : Bool}

theorem Turns.refl (p : Path) : p.Turns multipath p :=
  ⟨rfl, rfl, fun _ _ _ => rfl, fun h h' => by simp [h] at h'⟩

theorem Turns.of_eq {p p' : Path} (hscid : p'.scidSeq = p.scidSeq) (hdcid : p'.dcidSeq = p.dcidSeq)
    (hflags : p'.flags = p.flags) : p.Turns multipath p' := by
  refine ⟨hscid, hdcid, fun _ _ _ => hflags, ?_⟩
  intro hactive hactive'
  have heq : p'.active = p.active := congrArg Prod.fst hflags
  simp [heq, hactive] at hactive'

section

variable (p : Path) (s : PathState)

@[simp] theorem promoteTo_scidSeq : (p.promoteTo s).scidSeq = p.scidSeq := by
  rw [promoteTo]
  split_ifs
  · rfl
  · rfl

@[simp] theorem promoteTo_dcidSeq : (p.promoteTo s).dcidSeq = p.dcidSeq := by
  rw [promoteTo]
  split_ifs
  · rfl
  · rfl

@[simp] theorem promoteTo_active : (p.promoteTo s).active = p.active := by
  rw [promoteTo]
  split_ifs
  · rfl
  · rfl

end

theorem promoteTo_of_validated {p : Path} (h : p.state = .validated) (s : PathState) :
    p.promoteTo s = p := by
  rw [promoteTo, if_neg]
  rw [h]
  cases s
  all_goals decide

theorem turns_onPathRespReceived (p : Path) (data : UInt64) :
    p.Turns multipath (p.onPathRespReceived data multipath).1 := by
  rw [onPathRespReceived]
  by_cases hstate : p.state = .validated
  · rw [if_pos hstate]
    exact .refl p
  · dsimp only
    split_ifs
    · refine ⟨by simp, by simp, fun _ h _ => absurd h hstate, fun _ h => h⟩
    · refine ⟨by simp, by simp, fun _ h _ => absurd h hstate, fun h h' => ?_⟩
      simp [h] at h'

theorem turns_onPathChalSent (p : Path) (data : UInt64) (size : ℕ) (time : ℤ) :
    p.Turns multipath (p.onPathChalSent data size time) := by
  rw [onPathChalSent]
  refine ⟨by simp, by simp, fun _ h _ => ?_, fun h h' => ?_⟩
  · simp [promoteTo_of_validated h, flags]
  · simp [h] at h'

theorem expireChals_core (now : ℤ) (chals : List SentChallenge) (p : Path) :
    (expireChals now chals p).scidSeq = p.scidSeq ∧ (expireChals now chals p).dcidSeq = p.dcidSeq ∧
      ((expireChals now chals p).active = true → p.active = true) := by
  induction chals generalizing p with
  | nil => exact ⟨rfl, rfl, id⟩
  | cons chal rest ih =>
    rw [expireChals]
    dsimp only
    split_ifs
    · exact ⟨rfl, rfl, id⟩
    · exact ih _
    · exact ⟨rfl, rfl, nofun⟩

theorem turns_onPathChalTimeout (p : Path) (now : ℤ) :
    p.Turns multipath (p.onPathChalTimeout now) := by
  rw [onPathChalTimeout]
  split_ifs with hstate
  · exact .refl p
  · obtain ⟨hscid, hdcid, hactive⟩ := expireChals_core now p.sentChals p
    refine ⟨hscid, hdcid, fun _ h _ => ?_, fun h h' => ?_⟩
    · exact absurd ⟨by simp [h], by simp [h]⟩ hstate
    · simp [hactive h'] at h

end Path

theorem update_eq_some {α β : Type*} [DecidableEq α] {f : α → Option β} {a b : α} {v : Option β}
    {k : β} (h : Function.update f a v b = some k) : v = some k ∨ f b = some k := by
  by_cases hab : b = a
  · subst hab
    rw [Function.update_self] at h
    exact .inl h
  · rw [Function.update_of_ne hab] at h
    exact .inr h

namespace PathMap

variable {m m' : PathMap}

theorem turns_update {f : Path → Path} (hf : ∀ p : Path, p.Turns m.isMultipath (f p)) (i : ℕ) :
    m.Turns (m.update i f) :=
  ⟨forall₂_modify .refl hf m.paths i, rfl, rfl⟩

theorem Turns.refl (m : PathMap) : m.Turns m :=
  ⟨List.forall₂_same.mpr fun p _ => .refl p, rfl, rfl⟩

section

variable (m : PathMap) (i : ℕ) (data : UInt64)

theorem turns_onPathRespReceived : m.Turns (m.onPathRespReceived i data) :=
  turns_update (fun p => p.turns_onPathRespReceived data) i

theorem turns_onPathChalReceived : m.Turns (m.onPathChalReceived i data) := by
  apply turns_update
  intro p
  exact .of_eq rfl rfl rfl

theorem turns_onPathChalSent (size : ℕ) (time : ℤ) : m.Turns (m.onPathChalSent i data size time) :=
  turns_update (fun p => p.turns_onPathChalSent data size time) i

end

theorem turns_map {f : Path → Path} (hf : ∀ p : Path, p.Turns m.isMultipath (f p)) :
    m.Turns { m with paths := m.paths.map f } := by
  refine ⟨?_, rfl, rfl⟩
  rw [List.forall₂_map_right_iff]
  exact List.forall₂_same.mpr fun p _ => hf p

section

variable (m : PathMap)

theorem turns_onPathChalTimeout (now : ℤ) : m.Turns (m.onPathChalTimeout now) :=
  turns_map fun p => p.turns_onPathChalTimeout now

theorem turns_abandonStalePaths (now : ℤ) (timeout : ℕ) :
    m.Turns (m.abandonStalePaths now timeout) := by
  rw [abandonStalePaths]
  split_ifs with htimeout
  · exact .refl m
  · apply turns_map
    intro p
    split_ifs with hused
    · exact .refl p
    · -- a path in use is never given up here
      refine ⟨rfl, rfl, fun h _ _ => absurd (by simp [h]) hused, fun _ h => nomatch h⟩
    · exact .refl p

theorem turns_incAntiAmplLimit (i len : ℕ) : m.Turns (m.incAntiAmplLimit i len) := by
  rw [incAntiAmplLimit]
  split_ifs
  · exact .refl m
  · apply turns_update
    intro p
    split_ifs
    · exact .of_eq rfl rfl rfl
    · exact .refl p

theorem turns_decAntiAmplLimit (i len : ℕ) : m.Turns (m.decAntiAmplLimit i len) := by
  rw [decAntiAmplLimit]
  split_ifs
  · exact .refl m
  · apply turns_update
    intro p
    split_ifs
    · exact .of_eq rfl rfl rfl
    · exact .refl p

@[simp] theorem length_update (i : ℕ) (f : Path → Path) :
    (m.update i f).paths.length = m.paths.length :=
  List.length_modify ..

end

theorem Turns.length_eq (h : m.Turns m') : m'.paths.length = m.paths.length :=
  h.paths.length_eq.symm

theorem getActivePathId_lt {i : ℕ} (h : m.getActivePathId = .ok i) : i < m.paths.length := by
  rw [getActivePathId] at h
  split at h
  · next j hj =>
      cases h
      exact (List.findIdx?_eq_some_iff_getElem.mp hj).1
  · cases h

theorem toRemove_lt {i : ℕ} (h : m.toRemove = some i) : i < m.paths.length := by
  rw [toRemove] at h
  split at h
  · next j hj =>
      cases h
      exact (List.findIdx?_eq_some_iff_getElem.mp hj).1
  · exact (List.findIdx?_eq_some_iff_getElem.mp h).1

structure Inserts (m : PathMap) (path : Path) (i : ℕ) (m' : PathMap) : Prop where
  rest : m' = { m with paths := m'.paths, addrs := m'.addrs }
  paths : m.toRemove = some i ∧ m'.paths = m.paths.set i path ∨
    i = m.paths.length ∧ m'.paths = m.paths ++ [path]
  addrs : ∀ a k, m'.addrs a = some k → k = i ∨ m.addrs a = some k

variable {path : Path} {i : ℕ}

theorem inserts_of_insertPath (h : m.insertPath path = .ok (i, m')) : m.Inserts path i m' := by
  have hnew : ∀ addrs : SocketAddr × SocketAddr → Option ℕ, (∀ a k, addrs a = some k →
      m.addrs a = some k) → ∀ b j a k, Function.update addrs b (some j) a = some k →
        k = j ∨ m.addrs a = some k := by
    intro addrs hsub b j a k hk
    rcases update_eq_some hk with hk | hk
    · exact .inl (Option.some.inj hk).symm
    · exact .inr (hsub a k hk)
  rw [insertPath] at h
  split_ifs at h
  · split at h
    · cases h
    · next hremove =>
        cases h
        refine ⟨rfl, .inl ⟨hremove, rfl⟩, hnew _ (fun a k hk => ?_) _ _⟩
        cases hget : m.get? i with
        | none =>
          rw [hget] at hk
          exact hk
        | some =>
          rw [hget] at hk
          exact (update_eq_some hk).resolve_left nofun
  · cases h
    exact ⟨rfl, .inr ⟨rfl, rfl⟩, hnew _ (fun a k hk => hk) _ _⟩

section

variable (h : m.Inserts path i m')

include h

theorem Inserts.length_le : m.paths.length ≤ m'.paths.length := by
  rcases h.paths with ⟨-, hpaths⟩ | ⟨-, hpaths⟩
  · rw [hpaths, List.length_set]
  · simp [hpaths]

theorem Inserts.get?_self : m'.get? i = some path := by
  rcases h.paths with ⟨hremove, hpaths⟩ | ⟨rfl, hpaths⟩
  · rw [get?, hpaths, List.getElem?_set_self (toRemove_lt hremove)]
  · simp [get?, hpaths]

theorem Inserts.lt : i < m'.paths.length :=
  (getElem?_eq_some_iff.mp h.get?_self).1

theorem Inserts.get?_of_ne {k : ℕ} (hk : k ≠ i) : m'.get? k = m.get? k := by
  rcases h.paths with ⟨-, hpaths⟩ | ⟨rfl, hpaths⟩
  · rw [get?, hpaths, List.getElem?_set_ne hk.symm, get?]
  · rw [get?, hpaths, get?, List.getElem?_append]
    split_ifs with hlt
    · rfl
    · rw [List.getElem?_eq_none (by simp; omega), List.getElem?_eq_none (not_lt.mp hlt)]

theorem Inserts.get?_cases {k : ℕ} {q : Path} (hq : m'.get? k = some q) :
    k = i ∧ q = path ∨ k ≠ i ∧ m.get? k = some q := by
  by_cases hk : k = i
  · subst hk
    exact .inl ⟨rfl, Option.some.inj (hq.symm.trans h.get?_self)⟩
  · exact .inr ⟨hk, (h.get?_of_ne hk).symm.trans hq⟩

end

end PathMap

end Tquic
