import Tquic.Connection.LinkRuns

/-!
# Packets that fail authentication

A server looks up the path of a 1-RTT packet, or makes one, before it decrypts the packet, so this
is what a packet that nobody authentic sent may change.
-/

namespace Tquic

open List

def Path.Credited (p q : Path) : Prop :=
  p.antiAmplLimit ≤ q.antiAmplLimit ∧ q = { p with antiAmplLimit := q.antiAmplLimit }

theorem Path.Credited.refl (p : Path) : p.Credited p := ⟨le_rfl, rfl⟩

namespace PathMap

variable (m : PathMap)

structure Credited (m m' : PathMap) : Prop where
  paths : List.Forall₂ Path.Credited m.paths m'.paths
  addrs : m'.addrs = m.addrs

theorem Credited.refl : m.Credited m :=
  ⟨forall₂_same.mpr fun p _ => Path.Credited.refl p, rfl⟩

theorem credited_incAntiAmplLimit (hword : ∀ p ∈ m.paths, p.antiAmplLimit ≤ u64Max)
    (pathId len : ℕ) : m.Credited (m.incAntiAmplLimit pathId len) := by
  rw [incAntiAmplLimit]
  split_ifs
  · exact .refl m
  · refine ⟨?_, rfl⟩
    rw [update, forall₂_iff_get]
    refine ⟨(length_modify _ _ _).symm, ?_⟩
    intro i hi hi'
    have hle := hword _ (getElem_mem hi)
    simp only [get_eq_getElem, getElem_modify]
    split_ifs
    · refine ⟨?_, rfl⟩
      exact le_min (Nat.le_add_right _ _) hle
    · exact .refl _
    · exact .refl _

theorem Credited.get?_cases {m m' : PathMap} (h : m.Credited m') (pathId : ℕ) :
    m.get? pathId = none ∧ m'.get? pathId = none ∨
      ∃ path path', m.get? pathId = some path ∧ m'.get? pathId = some path' ∧
        path.Credited path' := by
  obtain ⟨hlength, hget⟩ := forall₂_iff_get.mp h.paths
  by_cases hlt : pathId < m.paths.length
  · have hlt' : pathId < m'.paths.length := hlength ▸ hlt
    exact .inr ⟨_, _, getElem?_eq_getElem hlt, getElem?_eq_getElem hlt', hget pathId hlt hlt'⟩
  · have hle := not_lt.mp hlt
    exact .inl ⟨getElem?_eq_none hle, getElem?_eq_none (hlength ▸ hle)⟩

theorem Credited.getActivePathId {m m' : PathMap} (h : m.Credited m') :
    m'.getActivePathId = m.getActivePathId := by
  have hactive : m'.paths.map (·.active) = m.paths.map (·.active) := by
    obtain ⟨hpaths, -⟩ := h
    generalize m.paths = l, m'.paths = l' at hpaths ⊢
    induction hpaths with
    | nil => rfl
    | cons hpq _ ih => rw [map_cons, map_cons, ih, hpq.2]
  have hidx (l : List Path) : l.findIdx? (·.active) = (l.map (·.active)).findIdx? id := by
    rw [findIdx?_map]
    rfl
  rw [PathMap.getActivePathId, PathMap.getActivePathId, hidx, hidx, hactive]

def Full : Prop := m.maxPaths ≤ m.paths.length ∧ m.toRemove = none

instance : Decidable m.Full := inferInstanceAs (Decidable (_ ∧ _))

/-- A path for an unknown address is not inserted, or its address becomes known. -/
theorem insertPath_full_or {m : PathMap} (path : Path) :
    m.Full ∧ m.insertPath path = .error .done ∨
      ¬m.Full ∧ ∃ pathId m', m.insertPath path = .ok (pathId, m') ∧
        m'.getPathId (path.localAddr, path.remoteAddr) = some pathId := by
  unfold Full insertPath
  by_cases hfull : m.maxPaths ≤ m.paths.length
  · rw [if_pos hfull]
    cases m.toRemove with
    | none => exact .inl ⟨⟨hfull, rfl⟩, rfl⟩
    | some => exact .inr ⟨nofun, _, _, rfl, Function.update_self _ _ _⟩
  · rw [if_neg hfull]
    exact .inr ⟨fun h => hfull h.1, _, _, rfl, Function.update_self _ _ _⟩

end PathMap

namespace Links

variable {c : Links} {a : Incoming}

/-- What a packet that fails authentication must not change: the paths, the ids and the packet
number spaces. -/
structure Untouched (c c' : Links) : Prop where
  paths : c.paths.Credited c'.paths
  cids : c'.cids = c.cids
  spaces : c'.nextDataExtId = c.nextDataExtId

theorem Untouched.refl (c : Links) : c.Untouched c := ⟨.refl _, rfl, rfl⟩

/-- The id that the peer uses on a path. -/
def held (c : Links) (path : Path) : Option ConnectionId :=
  path.scidSeq.bind fun seq => (c.cids.scids.get? seq).map (·.cid)

/-- The path that the id belongs to. -/
def cidPid (c : Links) (item : ConnectionIdItem) : Option ℕ :=
  if c.cids.zeroLengthScid then none else item.pathId

/-- There is no room for a path with the id; with multipath the id belongs to a path, so that no
packet number space is added. -/
def Barred (c : Links) (item : ConnectionIdItem) : Prop :=
  if c.enableMultipath then
    ∃ pathId ∈ c.cidPid item, c.paths.get? pathId = none ∨ c.paths.Full
  else c.paths.Full

/-- The lookup of the path does nothing: the id is unknown, or the datagram came on a path that uses
it, or no path can be made. -/
def Routed (c : Links) (a : Incoming) : Prop :=
  ∀ item ∈ c.cids.findScid a.dcid,
    match c.paths.getPathId a.addrs with
    | some pathId => ∀ path ∈ c.paths.get? pathId, c.held path = some a.dcid
    | none => c.Barred item

/-- The packet is dropped before its path is looked up. -/
def Mute (c : Links) : Prop := c.closing = true ∨ c.scid.isOk = false

instance : Decidable c.Mute := inferInstanceAs (Decidable (_ ∨ _))

instance (item : ConnectionIdItem) : Decidable (c.Barred item) :=
  inferInstanceAs (Decidable (if c.enableMultipath then
    ∃ pathId ∈ c.cidPid item, c.paths.get? pathId = none ∨ c.paths.Full else c.paths.Full))

instance : Decidable (c.Routed a) :=
  have (item : ConnectionIdItem) : Decidable (match c.paths.getPathId a.addrs with
      | some pathId => ∀ path ∈ c.paths.get? pathId, c.held path = some a.dcid
      | none => c.Barred item) := by
    split <;> infer_instance
  inferInstanceAs (Decidable (∀ item ∈ c.cids.findScid a.dcid, _))

theorem findScid_cid {item : ConnectionIdItem} (h : c.cids.findScid a.dcid = some item) :
    item.cid = a.dcid := by
  exact (Keyed.find?_some h).2

variable {pathId : ℕ}

/-- The id of the active path is the same whatever the credit. -/
theorem scid_credited {m : PathMap} (h : c.paths.Credited m) :
    { c with paths := m }.scid = c.scid := by
  simp only [scid, PathMap.getActive, h.getActivePathId]
  cases c.paths.getActivePathId with
  | error => rfl
  | ok pathId =>
    simp only [Result.ok_bind, PathMap.get]
    rcases h.get?_cases pathId with ⟨hnone, hnone'⟩ | ⟨path, path', hpath, hpath', -, hsame⟩
    · rw [hnone, hnone']
    · rw [hpath, hpath', hsame]
      rfl

/-- On a known path the lookup binds the id, unless the path has it already. -/
theorem useScid_untouched_iff {m : PathMap} (hm : c.paths.Credited m) {item : ConnectionIdItem}
    (hitem : c.cids.scids.get? item.seq = some item) :
    c.Untouched ({ c with paths := m }.useScid pathId item).1 ↔
      ∀ path ∈ c.paths.get? pathId, c.held path = some item.cid := by
  rw [useScid]
  dsimp only
  rcases hm.get?_cases pathId with ⟨hnone, hnone'⟩ | ⟨path, path', hpath, hpath', -, hsame⟩
  · rw [hnone, hnone']
    exact iff_of_true ⟨hm, rfl, rfl⟩ (by simp)
  · rw [hpath, hpath']
    simp only [Option.mem_some_iff, forall_eq']
    have hheld' : (path'.scidSeq.bind fun seq => (c.cids.scids.get? seq).map (·.cid)) =
        c.held path := by rw [hsame, held]
    rw [hheld']
    by_cases hheld : c.held path = some item.cid
    · rw [if_pos hheld]
      exact iff_of_true ⟨hm, rfl, rfl⟩ hheld
    · rw [if_neg hheld]
      refine iff_of_false ?_ hheld
      -- the path gets the sequence number of an id that it does not have
      have hchanged {d : Links}
          (hd : d.paths = m.update pathId fun p => { p with scidSeq := some item.seq }) :
          ¬c.Untouched d := by
        intro h
        rcases h.paths.get?_cases pathId with ⟨hnone, -⟩ | ⟨p, q, hp, hq, -, hkept⟩
        · exact nomatch hpath.symm.trans hnone
        cases hpath.symm.trans hp
        rw [hd, PathMap.get?, PathMap.update, getElem?_modify_eq, ← PathMap.get?, hpath'] at hq
        cases hq
        have hbound : path.scidSeq = some item.seq := (congrArg Path.scidSeq hkept).symm
        refine hheld ?_
        rw [held, hbound, Option.bind_some, hitem]
        rfl
      cases c.cids.markScidUsed item.seq pathId with
      | error => exact hchanged rfl
      | ok => exact hchanged rfl

theorem createPath_of_newSpace {item : ConnectionIdItem} {c' : Links} {spaceId : ℕ}
    (h : c.newSpace (c.cidPid item) = (c', .ok spaceId)) :
    c'.paths.Full ∧ (c.createPath item a).1 = c' ∨
      ¬c'.paths.Full ∧
        ∃ pathId, (c.createPath item a).1.paths.getPathId a.addrs = some pathId := by
  rw [createPath, ← cidPid, h]
  dsimp only
  rcases PathMap.insertPath_full_or _ with ⟨hfull, heq⟩ | ⟨hroom, pathId, m, heq, hm⟩
  · rw [heq]
    exact .inl ⟨hfull, rfl⟩
  · rw [heq]
    refine .inr ⟨hroom, pathId, ?_⟩
    dsimp only
    split_ifs
    · cases c'.cids.markScidUsed item.seq pathId with
      | error => exact hm
      | ok => exact hm
    · exact hm

/-- From an unknown address the lookup inserts a path or adds a packet number space, unless the id
is barred. -/
theorem createPath_untouched_iff (hunknown : c.paths.getPathId a.addrs = none)
    (item : ConnectionIdItem) : c.Untouched (c.createPath item a).1 ↔ c.Barred item := by
  -- once a path is inserted, its address is known
  have hinserted {d : Links} {pathId : ℕ} (hd : d.paths.getPathId a.addrs = some pathId) :
      ¬c.Untouched d := by
    intro h
    exact nomatch hd.symm.trans ((congrFun h.paths.addrs a.addrs).trans hunknown)
  have hroom {spaceId : ℕ} (h : c.newSpace (c.cidPid item) = (c, .ok spaceId)) :
      c.Untouched (c.createPath item a).1 ↔ c.paths.Full := by
    rcases createPath_of_newSpace (a := a) h with ⟨hfull, heq⟩ | ⟨hroom, pathId, hm⟩
    · rw [heq]
      exact iff_of_true (.refl c) hfull
    · exact iff_of_false (hinserted hm) hroom
  unfold Barred
  split_ifs with hmulti
  · cases hpid : c.cidPid item with
    | none =>
      have hspace : c.newSpace (c.cidPid item) =
          ({ c with nextDataExtId := c.nextDataExtId + 1 }, .ok c.nextDataExtId) := by
        rw [hpid, newSpace.eq_def, hmulti]
        rfl
      refine iff_of_false ?_ (fun ⟨_, h, _⟩ => nomatch h)
      rcases createPath_of_newSpace (a := a) hspace with ⟨-, heq⟩ | ⟨-, pathId, hm⟩
      · rw [heq]
        exact fun h => absurd h.spaces (Nat.succ_ne_self _)
      · exact hinserted hm
    | some pathId =>
      simp only [Option.mem_some_iff, exists_eq_left']
      cases hpath : c.paths.get? pathId with
      | none =>
        refine iff_of_true ?_ (.inl rfl)
        rw [createPath, ← cidPid, hpid, newSpace.eq_def, hmulti]
        simp only [Bool.not_true, Bool.false_eq_true, if_false, hpath]
        exact .refl c
      | some path =>
        rw [@hroom path.spaceId]
        · exact ⟨.inr, fun h => h.resolve_left nofun⟩
        · rw [hpid, newSpace.eq_def, hmulti]
          simp only [Bool.not_true, Bool.false_eq_true, if_false, hpath]
  · refine @hroom 2 ?_
    rw [newSpace.eq_def, Bool.eq_false_of_not_eq_true hmulti]
    rfl

theorem recvPacket_mute (h : c.Mute) (recvPid : Option ℕ) : (c.recvPacket recvPid a).1 = c := by
  rw [recvPacket]
  by_cases hclosing : c.closing = true
  · rw [if_pos hclosing]
  · rw [if_neg hclosing]
    cases hscid : c.scid with
    | error => rfl
    | ok cid => exact nomatch (congrArg Except.isOk hscid).symm.trans (h.resolve_left hclosing)

theorem recvPacket_forged (hforged : a.authentic = false) (hdone : c.handshakeCompleted = true)
    (honeRtt : a.pktType = .oneRtt) (h : ¬c.Mute) (recvPid : Option ℕ) :
    (c.recvPacket recvPid a).1 = (c.getOrCreatePath recvPid a).1 := by
  obtain ⟨hopen, hscid⟩ := not_or.mp h
  rw [recvPacket, if_neg hopen, pathFor, if_pos ⟨honeRtt, hdone⟩]
  cases heq : c.scid with
  | error => exact absurd (congrArg Except.isOk heq) hscid
  | ok =>
    dsimp only
    rcases c.getOrCreatePath recvPid a with ⟨c', r⟩
    cases r with
    | error => rfl
    | ok => simp [hforged]

theorem settle_fst (r : Links × Result Unit) :
    (settle r).1 = r.1 ∨ (settle r).1 = { r.1 with closing := true } := by
  obtain ⟨c, r⟩ := r
  cases r with
  | ok => exact .inl rfl
  | error e => cases e <;> first | exact .inl rfl | exact .inr rfl

theorem untouched_settle_iff {r : Links × Result Unit} :
    c.Untouched (settle r).1 ↔ c.Untouched r.1 := by
  rcases settle_fst r with heq | heq
  · rw [heq]
  · rw [heq]
    exact ⟨fun h => ⟨h.paths, h.cids, h.spaces⟩, fun h => ⟨h.paths, h.cids, h.spaces⟩⟩

/-- A packet that fails authentication changes nothing but credit exactly if it is dropped first or
the lookup of its path has nothing to do. -/
theorem forged_packet_untouched (c : Links) (a : Incoming) (hforged : a.authentic = false)
    (hserver : c.isServer = true) (hdone : c.handshakeCompleted = true)
    (honeRtt : a.pktType = .oneRtt) (hword : ∀ p ∈ c.paths.paths, p.antiAmplLimit ≤ u64Max)
    (hseqs : Keyed.Distinct ConnectionIdItem.seq c.cids.scids.queue) :
    c.Untouched (c.recv a).1 ↔ c.Mute ∨ c.Routed a := by
  rw [recv.eq_def]
  cases hpid : c.paths.getPathId a.addrs with
  | none =>
    dsimp only
    rw [if_neg (by rw [hserver]; exact Bool.false_ne_true), untouched_settle_iff]
    by_cases hmute : c.Mute
    · rw [recvPacket_mute hmute]
      exact iff_of_true (.refl c) (.inl hmute)
    · rw [recvPacket_forged hforged hdone honeRtt hmute, or_iff_right hmute, Routed, hpid,
        getOrCreatePath]
      cases hfind : c.cids.findScid a.dcid with
      | none => exact iff_of_true (.refl c) nofun
      | some item => simpa using createPath_untouched_iff hpid item
  | some pathId =>
    dsimp only
    have hcredit := PathMap.credited_incAntiAmplLimit c.paths hword pathId a.len
    rw [untouched_settle_iff]
    have hmute : { c with paths := c.paths.incAntiAmplLimit pathId a.len }.Mute ↔ c.Mute := by
      rw [Mute, Mute, scid_credited hcredit]
    by_cases h : c.Mute
    · rw [recvPacket_mute (hmute.mpr h)]
      exact iff_of_true ⟨hcredit, rfl, rfl⟩ (.inl h)
    · rw [recvPacket_forged hforged (by exact hdone) honeRtt (mt hmute.mp h), or_iff_right h,
        Routed, hpid, getOrCreatePath]
      cases hfind : c.cids.findScid a.dcid with
      | none => exact iff_of_true ⟨hcredit, rfl, rfl⟩ nofun
      | some item =>
        have hitem := hseqs.find?_eq_some_iff.mpr ⟨(Keyed.find?_some hfind).1, rfl⟩
        rw [← findScid_cid hfind]
        simpa using useScid_untouched_iff hcredit hitem

def twoIds : Links :=
  Exec.follow step (fun _ _ => True) (start server)
    [.receive (server.handshakePacket [3]), .complete true, .addScid (.new [8]) 6 true]

def forged (addrs : SocketAddr × SocketAddr) (dcid : List UInt8) : Incoming :=
  { server.packet addrs dcid [] with authentic := false }

theorem forged_packet_untouched_twoIds :
    twoIds.isServer = true ∧ twoIds.handshakeCompleted = true ∧
      twoIds.Untouched (twoIds.recv (forged server.main [1])).1 ∧
      ¬twoIds.Untouched (twoIds.recv (forged server.main [8])).1 := by
  have hiff (dcid : List UInt8) :=
    forged_packet_untouched twoIds (forged server.main dcid) rfl (by decide +kernel)
      (by decide +kernel) rfl (by decide +kernel) (by unfold Keyed.Distinct; decide +kernel)
  refine ⟨by decide +kernel, by decide +kernel, ?_, ?_⟩
  · exact (hiff [1]).mpr (by decide +kernel)
  · exact mt (hiff [8]).mp (by decide +kernel)

/-- From another address, such a packet makes a path that asks for a challenge, with the second id
and a packet number space; on the first path, it changes the id. -/
theorem forged_packet_binds :
    Exec.Reaches step (fun _ _ ↦ True) (start server) twoIds ∧
      twoIds.isServer = true ∧ twoIds.handshakeCompleted = true ∧
      (let c := (twoIds.recv (forged (server.other 2) [8])).1
       twoIds.paths.paths.length = 1 ∧ c.paths.paths.length = 2 ∧
         c.paths.paths.map (·.needSendChallenge) = [false, true] ∧
         twoIds.cids.scids.queue.map (·.pathId) = [some 0, none] ∧
         c.cids.scids.queue.map (·.pathId) = [some 0, some 1] ∧
         twoIds.nextDataExtId = 3 ∧ c.nextDataExtId = 4) ∧
      (let c := (twoIds.recv (forged server.main [8])).1
       twoIds.paths.paths.map (·.scidSeq) = [some 0] ∧
         c.paths.paths.map (·.scidSeq) = [some 1]) := by
  refine ⟨Exec.reaches_follow _ _, ?_⟩
  decide +kernel

end Links

end Tquic
