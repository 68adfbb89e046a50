import Tquic.Connection.DcidChanges

/-!
# The active path of a connection without multipath

Exactly one path is in use as long as the application migrates to validated paths only. A path
that comes into use earlier goes out of use when its validation ends.
-/

namespace Tquic

open List PathMap

theorem countP_le_one_iff {α : Type*} {f : α → Bool} {l : List α} {i : ℕ} {a : α}
    (ha : l[i]? = some a) (hf : f a = true) :
    l.countP f ≤ 1 ↔ ∀ j b, l[j]? = some b → f b = true → j = i := by
  obtain ⟨hi, rfl⟩ := List.getElem?_eq_some_iff.mp ha
  rw [← (getElem_cons_eraseIdx_perm hi).countP_eq f, countP_cons_of_pos hf,
    Nat.add_one_le_iff, Nat.lt_one_iff, countP_eq_zero]
  constructor
  · intro hnone j b hb hon
    by_contra hne
    exact hnone b (mem_eraseIdx_iff_getElem?.mpr ⟨j, hne, hb⟩) hon
  · intro hall b hb hon
    obtain ⟨j, hne, hj⟩ := mem_eraseIdx_iff_getElem?.mp hb
    exact hne (hall j b hj hon)

variable {k : ℕ} {path : Path}

namespace PathMap

variable {m m' : PathMap} {i : ℕ}

def flags (m : PathMap) : List (Bool × PathState × Bool) := m.paths.map Path.flags

theorem getElem?_flags (m : PathMap) (i : ℕ) : m.flags[i]? = (m.get? i).map Path.flags :=
  getElem?_map ..

theorem getElem?_flags_of_lt {j : ℕ} (hj : j < m.paths.length) :
    m.flags[j]? = some m.paths[j].flags := by
  rw [getElem?_flags, get?, getElem?_eq_getElem hj, Option.map_some]

theorem flags_update {f : Path → Path} (hf : ∀ p, (f p).flags = p.flags) (m : PathMap) (i : ℕ) :
    (m.update i f).flags = m.flags :=
  map_modify_of_eq hf m.paths i

def Anchored (m : PathMap) (i : ℕ) : Prop := m.flags[i]? = some (true, .validated, false)

def Alone (m : PathMap) (i : ℕ) : Prop := ∀ j f, m.flags[j]? = some f → f.1 = true → j = i

theorem Anchored.turns (h : m.Anchored i) (hturns : m.Turns m') : m'.Anchored i := by
  rw [Anchored, getElem?_flags] at h ⊢
  obtain ⟨path, hpath, hflags⟩ := Option.map_eq_some_iff.mp h
  have hi : i < m'.paths.length := by
    rw [hturns.length_eq]
    exact (List.getElem?_eq_some_iff.mp hpath).1
  have hpath' : m'.get? i = some m'.paths[i] := getElem?_eq_getElem hi
  obtain ⟨q, hq, hturn⟩ := exists_left_of_forall₂ hturns.paths hpath'
  obtain rfl : q = path := Option.some.inj (hq.symm.trans hpath)
  obtain ⟨hactive, hrest⟩ := Prod.mk.inj hflags
  obtain ⟨hstate, hgone⟩ := Prod.mk.inj hrest
  rw [hpath', Option.map_some, hturn.steady hactive hstate hgone, hflags]

theorem Alone.turns (h : m.Alone i) (hmulti : m.isMultipath = false) (hturns : m.Turns m') :
    m'.Alone i := by
  intro j f hf hactive
  rw [getElem?_flags] at hf
  obtain ⟨path', hpath', rfl⟩ := Option.map_eq_some_iff.mp hf
  obtain ⟨path, hpath, hturn⟩ := exists_left_of_forall₂ hturns.paths hpath'
  apply h j path.flags
  · rw [getElem?_flags]
    exact congrArg (Option.map Path.flags) hpath
  · by_contra hnot
    -- a path that was out of use stays so
    have hmulti' := hturn.active (by simpa [Path.flags] using hnot) hactive
    simp [hmulti] at hmulti'

theorem Anchored.ne_toRemove (h : m.Anchored i) (hk : m.toRemove = some k) : i ≠ k := by
  rintro rfl
  rw [Anchored, getElem?_flags] at h
  obtain ⟨path, hpath, hflags⟩ := Option.map_eq_some_iff.mp h
  obtain ⟨hi, rfl⟩ := List.getElem?_eq_some_iff.mp hpath
  obtain ⟨hactive, hrest⟩ := Prod.mk.inj hflags
  obtain ⟨hstate, hgone⟩ := Prod.mk.inj hrest
  rw [toRemove] at hk
  split at hk
  · next k' hfind =>
      cases hk
      obtain ⟨_, hlast, -⟩ := findIdx?_eq_some_iff_getElem.mp hfind
      simp [hgone] at hlast
  · obtain ⟨_, hlast, -⟩ := findIdx?_eq_some_iff_getElem.mp hk
    simp [Path.unused, hactive, hstate] at hlast

theorem Anchored.insertPath (h : m.Anchored i)
    (hins : m.insertPath path = .ok (k, m')) : m'.Anchored i := by
  have hinserts := inserts_of_insertPath hins
  have hne : i ≠ k := by
    rcases hinserts.paths with ⟨hremove, -⟩ | ⟨rfl, -⟩
    · exact h.ne_toRemove hremove
    · have hlt := (List.getElem?_eq_some_iff.mp h).1
      rw [flags, length_map] at hlt
      exact hlt.ne
  rw [Anchored, getElem?_flags, hinserts.get?_of_ne hne, ← getElem?_flags]
  exact h

theorem Alone.insertPath (h : m.Alone i) (hactive : path.active = false)
    (hins : m.insertPath path = .ok (k, m')) : m'.Alone i := by
  intro j f hf hf'
  rw [getElem?_flags] at hf
  obtain ⟨q, hq, rfl⟩ := Option.map_eq_some_iff.mp hf
  rcases (inserts_of_insertPath hins).get?_cases hq with ⟨-, rfl⟩ | ⟨-, hold⟩
  · simp [Path.flags, hactive] at hf'
  · exact h j q.flags (by rw [getElem?_flags, hold, Option.map_some]) hf'

theorem getActivePathId_of_alone (h : m.Anchored i) (halone : m.Alone i) :
    m.getActivePathId = .ok i := by
  rw [Anchored, getElem?_flags] at h
  obtain ⟨path, hpath, hflags⟩ := Option.map_eq_some_iff.mp h
  obtain ⟨hi, hget⟩ := List.getElem?_eq_some_iff.mp hpath
  have hfind : m.paths.findIdx? (·.active) = some i := by
    rw [findIdx?_eq_some_iff_getElem]
    refine ⟨hi, ?_, fun j hj => ?_⟩
    · rw [hget]
      exact congrArg Prod.fst hflags
    · intro hactive
      have hji := halone j _ (getElem?_flags_of_lt (hj.trans hi)) hactive
      omega
  rw [getActivePathId, hfind]

theorem countP_active (h : m.Anchored i) (halone : m.Alone i) : m.paths.countP (·.active) = 1 := by
  rw [Anchored, getElem?_flags] at h
  obtain ⟨path, hpath, hflags⟩ := Option.map_eq_some_iff.mp h
  have hactive : path.active = true := congrArg Prod.fst hflags
  apply le_antisymm
  · refine (countP_le_one_iff hpath hactive).mpr fun j q hq hon => halone j q.flags ?_ hon
    rw [getElem?_flags]
    exact congrArg (Option.map Path.flags) hq
  · exact countP_pos_iff.mpr ⟨path, mem_of_getElem? hpath, hactive⟩

end PathMap

/-- The application migrates to validated paths that were not given up, and multipath is
not negotiated. -/
abbrev LinkPromise.toValidated : LinkPromise where
  migrate state gone := state = .validated ∧ gone = false
  multipath := False

namespace Links

variable {c c' : Links}

structure OneActive (c : Links) : Prop where
  enableMultipath : c.enableMultipath = false
  isMultipath : c.paths.isMultipath = false
  one : ∃ i, c.paths.Anchored i ∧ c.paths.Alone i

theorem OneActive.of_flags (h : c.OneActive) (henable : c'.enableMultipath = c.enableMultipath)
    (hmulti : c'.paths.isMultipath = c.paths.isMultipath)
    (hflags : c'.paths.flags = c.paths.flags) : c'.OneActive := by
  refine ⟨henable.trans h.enableMultipath, hmulti.trans h.isMultipath, ?_⟩
  obtain ⟨i, hanchored, halone⟩ := h.one
  refine ⟨i, ?_, ?_⟩
  · rw [PathMap.Anchored, hflags]
    exact hanchored
  · rw [PathMap.Alone, hflags]
    exact halone

theorem DcidsOnly.flags (h : c.DcidsOnly c') : c'.paths.flags = c.paths.flags := by
  have hmap := congrArg (List.map Path.flags) h.paths
  rw [map_map, map_map] at hmap
  exact hmap

theorem OneActive.dcidsOnly (h : c.OneActive) (hdcids : c.DcidsOnly c') : c'.OneActive := by
  refine h.of_flags ?_ ?_ hdcids.flags
  · rw [hdcids.links]
  · rw [hdcids.map]

theorem OneActive.activate (h : c.OneActive)
    (hpath : c.paths.get? k = some path) (hstate : path.state = .validated)
    (hgone : path.isAbandon = false) : (c.activate k).OneActive := by
  obtain ⟨i, hanchored, halone⟩ := h.one
  have hactive := getActivePathId_of_alone hanchored halone
  have hpaths : (c.activate k).paths =
      ((c.paths.update i fun p => { p with active := false }).update k fun p =>
        { p with active := true, needSendChallenge := p.needSendChallenge || !p.validated }) := by
    rw [Links.activate, if_neg (by simp [h.enableMultipath]), hactive]
  refine ⟨h.enableMultipath, ?_, k, ?_, ?_⟩
  · rw [hpaths]
    exact h.isMultipath
  · rw [PathMap.Anchored, hpaths, getElem?_flags, get?_update, if_pos rfl, get?_update]
    split_ifs
    · simp [hpath, Path.flags, hstate, hgone]
    · simp [hpath, Path.flags, hstate, hgone]
  · -- the previous path has gone out of use
    intro j f hf hfactive
    by_contra hne
    rw [hpaths, getElem?_flags, get?_update, if_neg (Ne.symm hne), get?_update] at hf
    split_ifs at hf with hij
    · rw [Option.map_map] at hf
      obtain ⟨q, -, rfl⟩ := Option.map_eq_some_iff.mp hf
      simp [Path.flags] at hfactive
    · rw [← getElem?_flags] at hf
      exact hij (halone j f hf hfactive).symm

/-- Every move keeps exactly one path active. -/
theorem OneActive.move (h : c.OneActive) (hmove : Move .toValidated c c') : c'.OneActive := by
  cases hmove with
  | turned paths hturns =>
    obtain ⟨i, hanchored, halone⟩ := h.one
    exact ⟨h.enableMultipath, hturns.isMultipath.trans h.isMultipath, i, hanchored.turns hturns,
      halone.turns h.isMultipath hturns⟩
  | noted | handled | spaceAdded | challenged | answered | scidMarked | scidAdded | scidLimited
  | advertised | retiredDcid | relisted => exact h.of_flags rfl rfl rfl
  | abandoned i henable => simp [h.enableMultipath] at henable
  | inserted path k paths hfresh hdone hins =>
    obtain ⟨i, hanchored, halone⟩ := h.one
    have hrest := (inserts_of_insertPath hins).rest
    exact ⟨h.enableMultipath, (congrArg PathMap.isMultipath hrest).trans h.isMultipath, i,
      hanchored.insertPath hins, halone.insertPath hfresh.active hins⟩
  | activated k path hpath hmigrate => exact h.activate hpath hmigrate.1 hmigrate.2
  | scidUsed =>
    refine h.of_flags rfl rfl ?_
    apply flags_update
    intro q
    rfl
  | retireFrame seqNum pktDcid =>
    obtain ⟨cids, i, f, hfst, -, hf⟩ := onRetireConnectionId_fst c seqNum pktDcid
    rw [hfst]
    refine h.of_flags rfl rfl (flags_update (fun q => ?_) c.paths i)
    rcases hf q with heq | ⟨-, heq⟩
    · rw [heq]
    · rw [heq]
      rfl
  | newIdFrame seqNum retirePriorTo connId resetToken =>
    exact h.dcidsOnly (dcidsOnly_onNewConnectionId seqNum retirePriorTo connId resetToken)
  | newIdRefused seqNum retirePriorTo connId resetToken =>
    exact h.dcidsOnly
      ((dcidsOnly_onNewConnectionId seqNum retirePriorTo connId resetToken).close true)
  | dcidAssigned i seq => exact h.dcidsOnly (dcidsOnly_update _ _ rfl i (some seq))
  | dcidEmpty i dcids => exact h.dcidsOnly (dcidsOnly_update _ dcids rfl i (some 0))
  | named cid resetToken i =>
    exact h.of_flags rfl rfl (@dcidsOnly_setInitialDcid c cid resetToken i).flags
  | retried cid i => exact h.of_flags rfl rfl (@dcidsOnly_setInitialDcid c cid none i).flags
  | completed multipath hmulti =>
    have hfalse : multipath = false := by simpa [LinkPromise.toValidated] using hmulti
    rw [complete]
    split_ifs
    · exact h
    · exact ⟨hfalse, hfalse, h.one⟩

theorem oneActive_start (s : Setup) : (start s).OneActive := by
  have hflags : (start s).paths.flags = [(true, .validated, false)] := by
    rw [start]
    split_ifs
    · rfl
    · rfl
  refine ⟨?_, ?_, 0, by rw [PathMap.Anchored, hflags]; rfl, ?_⟩
  · rw [start]
    split_ifs
    · rfl
    · rfl
  · rw [start]
    split_ifs
    · rfl
    · rfl
  · intro j f hf hactive
    rw [hflags] at hf
    have hj := (List.getElem?_eq_some_iff.mp hf).1
    simpa using hj

/-- In every run of a connection without multipath in which `migrate_path` is called only
for validated paths. -/
theorem one_path_active (s : Setup)
    (h : Exec.Reaches step (Keeps LinkPromise.toValidated) (start s) c) :
    c.paths.paths.countP (·.active) = 1 ∧ ∃ path, c.paths.getActive = .ok path := by
  have hinv : c.OneActive :=
    invariant_of_moves (oneActive_start s) (fun _ _ hc hmove => hc.move hmove) h
  obtain ⟨i, hanchored, halone⟩ := hinv.one
  have hactive := getActivePathId_of_alone hanchored halone
  refine ⟨countP_active hanchored halone, ?_⟩
  rw [PathMap.Anchored, getElem?_flags] at hanchored
  obtain ⟨path, hpath, -⟩ := Option.map_eq_some_iff.mp hanchored
  refine ⟨path, ?_⟩
  rw [getActive, hactive]
  change c.paths.get i = _
  rw [PathMap.get, hpath]

def migration : List Op :=
  [.receive (client.handshakePacket [3]), .complete false,
    .receive (client.packet client.main [1] [.newConnectionId 1 0 (.new [4]) 7]),
    .addPath (client.other 2) 0, .sendPacket ⟨1, 1000, 0, 1200, 99, 0⟩,
    .receive (client.packet (client.other 2) [1] [.pathResponse 99]),
    .migratePath (client.other 2)]

theorem one_path_active_migration :
    let c := Exec.follow step (Keeps LinkPromise.toValidated) (start client) migration
    (c.paths.paths.map (·.active)) = [false, true] ∧ c.paths.paths.countP (·.active) = 1 := by
  refine ⟨by decide +kernel, ?_⟩
  exact (one_path_active client (Exec.reaches_follow (start client) migration)).1

/-- The client migrates before its challenge is answered: the second path has answered, no path is
in use, and the next packet closes the connection. -/
theorem no_path_active :
    let c := Exec.follow step (fun _ _ ↦ True) (start client)
      [.receive (client.handshakePacket [3]), .complete false,
        .receive (client.packet client.main [1] [.newConnectionId 1 0 (.new [4]) 7]),
        .addPath (client.other 2) 0, .sendPacket ⟨1, 1000, 0, 1200, 99, 0⟩,
        .receive (client.packet (client.other 2) [1] [.pathChallenge 5]),
        .migratePath (client.other 2),
        .receive (client.packet (client.other 2) [1] [.pathResponse 99])]
    c.handshakeCompleted = true ∧ c.enableMultipath = false ∧ c.closing = false ∧
      c.paths.paths.map (·.state) = [.validated, .validated] ∧
      c.paths.paths.countP (·.active) = 0 ∧ c.paths.getActive = .error .internalError ∧
      (c.recv (client.packet client.main [1] [])).2 = .error .internalError := by
  decide +kernel

end Links

end Tquic
