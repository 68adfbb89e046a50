import Tquic.Connection.Actives
import Tquic.Connection.Advertised

/-!
# The source id of the active path

Parsing a packet asks for the id that the active path is known by. It stays there as long as the
peer does not retire the id of a path in use, and then no packet closes the connection with an
internal error.
-/

namespace Tquic

open Keyed ConnectionIdMgr PathMap Option

/-! ## Ids name paths that exist -/

def ConnectionIdDeque.Within (d : ConnectionIdDeque) (n : ℕ) : Prop :=
  ∀ e ∈ d.queue, ∀ i ∈ e.pathId, i < n

variable {seq : ℕ}

namespace ConnectionIdDeque

variable {d d' : ConnectionIdDeque} {n n' : ℕ}

theorem Within.mono (h : d.Within n) (hsub : ∀ e ∈ d'.queue, e ∈ d.queue) (hle : n ≤ n') :
    d'.Within n' :=
  fun e he i hi => (h e (hsub e he) i hi).trans_le hle

theorem Within.setPath (h : d.Within n) {i : ℕ} (hi : i < n) : (d.setPath seq i).Within n := by
  intro e he k hk
  rcases mem_of_mem_alter he with hold | ⟨e', -, rfl⟩
  · exact h e hold k hk
  · cases hk
    exact hi

end ConnectionIdDeque

variable {retired : List (ℕ × ℕ)}

namespace ConnectionIdMgr

variable {m : ConnectionIdMgr} {n : ℕ}

variable {retirePriorTo : ℕ}

theorem Lowers.within {m' : ConnectionIdMgr}
    (hlow : Lowers m retirePriorTo m' retired) (h : m.dcids.Within n) :
    m'.dcids.Within n ∧ ∀ r ∈ retired, r.2 < n := by
  refine ⟨h.mono (fun e he => hlow.sublist.subset he) le_rfl, fun r hr => ?_⟩
  cases hlow with
  | kept => exact absurd hr List.not_mem_nil
  | raised =>
    obtain ⟨e, he, hpath⟩ := List.mem_filterMap.mp hr
    obtain ⟨i, hi, rfl⟩ := map_eq_some_iff.mp hpath
    exact h e (List.mem_filter.mp he).1 i hi

theorem AddsDcid.within {cid : ConnectionId} {resetToken : ℕ}
    {out : ConnectionIdMgr × Result (List (ℕ × ℕ))}
    (hadds : AddsDcid m cid seq resetToken retirePriorTo out) (h : m.dcids.Within n) :
    out.1.dcids.Within n ∧ ∀ retired, out.2 = .ok retired → ∀ r ∈ retired, r.2 < n := by
  cases hadds with
  | refused => exact ⟨h, fun retired hr => nomatch hr⟩
  | repeated =>
    refine ⟨h, fun retired hretired r hr => ?_⟩
    cases hretired
    exact absurd hr List.not_mem_nil
  | late _ _ _ hlate =>
    refine ⟨h, fun retired hretired r hr => ?_⟩
    rcases hlate with rfl | rfl
    · cases hretired
      exact absurd hr List.not_mem_nil
    · cases hretired
  | overdue hlt => exact ⟨((Lowers.raised hlt).within h).1, fun retired hr => nomatch hr⟩
  | full hlow => exact ⟨(hlow.within h).1, fun retired hr => nomatch hr⟩
  | stored _ _ _ _ hlow =>
    obtain ⟨hwithin, hretired⟩ := hlow.within h
    refine ⟨fun e he k hk => ?_, fun retired hr => Except.ok.inj hr ▸ hretired⟩
    rcases List.mem_append.mp he with he | he
    · exact hwithin e he k hk
    · rw [List.mem_singleton.mp he] at hk
      cases hk

end ConnectionIdMgr

namespace Links

variable {p : LinkPromise} {c c' : Links}

structure Placed (c : Links) : Prop where
  scids : c.cids.scids.Within c.paths.paths.length
  dcids : c.cids.dcids.Within c.paths.paths.length
  addrs : ∀ a i, c.paths.addrs a = some i → i < c.paths.paths.length

section

variable (h : c.Placed)

include h

theorem Placed.of_dcids (hscids : c'.cids.scids = c.cids.scids)
    (hdcids : c'.cids.dcids.Within c.paths.paths.length)
    (haddrs : c'.paths.addrs = c.paths.addrs)
    (hlen : c'.paths.paths.length = c.paths.paths.length) : c'.Placed := by
  refine ⟨?_, ?_, ?_⟩
  · rw [hscids, hlen]
    exact h.scids
  · rw [hlen]
    exact hdcids
  · rw [haddrs, hlen]
    exact h.addrs

theorem Placed.of_eq (hscids : c'.cids.scids = c.cids.scids)
    (hdcids : c'.cids.dcids = c.cids.dcids) (haddrs : c'.paths.addrs = c.paths.addrs)
    (hlen : c'.paths.paths.length = c.paths.paths.length) : c'.Placed :=
  h.of_dcids hscids (hdcids ▸ h.dcids) haddrs hlen

theorem Placed.of_paths {paths : PathMap} (haddrs : paths.addrs = c.paths.addrs)
    (hlen : paths.paths.length = c.paths.paths.length) : { c with paths := paths }.Placed :=
  h.of_eq rfl rfl haddrs hlen

theorem placed_reassignDcid (first : ℕ × ℕ) :
    (c.reassignDcid first).1.Placed ∧
      (c.reassignDcid first).1.paths.paths.length = c.paths.paths.length ∧
      (first.2 < c.paths.paths.length → (c.reassignDcid first).2 = .ok ()) := by
  rw [reassignDcid]
  cases hpath : c.paths.get? first.2 with
  | none =>
    refine ⟨h, rfl, fun hlt => ?_⟩
    rw [get?, getElem?_eq_none_iff] at hpath
    omega
  | some =>
    dsimp only
    split_ifs
    · exact ⟨h, rfl, fun _ => rfl⟩
    · cases hlowest : c.cids.lowestUnusedDcidSeq with
      | none =>
        have hlen := length_update c.paths first.2 fun p => { p with dcidSeq := none }
        exact ⟨h.of_paths rfl hlen, hlen, fun _ => rfl⟩
      | some seq =>
        dsimp only
        rw [markDcidUsed_lowest hlowest]
        have hlen := length_update c.paths first.2 fun p => { p with dcidSeq := some seq }
        exact ⟨h.of_dcids rfl (h.dcids.setPath (get?_lt hpath)) rfl hlen, hlen, fun _ => rfl⟩

theorem placed_reassignDcids
    (hretired : ∀ r ∈ retired, r.2 < c.paths.paths.length) :
    (reassignDcids retired c).1.Placed ∧ (reassignDcids retired c).2 = .ok () := by
  induction retired generalizing c with
  | nil => exact ⟨h, rfl⟩
  | cons first rest ih =>
    obtain ⟨hplaced, hlen, hok⟩ := placed_reassignDcid h first
    have hfirst := hok (hretired first List.mem_cons_self)
    rw [reassignDcids]
    rcases heq : c.reassignDcid first with ⟨c', r⟩
    rw [heq] at hplaced hlen hfirst
    subst hfirst
    apply ih hplaced
    intro r hr
    rw [hlen]
    exact hretired r (.tail _ hr)

theorem placed_onNewConnectionId (seqNum retirePriorTo : ℕ) (connId : ConnectionId)
    (resetToken : ℕ) :
    (c.onNewConnectionId seqNum retirePriorTo connId resetToken).1.Placed ∧
      (c.onNewConnectionId seqNum retirePriorTo connId resetToken).2 ≠ .error .internalError := by
  have hadds := c.cids.addDcid_cases connId seqNum resetToken retirePriorTo
  obtain ⟨hwithin, hretired⟩ := hadds.within h.dcids
  obtain ⟨dcids, waiting, largest, hfst⟩ := hadds.fst
  rw [onNewConnectionId]
  generalize c.cids.addDcid connId seqNum resetToken retirePriorTo = out
    at hadds hwithin hretired hfst ⊢
  obtain ⟨cids, r⟩ := out
  dsimp only at hwithin hretired hfst
  have hplaced : { c with cids := cids }.Placed :=
    ⟨by rw [hfst]; exact h.scids, hwithin, h.addrs⟩
  cases r with
  | error =>
    refine ⟨hplaced, fun he => ?_⟩
    cases he
    rcases hadds.isPeerError with hpeer | hpeer
    · cases hpeer
    · cases hpeer
  | ok retired =>
    obtain ⟨hplaced', hok⟩ := placed_reassignDcids hplaced (hretired retired rfl)
    exact ⟨hplaced', fun he => by cases hok.symm.trans he⟩

/-- Every move keeps ids and addresses at paths that exist. -/
theorem placed_move (hmove : Move p c c') : c'.Placed := by
  cases hmove with
  | turned paths hturns => exact h.of_paths hturns.addrs hturns.length_eq
  | noted | handled | spaceAdded | challenged | answered | advertised | retiredDcid =>
    exact h.of_eq rfl rfl rfl rfl
  | scidLimited => exact ⟨h.scids.mono (fun e he => he) le_rfl, h.dcids, h.addrs⟩
  | abandoned => exact h.of_paths rfl (length_update _ _ _)
  | inserted path i paths hfresh hdone hins =>
    have hinserts := inserts_of_insertPath hins
    have hle := hinserts.length_le
    refine ⟨h.scids.mono (fun e he => he) hle, h.dcids.mono (fun e he => he) hle, ?_⟩
    intro a k hk
    rcases hinserts.addrs a k hk with rfl | hk
    · exact hinserts.lt
    · exact (h.addrs a k hk).trans_le hle
  | activated =>
    rw [activate]
    split
    · exact h.of_paths rfl (length_update _ _ _)
    · split
      · exact h.of_paths rfl (by rw [length_update, length_update])
      · exact h.of_paths rfl (length_update _ _ _)
  | scidUsed => exact h.of_paths rfl (length_update _ _ _)
  | scidMarked seq i hi => exact ⟨h.scids.setPath hi, h.dcids, h.addrs⟩
  | retireFrame seqNum pktDcid =>
    obtain ⟨cids, i, f, hfst, hcids, -⟩ := onRetireConnectionId_fst c seqNum pktDcid
    rw [hfst]
    rcases hcids with rfl | rfl
    · exact h.of_paths rfl (length_update _ _ _)
    · obtain ⟨queue, retirePriorTo, hretire, hqueue, -⟩ :=
        retireScid_fst c.cids seqNum pktDcid
      have hplaced : { c with cids := (c.cids.retireScid seqNum pktDcid).1 }.Placed := by
        rw [hretire]
        refine ⟨h.scids.mono (fun e he => ?_) le_rfl, h.dcids, h.addrs⟩
        rcases hqueue with rfl | rfl
        · exact he
        · exact (remove_sublist _ _).subset he
      exact hplaced.of_paths rfl (length_update _ _ _)
  | newIdFrame seqNum retirePriorTo connId resetToken =>
    exact (placed_onNewConnectionId h seqNum retirePriorTo connId resetToken).1
  | newIdRefused seqNum retirePriorTo connId resetToken =>
    exact (placed_onNewConnectionId h seqNum retirePriorTo connId resetToken).1.of_eq
      rfl rfl rfl rfl
  | dcidAssigned i seq hi =>
    exact h.of_dcids rfl (h.dcids.setPath hi) rfl (length_update _ _ _)
  | dcidEmpty i dcids hi hzero hdcids =>
    refine h.of_dcids rfl ?_ rfl (length_update _ _ _)
    rcases hdcids with rfl | rfl
    · exact h.dcids
    · exact h.dcids.setPath hi
  | named cid resetToken i hi | retried cid i hi =>
    refine h.of_dcids rfl ?_ rfl (length_update _ _ _)
    intro e he k hk
    rw [List.mem_singleton.mp he] at hk
    cases hk
    exact hi
  | scidAdded cid token retireIfNeeded =>
    change { c with cids := (c.cids.addScid cid (some token) true none retireIfNeeded).1 }.Placed
    obtain ⟨r, heq | heq⟩ := addScid_fst c.cids cid token retireIfNeeded
    · rw [heq]
      exact h.of_eq rfl rfl rfl rfl
    · rw [heq]
      refine ⟨fun e he k hk => ?_, h.dcids, h.addrs⟩
      rcases List.mem_append.mp he with he | he
      · exact h.scids e he k hk
      · rw [List.mem_singleton.mp he] at hk
        cases hk
  | completed =>
    rw [complete]
    split_ifs
    · exact h
    · exact h.of_eq rfl rfl rfl rfl
  | relisted frame =>
    cases frame with
    | newConnectionId | retireConnectionId | pathChallenge | pathResponse =>
      exact h.of_eq rfl rfl rfl rfl

end

theorem placed_start (s : Setup) : (start s).Placed := by
  have hscids : ∀ e ∈ [(⟨s.scid, 0, s.resetToken, some 0⟩ : ConnectionIdItem)],
      ∀ i ∈ e.pathId, i < 1 := by
    intro e he i hi
    rw [List.mem_singleton.mp he] at hi
    cases hi
    exact zero_lt_one
  have haddrs : ∀ (b a : SocketAddr × SocketAddr) i,
      Function.update (fun _ => none) b (some 0) a = some i → i < 1 := by
    intro b a i hi
    rcases update_eq_some hi with hi | hi
    · cases hi
      exact zero_lt_one
    · cases hi
  rw [start]
  split_ifs
  · exact ⟨hscids, fun e he => absurd he List.not_mem_nil, haddrs _⟩
  · refine ⟨hscids, fun e he i hi => ?_, haddrs _⟩
    rw [List.mem_singleton.mp he] at hi
    cases hi
    exact zero_lt_one

/-! ## Paths in use are known by stored ids -/

def ScidStored (c : Links) (seq : ℕ) : Prop := ∃ e ∈ c.cids.scids.queue, e.seq = seq

instance (c : Links) (seq : ℕ) : Decidable (c.ScidStored seq) :=
  inferInstanceAs (Decidable (∃ e ∈ c.cids.scids.queue, e.seq = seq))

/-- Some path in use is validated and was not given up, and every path in use is known by
a stored id. -/
structure Steady (c : Links) : Prop where
  anchor : ∃ path ∈ c.paths.paths, path.flags = (true, .validated, false)
  known : ∀ path ∈ c.paths.paths, path.active = true →
    ∃ seq ∈ path.scidSeq, c.ScidStored seq

instance (c : Links) : Decidable c.Steady :=
  decidable_of_iff
    ((∃ path ∈ c.paths.paths, path.flags = (true, .validated, false)) ∧
      ∀ path ∈ c.paths.paths, path.active = true → ∃ seq ∈ path.scidSeq, c.ScidStored seq)
    ⟨fun h => ⟨h.1, h.2⟩, fun h => ⟨h.anchor, h.known⟩⟩

theorem exists_anchored : (∃ i, c.paths.Anchored i) ↔
    ∃ path ∈ c.paths.paths, path.flags = (true, .validated, false) := by
  constructor
  · rintro ⟨i, h⟩
    rw [PathMap.Anchored, getElem?_flags] at h
    obtain ⟨path, hpath, hflags⟩ := map_eq_some_iff.mp h
    exact ⟨path, List.mem_of_getElem? hpath, hflags⟩
  · rintro ⟨path, hpath, hflags⟩
    obtain ⟨i, hi⟩ := List.getElem?_of_mem hpath
    refine ⟨i, ?_⟩
    rw [PathMap.Anchored, getElem?_flags, get?, hi, map_some, hflags]

theorem Steady.findIdx?_active (h : c.Steady) :
    ∃ i, c.paths.paths.findIdx? (·.active) = some i := by
  obtain ⟨path, hpath, hflags⟩ := h.anchor
  apply isSome_iff_exists.mp
  rw [List.findIdx?_isSome, List.any_eq_true]
  exact ⟨path, hpath, congrArg Prod.fst hflags⟩

theorem Steady.scid_ok (h : c.Steady) : ∃ cid, c.scid = .ok cid := by
  obtain ⟨i, hi⟩ := h.findIdx?_active
  obtain ⟨hlt, hactive, -⟩ := List.findIdx?_eq_some_iff_getElem.mp hi
  obtain ⟨seq, hseq, e, he, hkey⟩ := h.known _ (List.getElem_mem hlt) hactive
  obtain ⟨item, hitem⟩ := exists_find?.mpr ⟨e, he, hkey⟩
  have hget : c.paths.get? i = some c.paths.paths[i] := List.getElem?_eq_getElem hlt
  have hpathOk : c.paths.getActive = .ok c.paths.paths[i] := by
    rw [getActive, getActivePathId, hi]
    change c.paths.get i = _
    rw [PathMap.get, hget]
  have hitemOk : c.cids.getScid seq = .ok item := by
    rw [getScid, ConnectionIdDeque.get?, hitem]
  refine ⟨item.cid, ?_⟩
  rw [mem_def] at hseq
  simp [scid, hpathOk, hseq, hitemOk, bind, Except.bind, pure, Except.pure]

theorem Steady.change (h : c.Steady) (hanchor : ∀ i, c.paths.Anchored i → c'.paths.Anchored i)
    (hstored : ∀ path ∈ c.paths.paths, path.active = true → ∀ seq ∈ path.scidSeq,
      c.ScidStored seq → c'.ScidStored seq)
    (hknown : ∀ path' ∈ c'.paths.paths, path'.active = true →
      (∃ path ∈ c.paths.paths, path.active = true ∧ path'.scidSeq = path.scidSeq) ∨
        ∃ seq ∈ path'.scidSeq, c'.ScidStored seq) : c'.Steady := by
  constructor
  · obtain ⟨i, hi⟩ := exists_anchored.mpr h.anchor
    exact exists_anchored.mp ⟨i, hanchor i hi⟩
  · intro path' hpath' hactive
    rcases hknown path' hpath' hactive with ⟨path, hpath, hactive, hseq⟩ | hstored'
    · obtain ⟨seq, hmem, hs⟩ := h.known path hpath hactive
      exact ⟨seq, hseq ▸ hmem, hstored path hpath hactive seq hmem hs⟩
    · exact hstored'

variable {i : ℕ} {f : Path → Path} {cid : ConnectionId} {item : ConnectionIdItem}

theorem anchored_update {m : PathMap} {k : ℕ} (hf : ∀ q, (f q).flags = q.flags) (h : m.Anchored k) :
    (m.update i f).Anchored k := by
  rw [PathMap.Anchored, flags_update hf]
  exact h

theorem Steady.dcidsOnly (h : c.Steady) (hdcids : c.DcidsOnly c') : c'.Steady := by
  have hscids : c'.cids.scids = c.cids.scids := by rw [hdcids.cids]
  refine h.change ?_ ?_ ?_
  · intro i hi
    rw [PathMap.Anchored, hdcids.flags]
    exact hi
  · rintro path - - seq - ⟨e, he, hkey⟩
    exact ⟨e, hscids ▸ he, hkey⟩
  · intro path' hpath' hactive
    have hmem : path'.bare ∈ c.paths.paths.map .bare := by
      rw [← hdcids.paths]
      exact List.mem_map_of_mem hpath'
    obtain ⟨path, hpath, hbare⟩ := List.mem_map.mp hmem
    refine .inl ⟨path, hpath, ?_, ?_⟩
    · exact (congrArg Path.active hbare).trans hactive
    · exact (congrArg Path.scidSeq hbare).symm

/-! ## The path of a packet -/

def Holds (c : Links) (i : ℕ) (cid : ConnectionId) : Prop :=
  ∃ path, c.paths.get? i = some path ∧
    ∃ seq ∈ path.scidSeq, ∃ e ∈ c.cids.scids.queue, e.seq = seq ∧ e.cid = cid

theorem mem_setPath {d : ConnectionIdDeque}
    (hd : Keyed.Distinct ConnectionIdItem.seq d.queue) {e : ConnectionIdItem} (he : e ∈ d.queue) :
    ∃ e' ∈ (d.setPath seq i).queue, e'.seq = e.seq ∧ e'.cid = e.cid := by
  by_cases hkey : e.seq = seq
  · exact ⟨_, hd.mem_alter.mpr (.inr ⟨e, he, hkey, rfl⟩), rfl, rfl⟩
  · exact ⟨e, hd.mem_alter.mpr (.inl ⟨he, hkey⟩), rfl, rfl⟩

theorem Steady.scidMarked (h : c.Steady) (hsourced : c.cids.Sourced) (seq i : ℕ) :
    { c with cids := { c.cids with scids := c.cids.scids.setPath seq i } }.Steady := by
  refine h.change (fun _ hi => hi) ?_ fun path hpath hactive => .inl ⟨path, hpath, hactive, rfl⟩
  rintro path - - s - ⟨e, he, hkey⟩
  obtain ⟨e', he', hkey', -⟩ := mem_setPath hsourced.seqs he
  exact ⟨e', he', hkey'.trans hkey⟩

theorem Holds.scidMarked (h : c.Holds i cid) (hsourced : c.cids.Sourced) (seq k : ℕ) :
    { c with cids := { c.cids with scids := c.cids.scids.setPath seq k } }.Holds i cid := by
  obtain ⟨path, hpath, s, hs, e, he, hkey, hcid⟩ := h
  obtain ⟨e', he', hkey', hcid'⟩ := mem_setPath hsourced.seqs he
  exact ⟨path, hpath, s, hs, e', he', hkey'.trans hkey, hcid'.trans hcid⟩

theorem markScidUsed_stored {m : ConnectionIdMgr} (h : item ∈ m.scids.queue) (i : ℕ) :
    m.markScidUsed item.seq i = .ok { m with scids := m.scids.setPath item.seq i } := by
  have hfind : ∃ e, find? ConnectionIdItem.seq m.scids.queue item.seq = some e :=
    exists_find?.mpr ⟨item, h, rfl⟩
  obtain ⟨e, he⟩ := hfind
  rw [markScidUsed, ConnectionIdDeque.get?, he]

theorem steady_useScid (h : c.Steady) (hsourced : c.cids.Sourced) (hi : i < c.paths.paths.length)
    (hitem : item ∈ c.cids.scids.queue) :
    ∃ c', c.useScid i item = (c', .ok i) ∧ c'.Steady ∧ c'.Holds i item.cid := by
  have hpath : c.paths.get? i = some c.paths.paths[i] := List.getElem?_eq_getElem hi
  rw [useScid, hpath]
  dsimp only
  split_ifs with hheld
  · refine ⟨c, rfl, h, _, hpath, ?_⟩
    obtain ⟨seq, hseq, hcid⟩ := bind_eq_some_iff.mp hheld
    obtain ⟨e, he, hcid⟩ := map_eq_some_iff.mp hcid
    obtain ⟨hmem, hkey⟩ := find?_some he
    exact ⟨seq, hseq, e, hmem, hkey, hcid⟩
  · rw [markScidUsed_stored hitem]
    have hused : { c with
        paths := c.paths.update i fun p => { p with scidSeq := some item.seq } }.Steady := by
      refine h.change (fun k => anchored_update fun _ => rfl) (fun _ _ _ _ _ hs => hs) ?_
      intro path' hpath' hactive
      rcases mem_update hpath' with hold | ⟨q, -, rfl⟩
      · exact .inl ⟨path', hold, hactive, rfl⟩
      · exact .inr ⟨item.seq, rfl, item, hitem, rfl⟩
    have hholds : { c with
        paths := c.paths.update i fun p => { p with scidSeq := some item.seq } }.Holds i
          item.cid := by
      refine ⟨{ c.paths.paths[i] with scidSeq := some item.seq }, ?_, item.seq, rfl, item, hitem,
        rfl, rfl⟩
      simp [get?_update, hpath]
    exact ⟨_, rfl, hused.scidMarked hsourced item.seq i, hholds.scidMarked hsourced item.seq i⟩

theorem insertPath_error {m : PathMap} {path : Path} {e : Error}
    (h : m.insertPath path = .error e) : e = .done := by
  rw [insertPath] at h
  split_ifs at h
  split at h
  · exact (Except.error.inj h).symm
  · cases h

theorem steady_createPath (h : c.Steady) (hsourced : c.cids.Sourced) (hplaced : c.Placed)
    (hitem : item ∈ c.cids.scids.queue) (a : Incoming) :
    (c.createPath item a).1.Steady ∧ (c.createPath item a).2 ≠ .error .internalError ∧
      ∀ i, (c.createPath item a).2 = .ok i → (c.createPath item a).1.Holds i item.cid := by
  rw [createPath]
  have hcid : ∀ i ∈ (if c.cids.zeroLengthScid = true then none else item.pathId),
      (c.paths.get? i).isNone = false := by
    intro i hi
    split_ifs at hi
    · cases hi
    · have hlt := hplaced.scids item hitem i hi
      rw [get?, List.getElem?_eq_getElem hlt]
      rfl
  generalize (if c.cids.zeroLengthScid = true then none else item.pathId) = cidPid at hcid ⊢
  have hspace : ∃ c' spaceId, c.newSpace cidPid = (c', .ok spaceId) ∧
      (c' = c ∨ c' = { c with nextDataExtId := c.nextDataExtId + 1 }) := by
    rw [newSpace.eq_def]
    split_ifs
    · exact ⟨c, 2, rfl, .inl rfl⟩
    · cases cidPid with
      | none => exact ⟨_, _, rfl, .inr rfl⟩
      | some i =>
        dsimp only
        cases hget : c.paths.get? i with
        | none =>
          have hsome := hcid i rfl
          rw [hget] at hsome
          cases hsome
        | some path => exact ⟨c, path.spaceId, rfl, .inl rfl⟩
  obtain ⟨c', spaceId, heq, hsame⟩ := hspace
  obtain ⟨h', hsourced', hitem'⟩ : c'.Steady ∧ c'.cids.Sourced ∧ item ∈ c'.cids.scids.queue := by
    rcases hsame with rfl | rfl
    · exact ⟨h, hsourced, hitem⟩
    · exact ⟨⟨h.anchor, h.known⟩, hsourced, hitem⟩
  rw [heq]
  dsimp only
  split
  · next e hins =>
      obtain rfl := insertPath_error hins
      exact ⟨h', by rintro ⟨⟩, by rintro i ⟨⟩⟩
  · next i paths hins =>
      have hinserts := inserts_of_insertPath hins
      have hinserted : { c' with paths := paths }.Steady := by
        refine h'.change (fun k hk => hk.insertPath hins) (fun _ _ _ _ _ hs => hs) ?_
        intro path' hpath' hactive
        obtain ⟨k, hk⟩ := List.getElem?_of_mem hpath'
        rcases hinserts.get?_cases hk with ⟨-, rfl⟩ | ⟨-, hold⟩
        · cases hactive
        · exact .inl ⟨path', List.mem_of_getElem? hold, hactive, rfl⟩
      have hholds : { c' with paths := paths }.Holds i item.cid :=
        ⟨_, hinserts.get?_self, item.seq, rfl, item, hitem', rfl, rfl⟩
      split
      · rw [markScidUsed_stored hitem']
        refine ⟨hinserted.scidMarked hsourced' item.seq i, by rintro ⟨⟩, fun k hk => ?_⟩
        cases hk
        exact hholds.scidMarked hsourced' item.seq i
      · refine ⟨hinserted, by rintro ⟨⟩, fun k hk => ?_⟩
        cases hk
        exact hholds

theorem steady_pathFor (h : c.Steady) (hsourced : c.cids.Sourced) (hplaced : c.Placed)
    (hdone : c.handshakeCompleted = true) {recvPid : Option ℕ}
    (hrecv : ∀ i ∈ recvPid, i < c.paths.paths.length) (a : Incoming) :
    (c.pathFor recvPid a).1.Steady ∧ (c.pathFor recvPid a).2 ≠ .error .internalError ∧
      ∀ i, (c.pathFor recvPid a).2 = .ok i → a.pktType = .oneRtt →
        (c.pathFor recvPid a).1.Holds i a.dcid := by
  rw [pathFor]
  split_ifs with honertt
  · rw [getOrCreatePath]
    cases hfind : c.cids.findScid a.dcid with
    | none => exact ⟨h, by rintro ⟨⟩, by rintro i ⟨⟩⟩
    | some =>
      obtain ⟨hitem, hcid⟩ := findScid_mem hfind
      cases recvPid with
      | some i =>
        obtain ⟨c', heq, hsteady, hholds⟩ := steady_useScid h hsourced (hrecv i rfl) hitem
        dsimp only
        rw [heq]
        refine ⟨hsteady, by rintro ⟨⟩, fun k hk _ => ?_⟩
        cases hk
        exact hcid ▸ hholds
      | none =>
        obtain ⟨hsteady, hne, hholds⟩ := steady_createPath h hsourced hplaced hitem a
        exact ⟨hsteady, hne, fun i hi _ => hcid ▸ hholds i hi⟩
  · obtain ⟨i, hi⟩ := h.findIdx?_active
    refine ⟨h, ?_, fun k _ htype => absurd ⟨htype, hdone⟩ honertt⟩
    rw [getActivePathId, hi]
    rintro ⟨⟩

/-! ## The frames of a packet -/

theorem Steady.update (h : c.Steady) (i : ℕ) (hflags : ∀ q, (f q).flags = q.flags)
    (hscid : ∀ q, (f q).scidSeq = q.scidSeq) : { c with paths := c.paths.update i f }.Steady := by
  refine h.change (fun k => anchored_update hflags) (fun _ _ _ _ _ hs => hs) ?_
  intro path' hpath' hactive
  rcases mem_update hpath' with hold | ⟨q, hq, rfl⟩
  · exact .inl ⟨path', hold, hactive, rfl⟩
  · refine .inl ⟨q, List.mem_of_getElem? hq, ?_, hscid q⟩
    exact (congrArg Prod.fst (hflags q)).symm.trans hactive

theorem Holds.update (h : c.Holds i cid) (k : ℕ) (hscid : ∀ q, (f q).scidSeq = q.scidSeq) :
    { c with paths := c.paths.update k f }.Holds i cid := by
  obtain ⟨path, hpath, seq, hseq, hrest⟩ := h
  by_cases hk : k = i
  · refine ⟨f path, ?_, seq, by rw [hscid]; exact hseq, hrest⟩
    simp [get?_update, hpath, hk]
  · refine ⟨path, ?_, seq, hseq, hrest⟩
    simp [get?_update, hpath, hk]

theorem Holds.dcidsOnly (h : c.Holds i cid) (hdcids : c.DcidsOnly c') : c'.Holds i cid := by
  obtain ⟨path, hpath, seq, hseq, e, he, hrest⟩ := h
  have hbare : (c'.paths.get? i).map .bare = some path.bare := by
    rw [get?, ← List.getElem?_map, hdcids.paths, List.getElem?_map]
    exact congrArg (Option.map Path.bare) hpath
  obtain ⟨path', hpath', heq⟩ := map_eq_some_iff.mp hbare
  have hscid : path'.scidSeq = path.scidSeq := (congrArg Path.scidSeq heq :)
  have hscids : c'.cids.scids = c.cids.scids := by rw [hdcids.cids]
  exact ⟨path', hpath', seq, hscid ▸ hseq, e, hscids ▸ he, hrest⟩

theorem Steady.pathResponse (h : c.Steady) (hholds : c.Holds i cid) (data : UInt64) :
    { c with paths := c.paths.onPathRespReceived i data }.Steady := by
  have hturns := c.paths.turns_onPathRespReceived i data
  refine h.change (fun k hk => hk.turns hturns) (fun _ _ _ _ _ hs => hs) ?_
  intro path' hpath' hactive
  rcases mem_update hpath' with hold | ⟨q, hq, rfl⟩
  · exact .inl ⟨path', hold, hactive, rfl⟩
  · obtain ⟨path, hpath, seq, hseq, e, he, hkey, -⟩ := hholds
    cases hq.symm.trans hpath
    refine .inr ⟨seq, ?_, e, he, hkey⟩
    rw [(q.turns_onPathRespReceived data).scidSeq]
    exact hseq

end Links

/-- The peer retires no id of a path in use and not the one its packet is sent to, and it
leaves one that it was not asked to retire. -/
abbrev LinkPromise.toSpare : LinkPromise where
  frame c pktDcid frame := ∀ seq ∈ frame.retires?, ∀ item ∈ c.cids.scids.get? seq,
    item.cid ≠ pktDcid ∧
      (∃ e ∈ c.cids.scids.queue, e.seq ≠ seq ∧ c.cids.retirePriorTo ≤ e.seq) ∧
      ∀ path ∈ c.paths.paths, path.active = true → path.scidSeq ≠ some seq

namespace ConnectionIdMgr

variable {m : ConnectionIdMgr}

theorem retireScid_ok (h : m.Sourced) {item e : ConnectionIdItem}
    {pktDcid : ConnectionId} (hitem : m.scids.get? seq = some item) (hcid : item.cid ≠ pktDcid)
    (he : e ∈ m.scids.queue) (hne : e.seq ≠ seq) (hle : m.retirePriorTo ≤ e.seq) :
    ∃ lowest, m.retireScid seq pktDcid = ({ m with
      scids := { m.scids with queue := Keyed.remove ConnectionIdItem.seq m.scids.queue seq }
      retirePriorTo := lowest }, .ok item.pathId) := by
  obtain ⟨hmem, hkey⟩ := find?_some hitem
  have hlt : ¬ m.nextScidSeq ≤ seq := by
    have hbelow := h.below item hmem
    omega
  have hlong : m.scids.queue.length ≠ 1 := by
    intro hone
    obtain ⟨x, hx⟩ := List.length_eq_one_iff.mp hone
    rw [hx, List.mem_singleton] at hmem he
    exact hne (he ▸ hmem ▸ hkey)
  have hremove : m.scids.remove seq = .ok (some item,
      { m.scids with queue := remove ConnectionIdItem.seq m.scids.queue seq }) := by
    rw [ConnectionIdDeque.remove, if_neg, if_neg (fun hand => hlong hand.1), hitem]
    rw [List.isEmpty_iff]
    exact List.ne_nil_of_mem hmem
  have hleft : ∃ lowest, { m with scids := { m.scids with
      queue := remove ConnectionIdItem.seq m.scids.queue seq } }.lowestActiveScidSeq =
        .ok lowest := by
    have hmem' : e.seq ∈ ((remove ConnectionIdItem.seq m.scids.queue seq).map (·.seq)).filter
        (m.retirePriorTo ≤ ·) := by
      rw [List.mem_filter]
      exact ⟨List.mem_map_of_mem (h.seqs.mem_remove.mpr ⟨he, hne⟩), by simpa using hle⟩
    rw [lowestActiveScidSeq]
    cases hmin : List.min? (((remove ConnectionIdItem.seq m.scids.queue seq).map
        (·.seq)).filter (m.retirePriorTo ≤ ·)) with
    | none =>
      rw [List.min?_eq_none_iff] at hmin
      rw [hmin] at hmem'
      exact absurd hmem' List.not_mem_nil
    | some lowest => exact ⟨lowest, rfl⟩
  obtain ⟨lowest, hlowest⟩ := hleft
  rw [retireScid, if_neg hlt, hremove]
  dsimp only
  rw [if_neg hcid, hlowest]
  exact ⟨lowest, rfl⟩

end ConnectionIdMgr

namespace Links

variable {c c' : Links}

variable {pktDcid : ConnectionId} {a : Incoming}

theorem steady_onRetireConnectionId (h : c.Steady) (hsourced : c.cids.Sourced) (hplaced : c.Placed)
    {i seqNum : ℕ} (hholds : c.Holds i pktDcid)
    (hframe : LinkPromise.toSpare.frame c pktDcid (.retireConnectionId seqNum)) :
    (c.onRetireConnectionId seqNum pktDcid).1.Steady ∧
      (c.onRetireConnectionId seqNum pktDcid).2 ≠ .error .internalError ∧
      (c.onRetireConnectionId seqNum pktDcid).1.Holds i pktDcid := by
  cases hget : c.cids.scids.get? seqNum with
  | none =>
    rw [onRetireConnectionId, hget]
    split_ifs
    · exact ⟨h, by rintro ⟨⟩, hholds⟩
    · exact ⟨h, by rintro ⟨⟩, hholds⟩
    · next hsome => exact absurd rfl hsome
  | some item =>
    obtain ⟨hcid, ⟨e, he, hne, hle⟩, hactive⟩ := hframe seqNum rfl item hget
    obtain ⟨hmem, hkey⟩ := find?_some hget
    obtain ⟨lowest, hok⟩ := retireScid_ok hsourced hget hcid he hne hle
    obtain ⟨cids, k, f, hfst, hcids, hf⟩ := onRetireConnectionId_fst c seqNum pktDcid
    -- all ids but the retired one stay
    have hkeep : ∀ e ∈ c.cids.scids.queue, e.seq ≠ seqNum → e ∈ cids.scids.queue := by
      intro e he hne
      rcases hcids with rfl | rfl
      · exact he
      · exact hsourced.mem_retireScid he hne
    refine ⟨?_, ?_, ?_⟩
    · rw [hfst]
      refine h.change (fun j => anchored_update fun q => ?_) ?_ ?_
      · rcases hf q with heq | ⟨-, heq⟩
        · rw [heq]
        · rw [heq]
          rfl
      · rintro path hpath hon seq hseq ⟨e, he, rfl⟩
        refine ⟨e, hkeep e he fun heq => ?_, rfl⟩
        exact hactive path hpath hon (heq ▸ hseq)
      · intro path' hpath' hon
        rcases mem_update hpath' with hold | ⟨q, hq, rfl⟩
        · exact .inl ⟨path', hold, hon, rfl⟩
        · rcases hf q with heq | ⟨hseq, heq⟩
          · rw [heq] at hon ⊢
            exact .inl ⟨q, List.mem_of_getElem? hq, hon, rfl⟩
          · rw [heq] at hon
            exact absurd hseq (hactive q (List.mem_of_getElem? hq) hon)
    · rw [onRetireConnectionId]
      split_ifs
      · rintro ⟨⟩
      · rintro ⟨⟩
      rw [hok]
      cases hpid : item.pathId with
      | none => rintro ⟨⟩
      | some j =>
        have hj := hplaced.scids item hmem j hpid
        dsimp only
        rw [get?, List.getElem?_eq_getElem hj]
        rintro ⟨⟩
    · rw [hfst]
      obtain ⟨path, hpath, seq, hseq, e', he', hkey', hcid'⟩ := hholds
      have hother : seq ≠ seqNum := by
        rintro rfl
        obtain rfl := hsourced.seqs.eq_of_key he' hmem (hkey'.trans hkey.symm)
        exact hcid hcid'
      refine ⟨path, ?_, seq, hseq, e', hkeep e' he' (hkey' ▸ hother), hkey', hcid'⟩
      rw [get?_update]
      split_ifs with hik
      · rw [hpath, map_some]
        rcases hf path with heq | ⟨hs, -⟩
        · rw [heq]
        · exact absurd (some.inj (hseq.symm.trans hs)) hother
      · exact hpath

variable {pktType : PacketType}

theorem steady_recvFrame (h : c.Steady) (hsourced : c.cids.Sourced) (hplaced : c.Placed)
    {i : ℕ} {frame : LinkFrame}
    (hholds : pktType = .oneRtt → c.Holds i pktDcid)
    (hframe : LinkPromise.toSpare.frame c pktDcid frame) :
    (c.recvFrame pktType pktDcid i frame).1.Steady ∧
      (c.recvFrame pktType pktDcid i frame).2 ≠ .error .internalError ∧
      (pktType = .oneRtt → (c.recvFrame pktType pktDcid i frame).1.Holds i pktDcid) := by
  rw [recvFrame.eq_def]
  split_ifs with hallowed
  · exact ⟨h, by rintro ⟨⟩, hholds⟩
  cases frame with
  | newConnectionId seqNum retirePriorTo connId resetToken =>
    have hdcids := @dcidsOnly_onNewConnectionId c seqNum retirePriorTo connId resetToken
    exact ⟨h.dcidsOnly hdcids,
      (placed_onNewConnectionId hplaced seqNum retirePriorTo connId resetToken).2,
      fun htype => (hholds htype).dcidsOnly hdcids⟩
  | retireConnectionId =>
    have htype : pktType = .oneRtt := by simpa [LinkFrame.allowedIn] using hallowed
    obtain ⟨hsteady, hne, hholds'⟩ :=
      steady_onRetireConnectionId h hsourced hplaced (hholds htype) hframe
    exact ⟨hsteady, hne, fun _ => hholds'⟩
  | pathChallenge =>
    refine ⟨?_, by rintro ⟨⟩, fun htype => ?_⟩
    · apply h.update i
      · exact fun q => rfl
      · exact fun q => rfl
    · apply (hholds htype).update i
      exact fun q => rfl
  | pathResponse data =>
    have htype : pktType = .oneRtt := by simpa [LinkFrame.allowedIn] using hallowed
    refine ⟨h.pathResponse (hholds htype) data, by rintro ⟨⟩, fun _ => ?_⟩
    apply (hholds htype).update i
    exact fun q => (q.turns_onPathRespReceived data).scidSeq

structure Served (c : Links) : Prop where
  done : c.handshakeCompleted = true
  sourced : c.cids.Sourced
  placed : c.Placed
  steady : c.Steady

theorem done_move {p : LinkPromise} (h : c.handshakeCompleted = true) (hmove : Move p c c') :
    c'.handshakeCompleted = true := by
  cases hmove with
  | retireFrame seqNum pktDcid =>
    obtain ⟨cids, i, f, hfst, -⟩ := onRetireConnectionId_fst c seqNum pktDcid
    rw [hfst]
    exact h
  | newIdFrame seqNum retirePriorTo connId resetToken
  | newIdRefused seqNum retirePriorTo connId resetToken =>
    rw [(dcidsOnly_onNewConnectionId seqNum retirePriorTo connId resetToken).links]
    exact h
  | completed =>
    rw [complete]
    split_ifs
    · exact h
    · rfl
  | _ => exact h

theorem Served.moves (h : c.Served) (hmoves : Moves .toSpare c c') (hsteady : c'.Steady) :
    c'.Served := by
  have hrest : c'.handshakeCompleted = true ∧ c'.cids.Sourced ∧ c'.Placed := by
    clear hsteady
    induction hmoves with
    | refl => exact ⟨h.done, h.sourced, h.placed⟩
    | tail _ hmove ih =>
      exact ⟨done_move ih.1 hmove, sourced_move ih.2.1 hmove, placed_move ih.2.2 hmove⟩
  exact ⟨hrest.1, hrest.2.1, hrest.2.2, hsteady⟩

theorem steady_recvFrames {i : ℕ} {frames : List LinkFrame} (h : c.Served)
    (hgot : c.gotPeerCid = true) (hholds : pktType = .oneRtt → c.Holds i pktDcid)
    (hkept : FramesKept .toSpare pktType pktDcid i frames c) :
    (recvFrames pktType pktDcid i frames c).1.Steady ∧
      (recvFrames pktType pktDcid i frames c).2 ≠ .error .internalError := by
  induction frames generalizing c with
  | nil => exact ⟨h.steady, nofun⟩
  | cons frame rest ih =>
    obtain ⟨hframe, hrest⟩ := hkept
    have hled := led_recvFrame pktType pktDcid i hgot hframe
    obtain ⟨hsteady, hne, hholds'⟩ :=
      steady_recvFrame h.steady h.sourced h.placed hholds hframe
    rw [recvFrames]
    rcases heq : c.recvFrame pktType pktDcid i frame with ⟨c', r⟩
    rw [heq] at hled hsteady hne hholds' hrest
    cases r with
    | error => exact ⟨hsteady, fun herr => hne (congrArg Except.error (Except.error.inj herr))⟩
    | ok => exact ih (h.moves hled.1 hsteady) hled.2 hholds' hrest

theorem steady_allocateDcids (ids : List ℕ) (h : c.Steady) : (allocateDcids ids c).Steady := by
  induction ids generalizing c with
  | nil => exact h
  | cons i rest ih =>
    rw [allocateDcids]
    split
    · exact ih h
    · split_ifs
      · exact ih h
      · exact ih (h.dcidsOnly (dcidsOnly_update c.cids c.cids.dcids rfl i (some 0)))
      · split
        · exact h
        · next seq _ => exact ih (h.dcidsOnly (dcidsOnly_update _ _ rfl i (some seq)))

theorem steady_processPacket {i : ℕ} (h : c.Served) (hi : i < c.paths.paths.length)
    (hholds : a.pktType = .oneRtt → c.Holds i a.dcid)
    (hkept : FramesKept .toSpare a.pktType a.dcid i a.frames
      (c.trySetDcidForInitialPath i a.scid)) :
    (c.processPacket i a).1.Steady ∧ (c.processPacket i a).2 ≠ .error .internalError := by
  obtain ⟨hset, hgot⟩ := @moves_trySetDcid .toSpare c i hi a.scid
  have hdcids : c.DcidsOnly (c.trySetDcidForInitialPath i a.scid) := by
    rw [trySetDcidForInitialPath]
    split_ifs
    · exact .refl c
    · have hinitial := @dcidsOnly_setInitialDcid c a.scid c.peerResetToken i
      exact ⟨rfl, rfl, rfl, hinitial.paths⟩
  have hserved := h.moves hset (h.steady.dcidsOnly hdcids)
  obtain ⟨hsteady, hne⟩ := steady_recvFrames hserved hgot
    (fun htype => (hholds htype).dcidsOnly hdcids) hkept
  rw [processPacket]
  rcases heq : recvFrames a.pktType a.dcid i a.frames (c.trySetDcidForInitialPath i a.scid)
    with ⟨c', r⟩
  rw [heq] at hsteady hne
  cases r with
  | error => exact ⟨hsteady, fun herr => hne (congrArg Except.error (Except.error.inj herr))⟩
  | ok _ =>
    refine ⟨?_, by rintro ⟨⟩⟩
    apply (steady_allocateDcids _ hsteady).update i
    · exact fun q => rfl
    · exact fun q => rfl

theorem steady_recvPacket {recvPid : Option ℕ} {a : Incoming} (h : c.Served)
    (hrecv : ∀ i ∈ recvPid, i < c.paths.paths.length)
    (hkept : ∀ c' i, c.openPacket recvPid a = some (c', i) →
      FramesKept .toSpare a.pktType a.dcid i a.frames c') :
    (c.recvPacket recvPid a).1.Steady ∧ (c.recvPacket recvPid a).2 ≠ .error .internalError := by
  rw [recvPacket]
  rw [openPacket] at hkept
  by_cases hclosing : c.closing = true
  · rw [if_pos hclosing]
    exact ⟨h.steady, by rintro ⟨⟩⟩
  rw [if_neg hclosing] at hkept ⊢
  obtain ⟨cid, hscid⟩ := h.steady.scid_ok
  rw [hscid] at hkept ⊢
  obtain ⟨hsteady, hne, hholds⟩ :=
    steady_pathFor h.steady h.sourced h.placed h.done hrecv a
  have hmoves := @moves_pathFor .toSpare c recvPid a
  rcases heq : c.pathFor recvPid a with ⟨c', r⟩
  rw [heq] at hkept hsteady hne hholds hmoves
  cases r with
  | error => exact ⟨hsteady, fun herr => hne (congrArg Except.error (Except.error.inj herr))⟩
  | ok i =>
    dsimp only at hkept ⊢
    by_cases hauth : (!a.authentic) = true
    · rw [if_pos hauth]
      exact ⟨hsteady, by rintro ⟨⟩⟩
    · rw [if_neg hauth] at hkept ⊢
      exact steady_processPacket (h.moves hmoves hsteady) (pathFor_lt heq) (hholds i rfl)
        (hkept _ i rfl)

theorem settle_steady {x : Links × Result Unit} (h : x.1.Steady)
    (hne : x.2 ≠ .error .internalError) :
    (settle x).1.Steady ∧ (settle x).2 ≠ .error .internalError := by
  obtain ⟨c', r⟩ := x
  cases r with
  | ok => exact ⟨h, hne⟩
  | error e =>
    cases e with
    | done => exact ⟨h, nofun⟩
    | internalError => exact absurd rfl hne
    | _ => exact ⟨⟨h.anchor, h.known⟩, nofun⟩

theorem Served.credit (h : c.Served) (i len : ℕ) :
    { c with paths := c.paths.incAntiAmplLimit i len }.Served := by
  refine h.moves (moves_of_turns (c.paths.turns_incAntiAmplLimit i len)) ?_
  rw [incAntiAmplLimit]
  split_ifs
  · exact h.steady
  · apply h.steady.update i
    · intro q
      split_ifs
      · rfl
      · rfl
    · intro q
      split_ifs
      · rfl
      · rfl

theorem served_recv (h : c.Served) (hkept : c.ReceiptKept .toSpare a) :
    (c.recv a).1.Served ∧ (c.recv a).2 ≠ .error .internalError := by
  have hmoves := moves_recv hkept
  rw [ReceiptKept, opened] at hkept
  rw [recv] at hmoves ⊢
  cases hid : c.paths.getPathId a.addrs with
  | none =>
    rw [hid] at hkept hmoves
    by_cases hserver : (!c.isServer) = true
    · rw [if_pos hserver]
      exact ⟨h, by rintro ⟨⟩⟩
    · rw [if_neg hserver] at hkept hmoves ⊢
      have hpacket : (c.recvPacket none a).1.Steady ∧
          (c.recvPacket none a).2 ≠ .error .internalError := by
        apply steady_recvPacket h
        · rintro i ⟨⟩
        · intro c' i hopen
          rwa [hopen] at hkept
      obtain ⟨hsteady, hne⟩ := settle_steady hpacket.1 hpacket.2
      exact ⟨h.moves hmoves hsteady, hne⟩
  | some i =>
    rw [hid] at hkept hmoves
    dsimp only at hkept hmoves ⊢
    have hturns := c.paths.turns_incAntiAmplLimit i a.len
    have hpacket := @steady_recvPacket _ (some i) a (h.credit i a.len)
      (by
        intro k hk
        cases hk
        rw [hturns.length_eq]
        exact h.placed.addrs a.addrs i hid)
      (by
        intro c' k hopen
        rwa [hopen] at hkept)
    obtain ⟨hsteady, hne⟩ := settle_steady hpacket.1 hpacket.2
    exact ⟨h.moves hmoves hsteady, hne⟩

/-! ## Runs -/

theorem placed_of_reaches (s : Setup) (h : Exec.Reaches step (fun _ _ => True) (start s) c) :
    c.cids.Sourced ∧ c.Placed := by
  have hrun : Exec.Reaches step (Keeps {}) (start s) c := h.mono fun c op _ => keeps_trivial c op
  refine @invariant_of_moves {} (start s) c (fun c => c.cids.Sourced ∧ c.Placed)
    ⟨(waiting_start s).sourced, placed_start s⟩ (fun _ _ hc hmove => ?_) hrun
  exact ⟨sourced_move hc.1 hmove, placed_move hc.2 hmove⟩

/-- The ids and the address table refer to paths that exist, and source ids have distinct
numbers. -/
theorem paths_never_dangle (s : Setup) (ops : List Op) :
    let c := Exec.follow step (fun _ _ ↦ True) (start s) ops
    c.Placed ∧ c.cids.Sourced :=
  (placed_of_reaches s (Exec.reaches_follow _ ops)).symm

def Receives (p : LinkPromise) (c : Links) : Op → Prop
  | .receive a => c.ReceiptKept p a
  | _ => False

instance (p : LinkPromise) [∀ c pktDcid frame, Decidable (p.frame c pktDcid frame)] (c : Links)
    (op : Op) : Decidable (c.Receives p op) := by
  induction op using Op.casesOn <;> unfold Receives <;> infer_instance

theorem Served.opened_isSome (h : c.Served) (hclosing : c.closing = false)
    (htype : a.pktType = .oneRtt) (hauth : a.authentic = true)
    (hdcid : (c.cids.findScid a.dcid).isSome = true)
    (hpath : (c.paths.getPathId a.addrs).isSome = true) : (c.opened a).isSome = true := by
  obtain ⟨item, hitem⟩ := isSome_iff_exists.mp hdcid
  obtain ⟨i, hi⟩ := isSome_iff_exists.mp hpath
  have hcredit := h.credit i a.len
  have hlt : i < (c.paths.incAntiAmplLimit i a.len).paths.length := by
    rw [(c.paths.turns_incAntiAmplLimit i a.len).length_eq]
    exact h.placed.addrs a.addrs i hi
  obtain ⟨cid, hscid⟩ := hcredit.steady.scid_ok
  obtain ⟨c', hused, -⟩ :=
    steady_useScid hcredit.steady hcredit.sourced hlt (findScid_mem hitem).1
  rw [opened, hi]
  dsimp only
  rw [openPacket, if_neg (by simp [hclosing]), hscid]
  rw [pathFor, if_pos ⟨htype, h.done⟩, getOrCreatePath]
  simp only [hitem, hused, hauth, Bool.not_true, Bool.false_eq_true, if_false, isSome_some]

/-- From an established connection in which every path in use is known by a stored id, over
any sequence of packets in which the peer retires no id of a path in use. -/
theorem scid_stays_known (s : Setup) {c₀ : Links}
    (hrun : Exec.Reaches step (fun _ _ ↦ True) (start s) c₀)
    (hdone : c₀.handshakeCompleted = true) (hsteady : c₀.Steady)
    (h : Exec.Reaches step (Receives LinkPromise.toSpare) c₀ c) :
    (∃ cid, c.scid = .ok cid) ∧
      ∀ a, c.ReceiptKept LinkPromise.toSpare a →
        (c.recv a).2 ≠ .error .internalError ∧
          (c.closing = false → a.pktType = .oneRtt → a.authentic = true →
            (c.cids.findScid a.dcid).isSome = true →
            (c.paths.getPathId a.addrs).isSome = true → (c.opened a).isSome = true) := by
  obtain ⟨hsourced, hplaced⟩ := placed_of_reaches s hrun
  have hserved : c.Served := by
    refine h.invariant Served ?_ ⟨hdone, hsourced, hplaced, hsteady⟩
    intro c op c' r hc hop hstep
    cases op with
    | receive =>
      obtain ⟨rfl, -⟩ := Prod.ext_iff.mp (Exec.ok.inj hstep)
      exact (served_recv hc hop).1
    | _ => exact absurd hop id
  refine ⟨hserved.steady.scid_ok, fun a hkept => ⟨(served_recv hserved hkept).2, ?_⟩⟩
  exact hserved.opened_isSome

def established : List Op :=
  [.receive (server.handshakePacket [3]), .complete false, .addScid (.new [8]) 6 true]

/-- The client sends from a second address to the second id, and later retires it. -/
def secondAddress : List Op :=
  [.receive (server.packet (server.other 2) [8] [.pathChallenge 5]),
    .receive (server.packet server.main [1] [.retireConnectionId 1])]

theorem scid_stays_known_secondAddress :
    let c₀ := Exec.follow step (fun _ _ ↦ True) (start server) established
    let c := Exec.follow step (Receives .toSpare) c₀ secondAddress
    c.paths.paths.map (·.scidSeq) = [some 0, none] ∧ c.cids.scids.queue.map (·.seq) = [0] ∧
      ∃ cid, c.scid = .ok cid := by
  refine ⟨by decide +kernel, by decide +kernel, ?_⟩
  exact (scid_stays_known server (Exec.reaches_follow (start server) established)
    (by decide +kernel) (by decide +kernel) (Exec.reaches_follow _ secondAddress)).1

/-- The client moves to a second address and id, and retires the id of the first: the active path is
known by no id, and the next packet closes the connection. -/
theorem active_path_unknown :
    let c₀ := Exec.follow step (fun _ _ ↦ True) (start server) established
    let c := Exec.follow step (fun _ _ ↦ True) c₀
      [.receive (server.packet (server.other 2) [8] [.retireConnectionId 0])]
    c₀.handshakeCompleted = true ∧ c₀.Steady ∧ c.closing = false ∧
      c.cids.scids.queue.map (·.cid) = [.new [8]] ∧ c.scid = .error .internalError ∧
      (c.recv (server.packet (server.other 2) [8] [])).2 = .error .internalError ∧
      (c.recv (server.packet server.main [8] [])).2 = .error .internalError := by
  decide +kernel

end Links

end Tquic
