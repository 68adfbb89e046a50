import Tquic.Connection.LinkSteps

/-!
# Changes that concern destination ids only

Whatever a connection does with the ids of its peer leaves its own ids, the frames in
flight and the use of its paths alone.
-/

namespace Tquic

def Path.bare (p : Path) : Path := { p with dcidSeq := none }

structure Links.DcidsOnly (c c' : Links) : Prop where
  links : c' = { c with
    cids := c'.cids, paths := c'.paths, gotPeerCid := c'.gotPeerCid, didRetry := c'.didRetry,
    closing := c'.closing }
  cids : c'.cids = { c.cids with
    dcids := c'.cids.dcids, zeroLengthDcid := c'.cids.zeroLengthDcid,
    dcidsToRetire := c'.cids.dcidsToRetire,
    largestPeerRetirePriorTo := c'.cids.largestPeerRetirePriorTo }
  map : c'.paths = { c.paths with paths := c'.paths.paths }
  paths : c'.paths.paths.map Path.bare = c.paths.paths.map Path.bare

theorem map_modify_of_eq {α β : Type*} {g : α → β} {f : α → α} (hf : ∀ a, g (f a) = g a)
    (l : List α) (i : ℕ) : (l.modify i f).map g = l.map g := by
  apply List.ext_getElem?
  intro k
  rw [List.getElem?_map, List.getElem?_map, List.getElem?_modify]
  cases l[k]? with
  | none => rfl
  | some =>
    by_cases hk : i = k
    · simp [hk, hf]
    · simp [hk]

theorem map_bare_update (m : PathMap) (i : ℕ) (dcidSeq : Option ℕ) :
    (m.update i fun p => { p with dcidSeq := dcidSeq }).paths.map Path.bare =
      m.paths.map Path.bare := by
  apply map_modify_of_eq
  intro p
  rfl

namespace Links

variable {p : LinkPromise} {c c' c'' : Links}

theorem DcidsOnly.refl (c : Links) : c.DcidsOnly c := ⟨rfl, rfl, rfl, rfl⟩

theorem DcidsOnly.trans (h : c.DcidsOnly c') (h' : c'.DcidsOnly c'') : c.DcidsOnly c'' := by
  refine ⟨?_, ?_, ?_, h'.paths.trans h.paths⟩
  · rw [h'.links, h.links]
  · rw [h'.cids, h.cids]
  · rw [h'.map, h.map]

theorem dcidsOnly_update (cids : ConnectionIdMgr) (dcids : ConnectionIdDeque)
    (hcids : cids = { c.cids with dcids := dcids }) (i : ℕ) (dcidSeq : Option ℕ) :
    c.DcidsOnly { c with
      cids := cids
      paths := c.paths.update i fun p => { p with dcidSeq := dcidSeq } } := by
  subst hcids
  exact ⟨rfl, rfl, rfl, map_bare_update c.paths i dcidSeq⟩

theorem dcidsOnly_setInitialDcid (cid : ConnectionId) (resetToken : Option ℕ) (i : ℕ) :
    c.DcidsOnly (c.setInitialDcid cid resetToken i) :=
  ⟨rfl, rfl, rfl, map_bare_update c.paths i (some 0)⟩

theorem dcidsOnly_reassignDcid (retired : ℕ × ℕ) : c.DcidsOnly (c.reassignDcid retired).1 := by
  rw [reassignDcid]
  split
  · exact .refl c
  split
  · exact .refl c
  split
  · exact dcidsOnly_update c.cids c.cids.dcids rfl retired.2 none
  · next seq _ =>
      dsimp only
      split
      · exact dcidsOnly_update c.cids c.cids.dcids rfl retired.2 (some seq)
      · next cids hmark =>
          exact dcidsOnly_update cids _ (markDcidUsed_eq_ok hmark) retired.2 (some seq)

theorem dcidsOnly_reassignDcids (retired : List (ℕ × ℕ)) (c : Links) :
    c.DcidsOnly (reassignDcids retired c).1 := by
  induction retired generalizing c with
  | nil => exact .refl c
  | cons first rest ih =>
    have hfirst := @dcidsOnly_reassignDcid c first
    rw [reassignDcids]
    rcases heq : c.reassignDcid first with ⟨c', r⟩
    rw [heq] at hfirst
    cases r with
    | error => exact hfirst
    | ok => exact hfirst.trans (ih c')

theorem dcidsOnly_onNewConnectionId (seqNum retirePriorTo : ℕ) (connId : ConnectionId)
    (resetToken : ℕ) :
    c.DcidsOnly (c.onNewConnectionId seqNum retirePriorTo connId resetToken).1 := by
  obtain ⟨dcids, waiting, largest, hfst⟩ :=
    (c.cids.addDcid_cases connId seqNum resetToken retirePriorTo).fst
  rw [onNewConnectionId]
  rcases heq : c.cids.addDcid connId seqNum resetToken retirePriorTo with ⟨cids, r⟩
  rw [heq] at hfst
  subst hfst
  have hadd : c.DcidsOnly { c with cids := { c.cids with
      dcids := dcids, dcidsToRetire := waiting, largestPeerRetirePriorTo := largest } } :=
    ⟨rfl, rfl, rfl, rfl⟩
  cases r with
  | error => exact hadd
  | ok retired => exact hadd.trans (dcidsOnly_reassignDcids retired _)

theorem DcidsOnly.close (h : c.DcidsOnly c') (closing : Bool) :
    c.DcidsOnly { c' with closing := closing } := by
  refine ⟨?_, h.cids, h.map, h.paths⟩
  rw [h.links]

end Links

end Tquic
