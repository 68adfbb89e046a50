import Tquic.Connection.Advertised
import Tquic.Endpoint.Hosting

/-!
# What a step does to ids and routes

A source id leaves the store of a connection only with an event that has its route
removed, and enters it only together with a route.
-/

namespace Tquic

open List ConnectionIdMgr

theorem mem_eraseP_or_find? {α : Type*} {p : α → Bool} {l : List α} {a : α} (h : a ∈ l) :
    a ∈ l.eraseP p ∨ l.find? p = some a := by
  induction l with
  | nil => exact absurd h not_mem_nil
  | cons b l ih =>
    cases hb : p b with
    | true =>
      rw [eraseP_cons_of_pos hb, find?_cons_of_pos hb]
      rcases mem_cons.mp h with rfl | h
      · exact .inr rfl
      · exact .inl h
    | false =>
      have hneg : ¬ p b = true := by simp [hb]
      rw [eraseP_cons_of_neg hneg, find?_cons_of_neg hneg]
      rcases mem_cons.mp h with rfl | h
      · exact .inl (mem_cons_self ..)
      · exact (ih h).imp_left (mem_cons_of_mem _)

namespace Hosted

variable {c c' : Hosted}

inductive ScidsChange (c c' : Hosted) : Prop
  | same (scids : c'.scids = c.scids)
      (events : ∃ l, c'.events = c.events ++ l ∧ ∀ cid, Event.scidRetired cid ∉ l)
  | retire (cid : ConnectionId) (stored : cid ∈ c.scids) (scids : c'.scids ⊆ c.scids)
      (kept : ∀ x ∈ c.scids, x ∈ c'.scids ∨ x = cid)
      (events : c'.events = c.events ++ [.scidRetired cid])

theorem scidsChange_of_eq (hscids : c'.scids = c.scids) (hevents : c'.events = c.events) :
    ScidsChange c c' :=
  .same hscids ⟨[], by simp [hevents], fun _ => not_mem_nil⟩

theorem scidsChange_onNewConnectionId (seqNum retirePriorTo : ℕ) (connId : ConnectionId)
    (resetToken : ℕ) :
    ScidsChange c (c.onNewConnectionId seqNum retirePriorTo connId resetToken) := by
  obtain ⟨dcids, waiting, largest, hfst⟩ :=
    (c.cids.addDcid_cases connId seqNum resetToken retirePriorTo).fst
  rw [onNewConnectionId]
  split
  · next cids e heq =>
      obtain rfl : _ = cids := congrArg Prod.fst heq
      apply scidsChange_of_eq
      · rw [scids, hfst, scids]
      · rfl
  · next cids retired heq =>
      obtain rfl : _ = cids := congrArg Prod.fst heq
      refine .same ?_ ⟨_, rfl, fun cid => by simp⟩
      rw [scids, addEvents, hfst, scids]

theorem scidsChange_onRetireConnectionId (seqNum : ℕ) (pktDcid : ConnectionId) :
    ScidsChange c (c.onRetireConnectionId seqNum pktDcid) := by
  rw [onRetireConnectionId]
  split_ifs
  · exact scidsChange_of_eq rfl rfl
  split
  · exact scidsChange_of_eq rfl rfl
  next item hitem =>
  obtain ⟨queue, retirePriorTo, hfst, hqueue, -⟩ :=
    retireScid_fst c.cids seqNum pktDcid
  have hstored := (Keyed.find?_some hitem).1
  refine .retire item.cid (mem_map_of_mem hstored) ?_ ?_ rfl
  · rw [scids, addEvents, hfst, scids]
    apply map_subset
    rcases hqueue with rfl | rfl
    · exact List.Subset.refl _
    · exact (Keyed.remove_sublist _ _).subset
  · intro x hx
    obtain ⟨e, he, rfl⟩ := mem_map.mp hx
    rw [scids, addEvents, hfst]
    rcases hqueue with rfl | rfl
    · exact .inl (mem_map_of_mem he)
    · rcases mem_eraseP_or_find? (p := fun e => decide (e.seq = seqNum)) he with hkept | hfound
      · exact .inl (mem_map_of_mem hkept)
      · exact .inr (congrArg _ (Option.some.inj (hfound.symm.trans hitem)))

theorem retiredEvents_ne (seq : ℕ) (cid : ConnectionId) :
    Event.scidRetired cid ∉ c.retiredEvents seq := by
  rw [retiredEvents]
  split
  · exact not_mem_nil
  · simp

theorem scidsChange_act (action : Action) : ScidsChange c (c.act action) := by
  cases action with
  | packet =>
    rw [act, trySetDcidForInitialPath]
    split_ifs
    · exact scidsChange_of_eq rfl rfl
    · exact scidsChange_of_eq rfl rfl
    · exact scidsChange_of_eq rfl rfl
  | newConnectionId seqNum retirePriorTo connId resetToken =>
    rw [act]
    split_ifs
    · exact scidsChange_onNewConnectionId seqNum retirePriorTo connId resetToken
    · exact scidsChange_of_eq rfl rfl
  | retireConnectionId seqNum pktDcid =>
    rw [act]
    split_ifs
    · exact scidsChange_onRetireConnectionId seqNum pktDcid
    · exact scidsChange_of_eq rfl rfl
  | retry =>
    rw [act, processRetry]
    split_ifs
    · exact scidsChange_of_eq rfl rfl
    · exact scidsChange_of_eq rfl rfl
  | peerTransParams =>
    exact .same rfl ⟨_, rfl, fun cid => by simp⟩
  | complete =>
    rw [act, complete]
    split_ifs
    · exact scidsChange_of_eq rfl rfl
    · exact .same rfl ⟨_, rfl, fun cid => by simp⟩
    · exact .same rfl ⟨_, rfl, fun cid => by simp⟩
  | writeRetire =>
    rw [act, writeRetire]
    split
    · exact scidsChange_of_eq rfl rfl
    · split_ifs
      · exact scidsChange_of_eq rfl rfl
      · exact .same rfl ⟨_, rfl, retiredEvents_ne _⟩
  | ackRetire => exact scidsChange_of_eq rfl rfl
  | loseRetire =>
    rw [act, loseRetire]
    split
    · exact scidsChange_of_eq rfl rfl
    · exact scidsChange_of_eq rfl rfl
  | insertPath addr slot =>
    cases slot with
    | none => exact scidsChange_of_eq rfl rfl
    | some => exact scidsChange_of_eq rfl rfl
  | close => exact scidsChange_of_eq rfl rfl

theorem odcid_act {action : Action} {cid : ConnectionId} (h : (c.act action).odcid = some cid) :
    c.odcid = some cid ∨
      c.gotPeerCid = false ∧ ∃ pathId scid, action = .packet pathId scid cid := by
  cases action with
  | packet pathId scid =>
    rw [act, trySetDcidForInitialPath] at h
    split_ifs at h with hgot hfirst
    · exact .inl h
    · cases h
      exact .inr ⟨Bool.eq_false_iff.mpr hgot, pathId, scid, rfl⟩
    · exact .inl h
  | newConnectionId =>
    rw [act, onNewConnectionId] at h
    split_ifs at h
    · split at h
      · exact .inl h
      · exact .inl h
    · exact .inl h
  | retireConnectionId =>
    rw [act, onRetireConnectionId] at h
    split_ifs at h
    · exact .inl h
    · split at h
      · exact .inl h
      · exact .inl h
    · exact .inl h
  | retry =>
    rw [act, processRetry] at h
    split_ifs at h
    · exact .inl h
    · exact .inl h
  | peerTransParams => exact .inl h
  | complete =>
    rw [act, complete] at h
    split_ifs at h
    · exact .inl h
    · exact .inl h
    · exact .inl h
  | writeRetire =>
    rw [act, writeRetire] at h
    split at h
    · exact .inl h
    · split_ifs at h
      · exact .inl h
      · exact .inl h
  | ackRetire => exact .inl h
  | loseRetire =>
    rw [act, loseRetire] at h
    split at h
    · exact .inl h
    · exact .inl h
  | insertPath addr slot =>
    cases slot with
    | none => exact .inl h
    | some => exact .inl h
  | close => exact .inl h

end Hosted

/-! ## New source ids -/

structure Extended (idx : ℕ) (ids : List ConnectionId) (c c' : Hosted)
    (routes routes' : ConnectionRoutes) : Prop where
  core : c' = { c with cids := c'.cids }
  cids : c'.cids = { c.cids with
    scids := c'.cids.scids, retirePriorTo := c'.cids.retirePriorTo,
    nextScidSeq := c'.cids.nextScidSeq, scidsToAdvertise := c'.cids.scidsToAdvertise }
  kept : c.scids ⊆ c'.scids
  stored : ∀ x ∈ c'.scids, x ∈ c.scids ∨ x ∈ ids
  tables : routes' = { routes with cidTable := routes'.cidTable }
  routed : ∀ x, routes'.cidTable x = routes.cidTable x ∨
    routes'.cidTable x = some idx ∧ x ∈ ids ∧ x ∈ c'.scids ∧ c.cids.zeroLengthScid = false

namespace Hosting

theorem extended_connAddScids (idx : ℕ) (fresh : List (ConnectionId × ℕ)) (c : Hosted)
    (routes : ConnectionRoutes) :
    Extended idx (fresh.map Prod.fst) c (connAddScids idx fresh (c, routes)).1 routes
      (connAddScids idx fresh (c, routes)).2 := by
  induction fresh generalizing c routes with
  | nil =>
    exact ⟨rfl, rfl, List.Subset.refl _, fun _ hx => .inl hx, rfl, fun _ => .inl rfl⟩
  | cons first rest ih =>
    obtain ⟨scid, resetToken⟩ := first
    rw [connAddScids]
    have hadds := c.cids.addScid_cases scid (some resetToken) true none true
    generalize c.cids.addScid scid (some resetToken) true none true = added at hadds ⊢
    cases hadds with
    | refused | raised =>
      exact ⟨rfl, rfl, List.Subset.refl _, fun _ hx => .inl hx, rfl, fun _ => .inl rfl⟩
    | stored retirePriorTo _ hzero =>
      have hrest := ih { c with
        cids := (c.cids.withScid scid (some resetToken) none retirePriorTo).markScidToAdvertise
          c.cids.nextScidSeq true } (routes.insertWithCid scid idx)
      have hscids : { c with
          cids := (c.cids.withScid scid (some resetToken) none retirePriorTo).markScidToAdvertise
            c.cids.nextScidSeq true }.scids = c.scids ++ [scid] := by
        simp [Hosted.scids, withScid, markScidToAdvertise]
      refine ⟨hrest.core, ?_, ?_, ?_, ?_, ?_⟩
      · rw [hrest.cids]
        rfl
      · exact fun x hx => hrest.kept (by simp [hscids, hx])
      · intro x hx
        rcases hrest.stored x hx with hold | hnew
        · rw [hscids, mem_append, mem_singleton] at hold
          exact hold.imp_right fun heq => by simp [heq]
        · exact .inr (mem_cons_of_mem _ hnew)
      · rw [hrest.tables]
        rfl
      · intro x
        rcases hrest.routed x with hsame | ⟨hroute, hmem, hx, -⟩
        · by_cases hxs : x = scid
          · subst hxs
            refine .inr ⟨?_, mem_cons_self .., hrest.kept (by simp [hscids]), hzero⟩
            rw [hsame]
            exact Function.update_self ..
          · refine .inl (hsame.trans ?_)
            exact Function.update_of_ne hxs _ _
        · exact .inr ⟨hroute, mem_cons_of_mem _ hmem, hx, hzero⟩

end Hosting

end Tquic
