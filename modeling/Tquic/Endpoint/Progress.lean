import Tquic.Endpoint.Queues

/-!
# Termination of the work loop

The application cannot keep the loop busy for ever: each connection marked as tickable and each
event uses up work, and a connection left to itself generates only so many packets. The tickable
connections and the work left drop together.
-/

namespace Tquic

open Endpoint Exec Prog Act Finset

namespace Env

variable {Key C W : Type}

/-- The application and the connections do finitely much on their own: `work` bounds
what callbacks can still cause, `events` the events of a connection and `toSend` the
packets it can still generate. -/
structure Finite (env : Env Key C W) (work : W → ℕ) (events toSend : C → ℕ) : Prop where
  marks : ∀ w callback c, work (env.callback w callback c).world +
    (env.callback w callback c).marks.length ≤ work w
  causes : ∀ w callback c, work (env.callback w callback c).world +
    events (env.callback w callback c).core ≤ work w + events c
  poll : ∀ {c event c'}, env.poll c = some (event, c') → events c' < events c
  streamDestroy : ∀ c id, events (env.streamDestroy c id) ≤ events c
  addScid : ∀ {c cid c'}, env.addScid c cid = some c' → events c' ≤ events c
  generate : ∀ w, work (env.generate w).2 ≤ work w
  send : ∀ {c c' packet}, env.send c = (c', .ok packet) → toSend c' < toSend c

end Env

namespace Endpoint

variable {C W : Type} {ep : Endpoint C W}

theorem Queued.markAll (h : Queued none ep) (idx : ℕ) (marks : List ℕ) :
    Queued none (ep.markAll marks) ∧ (Flagged idx ep → Flagged idx (ep.markAll marks)) ∧
      ep.queues.tickable ⊆ (ep.markAll marks).queues.tickable ∧
      (ep.markAll marks).queues.tickable.card ≤ ep.queues.tickable.card + marks.length ∧
      (ep.markAll marks).world = ep.world ∧ ∀ i, (ep.markAll marks).coreAt i = ep.coreAt i := by
  induction marks generalizing ep with
  | nil => exact ⟨h, id, subset_rfl, le_rfl, rfl, fun _ => rfl⟩
  | cons i marks ih =>
    obtain ⟨hq, hflag, hsub, hcard, hworld, hcore⟩ := ih (h.mark .tickable i true)
    obtain ⟨hsub', hcard'⟩ := h.members_mark_true .tickable i
    refine ⟨hq, fun hf => hflag (hf.mark h i), hsub'.trans hsub, ?_, ?_, ?_⟩
    · calc
        _ ≤ _ := hcard
        _ ≤ ep.queues.tickable.card + 1 + marks.length := Nat.add_le_add_right hcard' _
        _ = ep.queues.tickable.card + (i :: marks).length := by rw [List.length_cons]; ring
    · exact hworld.trans (world_mark ep .tickable i true)
    · exact fun j => (hcore j).trans (coreAt_mark ep .tickable i true j)

variable (work : W → ℕ) (events : C → ℕ)

def eventsAt (ep : Endpoint C W) (idx : ℕ) : ℕ := (ep.coreAt idx).elim 0 events

/-- While the connection at `idx` is processed: the queues are right, those in `S`
stay tickable, the queue and the work that is left are bounded by `n`, and the
events of the connection with the work by `m`. -/
structure Busy (S : Finset ℕ) (idx n m : ℕ) (ep : Endpoint C W) : Prop where
  queued : Queued none ep
  flagged : Flagged idx ep
  subset : S ⊆ ep.queues.tickable
  load_le : ep.queues.tickable.card + work ep.world ≤ n
  events_le : work ep.world + eventsAt events ep idx ≤ m

variable {work events} {S : Finset ℕ} {idx n m : ℕ} {ep' : Endpoint C W}

theorem Busy.congr (h : Busy work events S idx n m ep) (hconns : ep'.conns = ep.conns)
    (hqueues : ep'.queues = ep.queues) (hwork : work ep'.world ≤ work ep.world) :
    Busy work events S idx n m ep' where
  queued := h.queued.congr hconns hqueues
  flagged := by
    unfold Flagged
    rw [hconns]
    exact h.flagged
  subset := by
    rw [hqueues]
    exact h.subset
  load_le := by
    rw [hqueues]
    exact (Nat.add_le_add_left hwork _).trans h.load_le
  events_le := by
    unfold eventsAt coreAt
    rw [hconns]
    exact (Nat.add_le_add_right hwork _).trans h.events_le

theorem eventsAt_setCore {core₀ : C} (hcore : ep.coreAt idx = some core₀) (core : C) :
    eventsAt events (ep.setCore idx core) idx = events core := by
  simp [eventsAt, coreAt_setCore, hcore]

theorem Busy.setCore (h : Busy work events S idx n m ep) {core₀ core : C} {m' : ℕ}
    (hcore : ep.coreAt idx = some core₀) (hevents : work ep.world + events core ≤ m') :
    Busy work events S idx n m' (ep.setCore idx core) where
  queued := h.queued.setCore idx core
  flagged := h.flagged.setCore core
  subset := h.subset
  load_le := h.load_le
  events_le := by
    rw [eventsAt_setCore hcore]
    exact hevents

end Endpoint

namespace Env

variable {Key C W : Type} {env : Env Key C W} {work : W → ℕ} {events toSend : C → ℕ}
  {S : Finset ℕ} {idx n m : ℕ} {ep : Endpoint C W}

/-! ## Callbacks -/

theorem call_of_none (h : ep.conns.get? idx = none) (callback : Callback) :
    env.call idx callback ep = ep := by
  simp [call, h]

theorem call_of_some {conn : Conn C} (h : ep.conns.get? idx = some conn) (callback : Callback) :
    env.call idx callback ep =
      let effect := env.callback ep.world callback conn.core
      let ep' := { ep.setCore idx effect.core with world := effect.world }
      (if effect.markSelf then ep'.mark .tickable idx true else ep').markAll effect.marks := by
  simp only [call, h]
  rfl

section

variable (hfin : env.Finite work events toSend) (h : Busy work events S idx n m ep)

include hfin h

theorem Busy.call
    (callback : Callback) : Busy work events S idx n m (env.call idx callback ep) := by
  cases hconn : ep.conns.get? idx with
  | none => rwa [call_of_none hconn]
  | some conn =>
    have hcore : ep.coreAt idx = some conn.core := by simp [coreAt, hconn]
    have hevents : eventsAt events ep idx = events conn.core := by simp [eventsAt, hcore]
    have hmarks := hfin.marks ep.world callback conn.core
    have hcauses := hfin.causes ep.world callback conn.core
    have hload := h.load_le
    have hevents_le := h.events_le
    rw [call_of_some hconn]
    generalize env.callback ep.world callback conn.core = effect at hmarks hcauses ⊢
    set ep₁ : Endpoint C W := { ep.setCore idx effect.core with world := effect.world }
      with hep₁
    have hqueued : Queued none ep₁ := (h.queued.setCore idx effect.core).congr rfl rfl
    have hflagged : Flagged idx ep₁ := h.flagged.setCore effect.core
    have hself : (if effect.markSelf then ep₁.mark .tickable idx true else ep₁) = ep₁ := by
      rw [hflagged.mark_eq, ite_self]
    dsimp only
    rw [hself]
    obtain ⟨hq, hflag, hsub, hcard, hworld, hcores⟩ := hqueued.markAll idx effect.marks
    refine ⟨hq, hflag hflagged, h.subset.trans hsub, ?_, ?_⟩
    · rw [hworld]
      have hcard₁ : ep₁.queues.tickable.card = ep.queues.tickable.card := rfl
      have hworld₁ : ep₁.world = effect.world := rfl
      rw [hworld₁]
      omega
    · have hevents₁ : eventsAt events (ep₁.markAll effect.marks) idx = events effect.core := by
        rw [eventsAt, hcores]
        exact eventsAt_setCore hcore effect.core
      have hworld₁ : ep₁.world = effect.world := rfl
      rw [hworld, hevents₁, hworld₁]
      omega

theorem Busy.destroyStream
    (id : ℕ) :
    Busy work events S idx n m (env.destroyStream idx id ep) := by
  unfold Env.destroyStream
  split
  · exact h
  · next conn hconn =>
      have hcore : ep.coreAt idx = some conn.core := by simp [coreAt, hconn]
      have hevents : eventsAt events ep idx = events conn.core := by simp [eventsAt, hcore]
      have hdestroy := hfin.streamDestroy conn.core id
      have hevents_le := h.events_le
      exact h.setCore hcore (by omega)

theorem Busy.streamClosed
    (id : ℕ) :
    Busy work events S idx n m (env.streamClosed idx id ep) :=
  destroyStream hfin (call hfin h _) id

end

/-! ## A tick -/

theorem Busy.modify {f : Endpoint C W → Endpoint C W} (hconns : ∀ ep, (f ep).conns = ep.conns)
    (hqueues : ∀ ep, (f ep).queues = ep.queues) (hworld : ∀ ep, (f ep).world = ep.world) :
    Act.Triple (Busy work events S idx n m) (Act.modify f : Code C W Unit)
      (fun _ => Busy work events S idx n m) (fun _ _ => False) :=
  triple_modify fun ep h => h.congr (hconns ep) (hqueues ep) (by rw [hworld])

section

variable (hfin : env.Finite work events toSend)

include hfin

theorem Busy.generateCid :
    Act.Triple (Busy work events S idx n m) env.generateCid
      (fun _ => Busy work events S idx n m) (fun _ _ => False) :=
  fun ep h => .intro (h.congr rfl rfl (hfin.generate ep.world))

theorem Busy.connAddScids (num : ℕ) :
    Act.Triple (Busy work events S idx n m) (env.connAddScids idx num)
      (fun _ => Busy work events S idx n m) (fun _ _ => False) := by
  induction num with
  | zero => exact triple_pure fun _ h => h
  | succ num ih =>
    refine triple_bind (generateCid hfin) fun scid => triple_bind triple_get ?_
    rintro ep s ⟨h, rfl⟩
    cases hconn : ep.conns.get? idx with
    | none => exact .intro h
    | some conn =>
      dsimp only
      cases hadd : env.addScid conn.core scid with
      | none => exact .intro h
      | some core =>
        have hcore : ep.coreAt idx = some conn.core := by simp [coreAt, hconn]
        have hevents : eventsAt events ep idx = events conn.core := by
          simp [eventsAt, hcore]
        have hadd_le := hfin.addScid hadd
        have hevents_le := h.events_le
        have hindex : unwrap conn.index = .ok idx := by
          rw [h.queued.index hconn (by simp), unwrap_some]
        have hcore' : Busy work events S idx n m (ep.setCore idx core) :=
          h.setCore hcore (by omega)
        dsimp only
        rw [hindex, modify_bind, exec_ok_bind, modify_bind]
        exact ih _ (hcore'.congr rfl rfl le_rfl)

theorem Busy.handleEvent (event : Event) :
    Act.Triple (Busy work events S idx n m) (env.handleEvent idx event)
      (fun _ => Busy work events S idx n m) (fun _ _ => False) := by
  cases event with
  | scidToAdvertise num => exact connAddScids hfin num
  | streamClosed id => exact triple_modify fun _ h => streamClosed hfin h id
  | scidRetired _ | dcidAdvertised _ | dcidRetired _ | resetTokenAdvertised _ =>
    exact modify (fun _ => rfl) (fun _ => rfl) fun _ => rfl
  | connectionEstablished | newToken _ | streamCreated _ | datagramReceived =>
    exact triple_modify fun _ h => call hfin h _

theorem Busy.eventRound :
    Act.Triple
      (fun ep => Busy work events S idx n m ep ∧ work ep.world + eventsAt events ep idx = m)
      (env.eventRound idx)
      (fun next ep => next.Holds
        (fun _ => ∃ m' < m, Busy work events S idx n m' ep)
        (fun _ => Busy work events S idx n m ep))
      (fun _ _ => False) := by
  refine triple_bind triple_get ?_
  rintro ep s ⟨⟨h, hm⟩, rfl⟩
  cases hconn : ep.conns.get? idx with
  | none => exact .intro h
  | some conn =>
    dsimp only
    cases hpoll : env.poll conn.core with
    | none => exact .intro h
    | some polled =>
      obtain ⟨event, core⟩ := polled
      have hcore : ep.coreAt idx = some conn.core := by simp [coreAt, hconn]
      have hevents : eventsAt events ep idx = events conn.core := by simp [eventsAt, hcore]
      have hlt := hfin.poll hpoll
      have hpolled : Busy work events S idx n (m - 1) (ep.setCore idx core) :=
        h.setCore hcore (by omega)
      dsimp only
      refine triple_bind (handleEvent hfin event) (fun _ ep' h' => ?_) _ hpolled
      refine .intro ?_
      split
      · exact ⟨h'.queued, h'.flagged, h'.subset, h'.load_le, h'.events_le.trans (Nat.sub_le _ _)⟩
      · exact ⟨m - 1, by omega, h'⟩

theorem Busy.processStreams (check : C → ℕ → Bool)
    (callback : ℕ → Callback) (ids : List ℕ) :
    Act.Triple (Busy work events S idx n m) (env.processStreams idx check callback ids)
      (fun _ => Busy work events S idx n m) (fun _ _ => False) := by
  induction ids with
  | nil => exact triple_pure fun _ h => h
  | cons id ids ih =>
    refine triple_bind triple_get ?_
    rintro ep s ⟨h, rfl⟩
    cases hconn : ep.conns.get? idx with
    | none => exact .intro h
    | some =>
      dsimp only
      split
      · have h' := call hfin h (callback id)
        rw [modify_bind, get_bind]
        split
        · exact .intro h'
        · exact ih _ h'
      · exact ih ep h

theorem Busy.processConn {code : Code C W Bool}
    (hcode : code = env.processConnReadable idx ∨ code = env.processConnWritable idx) :
    Act.Triple (Busy work events S idx n m) code
      (fun _ => Busy work events S idx n m) (fun _ _ => False) := by
  rcases hcode with rfl | rfl <;>
  · refine triple_bind triple_get ?_
    rintro ep s ⟨h, rfl⟩
    cases ep.conns.get? idx with
    | none => exact .intro h
    | some => exact processStreams hfin _ _ _ ep h

end

def Working (work : W → ℕ) (events : C → ℕ) (S : Finset ℕ) (idx n : ℕ) (ep : Endpoint C W) :
    Prop :=
  ∃ m, Busy work events S idx n m ep

theorem Working.of_triple {α : Type} {x : Code C W α}
    (h : ∀ m, Act.Triple (Busy work events S idx n m) x (fun _ => Busy work events S idx n m)
      (fun _ _ => False)) :
    Act.Triple (Working work events S idx n) x (fun _ => Working work events S idx n)
      (fun _ _ => False) := by
  rintro ep ⟨m, hm⟩
  exact (((h m).mono (fun _ h => h) fun _ _ h' => ⟨m, h'⟩) ep hm)

theorem Working.processConnEvents (hfin : env.Finite work events toSend) :
    Prog.Triple (Working work events S idx n) (env.processConnEvents idx)
      (fun _ => Working work events S idx n) (fun _ _ => False) := by
  refine triple_loop (fun _ => Working work events S idx n)
    (fun _ ep => work ep.world + eventsAt events ep idx) ?_ ()
  intro _ m
  refine triple_act ((Busy.eventRound (S := S) (n := n) (m := m) hfin).mono ?_ ?_)
  · rintro ep ⟨⟨m', h⟩, hm⟩
    exact ⟨⟨h.queued, h.flagged, h.subset, h.load_le, hm.le⟩, hm⟩
  · rintro (_ | alive) ep h
    · obtain ⟨m', hlt, h⟩ := h
      exact ⟨⟨m', h⟩, h.events_le.trans_lt hlt⟩
    · exact ⟨m, h⟩

theorem Working.processPhases (hfin : env.Finite work events toSend) :
    Prog.Triple (Working work events S idx n) (env.processPhases idx)
      (fun _ => Working work events S idx n) (fun _ _ => False) := by
  refine triple_bind (processConnEvents hfin) fun alive => ?_
  split
  · refine triple_bind (triple_act
      (of_triple fun _ => Busy.processConn hfin (.inl rfl))) fun alive => ?_
    split
    · exact triple_act (of_triple fun _ => Busy.processConn hfin (.inr rfl))
    · exact triple_pure fun _ h => h
  · exact triple_pure fun _ h => h

/-! ## The end of a tick -/

def load (work : W → ℕ) (ep : Endpoint C W) : ℕ := ep.queues.tickable.card + work ep.world

def Ticked (work : W → ℕ) (S : Finset ℕ) (idx n : ℕ) (ep : Endpoint C W) : Prop :=
  Queued none ep ∧ (idx ∈ S → load work ep < n)

theorem Ticked.of_erase {ep' : Endpoint C W} (hq' : Queued none ep')
    (hS : S ⊆ ep.queues.tickable) (hn : load work ep ≤ n)
    (htickable : ep'.queues.tickable = ep.queues.tickable.erase idx)
    (hworld : ep'.world = ep.world) : Ticked work S idx n ep' := by
  refine ⟨hq', fun hidx => ?_⟩
  have hcard := card_erase_lt_of_mem (hS hidx)
  rw [load] at hn ⊢
  rw [htickable, hworld]
  omega

theorem refreshConnTimer_eq (idx : ℕ) (ep : Endpoint C W) :
    ∃ timers, env.refreshConnTimer idx ep = { ep with timers := timers } := by
  unfold refreshConnTimer
  split
  · exact ⟨ep.timers, rfl⟩
  · split
    · exact ⟨_, rfl⟩
    · exact ⟨_, rfl⟩

theorem Queued.refreshConnTimer (h : Queued none ep) (idx : ℕ) :
    Queued none (env.refreshConnTimer idx ep) := by
  obtain ⟨timers, heq⟩ := env.refreshConnTimer_eq idx ep
  rw [heq]
  exact h.congr rfl rfl

theorem Working.finalizeConnTick (ready : List ℕ) :
    Act.Triple (Working work events S idx n) (env.finalizeConnTick idx ready)
      (fun _ => Ticked work S idx n) (fun _ _ => False) := by
  rintro ep ⟨m, h⟩
  rw [Env.finalizeConnTick, get_bind]
  cases hconn : ep.conns.get? idx with
  | none =>
    refine .intro ⟨h.queued, fun hidx => ?_⟩
    obtain ⟨-, conn, hconn', -⟩ := h.queued.member (h.subset hidx)
    rw [hconn] at hconn'
    cases hconn'
  | some =>
    dsimp only
    have hsendable := h.queued.mark .sendable idx true
    have htimer : Queued none (env.refreshConnTimer idx (ep.markSendable idx true)) :=
      Queued.refreshConnTimer hsendable idx
    refine .intro (.of_erase (htimer.mark .tickable idx false) h.subset h.load_le ?_ ?_)
    · obtain ⟨timers, heq⟩ := env.refreshConnTimer_eq idx (ep.markSendable idx true)
      calc
        _ = (env.refreshConnTimer idx (ep.markSendable idx true)).queues.tickable.erase idx :=
          htimer.members_mark_false .tickable idx
        _ = (ep.markSendable idx true).queues.tickable.erase idx := by rw [heq]
        _ = ep.queues.tickable.erase idx :=
          congrArg (·.erase idx) (members_mark_of_ne ep (by decide) idx true)
    · obtain ⟨timers, heq⟩ := env.refreshConnTimer_eq idx (ep.markSendable idx true)
      calc
        _ = (env.refreshConnTimer idx (ep.markSendable idx true)).world := world_mark _ _ _ _
        _ = (ep.markSendable idx true).world := by rw [heq]
        _ = ep.world := world_mark _ _ _ _

theorem Busy.notifyClosed (hfin : env.Finite work events toSend)
    (h : Busy work events S idx n m ep) :
    Busy work events S idx n m (env.notifyClosed idx ep) := by
  unfold Env.notifyClosed
  split
  · exact h
  · refine call hfin (List.foldlRecOn _ _ h fun ep' h' id _ => ?_) _
    exact streamClosed hfin h' id

theorem Queued.removeConn (env : Env Key C W) (h : Queued none ep)
    (hidx : ∀ work, idx ∉ ep.queues.members work) :
    Queued none (env.removeConn idx ep) ∧ (env.removeConn idx ep).queues = ep.queues ∧
      (env.removeConn idx ep).world = ep.world := by
  unfold Env.removeConn
  split
  · exact ⟨h, rfl, rfl⟩
  · exact ⟨(h.remove hidx).congr rfl rfl, rfl, rfl⟩

theorem Working.cleanupClosedConn (hfin : env.Finite work events toSend)
    (h : Working work events S idx n ep) :
    Ticked work S idx n (env.cleanupClosedConn idx ep) := by
  obtain ⟨m, h⟩ := h
  have hclosed := Busy.notifyClosed hfin h
  simp only [Env.cleanupClosedConn, markTickable, markSendable]
  generalize env.notifyClosed idx ep = ep₁ at hclosed
  have htick := hclosed.queued.mark .tickable idx false
  have hsend := htick.mark .sendable idx false
  have hmembers : ∀ work, idx ∉
      ((ep₁.mark .tickable idx false).mark .sendable idx false).queues.members work := by
    rintro (_ | _)
    · rw [members_mark_of_ne _ (by decide), hclosed.queued.members_mark_false]
      exact notMem_erase _ _
    · rw [htick.members_mark_false]
      exact notMem_erase _ _
  obtain ⟨hq, hqueues, hworld⟩ := Queued.removeConn env hsend hmembers
  refine .of_erase hq hclosed.subset hclosed.load_le ?_ ?_
  · rw [hqueues]
    exact (members_mark_of_ne _ (by decide) idx false).trans
      (hclosed.queued.members_mark_false .tickable idx)
  · rw [hworld]
    exact (world_mark _ _ _ _).trans (world_mark _ _ _ _)

theorem Working.processConnection (hfin : env.Finite work events toSend) (ready : List ℕ) :
    Prog.Triple (Working work events S idx n) (env.processConnection idx ready)
      (fun out ep => if out.2 then Ticked work S idx n ep else Working work events S idx n ep)
      (fun _ _ => False) := by
  refine triple_bind triple_get ?_
  rintro ep s ⟨h, rfl⟩
  cases hconn : ep.conns.get? idx with
  | none =>
    refine triple_pure (P := fun s => s = ep) ?_ ep rfl
    rintro s rfl
    obtain ⟨m, h⟩ := h
    refine ⟨h.queued, fun hidx => ?_⟩
    obtain ⟨-, conn, hconn', -⟩ := h.queued.member (h.subset hidx)
    rw [hconn] at hconn'
    cases hconn'
  | some =>
    dsimp only
    split
    · exact triple_pure (fun _ h => h) ep h
    · refine triple_bind (processPhases hfin) (fun alive => ?_) ep h
      split
      · exact triple_bind (triple_act (finalizeConnTick ready)) fun _ =>
          triple_pure fun _ h => h
      · exact triple_pure fun _ h => h

theorem tickableNext_mem (h : env.tickableNext ep = some idx) : idx ∈ ep.queues.tickable := by
  unfold tickableNext at h
  split at h
  · cases h
  · next hne =>
      rw [← Option.some.inj h]
      exact env.pick_mem _ _ (nonempty_iff_ne_empty.mpr hne)

/-- Handling one tickable connection lowers the load or ends the loop. -/
theorem tickRound_triple (hfin : env.Finite work events toSend) (ready : List ℕ) (n : ℕ) :
    Prog.Triple (fun ep => Queued none ep ∧ load work ep = n) (env.tickRound ready)
      (fun next ep => next.Holds (fun _ => Queued none ep ∧ load work ep < n)
        (fun _ => Queued none ep))
      (fun _ _ => False) := by
  refine triple_bind triple_get ?_
  rintro ep s ⟨⟨hq, hload⟩, rfl⟩
  cases hnext : env.tickableNext ep with
  | none => exact triple_pure (fun _ h => h) ep hq
  | some idx =>
    have hmem := tickableNext_mem hnext
    have hworking : Working work events {idx} idx n ep :=
      ⟨_, hq, hq.flagged hmem, singleton_subset_iff.mpr hmem, hload.le, le_rfl⟩
    refine triple_bind (Working.processConnection hfin ready) ?_ ep hworking
    rintro ⟨ready', alive⟩
    cases alive with
    | true => exact triple_pure fun ep h => ⟨h.1, h.2 (mem_singleton_self idx)⟩
    | false =>
      refine triple_bind (Q := fun _ => Ticked work {idx} idx n)
        (triple_modify fun ep h => Working.cleanupClosedConn hfin h) fun _ => ?_
      exact triple_pure fun ep h => ⟨h.1, h.2 (mem_singleton_self idx)⟩

/-! ## Sending -/

/-- The packets that the sendable connections can still generate, and one more for each to find no
more. -/
def sendLeft (toSend : C → ℕ) (ep : Endpoint C W) : ℕ :=
  ∑ i ∈ ep.queues.sendable, ((ep.coreAt i).elim 0 toSend + 1)

theorem sendLeft_congr {ep' : Endpoint C W} (hconns : ep'.conns = ep.conns)
    (hqueues : ep'.queues = ep.queues) : sendLeft toSend ep' = sendLeft toSend ep := by
  simp only [sendLeft, coreAt, hconns, hqueues]

theorem sendLeft_setCore_lt {core core' : C} (hidx : idx ∈ ep.queues.sendable)
    (hcore : ep.coreAt idx = some core) (hlt : toSend core' < toSend core) :
    sendLeft toSend (ep.setCore idx core') < sendLeft toSend ep := by
  refine sum_lt_sum (fun i _ => ?_) ⟨idx, hidx, ?_⟩
  · rw [coreAt_setCore]
    by_cases hi : i = idx
    · subst hi
      simp [hcore, hlt.le]
    · simp [hi]
  · simp [coreAt_setCore, hcore, hlt]

theorem sendLeft_erase_lt {ep' : Endpoint C W} (hidx : idx ∈ ep.queues.sendable)
    (hsendable : ep'.queues.sendable = ep.queues.sendable.erase idx)
    (hcore : ∀ i, i ≠ idx → ep'.coreAt i = ep.coreAt i) :
    sendLeft toSend ep' < sendLeft toSend ep := by
  have hsame : sendLeft toSend ep' =
      ∑ i ∈ ep.queues.sendable.erase idx, ((ep.coreAt i).elim 0 toSend + 1) := by
    rw [sendLeft, hsendable]
    exact sum_congr rfl fun i hi => by rw [hcore i (ne_of_mem_erase hi)]
  rw [hsame, sendLeft, ← add_sum_erase _ _ hidx]
  omega

/-- A sendable connection that is served leaves less to send. -/
theorem sendConnPackets_triple (hfin : env.Finite work events toSend) (idx : ℕ) (sent : List ℕ)
    (n : ℕ) :
    Act.Triple (fun ep => Queued none ep ∧ idx ∈ ep.queues.sendable ∧ sendLeft toSend ep = n)
      (env.sendConnPackets idx sent) (fun _ ep => Queued none ep ∧ sendLeft toSend ep < n)
      (fun _ => Queued none) := by
  rintro ep ⟨hq, hidx, rfl⟩
  obtain ⟨-, conn, hconn, -⟩ := hq.member hidx
  have hcore : ep.coreAt idx = some conn.core := by simp [coreAt, hconn]
  -- The connection leaves the queue, whatever its state is by then.
  have hleave {ep' : Endpoint C W} (hq' : Queued none ep') (hqueues : ep'.queues = ep.queues)
      (hcores : ∀ i, i ≠ idx → ep'.coreAt i = ep.coreAt i) :
      Queued none (ep'.markSendable idx false) ∧
        sendLeft toSend (ep'.markSendable idx false) < sendLeft toSend ep := by
    refine ⟨hq'.mark .sendable idx false, sendLeft_erase_lt hidx ?_ fun i hi => ?_⟩
    · exact (hq'.members_mark_false .sendable idx).trans
        (congrArg (fun q => erase (q.members .sendable) idx) hqueues)
    · exact (coreAt_mark ep' .sendable idx false i).trans (hcores i hi)
  rw [sendConnPackets, get_bind, hconn]
  dsimp only
  split
  · exact .intro (hleave hq rfl fun _ _ => rfl)
  · rcases hsend : env.send conn.core with ⟨core, _ | ⟨bytes, info⟩⟩
    · next e =>
        have hq' := hq.setCore idx core
        have hcores : ∀ i, i ≠ idx → (ep.setCore idx core).coreAt i = ep.coreAt i := by
          intro i hi
          simp [coreAt_setCore, hi]
        have hresult : env.connSend idx conn ep = .ok (ep.setCore idx core, .ok (.error e)) := by
          simp only [connSend, hsend]
        rw [bind_of_ok hresult]
        dsimp only
        split
        · exact .intro (hleave hq' rfl hcores)
        · exact .intro hq'
    · have hresult : env.connSend idx conn ep =
          .ok (addConnPacket idx ⟨.datagram bytes, info⟩ (ep.setCore idx core), .ok (.ok ())) := by
        simp only [connSend, hsend]
      rw [bind_of_ok hresult]
      refine .intro ⟨(hq.setCore idx core).congr rfl rfl, ?_⟩
      have hlt := sendLeft_setCore_lt hidx hcore (hfin.send hsend)
      exact (sendLeft_congr rfl rfl).trans_lt hlt

theorem packetsSend_triple {P : Endpoint C W → Prop} {E : Error → Endpoint C W → Prop}
    (hP : ∀ ep world, P ep → P { ep with world := world })
    (hE : ∀ ep e, P ep → E e ep) (batch : List Packet) :
    Act.Triple P (env.packetsSend batch) (fun _ => P) E := by
  intro ep h
  rcases hsend : env.onPacketsSend ep.world batch with ⟨world, result⟩
  have heq : env.packetsSend batch ep = .ok ({ ep with world := world }, result) := by
    simp only [packetsSend, hsend]
  rw [heq]
  refine .intro ?_
  cases result with
  | ok => exact hP ep world h
  | error e => exact hE _ e (hP ep world h)

theorem flushFullBatch_triple (n : ℕ) :
    Act.Triple (fun ep => Queued none ep ∧ sendLeft toSend ep < n) env.flushFullBatch
      (fun _ ep => Queued none ep ∧ sendLeft toSend ep < n) (fun _ => Queued none) := by
  have hsame (ep ep' : Endpoint C W) (h : Queued none ep ∧ sendLeft toSend ep < n)
      (hconns : ep'.conns = ep.conns) (hqueues : ep'.queues = ep.queues) :
      Queued none ep' ∧ sendLeft toSend ep' < n :=
    ⟨h.1.congr hconns hqueues, (sendLeft_congr hconns hqueues).trans_lt h.2⟩
  intro ep h
  rw [flushFullBatch, get_bind]
  split
  · refine triple_bind (packetsSend_triple (fun ep _ h => hsame ep _ h rfl rfl)
      (fun _ _ h => h.1) _) (fun done => ?_) ep h
    exact triple_modify fun ep h => hsame ep _ h rfl rfl
  · exact .intro h

theorem sendableNext_mem (h : env.sendableNext ep = some idx) : idx ∈ ep.queues.sendable := by
  unfold sendableNext at h
  split at h
  · cases h
  · next hne =>
      rw [← Option.some.inj h]
      exact env.pick_mem _ _ (nonempty_iff_ne_empty.mpr hne)

theorem sendableNext_none (h : env.sendableNext ep = none) : ep.queues.sendable = ∅ := by
  unfold sendableNext at h
  split at h
  · assumption
  · cases h

theorem sendRound_triple (hfin : env.Finite work events toSend) (sent : List ℕ) (n : ℕ) :
    Act.Triple (fun ep => Queued none ep ∧ sendLeft toSend ep = n) (env.sendRound sent)
      (fun next ep => next.Holds (fun _ => Queued none ep ∧ sendLeft toSend ep < n)
        (fun _ => Queued none ep ∧ ep.queues.sendable = ∅))
      (fun _ => Queued none) := by
  rintro ep ⟨hq, hn⟩
  rw [sendRound, get_bind]
  cases hnext : env.sendableNext ep with
  | none => exact .intro ⟨hq, sendableNext_none hnext⟩
  | some idx =>
    refine triple_bind (sendConnPackets_triple hfin idx sent n) (fun sent' => ?_) ep
      ⟨hq, sendableNext_mem hnext, hn⟩
    exact triple_bind (flushFullBatch_triple n) fun _ => triple_pure fun _ h => h

theorem sendAllRound_triple (hfin : env.Finite work events toSend) (sent : List ℕ) (n : ℕ) :
    Prog.Triple (fun ep => Queued none ep ∧ ep.queues.sendable.card = n) (env.sendAllRound sent)
      (fun next ep => next.Holds (fun _ => Queued none ep ∧ ep.queues.sendable.card < n)
        (fun _ => Queued none ep ∧ ep.queues.sendable = ∅))
      (fun _ => Queued none) := by
  refine triple_bind triple_get ?_
  rintro ep s ⟨⟨hq, hn⟩, rfl⟩
  split
  · next hempty => exact triple_pure (fun _ h => h) ep ⟨hq, hempty⟩
  · next hne =>
      have hpos : 0 < n := hn ▸ card_pos.mpr (nonempty_iff_ne_empty.mpr hne)
      refine triple_bind (triple_loop (fun _ => Queued none) (fun _ => sendLeft toSend)
        (fun sent n => triple_act (sendRound_triple hfin sent n)) sent) (fun sent' => ?_) ep hq
      refine triple_pure fun ep' h => ⟨h.1, ?_⟩
      rwa [h.2, card_empty]

theorem flushRound_triple (total n : ℕ) :
    Act.Triple (fun ep => Queued none ep ∧ ep.packets.length = n) (env.flushRound total)
      (fun next ep => next.Holds (fun _ => Queued none ep ∧ ep.packets.length < n)
        (fun _ => Queued none ep))
      (fun _ => Queued none) := by
  rintro ep ⟨hq, hn⟩
  rw [flushRound, get_bind]
  split
  · exact .intro hq
  · next hbatch =>
      have hpos : 0 < n := by
        rw [← hn, List.length_pos_iff]
        rintro hnil
        simp [nextBatch, hnil] at hbatch
      refine triple_bind (packetsSend_triple
        (P := fun ep => Queued none ep ∧ ep.packets.length = n)
        (fun ep _ h => ⟨h.1.congr rfl rfl, h.2⟩) (fun _ _ h => h.1) _) (fun done => ?_) ep ⟨hq, hn⟩
      rintro ep' ⟨hq', hn'⟩
      split
      · exact .intro hq'
      · refine .intro ⟨hq'.congr rfl rfl, ?_⟩
        simp only [drainFront, List.length_drop]
        omega

theorem flushRemaining_triple :
    Prog.Triple (Queued none) env.flushRemaining (fun _ => Queued none) (fun _ => Queued none) :=
  triple_loop (fun _ => Queued none) (fun _ ep => ep.packets.length)
    (fun total n => triple_act (flushRound_triple total n)) 0

/-- Serving the sendable connections and flushing the batches returns. -/
theorem sendPacketsOut_triple (hfin : env.Finite work events toSend) :
    Prog.Triple (Queued none) env.sendPacketsOut (fun _ => Queued none) (fun _ => Queued none) := by
  refine triple_bind (triple_loop (fun _ => Queued none)
    (fun _ ep => ep.queues.sendable.card) (sendAllRound_triple hfin) []) fun sent => ?_
  refine triple_bind (Q := fun _ => Queued none) (triple_modify fun ep h => ?_) fun _ => ?_
  · exact List.foldlRecOn _ _ h.1 fun ep' h' idx _ => Queued.refreshConnTimer h' idx
  · exact triple_bind flushRemaining_triple fun _ => triple_pure fun _ h => h

/-- `process_connections` returns and keeps the queues in order. -/
theorem processConnections_triple (hfin : env.Finite work events toSend) :
    Prog.Triple (Queued none) env.processConnections (fun _ => Queued none)
      (fun _ => Queued none) := by
  have htick : Prog.Triple (Queued none) (.loop env.tickRound [])
      (fun _ => Queued none) (fun _ _ => False) :=
    triple_loop (fun _ => Queued none) (fun _ => load work) (tickRound_triple hfin) []
  refine triple_bind (htick.weaken fun _ _ h => h.elim) fun ready => ?_
  refine triple_bind (sendPacketsOut_triple hfin) fun _ => ?_
  exact triple_modify fun ep h => queued_invariant.markAll h ready

end Env

end Tquic
