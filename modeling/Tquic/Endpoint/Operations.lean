import Tquic.Endpoint.Accept
import Tquic.Endpoint.Progress

/-!
# Sequences of operations on an endpoint

The queues hold connections of the table after every sequence of operations, and the work loop
terminates, unless the endpoint is closed by force while a connection is queued: `close(true)`
empties only the table.
-/

namespace Tquic

inductive Op (W : Type) where
  | connect (addr : FourTuple) (session token : Option Bytes)
  | recv (buf : Bytes) (info : PacketInfo)
  | onTimeout (now : ℕ)
  | processConnections
  | processSingleConnection (idx : ℕ)
  | markConnectionTickable (idx : ℕ)
  | close (force : Bool)
  | application (world : W)

namespace Env

open Endpoint Exec Prog Act

variable {Key C W : Type} (env : Env Key C W)

def perform : Op W → Program C W Unit
  | .connect addr session token => do
      let _ ← Prog.act (env.connect addr session token)
  | .recv buf info => do
      let _ ← Prog.act (env.recvWithConnIndex buf info)
  | .onTimeout now => env.onTimeout now
  | .processConnections => env.processConnections
  | .processSingleConnection idx => do
      let _ ← env.processSingleConnection idx
  | .markConnectionTickable idx => Prog.modify (·.markTickable idx true)
  | .close force => Prog.modify (env.close force)
  | .application world => Prog.modify fun ep => { ep with world := world }

variable {env} {work : W → ℕ} {events toSend : C → ℕ} {ep : Endpoint C W}

/-! ## Datagrams -/

theorem Queued.sendRetry (hdr : PacketHeader) (info : PacketInfo) :
    Keeps (Queued none) (env.sendRetry hdr info) :=
  queued_invariant.sendRetry fun _ _ _ _ _ _ h => h.congr rfl rfl

theorem Queued.validateInitialToken (hdr : PacketHeader) (info : PacketInfo) :
    Keeps (Queued none) (env.validateInitialToken hdr info) := by
  unfold Env.validateInitialToken
  split
  · refine triple_bind (Q := fun _ => Queued none) keeps_get fun ep => ?_
    split
    · exact keeps_pure _
    · unfold rejectToken
      split
      · exact keeps_throw _
      · exact (sendRetry hdr info).bind fun _ => keeps_throw _
  · exact triple_ite (fun _ => (sendRetry hdr info).bind fun _ => keeps_throw _)
      fun _ => keeps_pure _

theorem Queued.createServerConn (hdr : PacketHeader) (token : Option AddressToken)
    (info : PacketInfo) :
    Act.Valid (Queued none) (env.createServerConn hdr token info)
      (fun idx => Queued (some idx)) (fun _ => Queued none) := by
  intro ep out h hout
  cases hodcid : originalDcid hdr token with
  | ok odcid =>
    exact (queued_invariant.createServerConn ⟨odcid, hodcid, trivial⟩ info).valid ep out h hout
  | panic =>
    rw [Env.createServerConn, hodcid, bind_of_panic rfl] at hout
    cases hout
  | diverge =>
    unfold originalDcid unwrap at hodcid
    split at hodcid
    · split at hodcid <;> cases hodcid
    · cases hodcid

theorem Queued.recvServerInitialIdx (hdr : PacketHeader) (buf : Bytes) (info : PacketInfo) :
    Act.Valid (Queued none) (env.recvServerInitialIdx hdr buf info)
      (fun _ => Queued none) (fun _ => Queued none) := by
  refine valid_bind keeps_get.valid fun ep => ?_
  split
  · exact (keeps_pure _).valid
  · split
    · exact ((queued_invariant.sendVersionNegotiation hdr info).bind fun _ => keeps_pure _).valid
    · refine valid_bind (validateInitialToken hdr info).valid fun token =>
        valid_bind (createServerConn hdr token info) fun idx => ?_
      exact (triple_bind (queued_invariant.deliverInitialToConn idx hdr buf info) fun _ =>
        keeps_pure _).valid

theorem Queued.recvWithConnIndex (buf : Bytes) (info : PacketInfo) :
    Act.Valid (Queued none) (env.recvWithConnIndex buf info)
      (fun _ => Queued none) (fun _ => Queued none) := by
  refine valid_bind (keeps_lift _).valid ?_
  rintro ⟨hdr, len⟩
  refine valid_bind keeps_get.valid fun ep => ?_
  split
  · exact ((queued_invariant.recvExistingConn _ _ buf info).bind fun _ => keeps_pure _).valid
  · refine valid_bind keeps_get.valid fun ep => ?_
    split
    · exact ((queued_invariant.recvUnknownClient hdr _ info).bind fun _ => keeps_pure _).valid
    · split
      · exact recvServerInitialIdx hdr buf info
      · split
        · refine (Keeps.bind (keeps_modify fun _ h => ?_) fun _ => keeps_pure _).valid
          exact h.congr rfl rfl
        · split
          · exact ((queued_invariant.sendStatelessReset _ _ info).bind fun _ =>
              keeps_pure _).valid
          · exact (keeps_pure _).valid

/-! ## The other operations -/

section

variable (hfin : env.Finite work events toSend)

include hfin

theorem generateRound_triple (idx n : ℕ) :
    Act.Triple (fun ep => Queued none ep ∧ (ep.coreAt idx).elim 0 toSend = n)
      (env.generateRound idx)
      (fun next ep => next.Holds
        (fun _ => Queued none ep ∧ (ep.coreAt idx).elim 0 toSend < n) (fun _ => Queued none ep))
      (fun _ => Queued none) := by
  rintro ep ⟨hq, hn⟩
  rw [generateRound, get_bind]
  cases hconn : ep.conns.get? idx with
  | none => exact .intro hq
  | some conn =>
    have hcore : ep.coreAt idx = some conn.core := by simp [coreAt, hconn]
    rcases hsend : env.send conn.core with ⟨core, e | ⟨bytes, info⟩⟩
    · have hresult : env.connSend idx conn ep = .ok (ep.setCore idx core, .ok (.error e)) := by
        simp only [connSend, hsend]
      dsimp only
      rw [bind_of_ok hresult]
      dsimp only
      split
      · exact .intro (hq.setCore idx core)
      · exact .intro (hq.setCore idx core)
    · have hresult : env.connSend idx conn ep =
          .ok (addConnPacket idx ⟨.datagram bytes, info⟩ (ep.setCore idx core), .ok (.ok ())) := by
        simp only [connSend, hsend]
      have hlt := hfin.send hsend
      have hcore' : (addConnPacket idx ⟨.datagram bytes, info⟩ (ep.setCore idx core)).coreAt idx =
          some core := by
        change (ep.setCore idx core).coreAt idx = some core
        simp [coreAt_setCore, hcore]
      dsimp only
      rw [bind_of_ok hresult]
      refine .intro ⟨(hq.setCore idx core).congr rfl rfl, ?_⟩
      rw [hcore', ← hn, hcore]
      exact hlt

theorem flushConnection_triple (idx : ℕ) :
    Prog.Triple (Queued none) (env.flushConnection idx) (fun _ => Queued none)
      (fun _ => Queued none) := by
  have hgenerate : Prog.Triple (Queued none) (env.generateConnPackets idx) (fun _ => Queued none)
      (fun _ => Queued none) := by
    refine triple_bind triple_get ?_
    rintro ep s ⟨h, rfl⟩
    cases ep.conns.get? idx with
    | none => exact triple_throw (fun _ h => h) ep h
    | some =>
      dsimp only
      split
      · exact triple_throw (fun _ h => h) ep h
      · exact triple_loop (fun _ => Queued none) (fun _ ep => (ep.coreAt idx).elim 0 toSend)
          (fun _ n => triple_act (generateRound_triple hfin idx n)) () ep h
  refine triple_bind hgenerate fun _ => triple_bind flushRemaining_triple fun total => ?_
  refine triple_bind (Q := fun _ => Queued none)
    (triple_modify fun _ h => Queued.refreshConnTimer h idx) fun _ => ?_
  split
  · exact triple_pure fun _ h => h
  · exact triple_throw fun _ h => h

theorem processSingleConnection_triple (idx : ℕ) :
    Prog.Triple (Queued none) (env.processSingleConnection idx) (fun _ => Queued none)
      (fun _ => Queued none) := by
  refine triple_bind (Q := fun _ ep => ∃ n, Working work events ∅ idx n ep)
    (triple_modify fun ep h => ?_) fun _ => ?_
  · exact ⟨_, _, h.mark .tickable idx true, h.flagged_mark idx, Finset.empty_subset _, le_rfl,
      le_rfl⟩
  rintro ep ⟨n, h⟩
  refine triple_bind ((Working.processConnection hfin []).weaken fun _ _ h => h.elim) ?_ ep h
  rintro ⟨ready, alive⟩
  cases alive with
  | false =>
    refine triple_bind (Q := fun _ => Queued none)
      (triple_modify fun ep h => (Working.cleanupClosedConn hfin h).1) fun _ => ?_
    exact triple_pure fun _ h => h
  | true =>
    have hflush := (triple_attempt (flushConnection_triple hfin idx)).mono
      (fun ep (h : Ticked work ∅ idx n ep) => h.1) fun r s h => post_const.mp h
    refine triple_bind hflush fun r => ?_
    refine triple_bind (Q := fun _ => Queued none) ?_ fun total =>
      triple_bind (triple_modify fun _ h => queued_invariant.markAll h ready) fun _ =>
        triple_pure fun _ h => h
    unfold flushed
    split
    · exact triple_pure fun _ h => h
    · split
      · exact triple_pure fun _ h => h
      · exact triple_throw fun _ h => h

end

theorem nextExpire_length {timers timers' : TimerQueue} {now idx : ℕ}
    (h : timers.nextExpire now = some (idx, timers')) : timers'.length < timers.length := by
  unfold TimerQueue.nextExpire at h
  split at h
  · cases h
  · next i expiresAt hmin =>
      split at h
      · cases h
        exact SortedMap.length_erase_lt (List.argmin_mem hmin)
      · cases h

theorem onTimeout_triple (now : ℕ) :
    Prog.Triple (Queued none) (env.onTimeout now) (fun _ => Queued none)
      (fun _ => Queued none) := by
  refine triple_loop (fun _ => Queued none) (fun _ ep => ep.timers.length) ?_ ()
  refine fun _ n => triple_act ?_
  rintro ep ⟨hq, hn⟩
  rw [timeoutRound, get_bind]
  cases hnext : ep.timers.nextExpire now with
  | none => exact .intro hq
  | some expired =>
    obtain ⟨idx, timers⟩ := expired
    have hlt := nextExpire_length hnext
    have hq₁ : Queued none { ep with timers := timers } := hq.congr rfl rfl
    have hq' : Queued none ({ ep with timers := timers }.markTickable idx true) :=
      hq₁.mark .tickable idx true
    have htimers : ({ ep with timers := timers }.markTickable idx true).timers = timers := by
      unfold markTickable mark
      repeat' split
      all_goals rfl
    dsimp only
    rw [modify_bind, get_bind]
    generalize ({ ep with timers := timers } : Endpoint C W).markTickable idx true = ep'
      at hq' htimers
    cases ep'.conns.get? idx with
    | none => exact .intro ⟨hq', by rw [htimers]; omega⟩
    | some =>
      dsimp only
      refine .intro ⟨hq'.setCore idx _, ?_⟩
      change ep'.timers.length < n
      rw [htimers]
      omega

/-! ## Closing by force -/

def InTable (ep : Endpoint C W) : Prop :=
  ∀ work idx, idx ∈ ep.queues.members work → (ep.conns.get? idx).isSome

theorem Queued.inTable (h : Queued none ep) : InTable ep := by
  intro work idx hidx
  obtain ⟨-, conn, hconn, -⟩ := h.member hidx
  rw [hconn]
  rfl

theorem sendable_invariant (S : Finset ℕ) :
    Invariant (fun ep : Endpoint C W => ep.queues.sendable = S)
      (fun _ ep => ep.queues.sendable = S) where
  frame h _ hqueues _ := by rw [hqueues, h]
  core _ _ h := h
  mark idx h := (members_mark_of_ne _ (by decide) idx true).trans h
  packet _ h := h
  insert _ h := h
  pending h _ hqueues _ := by rw [hqueues, h]
  setIndex h := h

variable (env) in
def QuietClose (ep : Endpoint C W) : Prop :=
  ep.queues.tickable = ∅ ∧ ep.queues.sendable = ∅ ∧
    (env.notifyAll { ep with closed := true }).queues.tickable = ep.queues.tickable

variable (env) in
def ClosesQuietly (ep : Endpoint C W) (op : Op W) : Prop :=
  op = .close true → env.QuietClose ep

theorem sendable_close_true (ep : Endpoint C W) :
    (env.close true ep).queues.sendable = ep.queues.sendable :=
  (sendable_invariant ep.queues.sendable).notifyAll rfl

theorem QuietClose.members (h : env.QuietClose ep) (work : Work) :
    (env.close true ep).queues.members work = ∅ := by
  cases work with
  | tickable => exact h.2.2.trans h.1
  | sendable => exact (sendable_close_true ep).trans h.2.1

theorem Queued.close (h : Queued none ep) {force : Bool}
    (hquiet : force = true → env.QuietClose ep) : Queued none (env.close force ep) := by
  cases force with
  | false => exact h.congr rfl rfl
  | true =>
    constructor
    · intro i conn hconn
      cases hconn
    · intro work i hi
      rw [(hquiet rfl).members work] at hi
      cases hi

theorem tickable_subset_notifyAll (ep : Endpoint C W) (h : Queued none ep) :
    ep.queues.tickable ⊆ (env.notifyAll ep).queues.tickable := by
  have hI : Invariant
      (fun ep' : Endpoint C W => Queued none ep' ∧ ep.queues.tickable ⊆ ep'.queues.tickable)
      (fun idx ep' => Queued (some idx) ep' ∧ ep.queues.tickable ⊆ ep'.queues.tickable) := by
    constructor
    · exact fun h hconns hqueues _ => ⟨h.1.congr hconns hqueues, by rw [hqueues]; exact h.2⟩
    · exact fun idx core h => ⟨h.1.setCore idx core, h.2⟩
    · exact fun idx h => ⟨h.1.mark .tickable idx true,
        h.2.trans (h.1.members_mark_true .tickable idx).1⟩
    · exact fun _ h => ⟨h.1.congr rfl rfl, h.2⟩
    · exact fun core h => ⟨h.1.insert core, h.2⟩
    · exact fun h hconns hqueues _ => ⟨h.1.congr hconns hqueues, by rw [hqueues]; exact h.2⟩
    · exact fun h => ⟨h.1.setIndex, h.2⟩
  exact (hI.notifyAll ⟨h, subset_rfl⟩).2

theorem inTable_close_true_iff (h : Queued none ep) :
    InTable (env.close true ep) ↔ env.QuietClose ep := by
  constructor
  · intro hin
    have hempty : ∀ work, (env.close true ep).queues.members work = ∅ := by
      intro work
      rw [Finset.eq_empty_iff_forall_notMem]
      intro idx hidx
      exact absurd (hin work idx hidx) (by simp [close])
    have hq : Queued none { ep with closed := true } := h.congr rfl rfl
    have htickable : ep.queues.tickable = ∅ :=
      Finset.subset_empty.mp ((tickable_subset_notifyAll _ hq).trans (hempty .tickable).subset)
    exact ⟨htickable, (sendable_close_true ep).symm.trans (hempty .sendable),
      (hempty .tickable).trans htickable.symm⟩
  · intro hquiet work idx hidx
    rw [hquiet.members work] at hidx
    cases hidx

theorem perform_keeps (hfin : env.Finite work events toSend) {op : Op W}
    {out : Endpoint C W × Result Unit} (h : Queued none ep) (hclose : env.ClosesQuietly ep op)
    (hout : (env.perform op).Yields ep out) : Queued none out.1 := by
  have hpost {x : Program C W Unit}
      (hx : Prog.Triple (Queued none) x (fun _ => Queued none) (fun _ => Queued none))
      (hout : x.Yields ep out) : Queued none out.1 :=
    post_const.mp (hx.of_yields h hout)
  cases op with
  | connect addr session token =>
    exact hpost (triple_bind (triple_act (queued_invariant.connect addr session token))
      fun _ => triple_pure fun _ h => h) hout
  | recv buf info =>
    obtain ⟨n, hn⟩ := hout
    have hvalid : Act.Valid (Queued none) ((env.perform (.recv buf info)).run n)
        (fun _ => Queued none) (fun _ => Queued none) :=
      valid_bind (Queued.recvWithConnIndex buf info) fun _ => (keeps_pure ()).valid
    exact post_const.mp (hvalid ep out h hn)
  | onTimeout now => exact hpost (onTimeout_triple now) hout
  | processConnections => exact hpost (processConnections_triple hfin) hout
  | processSingleConnection idx =>
    exact hpost (triple_bind (processSingleConnection_triple hfin idx) fun _ =>
      triple_pure fun _ h => h) hout
  | markConnectionTickable idx =>
    exact hpost (triple_modify fun _ h => h.mark .tickable idx true) hout
  | close force =>
    have htriple : Prog.Triple (fun s => s = ep) (env.perform (.close force))
        (fun _ => Queued none) (fun _ => Queued none) := by
      refine triple_modify ?_
      rintro s rfl
      exact Queued.close h fun hforce => hclose (by rw [hforce])
    exact post_const.mp (htriple.of_yields rfl hout)
  | application =>
    refine hpost (triple_modify fun s h => ?_) hout
    exact h.congr rfl rfl

theorem processConnections_diverges (hne : ep.queues.tickable ≠ ∅)
    (hgone : ∀ i ∈ ep.queues.tickable, ep.conns.get? i = none) (fuel : ℕ) :
    env.processConnections.run fuel ep = .diverge := by
  have hloop : (loop env.tickRound []).run fuel ep = .diverge := by
    refine loop_diverges (fun _ s => s = ep) ?_ rfl fuel
    rintro ready s n rfl
    have hnext : env.tickableNext s = some (env.pick s.queues.version s.queues.tickable) :=
      if_neg hne
    have hconn := hgone _ (tickableNext_mem hnext)
    refine .inr ⟨ready, s, ?_, rfl⟩
    have hprocess : (env.processConnection (env.pick s.queues.version s.queues.tickable)
        ready).run n s = .ok (s, .ok (ready, true)) := by
      simp only [processConnection, get_bind_run, hconn]
      rfl
    simp only [tickRound, get_bind_run, hnext, bind_run]
    rw [bind_of_ok hprocess]
    rfl
  change bind _ _ ep = _
  simp only [Act.bind, hloop]

/-- If a forced close only happens to a quiet endpoint, all queued connections are in the table and
the work loop terminates; a forced close now keeps this up exactly when the endpoint is quiet. -/
theorem queues_stay_in_table (env : Env Key C W) (work : W → ℕ) (events toSend : C → ℕ)
    (hfin : env.Finite work events toSend) (size : ℕ) (world : W) (ops : List (Op W))
    (ep : Endpoint C W)
    (hreach : Prog.Reach env.perform env.ClosesQuietly (Endpoint.new size world) ops ep) :
    InTable ep ∧ (∃ out, env.processConnections.Yields ep out) ∧
      (InTable (env.close true ep) ↔ env.QuietClose ep) := by
  have hqueued : Queued none ep := hreach.invariant (.new size world)
    fun op s out h hclose hout => perform_keeps hfin h hclose hout
  obtain ⟨out, hout, -⟩ := processConnections_triple hfin ep hqueued
  exact ⟨Queued.inTable hqueued, ⟨out, hout⟩, inTable_close_true_iff hqueued⟩

def idleClient : Env UInt8 Unit Unit := { idleServer with isServer := false }

theorem idleClient_finite : idleClient.Finite (fun _ => 0) (fun _ => 0) (fun _ => 0) where
  marks _ _ _ := le_rfl
  causes _ _ _ := le_rfl
  poll h := by cases h
  streamDestroy _ _ := le_rfl
  addScid _ := le_rfl
  generate _ := le_rfl
  send h := by cases h

def connectOp : Op Unit := .connect ⟨clientAddr, serverAddr⟩ none none

theorem queues_stay_in_table_idleClient :
    ∃ ep, Prog.Reach idleClient.perform idleClient.ClosesQuietly (Endpoint.new 10 ())
        [connectOp, .processConnections, .close true] ep ∧
      InTable ep ∧ (∃ out, idleClient.processConnections.Yields ep out) ∧
      (InTable (idleClient.close true ep) ↔ idleClient.QuietClose ep) := by
  have hreach : ∃ ep, Prog.Reach idleClient.perform idleClient.ClosesQuietly (new 10 ())
      [connectOp, .processConnections, .close true] ep := by
    refine ⟨_, .call (.call (.call .start (fun h => by cases h) ⟨0, rfl⟩) (fun h => by cases h)
      ⟨3, rfl⟩) (fun _ => ?_) ⟨0, rfl⟩⟩
    exact ⟨by decide, by decide, by decide⟩
  obtain ⟨ep, hep⟩ := hreach
  exact ⟨ep, hep, queues_stay_in_table idleClient _ _ _ idleClient_finite 10 () _ ep hep⟩

/-- A client that connects and is closed by force keeps the index of a connection that
is gone, and its work loop never ends. -/
theorem forced_close_leaves_index :
    ∃ ep, Prog.Reach idleClient.perform (fun _ _ ↦ True) (Endpoint.new 10 ())
        [connectOp, .close true] ep ∧
      0 ∈ ep.queues.tickable ∧ ep.conns.get? 0 = none ∧
      ∀ fuel, idleClient.processConnections.run fuel ep = .diverge := by
  refine ⟨_, .call (.call .start trivial ⟨0, rfl⟩) trivial ⟨0, rfl⟩, by decide, rfl, ?_⟩
  exact processConnections_diverges (by decide) fun _ _ => rfl

end Env

end Tquic
