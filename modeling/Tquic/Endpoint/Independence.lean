import Tquic.Endpoint.Operations

/-!
# Independence of connections

Connections share the work queues and the packet queue of their endpoint. `Generates` says what a
connection writes when left to itself. `process_connections` lets every sendable connection write
just that, until one fails, which ends the call.
-/

namespace Tquic

namespace Endpoint

variable {C W : Type}

def generatedBy (idx : ℕ) (ep : Endpoint C W) : List Packet :=
  (ep.generated.filter (·.1 = idx)).map Prod.snd

def Listed (ready : List ℕ) (ep : Endpoint C W) : Prop :=
  ∀ i ∈ ready, ∀ conn, ep.conns.get? i = some conn → conn.flags .tickable = true →
    i ∈ ep.queues.tickable

variable {ep ep' : Endpoint C W} {ready : List ℕ} {idx : ℕ}

theorem Listed.congr (h : Listed ready ep) (hconns : ep'.conns = ep.conns)
    (hqueues : ep'.queues = ep.queues) : Listed ready ep' := by
  unfold Listed
  rw [hconns, hqueues]
  exact h

theorem Listed.update (h : Listed ready ep) (idx : ℕ) {f : Conn C → Conn C}
    (hf : ∀ conn, (f conn).flags = conn.flags) :
    Listed ready { ep with conns := ep.conns.update idx f } := by
  intro i hi conn' hconn' hflag
  obtain ⟨conn, hconn, rfl⟩ :=
    Option.map_eq_some_iff.mp ((ep.conns.get?_update idx _ i).symm.trans hconn')
  refine h i hi conn hconn ?_
  split at hflag
  · rwa [hf] at hflag
  · exact hflag

theorem Listed.insert (h : Listed ready ep) (core : C) :
    Listed ready { ep with conns := ep.conns.insert core } := by
  intro i hi conn hconn hflag
  by_cases hne : i = ep.conns.nextIndex
  · subst hne
    rw [ConnectionTable.get?_insert_self] at hconn
    cases hconn
    cases hflag
  · exact h i hi conn ((ep.conns.get?_insert_of_ne hne core).symm.trans hconn) hflag

theorem Listed.remove (h : Listed ready ep) (idx : ℕ) :
    Listed ready { ep with conns := ep.conns.remove idx } := by
  intro i hi conn hconn hflag
  by_cases hne : i = idx
  · subst hne
    rw [ep.conns.get?_remove_self] at hconn
    cases hconn
  · exact h i hi conn ((ep.conns.get?_remove_of_ne hne).symm.trans hconn) hflag

theorem Listed.mark (h : Listed ready ep) (hq : Queued none ep) (work : Work) (idx : ℕ)
    (queued : Bool) : Listed ready (ep.mark work idx queued) := by
  rcases hq.mark_cases work idx queued with ⟨heq, -⟩ | ⟨conn₀, -, -, heq⟩
  · rwa [heq]
  rw [heq]
  intro i hi conn' hconn' hflag
  obtain ⟨conn, hconn, rfl⟩ :=
    Option.map_eq_some_iff.mp ((ep.conns.get?_update idx _ i).symm.trans hconn')
  -- Only the flag that is set and the queue that is changed together matter.
  cases work with
  | tickable =>
    by_cases hidx : i = idx
    · simp only [hidx, if_true, Function.update_self] at hflag
      simp [ConnectionQueues.put, ConnectionQueues.tickable, hidx, hflag]
    · rw [if_neg hidx] at hflag
      have hmem : i ∈ ep.queues.members .tickable := h i hi conn hconn hflag
      cases queued <;> simp [ConnectionQueues.put, ConnectionQueues.tickable, hidx, hmem]
  | sendable =>
    have hmem : i ∈ ep.queues.tickable := by
      refine h i hi conn hconn ?_
      split at hflag <;> simpa using hflag
    simpa [ConnectionQueues.put, ConnectionQueues.tickable] using hmem

theorem Listed.mark_false (h : Listed ready ep) (hq : Queued none ep) (idx : ℕ) :
    Listed (ready ++ [idx]) (ep.mark .tickable idx false) := by
  intro i hi conn' hconn' hflag
  rcases List.mem_append.mp hi with hi | hi
  · exact h.mark hq .tickable idx false i hi conn' hconn' hflag
  · obtain rfl := List.mem_singleton.mp hi
    rcases hq.mark_cases .tickable i false with ⟨heq, hfalse⟩ | ⟨conn₀, -, -, heq⟩
    · rw [heq] at hconn'
      rw [hfalse conn' hconn'] at hflag
      cases hflag
    · rw [heq] at hconn'
      obtain ⟨conn, -, rfl⟩ :=
        Option.map_eq_some_iff.mp ((ep.conns.get?_update i _ i).symm.trans hconn')
      simp at hflag

/-- The queues are right, and the connections in `ready` are queued if they carry the
flag. -/
def Ready (ready : List ℕ) (ep : Endpoint C W) : Prop := Queued none ep ∧ Listed ready ep

theorem ready_invariant (ready : List ℕ) :
    Env.Invariant (Ready ready : Endpoint C W → Prop)
      (fun idx ep => Queued (some idx) ep ∧ Listed ready ep) where
  frame h hconns hqueues _ := ⟨h.1.congr hconns hqueues, h.2.congr hconns hqueues⟩
  core idx core h := ⟨h.1.setCore idx core, h.2.update idx fun _ => rfl⟩
  mark idx h := ⟨h.1.mark .tickable idx true, h.2.mark h.1 .tickable idx true⟩
  packet _ h := ⟨h.1.congr rfl rfl, h.2.congr rfl rfl⟩
  insert core h := ⟨h.1.insert core, h.2.insert core⟩
  pending h hconns hqueues _ := ⟨h.1.congr hconns hqueues, h.2.congr hconns hqueues⟩
  setIndex h := ⟨h.1.setIndex, h.2.update _ fun _ => rfl⟩

theorem Ready.markAll (h : Ready ready ep) {marks : List ℕ} (hmarks : marks ⊆ ready) {i : ℕ}
    (hi : i ∈ marks) (hconn : (ep.conns.get? i).isSome) :
    i ∈ (ep.markAll marks).queues.tickable := by
  induction marks generalizing ep with
  | nil => cases hi
  | cons j marks ih =>
    have hj : Ready ready (ep.mark .tickable j true) := (ready_invariant ready).mark j h
    have hrest : marks ⊆ ready := fun _ hmem => hmarks (.tail _ hmem)
    have hsome : ((ep.mark .tickable j true).conns.get? i).isSome := by
      have hcore := congrArg Option.isSome (coreAt_mark ep .tickable j true i)
      simp only [coreAt, Option.isSome_map] at hcore
      rwa [hcore]
    rcases List.mem_cons.mp hi with rfl | hi
    · -- The first mark puts it into the queue, and the others leave it there.
      have hmem : i ∈ (ep.mark .tickable i true).queues.tickable := by
        obtain ⟨conn, hget⟩ := Option.isSome_iff_exists.mp hsome
        refine hj.2 i (hmarks List.mem_cons_self) conn hget ?_
        exact h.1.flagged_mark i conn hget
      exact (hj.1.markAll i marks).2.2.1 hmem
    · exact ih hj hrest hi hsome

end Endpoint

namespace Env

open Endpoint Prog Act List

variable {Key C W : Type} {env : Env Key C W} {work : W → ℕ} {events toSend : C → ℕ}
  {ep : Endpoint C W} {ready : List ℕ} {idx : ℕ}

/-! ## The ticks -/

theorem Ready.refreshConnTimer (h : Ready ready ep) (idx : ℕ) :
    Ready ready (env.refreshConnTimer idx ep) := by
  obtain ⟨timers, heq⟩ := env.refreshConnTimer_eq idx ep
  rw [heq]
  exact (ready_invariant ready).frame h rfl rfl rfl

theorem Ready.finalizeConnTick (idx : ℕ) (ready : List ℕ) :
    Act.Triple (Ready ready) (env.finalizeConnTick idx ready) Ready (fun _ _ => False) := by
  intro ep h
  rw [Env.finalizeConnTick, get_bind]
  cases ep.conns.get? idx with
  | none => exact .intro h
  | some conn =>
    dsimp only
    have hsendable : Ready ready (ep.markSendable idx true) :=
      ⟨h.1.mark .sendable idx true, h.2.mark h.1 .sendable idx true⟩
    obtain ⟨hq, hlisted⟩ : Ready ready (env.refreshConnTimer idx (ep.markSendable idx true)) :=
      refreshConnTimer hsendable idx
    refine .intro ?_
    change Ready (if env.isReady conn.core then ready ++ [idx] else ready) _
    split
    · exact ⟨hq.mark .tickable idx false, hlisted.mark_false hq idx⟩
    · exact ⟨hq.mark .tickable idx false, hlisted.mark hq .tickable idx false⟩

theorem Ready.processConnection (idx : ℕ) (ready : List ℕ) :
    Prog.Valid (Ready ready) (env.processConnection idx ready) (fun out => Ready out.1)
      (fun _ ep => Queued none ep) := by
  have hphases : Prog.Valid (Ready ready) (env.processPhases idx) (fun _ => Ready ready)
      (fun _ ep => Queued none ep) := by
    intro s out hs hout
    have hkept := (ready_invariant ready).processPhases idx s out hs hout
    obtain ⟨s', r⟩ := out
    cases r with
    | ok => exact hkept
    | error => exact hkept.1
  refine valid_bind triple_get.valid fun ep => ?_
  have hstay (alive : Bool) : Prog.Valid (fun s => Ready ready s ∧ ep = s)
      (pure (ready, alive) : Program C W (List ℕ × Bool)) (fun out => Ready out.1)
      (fun _ ep => Queued none ep) :=
    valid_pure fun _ h => h.1
  split
  · exact hstay true
  · split
    · exact hstay false
    · intro s out hs hout
      refine valid_bind hphases (fun alive => ?_) s out hs.1 hout
      split
      · refine valid_bind (Q := Ready) ?_ fun ready' =>
          valid_pure fun _ h => h
        exact ((triple_act (finalizeConnTick idx ready)).weaken fun _ _ h => h.elim).valid
      · exact valid_pure fun _ h => h

theorem Ready.cleanupClosedConn (h : Ready ready ep) (idx : ℕ) :
    Ready ready (env.cleanupClosedConn idx ep) := by
  have hclosed : Ready ready (env.notifyClosed idx ep) :=
    (ready_invariant ready).notifyClosed h idx
  unfold Env.cleanupClosedConn
  generalize env.notifyClosed idx ep = ep₁ at hclosed
  have htick := hclosed.1.mark .tickable idx false
  have hsend := htick.mark .sendable idx false
  have hlisted := (hclosed.2.mark hclosed.1 .tickable idx false).mark htick .sendable idx false
  refine ⟨(Queued.removeConn env hsend ?_).1, ?_⟩
  · intro work
    cases work with
    | tickable =>
      rw [members_mark_of_ne _ (by decide), hclosed.1.members_mark_false]
      exact Finset.notMem_erase _ _
    | sendable =>
      rw [htick.members_mark_false]
      exact Finset.notMem_erase _ _
  · unfold removeConn
    split
    · exact hlisted
    · exact (hlisted.remove idx).congr rfl rfl

theorem tickableNext_none (h : env.tickableNext ep = none) : ep.queues.tickable = ∅ := by
  unfold tickableNext at h
  split at h
  · assumption
  · cases h

theorem ticks_valid :
    Prog.Valid (Queued none) (Prog.loop env.tickRound [])
      (fun ready ep => Ready ready ep ∧ ep.queues.tickable = ∅) (fun _ ep => Queued none ep) := by
  have hround (ready : List ℕ) : Prog.Valid (Ready ready) (env.tickRound ready)
      (fun next ep => next.Holds (fun ready => Ready ready ep)
        (fun ready => Ready ready ep ∧ ep.queues.tickable = ∅)) (fun _ ep => Queued none ep) := by
    refine valid_bind triple_get.valid fun ep => ?_
    cases hnext : env.tickableNext ep with
    | none =>
      refine valid_pure fun s h => ?_
      exact ⟨h.1, h.2 ▸ tickableNext_none hnext⟩
    | some idx =>
      intro s out hs hout
      refine valid_bind (Ready.processConnection idx ready) ?_ s out hs.1 hout
      rintro ⟨ready', alive⟩
      dsimp only
      split
      · exact valid_pure fun _ h => h
      · refine valid_bind (Q := fun _ => Ready ready')
          (valid_modify fun ep h => Ready.cleanupClosedConn h idx) fun _ => ?_
        exact valid_pure fun _ h => h
  intro s out hs hout
  refine valid_loop Ready hround [] s out ⟨hs, ?_⟩ hout
  intro i hi
  cases hi

/-! ## What a connection generates -/

variable (env) in
/-- A connection that is left to itself generates some packets and then has no more,
or fails. -/
inductive Generates : C → List Packet → Option Error → Prop
  | stopped {c : C} (hstop : env.isDraining c || env.isClosed c) : Generates c [] none
  | done {c c' : C} (hgo : (env.isDraining c || env.isClosed c) = false)
      (hsend : env.send c = (c', .error .done)) : Generates c [] none
  | failed {c c' : C} {e : Error} (hgo : (env.isDraining c || env.isClosed c) = false)
      (hsend : env.send c = (c', .error e)) (he : e ≠ .done) : Generates c [] (some e)
  | sent {c c' : C} {bytes : Bytes} {info : PacketInfo} {packets : List Packet}
      {failure : Option Error} (hgo : (env.isDraining c || env.isClosed c) = false)
      (hsend : env.send c = (c', .ok (bytes, info))) (hrest : Generates c' packets failure) :
      Generates c (⟨.datagram bytes, info⟩ :: packets) failure

theorem Generates.unique {c : C} {packets packets' : List Packet} {failure failure' : Option Error}
    (h : env.Generates c packets failure) (h' : env.Generates c packets' failure') :
    packets = packets' ∧ failure = failure' := by
  induction h generalizing packets' failure' with
  | stopped | done | failed => cases h' <;> simp_all
  | sent hgo hsend hrest ih =>
    cases h' with
    | stopped | done | failed => simp_all
    | sent _ hsend' hrest' =>
      rw [hsend] at hsend'
      cases hsend'
      obtain ⟨rfl, rfl⟩ := ih hrest'
      exact ⟨rfl, rfl⟩

theorem exists_generates (hfin : env.Finite work events toSend) (c : C) :
    ∃ packets failure, env.Generates c packets failure := by
  induction hn : toSend c using Nat.strong_induction_on generalizing c with
  | h n ih =>
    cases hstop : env.isDraining c || env.isClosed c with
    | true => exact ⟨[], none, .stopped hstop⟩
    | false =>
      rcases hsend : env.send c with ⟨c', e | ⟨bytes, info⟩⟩
      · by_cases he : e = .done
        · subst he
          exact ⟨[], none, .done hstop hsend⟩
        · exact ⟨[], some e, .failed hstop hsend he⟩
      · obtain ⟨packets, failure, hrest⟩ := ih (toSend c') (hn ▸ hfin.send hsend) c' rfl
        exact ⟨_, failure, .sent hstop hsend hrest⟩

/-! ## The packets of a call -/

theorem generatedBy_addConnPacket (i idx : ℕ) (packet : Packet) (ep : Endpoint C W) :
    generatedBy i (addConnPacket idx packet ep) =
      generatedBy i ep ++ if i = idx then [packet] else [] := by
  simp only [generatedBy, addConnPacket, addPacket, filter_append, map_append]
  by_cases hi : i = idx
  · simp [hi]
  · simp [hi, Ne.symm hi]

variable (env) in
/-- The connection at `i` has generated all of its packets but `rest`. -/
def Remaining (target : List Packet × Option Error) (i : ℕ) (ep : Endpoint C W) : Prop :=
  ∃ rest, generatedBy i ep ++ rest = target.1 ∧
    if i ∈ ep.queues.sendable then
      ∃ core, ep.coreAt i = some core ∧ env.Generates core rest target.2
    else rest = [] ∧ target.2 = none

variable (env) in
/-- While packets are sent: what each connection generates and how it ends is settled,
whatever the others do. -/
structure Sending (ready : List ℕ) (target : ℕ → List Packet × Option Error)
    (ep : Endpoint C W) : Prop where
  ready : Ready ready ep
  idle : ep.queues.tickable = ∅
  remaining : ∀ i, env.Remaining (target i) i ep

variable {target : ℕ → List Packet × Option Error} {ep' : Endpoint C W}

theorem Remaining.congr {i : ℕ} {t : List Packet × Option Error} (h : env.Remaining t i ep)
    (hgenerated : generatedBy i ep' = generatedBy i ep) (hcore : ep'.coreAt i = ep.coreAt i)
    (hsendable : i ∈ ep'.queues.sendable ↔ i ∈ ep.queues.sendable) : env.Remaining t i ep' := by
  unfold Remaining
  rw [hgenerated, hcore]
  simp only [hsendable]
  exact h

theorem Sending.congr (h : env.Sending ready target ep) (hconns : ep'.conns = ep.conns)
    (hqueues : ep'.queues = ep.queues) (hgenerated : ep'.generated = ep.generated) :
    env.Sending ready target ep' where
  ready := ⟨h.ready.1.congr hconns hqueues, h.ready.2.congr hconns hqueues⟩
  idle := by
    rw [hqueues]
    exact h.idle
  remaining i := by
    refine (h.remaining i).congr ?_ ?_ (by rw [hqueues])
    · rw [generatedBy, generatedBy, hgenerated]
    · rw [coreAt, coreAt, hconns]

theorem Sending.leave (h : env.Sending ready target ep) (hready : Ready ready ep')
    (hqueues : ep'.queues = ep.queues) (hlog : ep'.generated = ep.generated)
    (hcores : ∀ i, i ≠ idx → ep'.coreAt i = ep.coreAt i)
    (hidx : generatedBy idx ep = (target idx).1) (hnone : (target idx).2 = none) :
    env.Sending ready target (ep'.markSendable idx false) := by
  have hsendable : (ep'.mark .sendable idx false).queues.sendable =
      ep.queues.sendable.erase idx := by
    rw [← hqueues]
    exact hready.1.members_mark_false .sendable idx
  have hgenerated (i : ℕ) : generatedBy i (ep'.mark .sendable idx false) = generatedBy i ep := by
    rw [generatedBy, generatedBy, ← hlog]
    unfold mark
    repeat' split
    all_goals rfl
  refine ⟨⟨hready.1.mark .sendable idx false, hready.2.mark hready.1 .sendable idx false⟩, ?_, ?_⟩
  · refine (members_mark_of_ne ep' (by decide) idx false).trans ?_
    rw [hqueues]
    exact h.idle
  · intro i
    change env.Remaining (target i) i (ep'.mark .sendable idx false)
    by_cases hi : i = idx
    · subst hi
      refine ⟨[], ?_, ?_⟩
      · rw [hgenerated, append_nil, hidx]
      · rw [if_neg (by rw [hsendable]; exact Finset.notMem_erase _ _)]
        exact ⟨rfl, hnone⟩
    · refine (h.remaining i).congr (hgenerated i) ?_ ?_
      · rw [coreAt_mark, hcores i hi]
      · rw [hsendable, Finset.mem_erase]
        exact and_iff_right hi

theorem Sending.send (h : env.Sending ready target ep) (hidx : idx ∈ ep.queues.sendable)
    {core core' : C} {packet : Packet} {rest : List Packet} (hcore : ep.coreAt idx = some core)
    (hrest : generatedBy idx ep ++ packet :: rest = (target idx).1)
    (hgenerates : env.Generates core' rest (target idx).2) :
    env.Sending ready target (addConnPacket idx packet (ep.setCore idx core')) := by
  have hready := (ready_invariant ready).core idx core' h.ready
  refine ⟨⟨hready.1.congr rfl rfl, hready.2.congr rfl rfl⟩, h.idle, fun i => ?_⟩
  have hgenerated := generatedBy_addConnPacket i idx packet (ep.setCore idx core')
  have hcore' : (addConnPacket idx packet (ep.setCore idx core')).coreAt i =
      (ep.coreAt i).map fun c => if i = idx then core' else c := coreAt_setCore ep idx core' i
  by_cases hi : i = idx
  · subst hi
    refine ⟨rest, ?_, ?_⟩
    · rw [hgenerated, if_pos rfl, ← hrest, append_assoc]
      rfl
    · rw [if_pos (show i ∈ (addConnPacket i packet (ep.setCore i core')).queues.sendable from hidx)]
      exact ⟨core', by simp [hcore', hcore], hgenerates⟩
  · refine (h.remaining i).congr ?_ ?_ .rfl
    · rw [hgenerated, if_neg hi, append_nil]
      rfl
    · rw [hcore']
      simp [hi]

def Failed (target : ℕ → List Packet × Option Error) (e : Error) (ep : Endpoint C W) : Prop :=
  ep.queues.tickable = ∅ ∧ ∃ i ∈ ep.queues.sendable, (target i).2 = some e

theorem sendConnPackets_valid (idx : ℕ) (sent : List ℕ) :
    Act.Valid (fun ep => env.Sending ready target ep ∧ idx ∈ ep.queues.sendable)
      (env.sendConnPackets idx sent) (fun _ => env.Sending ready target) (Failed target) := by
  rintro ep out ⟨h, hidx⟩ hout
  obtain ⟨rest, hrest, hgenerates⟩ := h.remaining idx
  rw [if_pos hidx] at hgenerates
  obtain ⟨core, hcore, hgenerates⟩ := hgenerates
  obtain ⟨conn, hconn, rfl⟩ := Option.map_eq_some_iff.mp hcore
  have hcores (c' : C) : ∀ i, i ≠ idx → (ep.setCore idx c').coreAt i = ep.coreAt i := by
    intro i hi
    simp [coreAt_setCore, hi]
  rw [sendConnPackets, get_bind, hconn] at hout
  dsimp only at hout
  generalize htarget : (target idx).2 = failure at hgenerates
  -- The branch the code takes is the one by which the connection goes on or ends.
  cases hgenerates with
  | stopped hstop =>
    rw [if_pos hstop, modify_bind] at hout
    cases hout
    rw [append_nil] at hrest
    exact h.leave h.ready rfl rfl (fun _ _ => rfl) hrest htarget
  | @done _ c' hgo hsend =>
    have hresult : env.connSend idx conn ep = .ok (ep.setCore idx c', .ok (.error .done)) := by
      simp only [connSend, hsend]
    rw [if_neg (by simp [hgo]), bind_of_ok hresult] at hout
    cases hout
    rw [append_nil] at hrest
    have hready := (ready_invariant ready).core idx c' h.ready
    exact h.leave hready rfl rfl (hcores c') hrest htarget
  | @failed _ c' e hgo hsend he =>
    have hresult : env.connSend idx conn ep = .ok (ep.setCore idx c', .ok (.error e)) := by
      simp only [connSend, hsend]
    rw [if_neg (by simp [hgo]), bind_of_ok hresult] at hout
    dsimp only at hout
    rw [if_neg he] at hout
    cases hout
    exact ⟨h.idle, idx, hidx, htarget⟩
  | @sent _ c' bytes info packets _ hgo hsend hmore =>
    have hresult : env.connSend idx conn ep =
        .ok (addConnPacket idx ⟨.datagram bytes, info⟩ (ep.setCore idx c'), .ok (.ok ())) := by
      simp only [connSend, hsend]
    rw [if_neg (by simp [hgo]), bind_of_ok hresult] at hout
    cases hout
    exact h.send hidx hcore hrest (htarget ▸ hmore)

variable (env) in
def Accepts : Prop := ∀ world batch, ∃ n, (env.onPacketsSend world batch).2 = .ok n

section

variable (hsender : env.Accepts) {E : Error → Endpoint C W → Prop} {P : Endpoint C W → Prop}

include hsender

theorem packetsSend_valid (hP : ∀ ep world, P ep → P { ep with world := world })
    (batch : List Packet) : Act.Valid P (env.packetsSend batch) (fun _ => P) E := by
  intro ep out h hout
  obtain ⟨n, hn⟩ := hsender ep.world batch
  rcases hsend : env.onPacketsSend ep.world batch with ⟨world, result⟩
  rw [hsend] at hn
  change result = .ok n at hn
  subst hn
  simp only [packetsSend, hsend] at hout
  cases hout
  exact hP ep world h

theorem flushFullBatch_valid :
    Act.Valid (env.Sending ready target) env.flushFullBatch (fun _ => env.Sending ready target)
      (Failed target) := by
  intro ep out h hout
  rw [flushFullBatch, get_bind] at hout
  split at hout
  · refine valid_bind (packetsSend_valid hsender (fun ep _ h => ?_) _) (fun done => ?_)
      ep out h hout
    · exact h.congr rfl rfl rfl
    · refine (Act.triple_modify fun ep h => ?_).valid
      exact h.congr rfl rfl rfl
  · cases hout
    exact h

theorem sendRound_valid (sent : List ℕ) :
    Act.Valid (env.Sending ready target) (env.sendRound sent)
      (fun next ep => next.Holds (fun _ => env.Sending ready target ep)
        (fun _ => env.Sending ready target ep)) (Failed target) := by
  intro ep out h hout
  rw [sendRound, get_bind] at hout
  cases hnext : env.sendableNext ep with
  | none =>
    rw [hnext] at hout
    cases hout
    exact h
  | some idx =>
    rw [hnext] at hout
    refine valid_bind (sendConnPackets_valid idx sent) (fun sent' => ?_) ep out
      ⟨h, sendableNext_mem hnext⟩ hout
    exact valid_bind (flushFullBatch_valid hsender) fun _ =>
      valid_pure fun _ h => h

theorem sendAllRound_valid (sent : List ℕ) :
    Prog.Valid (env.Sending ready target) (env.sendAllRound sent)
      (fun next ep => next.Holds (fun _ => env.Sending ready target ep)
        (fun _ => env.Sending ready target ep ∧ ep.queues.sendable = ∅)) (Failed target) := by
  refine valid_bind triple_get.valid fun ep => ?_
  split
  · next hempty => exact valid_pure fun s h => ⟨h.1, h.2 ▸ hempty⟩
  · intro s out hs hout
    refine valid_bind (valid_loop (fun _ => env.Sending ready target)
      (fun sent => valid_act (sendRound_valid hsender sent)) sent) (fun sent' => ?_) s out
      hs.1 hout
    exact valid_pure fun _ h => h

theorem flushRemaining_valid
    (hP : ∀ ep ep' : Endpoint C W, ep'.conns = ep.conns → ep'.queues = ep.queues →
      ep'.generated = ep.generated → P ep → P ep') :
    Prog.Valid P env.flushRemaining (fun _ => P) E := by
  refine valid_loop (fun _ => P) (fun total => valid_act ?_) 0
  intro ep out h hout
  rw [flushRound, get_bind] at hout
  split at hout
  · cases hout
    exact h
  · refine valid_bind (packetsSend_valid hsender (fun ep _ h => hP ep _ rfl rfl rfl h) _)
      (fun done => ?_) ep out h hout
    split
    · exact valid_pure fun _ h => h
    · intro ep out h hout
      cases hout
      exact hP ep _ rfl rfl rfl h

theorem sendPacketsOut_valid :
    Prog.Valid (env.Sending ready target) env.sendPacketsOut
      (fun _ ep => env.Sending ready target ep ∧ ep.queues.sendable = ∅) (Failed target) := by
  have hcongr (ep ep' : Endpoint C W) (hconns : ep'.conns = ep.conns)
      (hqueues : ep'.queues = ep.queues) (hgenerated : ep'.generated = ep.generated)
      (h : env.Sending ready target ep ∧ ep.queues.sendable = ∅) :
      env.Sending ready target ep' ∧ ep'.queues.sendable = ∅ :=
    ⟨h.1.congr hconns hqueues hgenerated, hqueues ▸ h.2⟩
  refine valid_bind (valid_loop (fun _ => env.Sending ready target)
    (sendAllRound_valid hsender) []) fun sent => ?_
  refine valid_bind (Q := fun _ ep => env.Sending ready target ep ∧ ep.queues.sendable = ∅)
    (valid_modify fun ep h => ?_) fun _ => ?_
  · refine foldlRecOn (motive := fun ep => env.Sending ready target ep ∧
      ep.queues.sendable = ∅) _ _ h fun ep' h' idx _ => ?_
    obtain ⟨timers, heq⟩ := env.refreshConnTimer_eq idx ep'
    rw [heq]
    exact hcongr ep' _ rfl rfl rfl h'
  · exact valid_bind (flushRemaining_valid hsender hcongr) fun _ =>
      valid_pure fun _ h => h

end

/-! ## Independence -/

variable (env) in
/-- The outcome of a call whose ticks ended in `ep` with the connections `ready` still having
events: a connection that does not fail has generated its own packets, and no connection that fails
is left in the queue. -/
structure Independent (ready : List ℕ) (ep ep' : Endpoint C W) : Prop where
  packets : ∀ i ∈ ep.queues.sendable, ∀ core packets, ep.coreAt i = some core →
    env.Generates core packets none → generatedBy i ep' = generatedBy i ep ++ packets
  tickable : ∀ i ∈ ready, (ep'.conns.get? i).isSome → i ∈ ep'.queues.tickable
  failed : ∀ i ∈ ep.queues.sendable, ∀ core packets e, ep.coreAt i = some core →
    env.Generates core packets (some e) → i ∉ ep'.queues.sendable

variable (env) in
def NoneFails (ep : Endpoint C W) : Prop :=
  ∀ i ∈ ep.queues.sendable, ∀ core packets e, ep.coreAt i = some core →
    ¬ env.Generates core packets (some e)

theorem exists_sending (hfin : env.Finite work events toSend) (hready : Ready ready ep)
    (hidle : ep.queues.tickable = ∅) :
    ∃ target, env.Sending ready target ep ∧
      ∀ i ∈ ep.queues.sendable, ∃ core packets, ep.coreAt i = some core ∧
        env.Generates core packets (target i).2 ∧ (target i).1 = generatedBy i ep ++ packets := by
  have hall : ∀ i, ∃ t : List Packet × Option Error, env.Remaining t i ep ∧
      (i ∈ ep.queues.sendable → ∃ core packets, ep.coreAt i = some core ∧
        env.Generates core packets t.2 ∧ t.1 = generatedBy i ep ++ packets) := by
    intro i
    by_cases hi : i ∈ ep.queues.sendable
    · obtain ⟨-, conn, hconn, -⟩ := hready.1.member hi
      obtain ⟨packets, failure, hgenerates⟩ := exists_generates hfin conn.core
      have hcore : ep.coreAt i = some conn.core := by simp [coreAt, hconn]
      refine ⟨(generatedBy i ep ++ packets, failure), ⟨packets, rfl, ?_⟩, fun _ =>
        ⟨conn.core, packets, hcore, hgenerates, rfl⟩⟩
      rw [if_pos hi]
      exact ⟨conn.core, hcore, hgenerates⟩
    · refine ⟨(generatedBy i ep, none), ⟨[], append_nil _, ?_⟩, fun h => absurd h hi⟩
      rw [if_neg hi]
      exact ⟨rfl, rfl⟩
  choose target hremaining hown using hall
  exact ⟨target, ⟨hready, hidle, hremaining⟩, hown⟩

theorem generated_markAll (ep : Endpoint C W) (marks : List ℕ) :
    (ep.markAll marks).generated = ep.generated := by
  refine foldlRecOn (motive := fun s : Endpoint C W => s.generated = ep.generated) _ _ rfl
    fun s hs i _ => ?_
  rw [← hs]
  unfold markTickable mark
  repeat' split
  all_goals rfl

theorem processConnections_valid {ep₁ : Endpoint C W} (hsender : env.Accepts)
    (hticks : (Prog.loop env.tickRound []).Yields ep (ep₁, .ok ready))
    (hsending : env.Sending ready target ep₁) :
    Prog.Valid (fun s => s = ep) env.processConnections
      (fun _ ep' => ∃ ep₂, env.Sending ready target ep₂ ∧ ep₂.queues.sendable = ∅ ∧
        ep' = ep₂.markAll ready) (Failed target) := by
  have hfirst : Prog.Valid (fun s => s = ep) (.loop env.tickRound [])
      (fun ready' s => ready' = ready ∧ s = ep₁) (Failed target) := by
    rintro s out rfl hout
    rw [hout.unique hticks]
    exact ⟨rfl, rfl⟩
  refine valid_bind hfirst fun ready' => ?_
  rintro s out ⟨rfl, rfl⟩ hout
  refine valid_bind (sendPacketsOut_valid hsender) (fun _ => ?_) s out hsending hout
  exact valid_modify fun ep₂ h => ⟨ep₂, h.1, h.2, rfl⟩

/-- In every state reached, `process_connections` keeps the connections apart exactly when none of
those sendable after the ticks fails to generate its packets. -/
theorem independent_iff_none_fails (env : Env Key C W) (work : W → ℕ) (events toSend : C → ℕ)
    (hfin : env.Finite work events toSend) (hsender : env.Accepts) (size : ℕ) (world : W)
    (ops : List (Op W)) (ep : Endpoint C W)
    (hreach : Prog.Reach env.perform env.ClosesQuietly (Endpoint.new size world) ops ep) :
    ∃ ready ep₁ ep' r, (Prog.loop env.tickRound []).Yields ep (ep₁, .ok ready) ∧
      env.processConnections.Yields ep (ep', r) ∧
      (env.Independent ready ep₁ ep' ↔ env.NoneFails ep₁) := by
  have hqueued : Queued none ep := hreach.invariant (.new size world)
    fun op s out h hclose hout => perform_keeps hfin h hclose hout
  obtain ⟨ep₁, ready, hticks⟩ :
      ∃ ep₁ ready, (loop env.tickRound []).Yields ep (ep₁, .ok ready) := by
    obtain ⟨⟨ep₁, r⟩, hyields, hr⟩ := triple_loop (Q := fun _ => Queued none)
      (fun _ => Queued none) (fun _ => load work) (tickRound_triple hfin) [] ep hqueued
    cases r with
    | error => exact hr.elim
    | ok ready => exact ⟨ep₁, ready, hyields⟩
  obtain ⟨hready, hidle⟩ := ticks_valid ep _ hqueued hticks
  obtain ⟨target, hsending, hown⟩ := exists_sending hfin hready hidle
  obtain ⟨⟨ep', r⟩, hout, -⟩ := processConnections_triple hfin ep hqueued
  have hpost := processConnections_valid hsender hticks hsending ep _ rfl hout
  refine ⟨ready, ep₁, ep', r, hticks, hout, ?_⟩
  cases r with
  | error e =>
    -- The connection that ended the call is still in the queue.
    obtain ⟨-, i, hi, hfailed⟩ := hpost
    have hi₁ : i ∈ ep₁.queues.sendable := by
      obtain ⟨rest, -, hrest⟩ := hsending.remaining i
      by_contra hmem
      rw [if_neg hmem, hfailed] at hrest
      cases hrest.2
    obtain ⟨core, packets, hcore, hgenerates, -⟩ := hown i hi₁
    rw [hfailed] at hgenerates
    constructor
    · intro h
      exact absurd hi (h.failed i hi₁ core packets e hcore hgenerates)
    · intro h
      exact absurd hgenerates (h i hi₁ core packets e hcore)
  | ok _ =>
    obtain ⟨ep₂, h₂, hempty, rfl⟩ := hpost
    have hended (i : ℕ) : generatedBy i ep₂ = (target i).1 ∧ (target i).2 = none := by
      obtain ⟨rest, hrest, hend⟩ := h₂.remaining i
      rw [if_neg (by simp [hempty])] at hend
      rw [hend.1, append_nil] at hrest
      exact ⟨hrest, hend.2⟩
    have hnone : env.NoneFails ep₁ := by
      intro i hi core packets e hcore hgenerates
      obtain ⟨core', packets', hcore', hgenerates', -⟩ := hown i hi
      cases hcore.symm.trans hcore'
      rw [(hended i).2] at hgenerates'
      cases (hgenerates.unique hgenerates').2
    refine iff_of_true ⟨?_, ?_, ?_⟩ hnone
    · intro i hi core packets hcore hgenerates
      obtain ⟨core', packets', hcore', hgenerates', htarget⟩ := hown i hi
      cases hcore.symm.trans hcore'
      obtain ⟨rfl, -⟩ := hgenerates.unique hgenerates'
      rw [generatedBy, generated_markAll]
      exact (hended i).1.trans htarget
    · intro i hi hsome
      refine h₂.ready.markAll (.refl ready) hi ?_
      have hcore := congrArg Option.isSome ((h₂.ready.1.markAll i ready).2.2.2.2.2 i)
      simp only [coreAt, Option.isSome_map] at hcore
      rwa [← hcore]
    · intro i hi core packets e hcore hgenerates
      exact absurd hgenerates (hnone i hi core packets e hcore)

/-- A connection with `n` packets to send; one that was opened to port 0 cannot send. -/
def countingProtocol : Protocol (Option ℕ) where
  newClient _ _ remoteAddr := .ok (if remoteAddr.port = 0 then none else some 1)
  newServer _ _ _ _ := .ok none
  startHandshake c _ _ := (c, .ok ())
  recv c _ _ := (c, .ok ())
  send
    | none => (none, .error .internalError)
    | some 0 => (some 0, .error .done)
    | some (n + 1) => (some n, .ok ([], ⟨clientAddr, serverAddr⟩))
  reset c := c
  connOnTimeout c _ := c
  timeout _ := none
  poll _ := none
  addScid c _ := some c
  isClosed _ := false
  isDraining _ := false
  isReady c := c.isSome
  streamIter _ := []
  streamReadableIter _ := []
  streamWritableIter _ := []
  streamCheckReadable _ _ := false
  streamCheckWritable _ _ := false
  streamDestroy c _ := c
  routes _ := ([], [], [])

def countingClient : Env UInt8 (Option ℕ) Unit where
  toProtocol := countingProtocol
  isServer := false
  config := idleServer.config
  aead := .transparent
  systemTime := idleServer.systemTime
  instant := idleServer.instant
  generate := idleServer.generate
  nonce := idleServer.nonce
  resetToken := idleServer.resetToken
  callback _ _ core := ⟨(), core, false, []⟩
  onPacketsSend := idleServer.onPacketsSend
  pick := idleServer.pick
  pick_mem := idleServer.pick_mem

theorem countingClient_finite :
    countingClient.Finite (fun _ => 0) (fun _ => 0) (fun c => c.getD 0) where
  marks _ _ _ := le_rfl
  causes _ _ _ := le_rfl
  poll h := by cases h
  streamDestroy _ _ := le_rfl
  addScid _ := le_rfl
  generate _ := le_rfl
  send {c c' packet} h := by
    match c with
    | none => cases h
    | some 0 => cases h
    | some (n + 1) =>
      cases h
      exact Nat.lt_succ_self n

def connectTo (port : ℕ) : Op Unit :=
  .connect ⟨clientAddr, ⟨serverAddr.ip, UInt16.ofNat port⟩⟩ none none

def connected (port port' : ℕ) : Endpoint (Option ℕ) Unit :=
  (countingClient.perform (connectTo port')).final 0
    ((countingClient.perform (connectTo port)).final 0 (Endpoint.new 10 ()))

theorem reach_connected (port port' : ℕ)
    (hfirst : (countingClient.perform (connectTo port)).result? 0 (Endpoint.new 10 ()) =
      some (.ok ()))
    (hsecond : (countingClient.perform (connectTo port')).result? 0
      ((countingClient.perform (connectTo port)).final 0 (Endpoint.new 10 ())) = some (.ok ())) :
    Prog.Reach countingClient.perform countingClient.ClosesQuietly (Endpoint.new 10 ())
      [connectTo port, connectTo port'] (connected port port') :=
  .call (.call .start (fun h => by cases h) (yields_of_result? hfirst))
    (fun h => by cases h) (yields_of_result? hsecond)

theorem independent_iff_none_fails_counting :
    ∃ ready ep₁ ep' r,
      (Prog.loop countingClient.tickRound []).Yields (connected 443 444) (ep₁, .ok ready) ∧
      countingClient.processConnections.Yields (connected 443 444) (ep', r) ∧
      (countingClient.Independent ready ep₁ ep' ↔ countingClient.NoneFails ep₁) :=
  independent_iff_none_fails countingClient _ _ _ countingClient_finite
    (fun _ batch => ⟨batch.length, rfl⟩) 10 () _ _
    (reach_connected 443 444 (by decide +kernel) (by decide +kernel))

theorem sendPacketsOut_fails {core : C} {e : Error} (hnext : env.sendableNext ep = some idx)
    (hcore : ep.coreAt idx = some core)
    (hgo : (env.isDraining core || env.isClosed core) = false)
    (hsend : env.send core = (core, .error e)) (he : e ≠ .done) :
    env.sendPacketsOut.Yields ep (ep, .error e) := by
  obtain ⟨conn, hconn, rfl⟩ := Option.map_eq_some_iff.mp hcore
  have hsame : ep.setCore idx conn.core = ep := by
    have htable : ep.conns.update idx (fun c => { c with core := conn.core }) = ep.conns := by
      unfold ConnectionTable.update
      congr 1
      exact SortedMap.modify_eq_self hconn rfl
    rw [setCore, htable]
  have hresult : env.connSend idx conn ep = .ok (ep, .ok (.error e)) := by
    simp only [connSend, hsend, hsame]
  have hpackets (sent : List ℕ) : env.sendConnPackets idx sent ep = .ok (ep, .error e) := by
    rw [sendConnPackets, get_bind, hconn]
    dsimp only
    rw [if_neg (by simp [hgo]), bind_of_ok hresult]
    dsimp only
    rw [if_neg he]
    rfl
  have hround (sent : List ℕ) : env.sendRound sent ep = .ok (ep, .error e) := by
    rw [sendRound, get_bind, hnext]
    exact bind_of_error (hpackets sent)
  have hall (sent : List ℕ) : (env.sendAllRound sent).Yields ep (ep, .error e) := by
    have hne : ep.queues.sendable ≠ ∅ := Finset.ne_empty_of_mem (sendableNext_mem hnext)
    refine yields_bind ⟨0, rfl⟩ ?_
    rw [if_neg hne]
    exact yields_bind_error (loop_error ⟨0, hround sent⟩) _
  exact yields_bind_error (loop_error (hall [])) _

theorem ticks_idle (hidle : ep.queues.tickable = ∅) :
    (Prog.loop env.tickRound []).Yields ep (ep, .ok []) := by
  refine loop_done (yields_bind ⟨0, rfl⟩ ?_)
  rw [tickableNext, if_pos hidle]
  exact ⟨0, rfl⟩

def stalled : Endpoint (Option ℕ) Unit :=
  (Prog.loop countingClient.tickRound []).final 3 (connected 0 443)

/-- One connection cannot send and one has a packet to send and an event: the call returns the first
one's error, the second generates nothing, and so for every later call. -/
theorem failure_stops_the_others :
    Prog.Reach countingClient.perform countingClient.ClosesQuietly (Endpoint.new 10 ())
        [connectTo 0, connectTo 443] (connected 0 443) ∧
      (Prog.loop countingClient.tickRound []).Yields (connected 0 443) (stalled, .ok [1]) ∧
      1 ∈ stalled.queues.sendable ∧
      (∃ core packets, stalled.coreAt 1 = some core ∧
        countingClient.Generates core packets none ∧ packets ≠ []) ∧
      countingClient.processConnections.Yields (connected 0 443)
        (stalled, .error .internalError) ∧
      generatedBy 1 stalled = [] ∧ 1 ∉ stalled.queues.tickable ∧
      countingClient.processConnections.Yields stalled (stalled, .error .internalError) := by
  have hticks : (loop countingClient.tickRound []).Yields (connected 0 443)
      (stalled, .ok [1]) := yields_of_result? (by decide +kernel)
  have hnext : countingClient.sendableNext stalled = some 0 := by decide +kernel
  have hcore : stalled.coreAt 0 = some none := by decide +kernel
  have hfails : countingClient.sendPacketsOut.Yields stalled (stalled, .error .internalError) :=
    sendPacketsOut_fails hnext hcore rfl rfl (by decide)
  refine ⟨reach_connected 0 443 (by decide +kernel) (by decide +kernel), hticks,
    by decide +kernel, ⟨some 1, _, by decide +kernel, .sent rfl rfl (.done rfl rfl),
      cons_ne_nil _ _⟩, ?_, by decide +kernel, by decide +kernel, ?_⟩
  · exact yields_bind hticks (yields_bind_error hfails _)
  · exact yields_bind (ticks_idle (by decide +kernel)) (yields_bind_error hfails _)

end Env

end Tquic
