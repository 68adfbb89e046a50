import Tquic.Endpoint.Process

/-!
# Invariants of an endpoint

What the code between two loops does to an endpoint comes down to a few changes. A property that
these keep is kept by everything that is built from them.
-/

namespace Tquic

def Payload.isRetry : Payload → Bool
  | .retry _ _ _ _ => true
  | _ => false

namespace Env

open Endpoint Act

variable {Key C W : Type}

/-- `I` is kept by the basic changes; `J idx` takes its place while the connection at
`idx` does not know its index. -/
structure Invariant (I : Endpoint C W → Prop) (J : ℕ → Endpoint C W → Prop) : Prop where
  frame : ∀ {ep ep'}, I ep → ep'.conns = ep.conns → ep'.queues = ep.queues →
    ep'.packets = ep.packets → I ep'
  core : ∀ {ep} idx core, I ep → I (ep.setCore idx core)
  mark : ∀ {ep} idx, I ep → I (ep.markTickable idx true)
  packet : ∀ {ep packet}, packet.payload.isRetry = false → I ep → I (ep.addPacket packet)
  insert : ∀ {ep} core, I ep →
    J ep.conns.nextIndex { ep with conns := ep.conns.insert core }
  pending : ∀ {ep ep' idx}, J idx ep → ep'.conns = ep.conns → ep'.queues = ep.queues →
    ep'.packets = ep.packets → J idx ep'
  setIndex : ∀ {ep idx}, J idx ep → I (ep.setIndex idx)

def Keeps {α : Type} (I : Endpoint C W → Prop) (code : Code C W α) : Prop :=
  Triple I code (fun _ => I) (fun _ => I)

section Rules

variable {α β : Type} {I : Endpoint C W → Prop}

theorem Keeps.bind {x : Code C W α} {f : α → Code C W β} (hx : Keeps I x)
    (hf : ∀ a, Keeps I (f a)) : Keeps I (x >>= f) :=
  triple_bind hx hf

theorem keeps_pure (a : α) : Keeps I (pure a : Code C W α) :=
  triple_pure fun _ h => h

theorem keeps_throw (e : Error) : Keeps I (throw e : Code C W α) :=
  triple_throw fun _ h => h

theorem keeps_get : Keeps I (get : Code C W (Endpoint C W)) :=
  fun _ h => .intro h

theorem keeps_lift (r : Result α) : Keeps I (lift r : Code C W α) :=
  triple_lift (fun _ _ _ h => h) (fun _ _ h => h)

theorem keeps_modify {f : Endpoint C W → Endpoint C W} (hf : ∀ ep, I ep → I (f ep)) :
    Keeps I (modify f) :=
  triple_modify hf

end Rules

variable {env : Env Key C W} {I : Endpoint C W → Prop} {J : ℕ → Endpoint C W → Prop}

/-! ## Parts of the endpoint -/

variable {ep : Endpoint C W}

section

variable (hI : Invariant I J)

include hI

theorem Invariant.markAll (h : I ep) (marks : List ℕ) : I (ep.markAll marks) :=
  List.foldlRecOn _ _ h fun _ h idx _ => hI.mark idx h

theorem Invariant.call (h : I ep) (idx : ℕ) (callback : Callback) :
    I (env.call idx callback ep) := by
  unfold Env.call
  split
  · exact h
  · refine hI.markAll ?_ _
    split
    · exact hI.mark idx (hI.frame (hI.core idx _ h) rfl rfl rfl)
    · exact hI.frame (hI.core idx _ h) rfl rfl rfl

theorem Invariant.streamClosed (h : I ep) (idx id : ℕ) : I (env.streamClosed idx id ep) := by
  have hcall : I (env.call idx (.onStreamClosed id) ep) := hI.call h idx _
  unfold Env.streamClosed destroyStream
  split
  · exact hcall
  · exact hI.core idx _ hcall

theorem Invariant.notifyClosed (h : I ep) (idx : ℕ) : I (env.notifyClosed idx ep) := by
  unfold Env.notifyClosed
  split
  · exact h
  · refine hI.call (List.foldlRecOn _ _ h fun _ h' id _ => ?_) idx _
    exact hI.streamClosed h' idx id

theorem Invariant.notifyAll (h : I ep) : I (env.notifyAll ep) :=
  List.foldlRecOn _ _ h fun _ h' idx _ => hI.notifyClosed h' idx

theorem Invariant.connReset (h : I ep) (idx : ℕ) : I (env.connReset idx ep) := by
  unfold Env.connReset
  split
  · exact h
  · exact hI.core idx _ h

theorem Invariant.generateCid : Keeps I env.generateCid :=
  fun _ h => .intro (hI.frame h rfl rfl rfl)

theorem Invariant.generateNonce : Keeps I env.generateNonce :=
  fun _ h => .intro (hI.frame h rfl rfl rfl)

theorem Invariant.sendRetry {hdr : PacketHeader} {info : PacketInfo}
    (hretry : ∀ ep nonce issued rscid token, AddressToken.encode env.aead nonce env.tokenKey
      (.newRetryToken issued info.src hdr.dcid rscid) = .ok token → I ep →
      I (ep.addPacket ⟨.retry rscid hdr.scid hdr.dcid token, ⟨info.dst, info.src⟩⟩)) :
    Keeps I (env.sendRetry hdr info) := by
  refine hI.generateCid.bind fun rscid => hI.generateNonce.bind fun nonce =>
    keeps_get.bind fun ep => ?_
  refine triple_bind (Q := fun token s => I s ∧ AddressToken.encode env.aead nonce
      env.tokenKey (.newRetryToken (env.systemTime ep.world) info.src hdr.dcid rscid) = .ok token)
    (triple_lift (fun _ _ htoken h => ⟨h, htoken⟩) fun _ _ h => h) fun token => ?_
  exact triple_modify fun ep' h => hretry ep' nonce _ rscid token h.2 h.1

theorem Invariant.sendVersionNegotiation (hdr : PacketHeader)
    (info : PacketInfo) : Keeps I (sendVersionNegotiation hdr info) :=
  keeps_modify fun _ h => hI.packet rfl h

theorem Invariant.sendStatelessReset (len : ℕ) (dcid : ConnectionId)
    (info : PacketInfo) : Keeps I (env.sendStatelessReset len dcid info) := by
  refine triple_ite (fun _ => keeps_pure _) fun _ => triple_ite (fun _ => keeps_pure _) fun _ => ?_
  exact keeps_modify fun _ h => hI.packet rfl h

theorem Invariant.connRecv (idx : ℕ) (buf : Bytes) (info : PacketInfo) :
    Keeps I (env.connRecv idx buf info) := by
  intro ep h
  unfold Env.connRecv
  split
  · exact .intro h
  · exact .intro (post_const.mpr (hI.core idx _ h))

/-- A datagram for a known connection keeps the invariant. -/
theorem Invariant.recvExistingConn (idx : ℕ) (reset : Bool) (buf : Bytes)
    (info : PacketInfo) : Keeps I (env.recvExistingConn idx reset buf info) := by
  refine (keeps_modify fun _ h => hI.mark idx h).bind fun _ => ?_
  exact triple_ite (fun _ => keeps_modify fun _ h => hI.connReset h idx)
    fun _ => hI.connRecv idx buf info

theorem Invariant.recvUnknownClient (hdr : PacketHeader) (len : ℕ)
    (info : PacketInfo) : Keeps I (env.recvUnknownClient hdr len info) :=
  triple_ite (fun _ => hI.sendStatelessReset len hdr.dcid info) fun _ => keeps_pure _

/-- So do the datagrams that were buffered before the connection existed. -/
theorem Invariant.recvBuffered (idx : ℕ)
    (buffered : List (Bytes × PacketInfo)) : Keeps I (env.recvBuffered idx buffered) := by
  induction buffered with
  | nil => exact keeps_pure _
  | cons e buffered ih => exact (hI.connRecv idx e.1 e.2).bind fun _ => ih

end

/-! ## New connections -/

section

variable (hI : Invariant I J)

include hI

theorem Invariant.deliverInitialToConn (idx : ℕ) (hdr : PacketHeader)
    (buf : Bytes) (info : PacketInfo) :
    Triple (J idx) (env.deliverInitialToConn idx hdr buf info) (fun _ => I) (fun _ => I) := by
  intro ep h
  rw [Env.deliverInitialToConn, get_bind]
  dsimp only
  refine (hI.connRecv idx buf info).bind (fun _ => hI.recvBuffered idx _) _ ?_
  refine hI.mark idx (hI.call (hI.setIndex ?_) idx _)
  exact hI.pending h rfl rfl rfl

theorem Invariant.createServerConn {hdr : PacketHeader}
    {token : Option AddressToken} (hodcid : (originalDcid hdr token).Returns fun _ => True)
    (info : PacketInfo) :
    Triple I (env.createServerConn hdr token info) J (fun _ => I) := by
  refine triple_bind (triple_exec hodcid fun _ _ _ h => h) fun odcid =>
    triple_bind hI.generateCid fun scid => triple_bind (keeps_lift _) fun core => ?_
  refine triple_bind (fun ep h => .intro (hI.insert core h)) fun idx => ?_
  refine triple_bind (Q := fun _ => J idx) (triple_modify fun ep h => ?_) fun _ =>
    triple_pure fun _ h => h
  exact hI.pending h rfl rfl rfl

theorem Invariant.initClientConn (idx : ℕ) (session token : Option Bytes) :
    Triple (J idx) (env.initClientConn idx session token) (fun _ => I) (fun _ => I) := by
  intro ep h
  rw [Env.initClientConn, modify_bind, get_bind]
  have hindex := hI.setIndex h
  cases (ep.setIndex idx).conns.get? idx with
  | none => exact .intro hindex
  | some =>
    dsimp only
    refine Keeps.bind (keeps_lift _) (fun _ => .bind ?_ fun _ => ?_) _ (hI.core idx _ hindex)
    · exact keeps_modify fun _ h => hI.call h idx _
    · exact keeps_modify fun _ h => hI.mark idx h

theorem Invariant.connect (addr : FourTuple) (session token : Option Bytes) :
    Keeps I (env.connect addr session token) := by
  refine keeps_get.bind fun ep => triple_ite (fun _ => keeps_throw _) fun _ =>
    triple_ite (fun _ => keeps_throw _) fun _ => ?_
  refine hI.generateCid.bind fun scid => (keeps_lift _).bind fun core => ?_
  refine triple_bind (fun ep h => .intro (hI.insert core h)) fun idx => ?_
  refine triple_bind (hI.initClientConn idx session token) fun _ => Keeps.bind ?_ fun _ =>
    keeps_pure idx
  exact keeps_modify fun _ h => hI.frame h rfl rfl rfl

end

/-! ## Ticks

Giving a connection new source ids looks up its index, which a connection without one
does not survive; so the code of a tick keeps an invariant when it returns. -/

def Preserves {α : Type} (I : Endpoint C W → Prop) (code : Code C W α) : Prop :=
  Valid I code (fun _ => I) (fun _ => I)

theorem Keeps.preserves {α : Type} {code : Code C W α} (h : Keeps I code) : Preserves I code :=
  h.valid

theorem Preserves.bind {α β : Type} {x : Code C W α} {f : α → Code C W β} (hx : Preserves I x)
    (hf : ∀ a, Preserves I (f a)) : Preserves I (x >>= f) :=
  valid_bind hx hf

theorem preserves_modify {f : Endpoint C W → Endpoint C W} (hf : ∀ ep, I ep → I (f ep)) :
    Preserves I (modify f) :=
  (keeps_modify hf).valid

theorem preserves_unwrap {α : Type} (o : Option α) :
    Preserves I (exec (Exec.unwrap o) : Code C W α) := by
  cases o with
  | none =>
    intro s out _ hout
    cases hout
  | some a => exact (keeps_pure a).preserves

section

variable (hI : Invariant I J)

include hI

theorem Invariant.connAddScids (idx num : ℕ) : Preserves I (env.connAddScids idx num) := by
  induction num with
  | zero => exact (keeps_pure ()).preserves
  | succ num ih =>
    refine hI.generateCid.preserves.bind fun scid => keeps_get.preserves.bind fun ep => ?_
    cases ep.conns.get? idx with
    | none => exact (keeps_pure ()).preserves
    | some conn =>
      dsimp only
      split
      · exact (keeps_pure ()).preserves
      · next core _ =>
          refine (preserves_modify fun _ h => hI.core idx core h).bind fun _ =>
            (preserves_unwrap conn.index).bind fun index => ?_
          refine .bind (preserves_modify fun _ h => ?_) fun _ => ih
          exact hI.frame h rfl rfl rfl

theorem Invariant.handleEvent (idx : ℕ) (event : Event) :
    Preserves I (env.handleEvent idx event) := by
  cases event with
  | connectionEstablished | newToken => exact preserves_modify fun _ h => hI.call h idx _
  | scidToAdvertise num => exact hI.connAddScids idx num
  | scidRetired | dcidAdvertised | dcidRetired | resetTokenAdvertised =>
    exact preserves_modify fun _ h => hI.frame h rfl rfl rfl
  | streamCreated => exact preserves_modify fun _ h => hI.call h idx _
  | streamClosed id => exact preserves_modify fun _ h => hI.streamClosed h idx id
  | datagramReceived => exact preserves_modify fun _ h => hI.call h idx _

theorem Invariant.eventRound (idx : ℕ) : Preserves I (env.eventRound idx) := by
  refine keeps_get.preserves.bind fun ep => ?_
  split
  · exact (keeps_pure _).preserves
  · split
    · exact (keeps_pure _).preserves
    · next event core _ =>
        refine (preserves_modify fun _ h => hI.core idx core h).bind fun _ =>
          (hI.handleEvent idx event).bind fun _ => ?_
        exact keeps_get.preserves.bind fun ep => (keeps_pure _).preserves

theorem Invariant.processStreams (idx : ℕ) (check : C → ℕ → Bool)
    (callback : ℕ → Callback) (ids : List ℕ) :
    Preserves I (env.processStreams idx check callback ids) := by
  induction ids with
  | nil => exact (keeps_pure _).preserves
  | cons id ids ih =>
    refine keeps_get.preserves.bind fun ep => ?_
    split
    · exact (keeps_pure _).preserves
    · split
      · refine .bind (preserves_modify fun _ h => hI.call h idx _) fun _ =>
          keeps_get.preserves.bind fun ep => ?_
        split
        · exact (keeps_pure _).preserves
        · exact ih
      · exact ih

theorem Invariant.processPhases (idx : ℕ) :
    Prog.Valid I (env.processPhases idx) (fun _ => I) (fun _ => I) := by
  have hevents : Prog.Valid I (env.processConnEvents idx) (fun _ => I) (fun _ => I) := by
    refine Prog.valid_loop (fun _ => I) (fun _ => Prog.valid_act fun s out hs hout => ?_) ()
    have hround := hI.eventRound idx s out hs hout
    rcases out with ⟨s', _ | _ | _⟩ <;> exact hround
  have hreadable : Preserves I (env.processConnReadable idx) := by
    refine keeps_get.preserves.bind fun ep => ?_
    split
    · exact (keeps_pure _).preserves
    · exact hI.processStreams idx _ _ _
  have hwritable : Preserves I (env.processConnWritable idx) := by
    refine keeps_get.preserves.bind fun ep => ?_
    split
    · exact (keeps_pure _).preserves
    · exact hI.processStreams idx _ _ _
  have hfalse : Prog.Valid I (pure false : Program C W Bool) (fun _ => I) (fun _ => I) :=
    Prog.valid_pure fun _ h => h
  refine Prog.valid_bind hevents fun alive => ?_
  split
  · refine Prog.valid_bind (Prog.valid_act hreadable) fun alive => ?_
    split
    · exact Prog.valid_act hwritable
    · exact hfalse
  · exact hfalse

end

end Env

end Tquic
