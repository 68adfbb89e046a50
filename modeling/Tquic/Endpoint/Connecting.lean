import Tquic.Endpoint.Operations

/-!
# Connecting

A client connection is entered into the table before its session is read and its handshake
is started, and it is not taken out again when one of these fails.
-/

namespace Tquic

/-- `set_session`, where `tls` and `params` take the session and the transport parameters. -/
def setSession (tls params : Bytes → Result Unit) (buf : Bytes) : Result Unit := do
  let (sessionLen, buf) ← Decoder.readU64 buf
  let (sessionBytes, buf) ← Decoder.read buf sessionLen
  tls sessionBytes
  let (paramsLen, buf) ← Decoder.readU64 buf
  let (paramsBytes, _) ← Decoder.read buf paramsLen
  params paramsBytes

namespace Env

open Act

variable {Key C W : Type} {env : Env Key C W} {addr : FourTuple} {session token : Option Bytes}

/-- The result is that of the handshake; where it fails, no connection has left the table. -/
theorem initClientConn_result (env : Env Key C W) (session token : Option Bytes)
    (ep : Endpoint C W) {idx : ℕ} {conn : Conn C} (hconn : ep.conns.get? idx = some conn) :
    ∃ s, env.initClientConn idx session token ep =
        .ok (s, (env.startHandshake conn.core session token).2) ∧
      ((env.startHandshake conn.core session token).2 ≠ .ok () →
        s.conns.nextIndex = ep.conns.nextIndex) := by
  have hget : (ep.setIndex idx).conns.get? idx = some { conn with index := some idx } := by
    rw [Endpoint.setIndex, ConnectionTable.get?_update, hconn, Option.map_some, if_pos rfl]
  rw [initClientConn, modify_bind, get_bind]
  simp only [hget, modify_bind]
  cases (env.startHandshake conn.core session token).2 with
  | ok => exact ⟨_, rfl, fun hne => absurd rfl hne⟩
  | error => exact ⟨_, rfl, fun _ => rfl⟩

theorem connect_created (env : Env Key C W) (session token : Option Bytes) {ep : Endpoint C W}
    {core : C} (hclient : env.isServer = false) (hopen : ep.closed = false)
    (hcore : env.newClient (env.generate ep.world).1 addr.localAddr addr.remoteAddr = .ok core) :
    ∃ s, env.connect addr session token ep =
        .ok (s, (env.startHandshake core session token).2.map fun _ => ep.conns.nextIndex) ∧
      ((env.startHandshake core session token).2 ≠ .ok () →
        s.conns.nextIndex = ep.conns.nextIndex + 1) := by
  have hcid : env.generateCid ep = .ok ({ ep with world := (env.generate ep.world).2 },
    .ok (env.generate ep.world).1) := rfl
  obtain ⟨s, hinit, hnext⟩ := env.initClientConn_result session token
    { ep with world := (env.generate ep.world).2, conns := ep.conns.insert core }
    (ep.conns.get?_insert_self core)
  rw [connect, get_bind, if_neg (by simp [hclient]), if_neg (by simp [hopen]), bind_of_ok hcid,
    hcore, bind_of_ok rfl, bind_of_ok rfl]
  cases hresult : (env.startHandshake core session token).2 with
  | ok =>
    rw [hresult] at hinit
    exact ⟨_, bind_of_ok hinit, fun hne => absurd rfl hne⟩
  | error e =>
    rw [hresult] at hinit hnext
    exact ⟨s, bind_of_error hinit, hnext⟩

/-- If the call creates a connection, that takes the session and the token and starts its
handshake. -/
def Starts (env : Env Key C W) (addr : FourTuple) (session token : Option Bytes)
    (ep : Endpoint C W) : Prop :=
  env.isServer = false → ep.closed = false →
    ∀ core, env.newClient (env.generate ep.world).1 addr.localAddr addr.remoteAddr = .ok core →
      (env.startHandshake core session token).2 = .ok ()

/-- A call that fails has changed nothing but the world outside, exactly where a connection that
is created starts its handshake. -/
theorem connect_error_unchanged (env : Env Key C W) (addr : FourTuple)
    (session token : Option Bytes) (ep : Endpoint C W) :
    (∀ ep' e, env.connect addr session token ep = .ok (ep', .error e) →
      ∃ world, ep' = { ep with world := world }) ↔ env.Starts addr session token ep := by
  unfold Starts
  have hrefused (hconnect : ∃ world e,
      env.connect addr session token ep = .ok ({ ep with world := world }, .error e)) :
      ∀ ep' e, env.connect addr session token ep = .ok (ep', .error e) →
        ∃ world, ep' = { ep with world := world } := by
    obtain ⟨world, e, hconnect⟩ := hconnect
    intro ep' e' h
    cases hconnect.symm.trans h
    exact ⟨world, rfl⟩
  by_cases hserver : env.isServer = true
  · refine iff_of_true (hrefused ⟨ep.world, .invalidOperation "not a client", ?_⟩)
      fun hclient => by simp [hserver] at hclient
    rw [connect, get_bind, if_pos hserver]
    rfl
  by_cases hclosed : ep.closed = true
  · refine iff_of_true (hrefused ⟨ep.world, .invalidOperation "already closed", ?_⟩)
      fun _ hopen => by simp [hclosed] at hopen
    rw [connect, get_bind, if_neg hserver, if_pos hclosed]
    rfl
  cases hcore : env.newClient (env.generate ep.world).1 addr.localAddr addr.remoteAddr with
  | error e =>
    refine iff_of_true (hrefused ⟨(env.generate ep.world).2, e, ?_⟩) fun _ _ => nofun
    have hcid : env.generateCid ep = .ok ({ ep with world := (env.generate ep.world).2 },
      .ok (env.generate ep.world).1) := rfl
    rw [connect, get_bind, if_neg hserver, if_neg hclosed, bind_of_ok hcid, hcore]
    rfl
  | ok core =>
    have hclient := eq_false_of_ne_true hserver
    have hopen := eq_false_of_ne_true hclosed
    obtain ⟨s, hconnect, hnext⟩ := env.connect_created session token hclient hopen hcore
    rw [hconnect]
    cases hresult : (env.startHandshake core session token).2 with
    | ok => exact iff_of_true nofun fun _ _ core' hcore' => Except.ok.inj hcore' ▸ hresult
    | error e =>
      -- the connection is in the table already
      refine iff_of_false (fun h => ?_) fun h => ?_
      · obtain ⟨world, rfl⟩ := h s e rfl
        exact absurd (hnext (by simp [hresult])) (Nat.succ_ne_self _).symm
      · simpa [hresult] using h hclient hopen core rfl

/-- A client whose connections read the session and take whatever it holds. -/
def sessionClient : Env UInt8 Unit Unit :=
  { idleClient with
    startHandshake := fun _ session _ =>
      ((), (session.map (setSession (fun _ => .ok ()) fun _ => .ok ())).getD (.ok ())) }

/-- A session that is cut short: the connection stays in the table, and no route, queue or
timer leads to it. -/
theorem connection_left_behind :
    ∃ ep' : Endpoint Unit Unit,
      sessionClient.connect ⟨clientAddr, serverAddr⟩ (some [0]) none (.new 10 ()) =
        .ok (ep', .error .bufferTooShort) ∧
      (ep'.conns.get? 0).isSome ∧ ep'.routes = (Endpoint.new (C := Unit) 10 ()).routes ∧
      ep'.queues = (Endpoint.new (C := Unit) 10 ()).queues ∧
      ep'.timers = (Endpoint.new (C := Unit) 10 ()).timers :=
  ⟨_, rfl, rfl, rfl, rfl, rfl⟩

end Env

end Tquic
