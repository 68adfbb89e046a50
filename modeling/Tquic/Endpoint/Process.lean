import Tquic.Base.Prog
import Tquic.Endpoint.Recv

/-!
# Processing connections

The work loop takes tickable connections one by one, reports their events to the application, and
then lets the sendable ones write packets. A connection leaves the queues through `mark_tickable`
and `mark_sendable`.
-/

namespace Tquic

namespace ConnectionRoutes

def remove (routes : ConnectionRoutes)
    (ids : List ConnectionId × List FourTuple × List Bytes) : ConnectionRoutes :=
  let routes := ids.1.foldl removeWithCid routes
  let routes := ids.2.1.foldl removeWithAddr routes
  ids.2.2.foldl removeWithToken routes

end ConnectionRoutes

abbrev Endpoint.Program (C W α : Type) := Prog (Endpoint C W) Error α

namespace Env

open Endpoint Exec

variable {Key C W : Type} (env : Env Key C W)

def tickableNext (ep : Endpoint C W) : Option ℕ :=
  if ep.queues.tickable = ∅ then none else some (env.pick ep.queues.version ep.queues.tickable)

def sendableNext (ep : Endpoint C W) : Option ℕ :=
  if ep.queues.sendable = ∅ then none else some (env.pick ep.queues.version ep.queues.sendable)

def closedAt (ep : Endpoint C W) (idx : ℕ) : Bool :=
  match ep.conns.get? idx with
  | none => false
  | some conn => env.isClosed conn.core

/-! ## Callbacks -/

def destroyStream (idx id : ℕ) (ep : Endpoint C W) : Endpoint C W :=
  match ep.conns.get? idx with
  | none => ep
  | some conn => ep.setCore idx (env.streamDestroy conn.core id)

def streamClosed (idx id : ℕ) (ep : Endpoint C W) : Endpoint C W :=
  env.destroyStream idx id (env.call idx (.onStreamClosed id) ep)

/-- Give a connection new source ids, until it has no use for another. -/
def connAddScids (idx : ℕ) : ℕ → Code C W Unit
  | 0 => return ()
  | num + 1 => do
      let scid ← env.generateCid
      let ep ← Act.get
      match ep.conns.get? idx with
      | none => return ()
      | some conn =>
        match env.addScid conn.core scid with
        | none => return ()
        | some core => do
            Act.modify (·.setCore idx core)
            let index ← Act.exec (Exec.unwrap conn.index)
            Act.modify fun ep => { ep with routes := ep.routes.insertWithCid scid index }
            connAddScids idx num

def handleEvent (idx : ℕ) : Event → Code C W Unit
  | .connectionEstablished => Act.modify (env.call idx .onConnEstablished)
  | .newToken token => Act.modify (env.call idx (.onNewToken token))
  | .scidToAdvertise num => env.connAddScids idx num
  | .scidRetired cid =>
    Act.modify fun ep => { ep with routes := ep.routes.removeWithCid cid }
  | .dcidAdvertised token =>
    Act.modify fun ep => { ep with routes := ep.routes.insertWithToken token idx }
  | .dcidRetired token =>
    Act.modify fun ep => { ep with routes := ep.routes.removeWithToken token }
  | .resetTokenAdvertised token =>
    Act.modify fun ep => { ep with routes := ep.routes.insertWithToken token idx }
  | .streamCreated id => Act.modify (env.call idx (.onStreamCreated id))
  | .streamClosed id => Act.modify (env.streamClosed idx id)
  | .datagramReceived => Act.modify (env.call idx .onDgramReadable)

def eventRound (idx : ℕ) : Code C W (Next Unit Bool) := do
  let ep ← Act.get
  match ep.conns.get? idx with
  | none => return .done true
  | some conn =>
    match env.poll conn.core with
    | none => return .done true
    | some (event, core) => do
        Act.modify (·.setCore idx core)
        env.handleEvent idx event
        let ep ← Act.get
        return if env.closedAt ep idx then .done false else .again ()

/-- Report the events of a connection; `false` if it was closed on the way. -/
def processConnEvents (idx : ℕ) : Program C W Bool :=
  Prog.loop (fun _ => Prog.act (env.eventRound idx)) ()

/-- Report the streams that pass a check; `false` if the connection was closed on
the way. -/
def processStreams (idx : ℕ) (check : C → ℕ → Bool) (callback : ℕ → Callback) :
    List ℕ → Code C W Bool
  | [] => return true
  | id :: ids => do
      let ep ← Act.get
      match ep.conns.get? idx with
      | none => return true
      | some conn =>
        if check conn.core id then
          Act.modify (env.call idx (callback id))
          let ep ← Act.get
          if env.closedAt ep idx then return false else processStreams idx check callback ids
        else
          processStreams idx check callback ids

def processConnReadable (idx : ℕ) : Code C W Bool := do
  let ep ← Act.get
  match ep.conns.get? idx with
  | none => return true
  | some conn =>
    env.processStreams idx env.streamCheckReadable .onStreamReadable
      (env.streamReadableIter conn.core)

def processConnWritable (idx : ℕ) : Code C W Bool := do
  let ep ← Act.get
  match ep.conns.get? idx with
  | none => return true
  | some conn =>
    env.processStreams idx env.streamCheckWritable .onStreamWritable
      (env.streamWritableIter conn.core)

def refreshConnTimer (idx : ℕ) (ep : Endpoint C W) : Endpoint C W :=
  match ep.conns.get? idx with
  | none => ep
  | some conn =>
    match env.timeout conn.core with
    | some t => { ep with timers := ep.timers.add idx t (env.instant ep.world) }
    | none => { ep with timers := ep.timers.erase idx }

/-- Mark the connection sendable and no longer tickable, restart its timer, and return those to mark
as tickable again. -/
def finalizeConnTick (idx : ℕ) (ready : List ℕ) : Code C W (List ℕ) := do
  let ep ← Act.get
  match ep.conns.get? idx with
  | none => return ready
  | some conn => do
      Act.modify fun ep =>
        (env.refreshConnTimer idx (ep.markSendable idx true)).markTickable idx false
      return if env.isReady conn.core then ready ++ [idx] else ready

/-- The part of a tick that a closed connection does not get to the end of. -/
def processPhases (idx : ℕ) : Program C W Bool := do
  if (← env.processConnEvents idx) then
    if (← Prog.act (env.processConnReadable idx)) then
      Prog.act (env.processConnWritable idx)
    else
      return false
  else
    return false

/-- Process a connection; the flag is `false` if it is closed and has to be cleaned
up. -/
def processConnection (idx : ℕ) (ready : List ℕ) : Program C W (List ℕ × Bool) := do
  let ep ← Prog.get
  match ep.conns.get? idx with
  | none => return (ready, true)
  | some conn =>
    if env.isClosed conn.core then
      return (ready, false)
    else
      if (← env.processPhases idx) then
        let ready ← Prog.act (env.finalizeConnTick idx ready)
        return (ready, true)
      else
        return (ready, false)

def notifyClosed (idx : ℕ) (ep : Endpoint C W) : Endpoint C W :=
  match ep.conns.get? idx with
  | none => ep
  | some conn =>
    let ep := (env.streamIter conn.core).foldl (fun ep id => env.streamClosed idx id ep) ep
    env.call idx .onConnClosed ep

def removeConn (idx : ℕ) (ep : Endpoint C W) : Endpoint C W :=
  match ep.conns.get? idx with
  | none => ep
  | some conn =>
    { ep with
      timers := ep.timers.erase idx
      routes := ep.routes.remove (env.routes conn.core)
      conns := ep.conns.remove idx }

def cleanupClosedConn (idx : ℕ) (ep : Endpoint C W) : Endpoint C W :=
  env.removeConn idx
    (((env.notifyClosed idx ep).markTickable idx false).markSendable idx false)

/-! ## Sending -/

def hasFullBatch (ep : Endpoint C W) : Bool := env.config.sendBatchSize ≤ ep.packets.length

def nextBatch (ep : Endpoint C W) : List Packet := ep.packets.take env.config.sendBatchSize

def drainFront (n : ℕ) (ep : Endpoint C W) : Endpoint C W :=
  { ep with packets := ep.packets.drop n }

def packetsSend (batch : List Packet) : Code C W ℕ := fun ep =>
  let (world, result) := env.onPacketsSend ep.world batch
  .ok ({ ep with world := world }, result)

def flushBatch : Code C W Unit := do
  let ep ← Act.get
  let done ← env.packetsSend (env.nextBatch ep)
  Act.modify (drainFront done)

/-- A round of `flush_remaining`; `total` counts the packets sent so far. -/
def flushRound (total : ℕ) : Code C W (Next ℕ ℕ) := do
  let ep ← Act.get
  if (env.nextBatch ep).isEmpty then
    return .done total
  else
    let done ← env.packetsSend (env.nextBatch ep)
    if done = 0 then
      return .done total
    else
      Act.modify (drainFront done)
      return .again (total + done)

def flushRemaining : Program C W ℕ :=
  Prog.loop (fun total => Prog.act (env.flushRound total)) 0

def addConnPacket (idx : ℕ) (packet : Packet) (ep : Endpoint C W) : Endpoint C W :=
  { ep.addPacket packet with generated := ep.generated ++ [(idx, packet)] }

def connSend (idx : ℕ) (conn : Conn C) : Code C W (Result Unit) := fun ep =>
  match env.send conn.core with
  | (core, .ok (bytes, info)) =>
    .ok (addConnPacket idx ⟨.datagram bytes, info⟩ (ep.setCore idx core), .ok (.ok ()))
  | (core, .error e) => .ok (ep.setCore idx core, .ok (.error e))

/-- Let a sendable connection write a packet; `sent` are the connections that did. -/
def sendConnPackets (idx : ℕ) (sent : List ℕ) : Code C W (List ℕ) := do
  let ep ← Act.get
  match ep.conns.get? idx with
  | none => return sent
  | some conn =>
    if env.isDraining conn.core || env.isClosed conn.core then
      Act.modify (·.markSendable idx false)
      return sent
    else
      match ← env.connSend idx conn with
      | .ok () => return insert idx sent
      | .error e =>
        if e = .done then
          Act.modify (·.markSendable idx false)
          return insert idx sent
        else
          Act.throw e

def flushFullBatch : Code C W Unit := do
  let ep ← Act.get
  if env.hasFullBatch ep then env.flushBatch else return ()

/-- A round of the inner loop of `send_packets_out`. -/
def sendRound (sent : List ℕ) : Code C W (Next (List ℕ) (List ℕ)) := do
  let ep ← Act.get
  match env.sendableNext ep with
  | none => return .done sent
  | some idx => do
      let sent ← env.sendConnPackets idx sent
      env.flushFullBatch
      return .again sent

/-- A round of the outer loop of `send_packets_out`. -/
def sendAllRound (sent : List ℕ) : Program C W (Next (List ℕ) (List ℕ)) := do
  let ep ← Prog.get
  if ep.queues.sendable = ∅ then
    return .done sent
  else
    let sent ← Prog.loop (fun sent => Prog.act (env.sendRound sent)) sent
    return .again sent

def sendPacketsOut : Program C W Unit := do
  let sent ← Prog.loop env.sendAllRound []
  Prog.modify fun ep => sent.foldl (fun ep idx => env.refreshConnTimer idx ep) ep
  let _ ← env.flushRemaining

/-! ## Operations -/

/-- A round of the first loop of `process_connections`. -/
def tickRound (ready : List ℕ) : Program C W (Next (List ℕ) (List ℕ)) := do
  let ep ← Prog.get
  match env.tickableNext ep with
  | none => return .done ready
  | some idx => do
      let (ready, alive) ← env.processConnection idx ready
      if alive then
        return .again ready
      else
        Prog.modify (env.cleanupClosedConn idx)
        return .again ready

def processConnections : Program C W Unit := do
  let ready ← Prog.loop env.tickRound []
  env.sendPacketsOut
  Prog.modify (·.markAll ready)

def generateRound (idx : ℕ) : Code C W (Next Unit Unit) := do
  let ep ← Act.get
  match ep.conns.get? idx with
  | none => return .done ()
  | some conn =>
    match ← env.connSend idx conn with
    | .ok () => return .again ()
    | .error e => if e = .done then return .done () else Act.throw e

def generateConnPackets (idx : ℕ) : Program C W Unit := do
  let ep ← Prog.get
  match ep.conns.get? idx with
  | none => Prog.throw .done
  | some conn =>
    if env.isDraining conn.core || env.isClosed conn.core then
      Prog.throw .done
    else
      Prog.loop (fun _ => Prog.act (env.generateRound idx)) ()

def flushConnection (idx : ℕ) : Program C W ℕ := do
  env.generateConnPackets idx
  let total ← env.flushRemaining
  Prog.modify (env.refreshConnTimer idx)
  if 0 < total then return total else Prog.throw .done

/-- What `process_single_connection` makes of a flush. -/
def flushed : Result ℕ → Program C W ℕ
  | .ok n => return n
  | .error e => if e = .done then return 0 else Prog.throw e

def processSingleConnection (idx : ℕ) : Program C W ℕ := do
  Prog.modify (·.markTickable idx true)
  let (ready, alive) ← env.processConnection idx []
  if alive then
    let r ← Prog.attempt (env.flushConnection idx)
    let total ← flushed r
    Prog.modify (·.markAll ready)
    return total
  else
    Prog.modify (env.cleanupClosedConn idx)
    return 0

def timeoutRound (now : ℕ) : Code C W (Next Unit Unit) := do
  let ep ← Act.get
  match ep.timers.nextExpire now with
  | none => return .done ()
  | some (idx, timers) => do
      Act.modify fun ep => ({ ep with timers := timers }.markTickable idx true)
      let ep ← Act.get
      match ep.conns.get? idx with
      | none => return .again ()
      | some conn => do
          Act.modify (·.setCore idx (env.connOnTimeout conn.core now))
          return .again ()

def onTimeout (now : ℕ) : Program C W Unit :=
  Prog.loop (fun _ => Prog.act (env.timeoutRound now)) ()

/-- The table of connections is a hash map, whose order is arbitrary; here they are told in
ascending order. -/
def notifyAll (ep : Endpoint C W) : Endpoint C W :=
  (ep.conns.conns.entries.map Prod.fst).foldl (fun ep idx => env.notifyClosed idx ep) ep

def close (force : Bool) (ep : Endpoint C W) : Endpoint C W :=
  let ep := { ep with closed := true }
  if force then
    let ep := env.notifyAll ep
    { ep with timers := .empty, routes := .new, conns := ep.conns.clear }
  else ep

def initClientConn (idx : ℕ) (session token : Option Bytes) : Code C W Unit := do
  Act.modify (·.setIndex idx)
  let ep ← Act.get
  match ep.conns.get? idx with
  | none => return ()
  | some conn => do
      let (core, result) := env.startHandshake conn.core session token
      Act.modify (·.setCore idx core)
      Act.lift result
      Act.modify (env.call idx .onConnCreated)
      Act.modify (·.markTickable idx true)

def addClientRoute (scid : ConnectionId) (idx : ℕ) (addr : FourTuple)
    (routes : ConnectionRoutes) : ConnectionRoutes :=
  if scid.isEmpty then routes.insertWithAddr addr idx else routes.insertWithCid scid idx

def connect (addr : FourTuple) (session token : Option Bytes) : Code C W ℕ := do
  let ep ← Act.get
  if env.isServer then
    Act.throw (.invalidOperation "not a client")
  else if ep.closed then
    Act.throw (.invalidOperation "already closed")
  else
    let scid ← env.generateCid
    let core ← Act.lift (env.newClient scid addr.localAddr addr.remoteAddr)
    let idx ← insertConn core
    env.initClientConn idx session token
    Act.modify fun ep => { ep with routes := addClientRoute scid idx addr ep.routes }
    return idx

end Env

end Tquic
