import Tquic.Endpoint.Tables

/-!
# An endpoint and the datagrams it receives

The endpoint moves datagrams between the network, its connections and the application. What
connections, the application, random generators, clocks and the socket return is collected in
`Env`, and every result holds for every such environment.
-/

namespace Tquic

structure Config (Key : Type) where
  addressTokenKey : List Key
  /-- The setter refuses an empty list. -/
  key_ne_nil : addressTokenKey ≠ []
  /-- In nanoseconds. -/
  addressTokenLifetime : ℕ
  retry : Bool
  statelessReset : Bool
  maxConcurrentConns : ℕ
  cidLen : ℕ
  zerorttBufferSize : ℕ
  sendBatchSize : ℕ

inductive Payload where
  | versionNegotiation (scid dcid : ConnectionId)
  | retry (scid dcid odcid : ConnectionId) (token : Bytes)
  | statelessReset (len : ℕ) (token : Bytes)
  | datagram (bytes : Bytes)
  deriving DecidableEq

structure Packet where
  payload : Payload
  info : PacketInfo
  deriving DecidableEq

inductive Event where
  | connectionEstablished
  | newToken (token : Bytes)
  | scidToAdvertise (num : ℕ)
  | scidRetired (cid : ConnectionId)
  | dcidAdvertised (token : Bytes)
  | dcidRetired (token : Bytes)
  | resetTokenAdvertised (token : Bytes)
  | streamCreated (id : ℕ)
  | streamClosed (id : ℕ)
  | datagramReceived

inductive Callback where
  | onConnCreated
  | onConnEstablished
  | onConnClosed
  | onNewToken (token : Bytes)
  | onStreamCreated (id : ℕ)
  | onStreamReadable (id : ℕ)
  | onStreamWritable (id : ℕ)
  | onStreamClosed (id : ℕ)
  | onDgramReadable

/-- What the endpoint needs of a connection with state `C`. -/
structure Protocol (C : Type) where
  newClient : ConnectionId → (localAddr remoteAddr : SocketAddr) → Result C
  newServer : ConnectionId → (localAddr remoteAddr : SocketAddr) → Option AddressToken → Result C
  /-- Set the session and the token, if given, and start the handshake. -/
  startHandshake : C → (session token : Option Bytes) → C × Result Unit
  recv : C → Bytes → PacketInfo → C × Result Unit
  send : C → C × Result (Bytes × PacketInfo)
  reset : C → C
  connOnTimeout : C → ℕ → C
  timeout : C → Option ℕ
  poll : C → Option (Event × C)
  addScid : C → ConnectionId → Option C
  isClosed : C → Bool
  isDraining : C → Bool
  isReady : C → Bool
  streamIter : C → List ℕ
  streamReadableIter : C → List ℕ
  streamWritableIter : C → List ℕ
  streamCheckReadable : C → ℕ → Bool
  streamCheckWritable : C → ℕ → Bool
  streamDestroy : C → ℕ → C
  routes : C → List ConnectionId × List FourTuple × List Bytes

/-- The outcome of a callback: the application, its connection, whether that was marked as tickable,
and the others that were. -/
structure Effect (C W : Type) where
  world : W
  core : C
  markSelf : Bool
  marks : List ℕ

/-- The environment of an endpoint; `W` is the state of the world outside. -/
structure Env (Key C W : Type) extends Protocol C where
  isServer : Bool
  config : Config Key
  aead : Aead Key
  systemTime : W → SystemTime
  instant : W → ℕ
  generate : W → ConnectionId × W
  nonce : W → List.Vector UInt8 AddressToken.nonceLen × W
  resetToken : ConnectionId → Bytes
  callback : W → Callback → C → Effect C W
  onPacketsSend : W → List Packet → W × Result ℕ
  /-- The element that the iteration of a hash set starts with. -/
  pick : ℕ → Finset ℕ → ℕ
  pick_mem : ∀ version queue, queue.Nonempty → pick version queue ∈ queue

structure Endpoint (C W : Type) where
  conns : ConnectionTable C
  routes : ConnectionRoutes
  timers : TimerQueue
  queues : ConnectionQueues
  buffer : PacketBuffer
  packets : List Packet
  /-- Bookkeeping: the packets that connections have generated so far, each with the index of its
  connection. -/
  generated : List (ℕ × Packet)
  closed : Bool
  world : W

namespace Endpoint

variable {C W : Type}

def new (zerorttBufferSize : ℕ) (world : W) : Endpoint C W where
  conns := .new
  routes := .new
  timers := .empty
  queues := .new
  buffer := ⟨zerorttBufferSize, []⟩
  packets := []
  generated := []
  closed := false
  world := world

def setCore (ep : Endpoint C W) (idx : ℕ) (core : C) : Endpoint C W :=
  { ep with conns := ep.conns.update idx fun conn => { conn with core := core } }

def setIndex (ep : Endpoint C W) (idx : ℕ) : Endpoint C W :=
  { ep with conns := ep.conns.update idx fun conn => { conn with index := some idx } }

/-- `mark_tickable` and `mark_sendable` for the connection at `idx`. -/
def mark (ep : Endpoint C W) (work : Work) (idx : ℕ) (queued : Bool) : Endpoint C W :=
  match ep.conns.get? idx with
  | none => ep
  | some conn =>
    if conn.flags work = queued then ep
    else
      match conn.index with
      | none => ep
      | some i =>
        { ep with
          conns := ep.conns.update idx fun conn =>
            { conn with flags := Function.update conn.flags work queued }
          queues := ep.queues.put work i queued }

def markTickable (ep : Endpoint C W) (idx : ℕ) (tickable : Bool) : Endpoint C W :=
  ep.mark .tickable idx tickable

def markSendable (ep : Endpoint C W) (idx : ℕ) (sendable : Bool) : Endpoint C W :=
  ep.mark .sendable idx sendable

def markAll (ep : Endpoint C W) (marks : List ℕ) : Endpoint C W :=
  marks.foldl (fun ep idx => ep.markTickable idx true) ep

def addPacket (ep : Endpoint C W) (packet : Packet) : Endpoint C W :=
  { ep with packets := ep.packets ++ [packet] }

end Endpoint

abbrev Endpoint.Code (C W α : Type) := Act (Endpoint C W) Error α

namespace Env

open Endpoint

variable {Key C W : Type} (env : Env Key C W)

def call (idx : ℕ) (callback : Callback) (ep : Endpoint C W) : Endpoint C W :=
  match ep.conns.get? idx with
  | none => ep
  | some conn =>
    let effect := env.callback ep.world callback conn.core
    let ep := { ep.setCore idx effect.core with world := effect.world }
    let ep := if effect.markSelf then ep.markTickable idx true else ep
    ep.markAll effect.marks

def generateCid : Code C W ConnectionId := fun ep =>
  let (cid, world) := env.generate ep.world
  .ok ({ ep with world := world }, .ok cid)

def generateNonce : Code C W (List.Vector UInt8 AddressToken.nonceLen) := fun ep =>
  let (nonce, world) := env.nonce ep.world
  .ok ({ ep with world := world }, .ok nonce)

/-! ## Packets without a connection -/

def sendVersionNegotiation (hdr : PacketHeader) (info : PacketInfo) : Code C W Unit :=
  Act.modify fun ep =>
    ep.addPacket ⟨.versionNegotiation hdr.dcid hdr.scid, ⟨info.dst, info.src⟩⟩

def tokenKey : Key := env.config.addressTokenKey.head env.config.key_ne_nil

def sendRetry (hdr : PacketHeader) (info : PacketInfo) : Code C W Unit := do
  let rscid ← env.generateCid
  let nonce ← env.generateNonce
  let ep ← Act.get
  let token := AddressToken.newRetryToken (env.systemTime ep.world) info.src hdr.dcid rscid
  let token ← Act.lift (token.encode env.aead nonce env.tokenKey)
  Act.modify fun ep =>
    ep.addPacket ⟨.retry rscid hdr.scid hdr.dcid token, ⟨info.dst, info.src⟩⟩

def sendStatelessReset (pktInLen : ℕ) (dcid : ConnectionId) (info : PacketInfo) :
    Code C W Unit :=
  if pktInLen < env.config.cidLen + 19 then
    return ()
  else if pktInLen - 1 < minResetPacketLen then
    return ()
  else
    Act.modify fun ep =>
      ep.addPacket ⟨.statelessReset (min (pktInLen - 1) maxResetPacketLen) (env.resetToken dcid),
        ⟨info.dst, info.src⟩⟩

/-! ## Datagrams for a connection -/

def connRecv (idx : ℕ) (buf : Bytes) (info : PacketInfo) : Code C W Unit := fun ep =>
  match ep.conns.get? idx with
  | none => .ok (ep, .ok ())
  | some conn =>
    let (core, result) := env.recv conn.core buf info
    .ok (ep.setCore idx core, result)

def connReset (idx : ℕ) (ep : Endpoint C W) : Endpoint C W :=
  match ep.conns.get? idx with
  | none => ep
  | some conn => ep.setCore idx (env.reset conn.core)

def recvExistingConn (idx : ℕ) (reset : Bool) (buf : Bytes) (info : PacketInfo) :
    Code C W Unit := do
  Act.modify (·.markTickable idx true)
  if reset && env.config.statelessReset then
    Act.modify (env.connReset idx)
  else
    env.connRecv idx buf info

def recvUnknownClient (hdr : PacketHeader) (pktLen : ℕ) (info : PacketInfo) : Code C W Unit :=
  if env.config.statelessReset then env.sendStatelessReset pktLen hdr.dcid info else return ()

/-! ## New connections -/

/-- Try the keys in turn on the same buffer. -/
def tryKeys (now : SystemTime) (token : Bytes) (cliAddr : SocketAddr) (cliPktDcid : ConnectionId) :
    List Key → Result AddressToken
  | [] => .error .invalidToken
  | key :: keys =>
    match AddressToken.decode env.aead now key token cliAddr cliPktDcid
      env.config.addressTokenLifetime with
    | (.ok decoded, _) => .ok decoded
    | (.error .expiredToken, _) => .error .expiredToken
    | (.error _, token) => tryKeys now token cliAddr cliPktDcid keys

def validateAddressToken (ep : Endpoint C W) (token : Bytes) (cliAddr : SocketAddr)
    (cliPktDcid : ConnectionId) : Result AddressToken :=
  env.tryKeys (env.systemTime ep.world) token cliAddr cliPktDcid env.config.addressTokenKey

def rejectToken (token : Bytes) (hdr : PacketHeader) (info : PacketInfo) :
    Code C W (Option AddressToken) :=
  match AddressToken.tokenTypeOf token with
  | .ok .retryToken => Act.throw .invalidToken
  | _ => do
      env.sendRetry hdr info
      Act.throw .done

def validateInitialToken (hdr : PacketHeader) (info : PacketInfo) :
    Code C W (Option AddressToken) :=
  match hdr.token with
  | some token => do
      let ep ← Act.get
      match env.validateAddressToken ep token info.src hdr.dcid with
      | .ok decoded => return some decoded
      | .error _ => env.rejectToken token hdr info
  | none =>
    if env.config.retry then do
      env.sendRetry hdr info
      Act.throw .done
    else
      return none

def originalDcid (hdr : PacketHeader) : Option AddressToken → Exec ConnectionId
  | some token => Exec.unwrap token.odcid
  | none => .ok hdr.dcid

def addRoutes (scid odcid : ConnectionId) (info : PacketInfo) (idx : ℕ)
    (routes : ConnectionRoutes) : ConnectionRoutes :=
  if 0 < env.config.cidLen then
    (routes.insertWithCid scid idx).insertWithCid odcid idx
  else
    routes.insertWithAddr ⟨info.dst, info.src⟩ idx

def insertConn (core : C) : Code C W ℕ := fun ep =>
  .ok ({ ep with conns := ep.conns.insert core }, .ok ep.conns.nextIndex)

def createServerConn (hdr : PacketHeader) (token : Option AddressToken) (info : PacketInfo) :
    Code C W ℕ := do
  let odcid ← Act.exec (originalDcid hdr token)
  let scid ← env.generateCid
  let core ← Act.lift (env.newServer scid info.dst info.src token)
  let idx ← insertConn core
  Act.modify fun ep => { ep with routes := env.addRoutes scid odcid info idx ep.routes }
  return idx

def recvBuffered (idx : ℕ) : List (Bytes × PacketInfo) → Code C W Unit
  | [] => return ()
  | (pkt, info) :: rest => do
      env.connRecv idx pkt info
      recvBuffered idx rest

def deliverInitialToConn (idx : ℕ) (hdr : PacketHeader) (buf : Bytes) (info : PacketInfo) :
    Code C W Unit := do
  let ep ← Act.get
  let (buffered, buffer) := ep.buffer.del hdr.dcid
  Act.modify fun ep =>
    (env.call idx .onConnCreated ({ ep with buffer := buffer }.setIndex idx)).markTickable idx true
  env.connRecv idx buf info
  env.recvBuffered idx buffered

def recvServerInitialIdx (hdr : PacketHeader) (buf : Bytes) (info : PacketInfo) :
    Code C W (Option ℕ) := do
  let ep ← Act.get
  if env.config.maxConcurrentConns ≤ ep.conns.len then
    return none
  else if versionIsSupported hdr.version = false then
    sendVersionNegotiation hdr info
    return none
  else
    let token ← env.validateInitialToken hdr info
    let idx ← env.createServerConn hdr token info
    env.deliverInitialToConn idx hdr buf info
    return some idx

def recvUnknown (hdr : PacketHeader) (buf : Bytes) (info : PacketInfo) : Code C W (Option ℕ) := do
  let ep ← Act.get
  if env.isServer = false then
    env.recvUnknownClient hdr buf.length info
    return none
  else if hdr.pktType = .initial ∧ ep.closed = false then
    env.recvServerInitialIdx hdr buf info
  else if hdr.pktType = .zeroRtt ∧ ep.closed = false then
    Act.modify fun ep => { ep with buffer := ep.buffer.add hdr.dcid buf info }
    return none
  else if hdr.pktType = .oneRtt ∧ hdr.dcid.isEmpty = false ∧ env.config.statelessReset = true then
    env.sendStatelessReset buf.length hdr.dcid info
    return none
  else
    return none

/-- Process a datagram; the result is the connection it went to. -/
def recvWithConnIndex (buf : Bytes) (info : PacketInfo) : Code C W (Option ℕ) := do
  let (hdr, _) ← Act.lift (PacketHeader.fromBytes buf env.config.cidLen)
  let ep ← Act.get
  match ep.routes.find hdr.dcid buf info with
  | (some idx, reset) => do
      env.recvExistingConn idx reset buf info
      return some idx
  | (none, _) => env.recvUnknown hdr buf info

end Env

end Tquic
