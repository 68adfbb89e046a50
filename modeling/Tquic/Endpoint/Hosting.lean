import Tquic.Connection.Cid
import Tquic.Endpoint.Process

/-!
# The routes of an endpoint over time

Routes are entered when a connection is created or the endpoint handles an event of it, and removed
by such events and when the connection is cleaned up. A connection is here its ids, the addresses
of its paths and its events.
-/

namespace Tquic

open ConnectionTable

def resetTokenFromU128 (token : ℕ) : Bytes := BigEndian.toBytes resetTokenLen token

def maxCidLimit : ℕ := 8

structure Seed where
  scid : ConnectionId
  resetToken : Option ℕ
  /-- The local `active_conn_id_limit`. -/
  dcidLimit : ℕ

structure Hosted where
  isServer : Bool
  cids : ConnectionIdMgr
  paths : List FourTuple
  /-- `local_transport_params.original_destination_connection_id` -/
  odcid : Option ConnectionId := none
  gotPeerCid : Bool := false
  didRetry : Bool := false
  handshakeCompleted : Bool := false
  /-- `peer_transport_params.stateless_reset_token` -/
  peerResetToken : Option ℕ := none
  retiring : List ℕ := []
  events : List Event := []
  closed : Bool := false

namespace Hosted

def newServer (seed : Seed) (addr : FourTuple) (token : Option AddressToken) : Hosted where
  isServer := true
  cids := .new seed.dcidLimit seed.scid 0 seed.resetToken
  paths := [addr]
  odcid := token.bind (·.odcid)
  didRetry := token.isSome

def newClient (seed : Seed) (addr : FourTuple) (dcid : ConnectionId) : Hosted where
  isServer := false
  cids := (ConnectionIdMgr.new seed.dcidLimit seed.scid 0 seed.resetToken).setInitialDcid dcid
    none (some 0)
  paths := [addr]

variable (c : Hosted)

def addEvents (events : List Event) : Hosted := { c with events := c.events ++ events }

def trySetDcidForInitialPath (pathId : ℕ) (hdrScid hdrDcid : ConnectionId) : Hosted :=
  if c.gotPeerCid then c
  else
    { c with
      cids := c.cids.setInitialDcid hdrScid c.peerResetToken (some pathId)
      odcid := if c.isServer && !c.didRetry then some hdrDcid else c.odcid
      gotPeerCid := true }

def onNewConnectionId (seqNum retirePriorTo : ℕ) (connId : ConnectionId) (resetToken : ℕ) :
    Hosted :=
  match c.cids.addDcid connId seqNum resetToken retirePriorTo with
  | (cids, .error _) => { c with cids := cids }
  | (cids, .ok _) =>
    { c with cids := cids }.addEvents [.dcidAdvertised (resetTokenFromU128 resetToken)]

def onRetireConnectionId (seqNum : ℕ) (pktDcid : ConnectionId) : Hosted :=
  if c.cids.zeroLengthScid then c
  else
    match c.cids.scids.get? seqNum with
    | none => c
    | some item =>
      { c with cids := (c.cids.retireScid seqNum pktDcid).1 }.addEvents [.scidRetired item.cid]

def processRetry (scid : ConnectionId) : Hosted :=
  if c.isServer || c.didRetry then c
  else
    { c with
      didRetry := true
      gotPeerCid := false
      cids := c.cids.setInitialDcid scid none (some 0) }

def processPeerTransParams (activeConnIdLimit : ℕ) (resetToken : Option ℕ) : Hosted :=
  { c with
    cids := c.cids.setScidLimit activeConnIdLimit
    peerResetToken := resetToken }.addEvents
      (resetToken.map fun token => Event.resetTokenAdvertised (resetTokenFromU128 token)).toList

/-- The handshake completes; `multipath` says that both sides ask for the extension. -/
def complete (multipath : Bool) : Hosted :=
  if c.handshakeCompleted then c
  else
    { c with handshakeCompleted := true }.addEvents <|
      if multipath && c.cids.zeroLengthDcid then [.connectionEstablished]
      else [.connectionEstablished, .scidToAdvertise (min c.cids.scidLimit maxCidLimit - 1)]

def retiredEvents (seq : ℕ) : List Event :=
  match c.cids.dcids.get? seq with
  | none => []
  | some item =>
    (item.resetToken.map fun token => Event.dcidRetired (resetTokenFromU128 token)).toList

/-- A round of the loop that writes RETIRE_CONNECTION_ID frames into a packet sent to the id
`dcidSeq`. -/
def writeRetire (dcidSeq : ℕ) : Hosted :=
  match c.cids.dcidsToRetire.head? with
  | none => c
  | some seq =>
    if seq = dcidSeq then c
    else
      { c with
        cids := c.cids.markDcidToRetire seq false
        retiring := c.retiring ++ [seq] }.addEvents (c.retiredEvents seq)

def ackRetire (k : ℕ) : Hosted := { c with retiring := c.retiring.eraseIdx k }

def loseRetire (k : ℕ) : Hosted :=
  match c.retiring[k]? with
  | none => c
  | some seq =>
    { c with
      cids := c.cids.markDcidToRetire seq true
      retiring := c.retiring.eraseIdx k }

def insertPath (addr : FourTuple) : Option ℕ → Hosted
  | none => { c with paths := c.paths ++ [addr] }
  | some pathId => { c with paths := c.paths.set pathId addr }

inductive Action where
  | packet (pathId : ℕ) (scid dcid : ConnectionId)
  | newConnectionId (seqNum retirePriorTo : ℕ) (connId : ConnectionId) (resetToken : ℕ)
  | retireConnectionId (seqNum : ℕ) (pktDcid : ConnectionId)
  | retry (scid : ConnectionId)
  | peerTransParams (activeConnIdLimit : ℕ) (resetToken : Option ℕ)
  | complete (multipath : Bool)
  | writeRetire (dcidSeq : ℕ)
  | ackRetire (k : ℕ)
  | loseRetire (k : ℕ)
  | insertPath (addr : FourTuple) (slot : Option ℕ)
  | close

/-- Frames come in packets, which make the id of the peer known. -/
def act : Action → Hosted
  | .packet pathId scid dcid => c.trySetDcidForInitialPath pathId scid dcid
  | .newConnectionId seqNum retirePriorTo connId resetToken =>
    if c.gotPeerCid then c.onNewConnectionId seqNum retirePriorTo connId resetToken else c
  | .retireConnectionId seqNum pktDcid =>
    if c.gotPeerCid then c.onRetireConnectionId seqNum pktDcid else c
  | .retry scid => c.processRetry scid
  | .peerTransParams activeConnIdLimit resetToken =>
    c.processPeerTransParams activeConnIdLimit resetToken
  | .complete multipath => c.complete multipath
  | .writeRetire dcidSeq => c.writeRetire dcidSeq
  | .ackRetire k => c.ackRetire k
  | .loseRetire k => c.loseRetire k
  | .insertPath addr slot => c.insertPath addr slot
  | .close => { c with closed := true }

def scids : List ConnectionId := c.cids.scids.queue.map (·.cid)

def tokens : List Bytes :=
  c.cids.dcids.queue.filterMap fun item => item.resetToken.map resetTokenFromU128

/-- What `ConnectionRoutes::remove` removes: ids, address tuples and reset tokens. -/
def routes : List ConnectionId × List FourTuple × List Bytes :=
  ((if c.cids.zeroLengthScid then [] else c.scids) ++ (if c.isServer then c.odcid.toList else []),
    if c.cids.zeroLengthScid then c.paths else [],
    if c.cids.zeroLengthDcid then [] else c.tokens)

end Hosted

/-! ## Removing routes -/

namespace ConnectionRoutes

theorem cidTable_foldl {α : Type*} {f : ConnectionRoutes → α → ConnectionRoutes}
    (hf : ∀ routes a, (f routes a).cidTable = routes.cidTable) (l : List α)
    (routes : ConnectionRoutes) : (l.foldl f routes).cidTable = routes.cidTable := by
  induction l generalizing routes with
  | nil => rfl
  | cons a l ih => rw [List.foldl_cons, ih, hf]

theorem cidTable_remove (routes : ConnectionRoutes)
    (ids : List ConnectionId × List FourTuple × List Bytes) (cid : ConnectionId) :
    (routes.remove ids).cidTable cid = if cid ∈ ids.1 then none else routes.cidTable cid := by
  rw [remove, cidTable_foldl (f := removeWithToken) fun _ _ => rfl,
    cidTable_foldl (f := removeWithAddr) fun _ _ => rfl]
  generalize ids.1 = l
  induction l generalizing routes with
  | nil => rfl
  | cons id l ih =>
    rw [List.foldl_cons, ih, removeWithCid]
    by_cases hid : cid = id
    · simp [hid]
    · simp [hid]

end ConnectionRoutes

/-! ## The endpoint -/

/-- A server connection, with the destination id of its first Initial and the original one. -/
structure Accepted where
  dcid : ConnectionId
  odcid : ConnectionId
  idx : ℕ
  deriving DecidableEq

structure Hosting where
  conns : ConnectionTable Hosted
  routes : ConnectionRoutes
  closed : Bool
  /-- Bookkeeping that the code has no need of. -/
  accepted : List Accepted

namespace Hosting

def start : Hosting := ⟨.new, .new, false, []⟩

def host? (w : Hosting) (idx : ℕ) : Option Hosted := (w.conns.get? idx).map (·.core)

def setCore (w : Hosting) (idx : ℕ) (c : Hosted) : Hosting :=
  { w with conns := w.conns.update idx fun conn => { conn with core := c } }

section Recv

variable {Key C W : Type} (env : Env Key C W)

/-- Nothing if the Initial is refused or answered with a Retry, and otherwise the token, if there is
one. -/
def validateInitialToken (now : SystemTime) (hdr : PacketHeader) (info : PacketInfo) :
    Option (Option AddressToken) :=
  match hdr.token with
  | some token =>
    match env.tryKeys now token info.src hdr.dcid env.config.addressTokenKey with
    | .ok decoded => some (some decoded)
    | .error _ => none
  | none => if env.config.retry then none else some none

def createServerConn (w : Hosting) (hdr : PacketHeader) (token : Option AddressToken)
    (info : PacketInfo) (seed : Seed) : Exec (Hosting × Option ℕ) := do
  let odcid ← Env.originalDcid hdr token
  let idx := w.conns.nextIndex
  return ({ w with
    conns := w.conns.insert (.newServer seed ⟨info.dst, info.src⟩ token)
    routes := env.addRoutes seed.scid odcid info idx w.routes
    accepted := w.accepted ++ [⟨hdr.dcid, odcid, idx⟩] }, some idx)

def recvServerInitialIdx (w : Hosting) (now : SystemTime) (hdr : PacketHeader)
    (info : PacketInfo) (seed : Seed) : Exec (Hosting × Option ℕ) :=
  if env.config.maxConcurrentConns ≤ w.conns.len then .ok (w, none)
  else if versionIsSupported hdr.version = false then .ok (w, none)
  else
    match validateInitialToken env now hdr info with
    | none => .ok (w, none)
    | some token => w.createServerConn env hdr token info seed

/-- The connection that a datagram goes to; `seed` is there for a new one. -/
def recv (w : Hosting) (now : SystemTime) (hdr : PacketHeader) (buf : Bytes) (info : PacketInfo)
    (seed : Seed) : Exec (Hosting × Option ℕ) :=
  match w.routes.find hdr.dcid buf info with
  | (some idx, _) => .ok (w, some idx)
  | (none, _) =>
    if env.isServer = true ∧ hdr.pktType = .initial ∧ w.closed = false then
      w.recvServerInitialIdx env now hdr info seed
    else .ok (w, none)

end Recv

def connect (w : Hosting) (seed : Seed) (addr : FourTuple) (dcid : ConnectionId) : Hosting :=
  { w with
    conns := w.conns.insert (.newClient seed addr dcid)
    routes := Env.addClientRoute seed.scid w.conns.nextIndex addr w.routes }

def connAddScids (idx : ℕ) : List (ConnectionId × ℕ) → Hosted × ConnectionRoutes →
    Hosted × ConnectionRoutes
  | [], s => s
  | (scid, resetToken) :: rest, (c, routes) =>
    match c.cids.addScid scid (some resetToken) true none true with
    | (cids, .error _) => ({ c with cids := cids }, routes)
    | (cids, .ok _) =>
      connAddScids idx rest ({ c with cids := cids }, routes.insertWithCid scid idx)

def handleEvent (idx : ℕ) (fresh : List (ConnectionId × ℕ)) (c : Hosted)
    (routes : ConnectionRoutes) : Event → Hosted × ConnectionRoutes
  | .scidToAdvertise num => connAddScids idx (fresh.take num) (c, routes)
  | .scidRetired cid => (c, routes.removeWithCid cid)
  | .dcidAdvertised token => (c, routes.insertWithToken token idx)
  | .dcidRetired token => (c, routes.removeWithToken token)
  | .resetTokenAdvertised token => (c, routes.insertWithToken token idx)
  | _ => (c, routes)

/-- Handle the first event of the connection at `idx`; `fresh` are the ids and tokens that are
generated. -/
def pollEvent (w : Hosting) (idx : ℕ) (fresh : List (ConnectionId × ℕ)) : Hosting :=
  match w.host? idx with
  | none => w
  | some c =>
    match c.events with
    | [] => w
    | event :: events =>
      let (c, routes) := handleEvent idx fresh { c with events := events } w.routes event
      { w.setCore idx c with routes := routes }

def cleanupClosedConn (w : Hosting) (idx : ℕ) : Hosting :=
  match w.host? idx with
  | none => w
  | some c =>
    if c.closed then
      { w with routes := w.routes.remove c.routes, conns := w.conns.remove idx }
    else w

def close (w : Hosting) (force : Bool) : Hosting :=
  let w := { w with closed := true }
  if force then { w with routes := .new, conns := w.conns.clear } else w

def act (w : Hosting) (idx : ℕ) (action : Hosted.Action) : Hosting :=
  match w.host? idx with
  | none => w
  | some c => w.setCore idx (c.act action)

inductive Op where
  | connect (seed : Seed) (addr : FourTuple) (dcid : ConnectionId)
  | recv (now : SystemTime) (hdr : PacketHeader) (buf : Bytes) (info : PacketInfo) (seed : Seed)
  | act (idx : ℕ) (action : Hosted.Action)
  | pollEvent (idx : ℕ) (fresh : List (ConnectionId × ℕ))
  | cleanup (idx : ℕ)
  | close (force : Bool)

variable {Key C W : Type} (env : Env Key C W)

def step (w : Hosting) : Op → Exec (Hosting × Option ℕ)
  | .connect seed addr dcid =>
    .ok (if env.isServer || w.closed then w else w.connect seed addr dcid, none)
  | .recv now hdr buf info seed => w.recv env now hdr buf info seed
  | .act idx action => .ok (w.act idx action, none)
  | .pollEvent idx fresh => .ok (w.pollEvent idx fresh, none)
  | .cleanup idx => .ok (w.cleanupClosedConn idx, none)
  | .close force => .ok (w.close force, none)

/-! ## Connections by index -/

section Hosts

variable {w : Hosting} {idx i : ℕ} {c : Hosted}

theorem host?_setCore_self (h : (w.host? idx).isSome) (c : Hosted) :
    (w.setCore idx c).host? idx = some c := by
  obtain ⟨old, hold⟩ := Option.isSome_iff_exists.mp h
  obtain ⟨conn, hconn, -⟩ := Option.map_eq_some_iff.mp hold
  simp [host?, setCore, get?_update, hconn]

theorem host?_setCore_of_ne (h : i ≠ idx) (c : Hosted) : (w.setCore idx c).host? i = w.host? i := by
  simp [host?, setCore, get?_update, h]

end Hosts

/-! ## What a step can do -/

def accept (w : Hosting) (hdr : PacketHeader) (token : Option AddressToken) (info : PacketInfo)
    (seed : Seed) (odcid : ConnectionId) : Hosting :=
  { w with
    conns := w.conns.insert (.newServer seed ⟨info.dst, info.src⟩ token)
    routes := env.addRoutes seed.scid odcid info w.conns.nextIndex w.routes
    accepted := w.accepted ++ [⟨hdr.dcid, odcid, w.conns.nextIndex⟩] }

inductive Change (w : Hosting) : Op → Hosting → Prop
  | connect (seed : Seed) (addr : FourTuple) (dcid : ConnectionId) :
      env.isServer = false → Change w (.connect seed addr dcid) (w.connect seed addr dcid)
  | accept {now : SystemTime} {hdr : PacketHeader} {buf : Bytes} {info : PacketInfo} {seed : Seed}
      {token : Option AddressToken} {odcid : ConnectionId} :
      w.routes.findCid hdr.dcid info = none → hdr.pktType = .initial →
      validateInitialToken env now hdr info = some token →
      Env.originalDcid hdr token = .ok odcid →
      Change w (.recv now hdr buf info seed) (w.accept env hdr token info seed odcid)
  | act {idx : ℕ} {c : Hosted} (action : Hosted.Action) : w.host? idx = some c →
      Change w (.act idx action) (w.setCore idx (c.act action))
  | poll {idx : ℕ} {c : Hosted} {event : Event} {events : List Event}
      (fresh : List (ConnectionId × ℕ)) : w.host? idx = some c → c.events = event :: events →
      Change w (.pollEvent idx fresh)
        { w.setCore idx (handleEvent idx fresh { c with events := events } w.routes event).1 with
          routes := (handleEvent idx fresh { c with events := events } w.routes event).2 }
  | cleanup {idx : ℕ} {c : Hosted} : w.host? idx = some c → c.closed = true →
      Change w (.cleanup idx)
        { w with routes := w.routes.remove c.routes, conns := w.conns.remove idx }
  | close (force : Bool) : Change w (.close force) (w.close force)

variable {buf : Bytes} {info : PacketInfo}

theorem findCid_of_find {routes : ConnectionRoutes} {dcid : ConnectionId}
    {reset : Bool} (h : routes.find dcid buf info = (none, reset)) :
    routes.findCid dcid info = none := by
  rw [ConnectionRoutes.find] at h
  cases hfind : routes.findCid dcid info with
  | none => rfl
  | some =>
    rw [hfind] at h
    cases h

variable {env}

variable {o : Option ℕ}

theorem recv_cases {w w' : Hosting} {now : SystemTime} {hdr : PacketHeader}
    {seed : Seed}
    (h : w.recv env now hdr buf info seed = .ok (w', o)) :
    w' = w ∨ Change env w (.recv now hdr buf info seed) w' := by
  rw [recv] at h
  split at h
  · exact .inl (Prod.mk.inj (Exec.ok.inj h)).1.symm
  next reset hfind =>
  split_ifs at h with hinitial
  · rw [recvServerInitialIdx] at h
    split_ifs at h
    · exact .inl (Prod.mk.inj (Exec.ok.inj h)).1.symm
    · exact .inl (Prod.mk.inj (Exec.ok.inj h)).1.symm
    split at h
    · exact .inl (Prod.mk.inj (Exec.ok.inj h)).1.symm
    next token htoken =>
    obtain ⟨odcid, hodcid, hcreate⟩ := Exec.bind_eq_ok.mp h
    cases hcreate
    exact .inr (.accept (findCid_of_find hfind) hinitial.2.1 htoken hodcid)
  · exact .inl (Prod.mk.inj (Exec.ok.inj h)).1.symm

theorem step_cases {w w' : Hosting} {op : Op} (h : step env w op = .ok (w', o)) :
    w' = w ∨ Change env w op w' := by
  cases op with
  | connect seed addr dcid =>
    cases h
    split_ifs with hserver
    · exact .inl rfl
    · rw [Bool.or_eq_true, not_or] at hserver
      exact .inr (.connect seed addr dcid (Bool.eq_false_iff.mpr hserver.1))
  | recv => exact recv_cases h
  | act idx action =>
    cases h
    rw [act]
    split
    · exact .inl rfl
    · next c hc => exact .inr (.act action hc)
  | pollEvent idx fresh =>
    cases h
    rw [pollEvent]
    split
    · exact .inl rfl
    next c hc =>
    split
    · exact .inl rfl
    · next event events hevents => exact .inr (.poll fresh hc hevents)
  | cleanup =>
    cases h
    rw [cleanupClosedConn]
    split
    · exact .inl rfl
    next c hc =>
    split_ifs with hclosed
    · exact .inr (.cleanup hc hclosed)
    · exact .inl rfl
  | close force =>
    cases h
    exact .inr (.close force)

end Hosting

end Tquic
