import Tquic.Connection.Cid
import Tquic.Connection.Frame
import Tquic.Connection.Path

/-!
# Paths and connection ids of a connection

The part of a connection that decides over which paths and under which ids packets go: packets from
the peer, calls of the application, and the frames about ids and paths in sent packets.
-/

namespace Tquic

inductive LinkFrame where
  | newConnectionId (seqNum retirePriorTo : ℕ) (connId : ConnectionId) (resetToken : ℕ)
  | retireConnectionId (seqNum : ℕ)
  | pathChallenge (data : UInt64)
  | pathResponse (data : UInt64)
  deriving DecidableEq

namespace LinkFrame

def wireLen : LinkFrame → Exec ℕ
  | newConnectionId seqNum retirePriorTo connId _ => do
      let seqLen ← encodeVarintLen seqNum
      let retireLen ← encodeVarintLen retirePriorTo
      return 1 + seqLen + retireLen + 1 + connId.len + 16
  | retireConnectionId seqNum => do
      let seqLen ← encodeVarintLen seqNum
      return 1 + seqLen
  | pathChallenge _ | pathResponse _ => .ok (1 + 8)

/-- `validate_frame` for these frames. -/
def allowedIn (pktType : PacketType) : LinkFrame → Bool
  | newConnectionId .. | pathChallenge _ => pktType = .oneRtt || pktType = .zeroRtt
  | retireConnectionId _ | pathResponse _ => pktType = .oneRtt

end LinkFrame

/-- A connection as far as paths and ids are concerned. The last three fields are the frames of the
packet being written, those in flight and those to be sent again. -/
structure Links where
  isServer : Bool
  cids : ConnectionIdMgr
  paths : PathMap
  gotPeerCid : Bool := false
  didRetry : Bool := false
  handshakeCompleted : Bool := false
  enableMultipath : Bool := false
  /-- `peer_transport_params.stateless_reset_token` -/
  peerResetToken : Option ℕ := none
  closing : Bool := false
  /-- The spaces of paths are numbered from 3 on, and none is dropped. -/
  nextDataExtId : ℕ := 3
  draft : List LinkFrame := []
  sent : List (List LinkFrame) := []
  lost : List LinkFrame := []

/-- A datagram from the peer with one packet; `authentic` says that it can be decrypted and is no
duplicate. -/
structure Incoming where
  pktType : PacketType
  addrs : SocketAddr × SocketAddr
  dcid : ConnectionId
  scid : ConnectionId
  len : ℕ
  authentic : Bool
  frames : List LinkFrame
  time : ℤ

namespace Links

variable (c : Links)

def scid : Result ConnectionId := do
  let path ← c.paths.getActive
  match path.scidSeq with
  | none => .error .internalError
  | some seq => do
      let item ← c.cids.getScid seq
      return item.cid

def dcid : Result ConnectionId := do
  let path ← c.paths.getActive
  match path.dcidSeq with
  | none => .error .internalError
  | some seq => do
      let item ← c.cids.getDcid seq
      return item.cid

def setInitialDcid (cid : ConnectionId) (resetToken : Option ℕ) (pathId : ℕ) : Links :=
  { c with
    cids := c.cids.setInitialDcid cid resetToken (some pathId)
    paths := c.paths.update pathId fun p => { p with dcidSeq := some 0 } }

def trySetDcidForInitialPath (pathId : ℕ) (scid : ConnectionId) : Links :=
  if c.gotPeerCid then c
  else { c.setInitialDcid scid c.peerResetToken pathId with gotPeerCid := true }

/-! ## Paths for packets from the peer -/

def useScid (pathId : ℕ) (item : ConnectionIdItem) : Links × Result ℕ :=
  match c.paths.get? pathId with
  | none => (c, .error .internalError)
  | some path =>
    let held := path.scidSeq.bind fun seq => (c.cids.scids.get? seq).map (·.cid)
    if held = some item.cid then (c, .ok pathId)
    else
      let c := { c with
        paths := c.paths.update pathId fun p => { p with scidSeq := some item.seq } }
      match c.cids.markScidUsed item.seq pathId with
      | .error e => (c, .error e)
      | .ok cids => ({ c with cids := cids }, .ok pathId)

/-- The packet number space of a new path: with multipath that of the path which the id belongs to,
if any, else another one. -/
def newSpace (cidPid : Option ℕ) : Links × Result ℕ :=
  if !c.enableMultipath then (c, .ok 2)
  else
    match cidPid with
    | none => ({ c with nextDataExtId := c.nextDataExtId + 1 }, .ok c.nextDataExtId)
    | some pathId =>
      match c.paths.get? pathId with
      | none => (c, .error .internalError)
      | some path => (c, .ok path.spaceId)

def createPath (item : ConnectionIdItem) (a : Incoming) : Links × Result ℕ :=
  let cidPid := if c.cids.zeroLengthScid then none else item.pathId
  match c.newSpace cidPid with
  | (c, .error e) => (c, .error e)
  | (c, .ok spaceId) =>
    let path := { Path.new a.addrs.1 a.addrs.2 false a.time with
      antiAmplLimit := if c.isServer then wrap (a.len * c.paths.antiAmplFactor) else 0
      scidSeq := some item.seq
      needSendChallenge := true
      spaceId := spaceId }
    match c.paths.insertPath path with
    | .error e => (c, .error e)
    | .ok (pathId, paths) =>
      let c := { c with paths := paths }
      if cidPid.isNone then
        match c.cids.markScidUsed item.seq pathId with
        | .error e => (c, .error e)
        | .ok cids => ({ c with cids := cids }, .ok pathId)
      else (c, .ok pathId)

def getOrCreatePath (recvPid : Option ℕ) (a : Incoming) : Links × Result ℕ :=
  match c.cids.findScid a.dcid with
  | none => (c, .error .done)
  | some item =>
    match recvPid with
    | some pathId => c.useScid pathId item
    | none => c.createPath item a

/-! ## Frames from the peer -/

/-- A path whose destination id was retired gets an unused one, or waits for one. -/
def reassignDcid (retired : ℕ × ℕ) : Links × Result Unit :=
  match c.paths.get? retired.2 with
  | none => (c, .error .internalError)
  | some path =>
    if path.dcidSeq ≠ some retired.1 then (c, .ok ())
    else
      match c.cids.lowestUnusedDcidSeq with
      | none =>
        ({ c with paths := c.paths.update retired.2 fun p => { p with dcidSeq := none } }, .ok ())
      | some seq =>
        let c := { c with
          paths := c.paths.update retired.2 fun p => { p with dcidSeq := some seq } }
        match c.cids.markDcidUsed seq retired.2 with
        | .error e => (c, .error e)
        | .ok cids => ({ c with cids := cids }, .ok ())

def reassignDcids : List (ℕ × ℕ) → Links → Links × Result Unit
  | [], c => (c, .ok ())
  | retired :: rest, c =>
    match c.reassignDcid retired with
    | (c, .error e) => (c, .error e)
    | (c, .ok ()) => reassignDcids rest c

def onNewConnectionId (seqNum retirePriorTo : ℕ) (connId : ConnectionId) (resetToken : ℕ) :
    Links × Result Unit :=
  match c.cids.addDcid connId seqNum resetToken retirePriorTo with
  | (cids, .error e) => ({ c with cids := cids }, .error e)
  | (cids, .ok retired) => reassignDcids retired { c with cids := cids }

def onRetireConnectionId (seqNum : ℕ) (pktDcid : ConnectionId) : Links × Result Unit :=
  if c.cids.zeroLengthScid then (c, .error .protocolViolation)
  else if (c.cids.scids.get? seqNum).isNone then (c, .ok ())
  else
    match c.cids.retireScid seqNum pktDcid with
    | (cids, .error e) => ({ c with cids := cids }, .error e)
    | (cids, .ok none) => ({ c with cids := cids }, .ok ())
    | (cids, .ok (some pathId)) =>
      let c := { c with cids := cids }
      match c.paths.get? pathId with
      | none => (c, .error .internalError)
      | some _ =>
        ({ c with
          paths := c.paths.update pathId fun p =>
            if p.scidSeq = some seqNum then { p with scidSeq := none } else p }, .ok ())

def recvFrame (pktType : PacketType) (pktDcid : ConnectionId) (pathId : ℕ) (frame : LinkFrame) :
    Links × Result Unit :=
  if !frame.allowedIn pktType then (c, .error .protocolViolation)
  else
    match frame with
    | .newConnectionId seqNum retirePriorTo connId resetToken =>
      c.onNewConnectionId seqNum retirePriorTo connId resetToken
    | .retireConnectionId seqNum => c.onRetireConnectionId seqNum pktDcid
    | .pathChallenge data => ({ c with paths := c.paths.onPathChalReceived pathId data }, .ok ())
    | .pathResponse data => ({ c with paths := c.paths.onPathRespReceived pathId data }, .ok ())

def recvFrames (pktType : PacketType) (pktDcid : ConnectionId) (pathId : ℕ) :
    List LinkFrame → Links → Links × Result Unit
  | [], c => (c, .ok ())
  | frame :: rest, c =>
    match c.recvFrame pktType pktDcid pathId frame with
    | (c, .error e) => (c, .error e)
    | (c, .ok ()) => recvFrames pktType pktDcid pathId rest c

/-- The loop of `try_allocate_cids_from_peer` over the paths that have no destination id. -/
def allocateDcids : List ℕ → Links → Links
  | [], c => c
  | pathId :: rest, c =>
    match c.paths.get? pathId with
    | none => allocateDcids rest c
    | some path =>
      if path.dcidSeq.isSome then allocateDcids rest c
      else if c.cids.zeroLengthDcid then
        allocateDcids rest
          { c with paths := c.paths.update pathId fun p => { p with dcidSeq := some 0 } }
      else
        match c.cids.lowestUnusedDcidSeq with
        | none => c
        | some seq =>
          allocateDcids rest { c with
            cids := { c.cids with dcids := c.cids.dcids.setPath seq pathId }
            paths := c.paths.update pathId fun p => { p with dcidSeq := some seq } }

def tryAllocateCidsFromPeer : Links := allocateDcids (List.range c.paths.paths.length) c

def pathFor (recvPid : Option ℕ) (a : Incoming) : Links × Result ℕ :=
  if a.pktType = .oneRtt ∧ c.handshakeCompleted then c.getOrCreatePath recvPid a
  else (c, c.paths.getActivePathId)

/-- What remains of `recv_packet` once the packet is decrypted. -/
def processPacket (pathId : ℕ) (a : Incoming) : Links × Result Unit :=
  let c := c.trySetDcidForInitialPath pathId a.scid
  match recvFrames a.pktType a.dcid pathId a.frames c with
  | (c, .error e) => (c, .error e)
  | (c, .ok ()) =>
    let c := c.tryAllocateCidsFromPeer
    ({ c with
        paths := c.paths.update pathId fun p => { p with
          lastRecvTime := a.time
          verifiedPeerAddress :=
            p.verifiedPeerAddress || (c.isServer && a.pktType = .handshake) } }, .ok ())

def recvPacket (recvPid : Option ℕ) (a : Incoming) : Links × Result Unit :=
  if c.closing then (c, .error .done)
  else
    match c.scid with
    | .error e => (c, .error e)
    | .ok _ =>
      match c.pathFor recvPid a with
      | (c, .error e) => (c, .error e)
      | (c, .ok pathId) =>
        -- the path exists before the packet is authenticated
        if !a.authentic then (c, .error .done) else c.processPacket pathId a

/-- An error other than `Done` closes the connection. -/
def settle : Links × Result Unit → Links × Result Unit
  | (c, .ok ()) => (c, .ok ())
  | (c, .error .done) => (c, .ok ())
  | (c, .error e) => ({ c with closing := true }, .error e)

def recv (a : Incoming) : Links × Result Unit :=
  match c.paths.getPathId a.addrs with
  | none => if !c.isServer then (c, .ok ()) else settle (c.recvPacket none a)
  | some pathId =>
    settle ({ c with paths := c.paths.incAntiAmplLimit pathId a.len }.recvPacket (some pathId) a)

/-- A Retry packet whose integrity tag is valid. -/
def processRetry (scid : ConnectionId) : Links × Result Unit :=
  if c.closing then (c, .ok ())
  else
    match c.scid with
    | .error e => settle (c, .error e)
    | .ok _ =>
      if c.isServer || c.didRetry then (c, .ok ())
      else
        match c.dcid with
        | .error e => settle (c, .error e)
        | .ok _ =>
          match c.paths.getActivePathId with
          | .error e => settle ({ c with didRetry := true, gotPeerCid := false }, .error e)
          | .ok pathId =>
            ({ c with didRetry := true, gotPeerCid := false }.setInitialDcid scid none pathId,
              .ok ())

/-! ## Calls of the application and the endpoint -/

def addScid (cid : ConnectionId) (resetToken : ℕ) (retireIfNeeded : Bool) : Links × Result ℕ :=
  let (cids, r) := c.cids.addScid cid (some resetToken) true none retireIfNeeded
  ({ c with cids := cids }, r)

/-- With multipath a path that was added gets a packet number space of its own. -/
def addSpace (pathId : ℕ) : Links :=
  if !c.enableMultipath then c
  else
    { c with
      nextDataExtId := c.nextDataExtId + 1
      paths := c.paths.update pathId fun p => { p with spaceId := c.nextDataExtId } }

def addPath (addrs : SocketAddr × SocketAddr) (now : ℤ) : Links × Result ℕ :=
  if c.isServer || !c.handshakeCompleted then (c, .error (.invalidOperation "disallowed"))
  else if (c.paths.getPathId addrs).isSome then (c, .error .done)
  else
    let dcidSeq := if c.cids.zeroLengthDcid then some 0 else c.cids.lowestUnusedDcidSeq
    let path := { Path.new addrs.1 addrs.2 false now with dcidSeq := dcidSeq }
    match c.paths.insertPath path with
    | .error e => (c, .error e)
    | .ok (pathId, paths) =>
      let c := { c with paths := paths }
      match dcidSeq with
      | none =>
        let c := { c with paths := c.paths.update pathId Path.initiatePathChal }
        (c.addSpace pathId, .ok pathId)
      | some seq =>
        match c.cids.markDcidUsed seq pathId with
        | .error e => (c, .error e)
        | .ok cids =>
          let c := { c with
            cids := cids
            paths := c.paths.update pathId Path.initiatePathChal }
          (c.addSpace pathId, .ok pathId)

def provideDcid (pathId : ℕ) (path : Path) : Links × Result Unit :=
  if path.dcidSeq.isSome then (c, .ok ())
  else
    match if c.cids.zeroLengthDcid then some 0 else c.cids.lowestUnusedDcidSeq with
    | none => (c, .error (.invalidOperation "no available connection ID"))
    | some seq =>
      let c := { c with paths := c.paths.update pathId fun p => { p with dcidSeq := some seq } }
      match c.cids.markDcidUsed seq pathId with
      | .error e => (c, .error e)
      | .ok cids => ({ c with cids := cids }, .ok ())

def activate (pathId : ℕ) : Links :=
  let paths :=
    if c.enableMultipath then c.paths
    else
      match c.paths.getActivePathId with
      | .ok old => c.paths.update old fun p => { p with active := false }
      | .error _ => c.paths
  { c with
    paths := paths.update pathId fun p =>
      { p with
        active := true
        needSendChallenge := p.needSendChallenge || !p.validated } }

def migratePath (addrs : SocketAddr × SocketAddr) : Links × Result Unit :=
  if !c.handshakeCompleted then (c, .error (.invalidOperation "handshake not completed"))
  else
    match c.paths.getPathId addrs with
    | none => (c, .error (.invalidOperation "path not found"))
    | some pathId =>
      match c.paths.get? pathId with
      | none => (c, .error .internalError)
      | some path =>
        if path.state = .failed then (c, .error (.invalidOperation "path validation failed"))
        else if path.isActive then (c, .ok ())
        else
          match c.provideDcid pathId path with
          | (c, .error e) => (c, .error e)
          | (c, .ok ()) => (c.activate pathId, .ok ())

def abandonPath (addrs : SocketAddr × SocketAddr) : Links × Result Unit :=
  if !c.enableMultipath then (c, .error (.invalidOperation "disallowed"))
  else
    match c.paths.getPathId addrs with
    | none => (c, .ok ())
    | some pathId =>
      match c.paths.get? pathId with
      | none => (c, .error .internalError)
      | some path =>
        if path.isActive ∧ c.paths.paths.countP (·.isActive) ≤ 1 then
          (c, .error (.invalidOperation "cannot abandon last active path"))
        else
          ({ c with paths := c.paths.update pathId fun p => { p with isAbandon := true } }, .ok ())

end Links

end Tquic
