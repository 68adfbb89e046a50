import Tquic.Base.Prog
import Tquic.Base.Run
import Tquic.Connection.Links

/-!
# Runs of the paths and connection ids of a connection

Writing the frames about paths and ids into packets, and everything that may happen to a
connection in this respect.
-/

namespace Tquic

/-- The packet being written: the octets of its payload so far and the challenge among them. -/
structure LinkWriter where
  links : Links
  written : ℕ
  challenge : Option UInt64 := none

namespace LinkWriter

def update (f : Links → Links) : Act LinkWriter Error PUnit :=
  Act.modify fun w => { w with links := f w.links }

def writeFrameToPacket (room : ℕ) (frame : LinkFrame) : Act LinkWriter Error PUnit := fun w => do
  let len ← frame.wireLen
  if room < w.written + len then return (w, .error .done)
  else
    return ({ w with
      written := w.written + len
      links := { w.links with draft := w.links.draft ++ [frame] } }, .ok ⟨⟩)

/-! ## Path validation -/

/-- A challenge is taken off the queue before its answer is written. -/
def writeResponses (room pathId : ℕ) : List UInt64 → Act LinkWriter Error PUnit
  | [] => pure ⟨⟩
  | data :: rest => do
      update fun c => { c with
        paths := c.paths.update pathId fun p => { p with recvChals := rest } }
      writeFrameToPacket room (.pathResponse data)
      writeResponses room pathId rest

def tryWritePathValidationFrames (room pathId : ℕ) (data : UInt64) :
    Act LinkWriter Error PUnit := do
  let w ← Act.get
  match w.links.paths.get? pathId with
  | none => Act.throw .internalError
  | some path => do
      writeResponses room pathId path.recvChals
      if path.needSendChallenge then do
        writeFrameToPacket room (.pathChallenge data)
        Act.modify fun w => { w with challenge := some data }
      else pure ⟨⟩

/-! ## Connection ids -/

def createNewConnectionIdFrame (m : ConnectionIdMgr) (seq : ℕ) : Result LinkFrame :=
  match m.scids.get? seq with
  | none => .error .internalError
  | some item =>
    match item.resetToken with
    | none => .error .internalError
    | some resetToken => .ok (.newConnectionId seq m.retirePriorTo item.cid resetToken)

/-- The body of the loop that writes NEW_CONNECTION_ID frames. -/
def advertiseNext (room : ℕ) : Act LinkWriter Error (Exec.Next PUnit PUnit) := do
  let w ← Act.get
  match w.links.cids.scidsToAdvertise.head? with
  | none => return .done ⟨⟩
  | some seq => do
      let frame ← Act.lift (createNewConnectionIdFrame w.links.cids seq)
      writeFrameToPacket room frame
      update fun c => { c with cids := c.cids.markScidToAdvertise seq false }
      return .again ⟨⟩

/-- The body of the loop that writes RETIRE_CONNECTION_ID frames. -/
def retireNext (room pathId : ℕ) : Act LinkWriter Error (Exec.Next PUnit PUnit) := do
  let w ← Act.get
  match w.links.cids.dcidsToRetire.head? with
  | none => return .done ⟨⟩
  | some seq =>
    match (w.links.paths.get? pathId).bind Path.dcidSeq with
    | none => Act.throw .internalError
    | some dcidSeq =>
      -- a frame must not retire the id that its packet is sent to
      if seq = dcidSeq then return .again ⟨⟩
      else do
        writeFrameToPacket room (.retireConnectionId seq)
        update fun c => { c with cids := c.cids.markDcidToRetire seq false }
        return .again ⟨⟩

/-- Each loop makes at most the given number of rounds. -/
def tryWriteCidControlFrame (rounds room pathId : ℕ) : Act LinkWriter Error PUnit := do
  let w ← Act.get
  if w.links.closing then pure ⟨⟩
  else do
    Act.iterate (fun _ => advertiseNext room) rounds ⟨⟩
    let w ← Act.get
    match w.links.paths.get? pathId with
    | none => Act.throw .internalError
    | some path =>
      if !path.isActive then pure ⟨⟩
      else Act.iterate (fun _ => retireNext room pathId) rounds ⟨⟩

end LinkWriter

/-- A packet about to be sent: the path, the room for its payload and what it holds, its size and
the data of a challenge. -/
structure Outgoing where
  pathId : ℕ
  room : ℕ
  before : ℕ
  size : ℕ
  data : UInt64
  time : ℤ

namespace Links

def headerIds (c : Links) (pathId : ℕ) : Result Unit := do
  let path ← c.paths.get pathId
  match path.dcidSeq with
  | none => .error .internalError
  | some seq => do
      let _ ← c.cids.getDcid seq
      match path.scidSeq with
      | none => return ()
      | some seq => do
          let _ ← c.cids.getScid seq
          return ()

def finishPacket (p : Outgoing) (w : LinkWriter) : Links :=
  let c := w.links
  let paths := match w.challenge with
    | some data => c.paths.onPathChalSent p.pathId data p.size p.time
    | none => c.paths
  { c with
    paths := paths.decAntiAmplLimit p.pathId p.size
    draft := []
    sent := if c.draft = [] then c.sent else c.sent ++ [c.draft] }

def sendFrames (rounds : ℕ) (p : Outgoing) : Act LinkWriter Error PUnit := do
  LinkWriter.tryWritePathValidationFrames p.room p.pathId p.data
  LinkWriter.tryWriteCidControlFrame rounds p.room p.pathId

/-- `send_packet` for a packet of the data space, as far as these frames are concerned. -/
def sendPacket (c : Links) (rounds : ℕ) (p : Outgoing) : Exec (Links × Result Unit) :=
  match c.headerIds p.pathId with
  | .error e => .ok (c, .error e)
  | .ok () => do
      match ← sendFrames rounds p ⟨c, p.before, none⟩ with
      | (w, .ok _) => return (finishPacket p w, .ok ())
      | (w, .error .done) =>
        if 0 < w.written then return (finishPacket p w, .ok ())
        else return ({ w.links with draft := [] }, .error .done)
      | (w, .error e) => return ({ w.links with draft := [] }, .error e)

def loseFrame (m : ConnectionIdMgr) : LinkFrame → ConnectionIdMgr
  | .newConnectionId seqNum _ _ _ => m.markScidToAdvertise seqNum true
  | .retireConnectionId seqNum => m.markDcidToRetire seqNum true
  | .pathChallenge _ => m
  | .pathResponse _ => m

inductive Op where
  | receive (a : Incoming)
  | retry (scid : ConnectionId)
  | peerParams (activeConnIdLimit : ℕ) (resetToken : Option ℕ)
  | complete (multipath : Bool)
  | addScid (cid : ConnectionId) (resetToken : ℕ) (retireIfNeeded : Bool)
  | addPath (addrs : SocketAddr × SocketAddr) (time : ℤ)
  | migratePath (addrs : SocketAddr × SocketAddr)
  | abandonPath (addrs : SocketAddr × SocketAddr)
  | sendPacket (p : Outgoing)
  | ackPacket (k : ℕ)
  | losePacket (k : ℕ)
  | probePacket (k : ℕ)
  | handleLost
  | pathChalTimeout (time : ℤ)
  | keepAlive (time : ℤ) (pathTimeout : ℕ)
  | close

def voided {α : Type} : Links × Result α → Links × Result Unit
  | (c, .ok _) => (c, .ok ())
  | (c, .error e) => (c, .error e)

def losePacket (c : Links) (k : ℕ) : Links :=
  match c.sent[k]? with
  | none => c
  | some frames => { c with sent := c.sent.eraseIdx k, lost := c.lost ++ frames }

/-- The frames of the `k`th packet are to be sent again; the packet stays in flight. -/
def probePacket (c : Links) (k : ℕ) : Links :=
  match c.sent[k]? with
  | none => c
  | some frames => { c with lost := c.lost ++ frames }

def handleLost (c : Links) : Links :=
  { c with cids := c.lost.foldl loseFrame c.cids, lost := [] }

def complete (c : Links) (multipath : Bool) : Links :=
  if !c.gotPeerCid || c.handshakeCompleted then c
  else
    { c with
      handshakeCompleted := true
      enableMultipath := multipath
      paths := { c.paths with isMultipath := multipath } }

/-- The number of rounds that the loops of `try_write_cid_control_frame` need at most if
each of them takes an entry off a queue. -/
def rounds (c : Links) : ℕ := c.cids.scidsToAdvertise.length + c.cids.dcidsToRetire.length + 1

def step (c : Links) : Op → Exec (Links × Result Unit)
  | .receive a => .ok (c.recv a)
  | .retry scid => .ok (c.processRetry scid)
  | .peerParams activeConnIdLimit resetToken =>
    .ok ({ c with
      cids := c.cids.setScidLimit activeConnIdLimit
      peerResetToken := resetToken }, .ok ())
  | .complete multipath => .ok (c.complete multipath, .ok ())
  | .addScid cid resetToken retireIfNeeded =>
    .ok (voided (c.addScid cid resetToken retireIfNeeded))
  | .addPath addrs time => .ok (voided (c.addPath addrs time))
  | .migratePath addrs => .ok (c.migratePath addrs)
  | .abandonPath addrs => .ok (c.abandonPath addrs)
  | .sendPacket p => c.sendPacket c.rounds p
  | .ackPacket k => .ok ({ c with sent := c.sent.eraseIdx k }, .ok ())
  | .losePacket k => .ok (c.losePacket k, .ok ())
  | .probePacket k => .ok (c.probePacket k, .ok ())
  | .handleLost => .ok (c.handleLost, .ok ())
  | .pathChalTimeout time => .ok ({ c with paths := c.paths.onPathChalTimeout time }, .ok ())
  | .keepAlive time pathTimeout =>
    .ok ({ c with paths := c.paths.abandonStalePaths time pathTimeout }, .ok ())
  | .close => .ok ({ c with closing := true }, .ok ())

structure Setup where
  isServer : Bool
  scid : ConnectionId
  odcid : ConnectionId
  localAddr : SocketAddr
  remoteAddr : SocketAddr
  validToken : Bool
  resetToken : Option ℕ
  /-- Lower values are ignored. -/
  activeConnIdLimit : {n : ℕ // 2 ≤ n}
  antiAmplFactor : ℕ
  time : ℤ

def start (s : Setup) : Links :=
  let path := Path.new s.localAddr s.remoteAddr true s.time
  let path := if s.isServer then
      { path with verifiedPeerAddress := s.validToken, peerVerifiedLocalAddress := true }
    else path
  let c : Links := {
    isServer := s.isServer
    cids := ConnectionIdMgr.new s.activeConnIdLimit s.scid 0 s.resetToken
    paths := PathMap.new path s.activeConnIdLimit s.antiAmplFactor s.isServer }
  if s.isServer then c else c.setInitialDcid s.odcid none 0

/-! ## Two endpoints for concrete runs -/

def Setup.main (s : Setup) : SocketAddr × SocketAddr := (s.localAddr, s.remoteAddr)

def Setup.other (s : Setup) (port : UInt16) : SocketAddr × SocketAddr :=
  if s.isServer then (s.localAddr, { s.remoteAddr with port := port })
  else ({ s.localAddr with port := port }, s.remoteAddr)

def client : Setup where
  isServer := false
  scid := .new [1]
  odcid := .new [2]
  localAddr := .lan 1 1
  remoteAddr := .lan 2 443
  validToken := false
  resetToken := none
  activeConnIdLimit := ⟨2, le_rfl⟩
  antiAmplFactor := 3
  time := 0

def server : Setup :=
  { client with
    isServer := true
    localAddr := client.remoteAddr
    remoteAddr := client.localAddr
    resetToken := some 5 }

def Setup.handshakePacket (s : Setup) (scid : List UInt8) : Incoming where
  pktType := .handshake
  addrs := s.main
  dcid := s.scid
  scid := .new scid
  len := 1200
  authentic := true
  frames := []
  time := 0

def Setup.packet (_ : Setup) (addrs : SocketAddr × SocketAddr) (dcid : List UInt8)
    (frames : List LinkFrame) : Incoming where
  pktType := .oneRtt
  addrs := addrs
  dcid := .new dcid
  scid := .new []
  len := 100
  authentic := true
  frames := frames
  time := 0

end Links

end Tquic
