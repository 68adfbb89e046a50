import Tquic.Base.Word
import Tquic.Token

/-!
# Paths

The network paths of a connection and their validation. A path is only removed to make room for
the next one, which takes its place in the slab, so the slab is a list.
-/

namespace Tquic

/-- `INITIAL_CHAL_TIMEOUT`, in milliseconds. -/
def initialChalTimeout : ℕ := 25

def maxProbingTimeouts : ℕ := 8

def maxPathChalsRecv : ℕ := 8

def minPathProbeSize : ℕ := 64

def minClientInitialLen : ℕ := 1200

inductive PathState where
  | failed
  | unknown
  | validating
  | validatingMtu
  | validated
  deriving DecidableEq, Repr

/-- The states are ordered as they are listed. -/
def PathState.rank : PathState → ℕ
  | .failed => 0
  | .unknown => 1
  | .validating => 2
  | .validatingMtu => 3
  | .validated => 4

structure SentChallenge where
  data : UInt64
  size : ℕ
  sentTime : ℤ
  lossTime : ℤ
  deriving DecidableEq

structure Path where
  localAddr : SocketAddr
  remoteAddr : SocketAddr
  scidSeq : Option ℕ
  dcidSeq : Option ℕ
  active : Bool := false
  state : PathState
  recvChals : List UInt64 := []
  sentChals : List SentChallenge := []
  needSendChallenge : Bool := false
  lostChal : ℕ := 0
  maxChallengeSize : ℕ := 0
  verifiedPeerAddress : Bool := false
  peerVerifiedLocalAddress : Bool := false
  antiAmplLimit : ℕ := 0
  isAbandon : Bool := false
  lastRecvTime : ℤ
  /-- The packet number space; `SpaceId::Data` is 2. -/
  spaceId : ℕ := 2
  deriving DecidableEq

namespace Path

def new (localAddr remoteAddr : SocketAddr) (isInitial : Bool) (now : ℤ) : Path where
  localAddr := localAddr
  remoteAddr := remoteAddr
  scidSeq := if isInitial then some 0 else none
  dcidSeq := if isInitial then some 0 else none
  state := if isInitial then .validated else .unknown
  lastRecvTime := now

/-- `active()`: the path may be used for packets that do not probe. -/
def isActive (p : Path) : Bool := p.active && p.dcidSeq.isSome

def validated (p : Path) : Bool := p.state = .validated

def unused (p : Path) : Bool := !p.active && p.dcidSeq.isNone

def promoteTo (p : Path) (state : PathState) : Path :=
  if p.state.rank < state.rank then { p with state := state } else p

def onPathChalReceived (p : Path) (data : UInt64) : Path :=
  { p with
    recvChals :=
      (if maxPathChalsRecv ≤ p.recvChals.length then p.recvChals.drop 1 else p.recvChals) ++ [data]
    peerVerifiedLocalAddress := true }

/-- The size of the packet with the challenge that is answered; the last one counts. -/
def answeredSize (data : UInt64) (chals : List SentChallenge) : ℕ :=
  chals.foldl (fun size c => if c.data = data then c.size else size) 0

/-- The path is reachable as soon as anything answers; also whether it has become validated. -/
def onPathRespReceived (p : Path) (data : UInt64) (multipath : Bool) : Path × Bool :=
  if p.state = .validated then (p, false)
  else
    let p := { p with
      verifiedPeerAddress := true
      lostChal := 0
      maxChallengeSize := max p.maxChallengeSize (answeredSize data p.sentChals)
      sentChals := p.sentChals.filter fun c => c.data ≠ data }
    let p := p.promoteTo .validatingMtu
    if minClientInitialLen ≤ p.maxChallengeSize then
      ({ p.promoteTo .validated with active := multipath, sentChals := [] }, true)
    else ({ p with needSendChallenge := true }, false)

def initiatePathChal (p : Path) : Path := { p with needSendChallenge := true }

/-- The time a challenge may take doubles with each loss; the shift is not checked. -/
def chalTimeout (p : Path) : ℕ := fromMillis (wrap (initialChalTimeout <<< (p.lostChal % 64)))

def onPathChalSent (p : Path) (data : UInt64) (pktSize : ℕ) (sentTime : ℤ) : Path :=
  let p := p.promoteTo .validating
  { p with
    needSendChallenge := false
    sentChals := p.sentChals ++ [⟨data, pktSize, sentTime, sentTime + p.chalTimeout⟩] }

/-- The loop of `on_path_chal_timeout`. -/
def expireChals (now : ℤ) : List SentChallenge → Path → Path
  | [], p => { p with sentChals := [] }
  | c :: rest, p =>
    if now < c.lossTime then { p with sentChals := c :: rest }
    else
      let p := { p with sentChals := rest, lostChal := p.lostChal + 1 }
      if p.lostChal < maxProbingTimeouts then expireChals now rest p.initiatePathChal
      else { p with state := .failed, active := false, sentChals := [] }

def onPathChalTimeout (p : Path) (now : ℤ) : Path :=
  if p.state ≠ .validating ∧ p.state ≠ .validatingMtu then p
  else expireChals now p.sentChals p

end Path

structure PathMap where
  paths : List Path
  maxPaths : ℕ
  addrs : SocketAddr × SocketAddr → Option ℕ
  antiAmplFactor : ℕ
  isMultipath : Bool := false
  isServer : Bool

namespace PathMap

def new (initialPath : Path) (maxPaths antiAmplFactor : ℕ) (isServer : Bool) : PathMap where
  paths := [{ initialPath with active := true }]
  maxPaths := maxPaths
  addrs := Function.update (fun _ => none) (initialPath.localAddr, initialPath.remoteAddr) (some 0)
  antiAmplFactor := antiAmplFactor
  isServer := isServer

def get? (m : PathMap) (pathId : ℕ) : Option Path := m.paths[pathId]?

def get (m : PathMap) (pathId : ℕ) : Result Path :=
  match m.get? pathId with
  | some path => .ok path
  | none => .error .internalError

def update (m : PathMap) (pathId : ℕ) (f : Path → Path) : PathMap :=
  { m with paths := m.paths.modify pathId f }

def getPathId (m : PathMap) (addrs : SocketAddr × SocketAddr) : Option ℕ := m.addrs addrs

/-- `get_active_with_path_id()`: the first path whose flag is set. -/
def getActivePathId (m : PathMap) : Result ℕ :=
  match m.paths.findIdx? (·.active) with
  | some pathId => .ok pathId
  | none => .error .internalError

def getActive (m : PathMap) : Result Path := do
  let pathId ← m.getActivePathId
  m.get pathId

/-- The path that makes room for another one: an abandoned one, or one that is unused or
failed. -/
def toRemove (m : PathMap) : Option ℕ :=
  match m.paths.findIdx? (·.isAbandon) with
  | some pathId => some pathId
  | none => m.paths.findIdx? fun p => p.unused || p.state = .failed

def insertPath (m : PathMap) (path : Path) : Result (ℕ × PathMap) :=
  if m.maxPaths ≤ m.paths.length then
    match m.toRemove with
    | none => .error .done
    | some pathId =>
      let addrs := match m.get? pathId with
        | some old => Function.update m.addrs (old.localAddr, old.remoteAddr) none
        | none => m.addrs
      .ok (pathId, { m with
        paths := m.paths.set pathId path
        addrs := Function.update addrs (path.localAddr, path.remoteAddr) (some pathId) })
  else
    .ok (m.paths.length, { m with
      paths := m.paths ++ [path]
      addrs := Function.update m.addrs (path.localAddr, path.remoteAddr) (some m.paths.length) })

def onPathChalReceived (m : PathMap) (pathId : ℕ) (data : UInt64) : PathMap :=
  m.update pathId (·.onPathChalReceived data)

def onPathRespReceived (m : PathMap) (pathId : ℕ) (data : UInt64) : PathMap :=
  m.update pathId fun p => (p.onPathRespReceived data m.isMultipath).1

def onPathChalSent (m : PathMap) (pathId : ℕ) (data : UInt64) (pktSize : ℕ) (sentTime : ℤ) :
    PathMap :=
  m.update pathId (·.onPathChalSent data pktSize sentTime)

def onPathChalTimeout (m : PathMap) (now : ℤ) : PathMap :=
  { m with paths := m.paths.map (·.onPathChalTimeout now) }

/-! ## Credit before the address of a client is verified -/

def incAntiAmplLimit (m : PathMap) (pathId pktLen : ℕ) : PathMap :=
  if !m.isServer then m
  else m.update pathId fun p =>
    if !p.verifiedPeerAddress then
      { p with
        antiAmplLimit :=
          saturatingAdd p.antiAmplLimit (min (m.antiAmplFactor * pktLen) u64Max) }
    else p

def decAntiAmplLimit (m : PathMap) (pathId pktLen : ℕ) : PathMap :=
  if !m.isServer then m
  else m.update pathId fun p =>
    if !p.verifiedPeerAddress then { p with antiAmplLimit := p.antiAmplLimit - pktLen } else p

def cmpAntiAmplLimit (m : PathMap) (pathId left : ℕ) : ℕ :=
  if !m.isServer then left
  else
    match m.get? pathId with
    | some p => if !p.verifiedPeerAddress then min left p.antiAmplLimit else left
    | none => left

/-- Paths that have been silent for longer than the timeout, in nanoseconds, are given up. -/
def abandonStalePaths (m : PathMap) (now : ℤ) (timeout : ℕ) : PathMap :=
  if timeout = 0 then m
  else { m with
    paths := m.paths.map fun p =>
      if p.active || p.isAbandon then p
      else if timeout < saturatingDurationSince now p.lastRecvTime then
        { p with isAbandon := true, active := false }
      else p }

end PathMap

end Tquic
