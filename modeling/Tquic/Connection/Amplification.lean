import Tquic.Connection.LinkMoves

/-!
# Bytes sent to an address that is not verified

A server counts for each path how much it may still send there before the address of the client is
verified: datagrams that arrive add to the credit and packets that are written take from it.
-/

namespace Tquic

open Function PathMap

/-- The methods by which a connection changes a path, credit apart. -/
inductive PathChange where
  | chalReceived (data : UInt64)
  | respReceived (data : UInt64)
  | chalPopped
  | chalInitiated
  | chalSent (data : UInt64) (pktSize : ℕ) (sentTime : ℤ)
  | activeSet (v : Bool)
  | abandoned
  | idsSet (scidSeq dcidSeq : Option ℕ)
  | spaceSet (spaceId : ℕ)
  | seen (time : ℤ)

def PathChange.apply (multipath : Bool) (p : Path) : PathChange → Path
  | chalReceived data => p.onPathChalReceived data
  | respReceived data => (p.onPathRespReceived data multipath).1
  | chalPopped => { p with recvChals := p.recvChals.drop 1 }
  | chalInitiated => p.initiatePathChal
  | chalSent data pktSize sentTime => p.onPathChalSent data pktSize sentTime
  | activeSet v => { p with active := v }
  | abandoned => { p with isAbandon := true }
  | idsSet scidSeq dcidSeq => { p with scidSeq := scidSeq, dcidSeq := dcidSeq }
  | spaceSet spaceId => { p with spaceId := spaceId }
  | seen time => { p with lastRecvTime := time }

def PathMap.change (m : PathMap) (changes : List (ℕ × PathChange)) : PathMap :=
  changes.foldl (fun m c => m.update c.1 fun p => c.2.apply m.isMultipath p) m

/-- A packet is dropped, or has no key yet, or its frames are processed, with or without an error at
the end; the handshake may complete on the way. -/
inductive PacketFate where
  | dropped
  | keyless
  | failed (completes : Bool) (changes : List (ℕ × PathChange))
  | processed (completes : Bool) (changes : List (ℕ × PathChange))

/-- A packet of the client; `known` says that it was sent to an id of the connection. -/
structure FlowPacket where
  pktType : PacketType
  size : ℕ
  known : Bool
  fate : PacketFate

structure Written where
  pktType : PacketType
  size : ℕ
  pmtuProbe : Bool

/-- A server connection as far as its credit is concerned. The last two fields count the bytes of
the datagrams that arrived and that were sent on each path. -/
structure Flow where
  paths : PathMap
  handshakeCompleted : Bool
  closing : Bool
  undecryptable : List ((SocketAddr × SocketAddr) × FlowPacket)
  received : ℕ → ℕ
  sent : ℕ → ℕ

namespace Flow

variable (f : Flow)

/-! ## Datagrams from the client -/

/-- The path of a packet in a datagram of the given length, of which `left` bytes are left. -/
def pathFor (addrs : SocketAddr × SocketAddr) (time : ℤ) (recvPid : Option ℕ) (len left : ℕ)
    (pkt : FlowPacket) : Flow × Result ℕ :=
  if pkt.pktType = .oneRtt ∧ f.handshakeCompleted then
    if !pkt.known then (f, .error .done)
    else
      match recvPid with
      | some pathId =>
        match f.paths.get? pathId with
        | none => (f, .error .internalError)
        | some _ => (f, .ok pathId)
      | none =>
        let path := { Path.new addrs.1 addrs.2 false time with
          antiAmplLimit := wrap (left * f.paths.antiAmplFactor)
          needSendChallenge := true }
        match f.paths.insertPath path with
        | .error e => (f, .error e)
        | .ok (pathId, paths) =>
          ({ f with
            paths := paths
            received := Function.update f.received pathId len
            sent := Function.update f.sent pathId 0 }, .ok pathId)
  else (f, f.paths.getActivePathId)

/-- The frames of a packet. The handshake of a server completes in a Handshake packet. -/
def frames (pktType : PacketType) (completes : Bool) (changes : List (ℕ × PathChange)) : Flow :=
  { f with
    paths := f.paths.change changes
    handshakeCompleted := f.handshakeCompleted || (completes && pktType = .handshake) }

def processPacket (pathId : ℕ) (pktType : PacketType) (completes : Bool)
    (changes : List (ℕ × PathChange)) : Flow :=
  let f := f.frames pktType completes changes
  if pktType = .handshake then
    { f with paths := f.paths.update pathId fun p => { p with verifiedPeerAddress := true } }
  else f

def buffer (addrs : SocketAddr × SocketAddr) (pkt : FlowPacket) : Flow :=
  if f.handshakeCompleted || (pkt.pktType ≠ .zeroRtt && pkt.pktType ≠ .oneRtt) then f
  else { f with undecryptable := f.undecryptable ++ [(addrs, pkt)] }

/-- The loop of `recv` over the packets of a datagram. -/
def recvPackets (addrs : SocketAddr × SocketAddr) (time : ℤ) (recvPid : Option ℕ) (len : ℕ) :
    List FlowPacket → ℕ → Flow → Flow
  | [], _, f => f
  | pkt :: rest, left, f =>
    if f.closing then f
    else
      match f.pathFor addrs time recvPid len left pkt with
      | (f, .error .done) => f
      | (f, .error _) => { f with closing := true }
      | (f, .ok pathId) =>
        match pkt.fate with
        | .dropped => f
        | .failed completes changes =>
          { f.frames pkt.pktType completes changes with closing := true }
        | .keyless =>
          let f := f.buffer addrs pkt
          -- a packet with a short header is the last one
          if pkt.pktType = .oneRtt then f
          else recvPackets addrs time recvPid len rest (left - pkt.size) f
        | .processed completes changes =>
          let f := f.processPacket pathId pkt.pktType completes changes
          if pkt.pktType = .oneRtt then f
          else recvPackets addrs time recvPid len rest (left - pkt.size) f

def recv (addrs : SocketAddr × SocketAddr) (time : ℤ) (len counted : ℕ)
    (packets : List FlowPacket) : Flow :=
  match f.paths.getPathId addrs with
  | none => recvPackets addrs time none len packets len f
  | some pathId =>
    recvPackets addrs time (some pathId) len packets len { f with
      paths := f.paths.incAntiAmplLimit pathId len
      received := Function.update f.received pathId (f.received pathId + counted) }

def replay (time : ℤ) (fate : PacketFate) : Flow :=
  match f.undecryptable with
  | [] => f
  | (addrs, pkt) :: rest =>
    { f with undecryptable := rest }.recv addrs time pkt.size 0 [{ pkt with fate := fate }]

/-! ## Datagrams to the client -/

structure Room where
  left : ℕ
  done : ℕ
  hasInitial : Bool

/-- The packet can be written: it fits, or it probes for the MTU of a validated path. -/
def fits (pathId outLen : ℕ) (room : Room) (pkt : Written) : Bool :=
  if pkt.pmtuProbe then
    pkt.pktType = .oneRtt && f.handshakeCompleted && !f.closing && room.done = 0 &&
      (f.paths.get? pathId).any Path.validated && pkt.size ≤ outLen
  else pkt.size ≤ room.left

def Room.write (room : Room) (pkt : Written) : Room where
  left := room.left - pkt.size
  done := room.done + pkt.size
  hasInitial := room.hasInitial || pkt.pktType = .initial

/-- The loop of `send` over the packets of a datagram. -/
def writePackets (pathId outLen : ℕ) : List Written → Flow → Room → Flow × Room
  | [], f, room => (f, room)
  | pkt :: rest, f, room =>
    if room.left = 0 ∨ !f.fits pathId outLen room pkt then (f, room)
    else
      let f := { f with paths := f.paths.decAntiAmplLimit pathId pkt.size }
      if pkt.pktType = .oneRtt ∨ pkt.pmtuProbe then (f, room.write pkt)
      else writePackets pathId outLen rest f (room.write pkt)

/-- Zeros after the packets of a datagram with an Initial packet. -/
def Room.padLen (room : Room) : ℕ :=
  if room.hasInitial ∧ 0 < room.left ∧ room.done < minClientInitialLen then
    min room.left (minClientInitialLen - room.done)
  else 0

def write (pathId outLen maxDatagramSize : ℕ) (packets : List Written) : Flow × Room :=
  writePackets pathId outLen packets f
    ⟨f.paths.cmpAntiAmplLimit pathId (min outLen maxDatagramSize), 0, false⟩

/-- `send`; an unexpected error leaves nothing to send. -/
def send (pathId outLen maxDatagramSize : ℕ) (packets : List Written) (aborted : Bool) : Flow :=
  match f.write pathId outLen maxDatagramSize packets with
  | (f, room) =>
    if aborted || room.done = 0 then f
    else
      { f with
        sent := Function.update f.sent pathId (f.sent pathId + (room.done + room.padLen)) }

/-! ## Runs -/

inductive Op where
  | recv (addrs : SocketAddr × SocketAddr) (time : ℤ) (len : ℕ) (packets : List FlowPacket)
  | replay (time : ℤ) (fate : PacketFate)
  | send (pathId outLen maxDatagramSize : ℕ) (packets : List Written) (aborted : Bool)
  | change (changes : List (ℕ × PathChange))
  | pathChalTimeout (now : ℤ)
  | keepAlive (now : ℤ) (timeout : ℕ)
  | close

def step (f : Flow) : Op → Exec (Flow × Unit)
  | .recv addrs time len packets => .ok (f.recv addrs time len len packets, ())
  | .replay time fate => .ok (f.replay time fate, ())
  | .send pathId outLen maxDatagramSize packets aborted =>
    .ok (f.send pathId outLen maxDatagramSize packets aborted, ())
  | .change changes => .ok ({ f with paths := f.paths.change changes }, ())
  | .pathChalTimeout now => .ok ({ f with paths := f.paths.onPathChalTimeout now }, ())
  | .keepAlive now timeout => .ok ({ f with paths := f.paths.abandonStalePaths now timeout }, ())
  | .close => .ok ({ f with closing := true }, ())

def start (localAddr remoteAddr : SocketAddr) (validToken : Bool) (maxPaths antiAmplFactor : ℕ)
    (now : ℤ) : Flow where
  paths := PathMap.new
    { Path.new localAddr remoteAddr true now with
      verifiedPeerAddress := validToken
      peerVerifiedLocalAddress := true } maxPaths antiAmplFactor true
  handshakeCompleted := false
  closing := false
  undecryptable := []
  received _ := 0
  sent _ := 0

def Unverified (pathId : ℕ) : Prop :=
  ∃ p, f.paths.get? pathId = some p ∧ p.verifiedPeerAddress = false

/-- The packets of a datagram with an Initial packet have 1200 bytes together, or as many as there
is room for. -/
def Fills (room : ℕ) (packets : List Written) : Prop :=
  (∀ pkt ∈ packets, pkt.pktType ≠ .initial) ∨
    ((∀ pkt ∈ packets, pkt.pmtuProbe = false) ∧
      (∀ pkt ∈ packets.dropLast, pkt.pktType ≠ .oneRtt) ∧
      (packets.map Written.size).sum ≤ room ∧
      min minClientInitialLen room ≤ (packets.map Written.size).sum)

/-- While an address is not verified, the packets for it fill their datagrams, and none from it is
received twice. -/
def Exact (f : Flow) : Op → Prop
  | .send pathId outLen maxDatagramSize packets _ =>
    f.Unverified pathId →
      Fills (f.paths.cmpAntiAmplLimit pathId (min outLen maxDatagramSize)) packets
  | .replay _ _ =>
    ∀ waiting ∈ f.undecryptable.head?, ∀ pathId ∈ f.paths.getPathId waiting.1,
      ¬f.Unverified pathId
  | _ => True

end Flow

/-! ## What leaves credit alone -/

/-- The credit stays, a verified address stays verified, and a path is validated only
together with its address. -/
structure Path.KeepsCredit (p q : Path) : Prop where
  credit : q.antiAmplLimit = p.antiAmplLimit
  verified : p.verifiedPeerAddress = true → q.verifiedPeerAddress = true
  validated : q.state = .validated → p.state = .validated ∨ q.verifiedPeerAddress = true

variable {q : Path}

namespace Path

theorem KeepsCredit.refl (p : Path) : p.KeepsCredit p := ⟨rfl, id, .inl⟩

theorem KeepsCredit.of_eq {p : Path} (hcredit : q.antiAmplLimit = p.antiAmplLimit)
    (hverified : q.verifiedPeerAddress = p.verifiedPeerAddress) (hstate : q.state = p.state) :
    p.KeepsCredit q :=
  ⟨hcredit, fun h => hverified.trans h, fun h => .inl (hstate.symm.trans h)⟩

theorem KeepsCredit.trans {p r : Path} (h : p.KeepsCredit q) (h' : q.KeepsCredit r) :
    p.KeepsCredit r := by
  refine ⟨h'.credit.trans h.credit, fun hp => h'.verified (h.verified hp), fun hr => ?_⟩
  rcases h'.validated hr with hq | hq
  · rcases h.validated hq with hp | hp
    · exact .inl hp
    · exact .inr (h'.verified hp)
  · exact .inr hq

theorem promoteTo_credit (p : Path) (s : PathState) :
    (p.promoteTo s).antiAmplLimit = p.antiAmplLimit ∧
      (p.promoteTo s).verifiedPeerAddress = p.verifiedPeerAddress := by
  rw [promoteTo]
  split_ifs
  · exact ⟨rfl, rfl⟩
  · exact ⟨rfl, rfl⟩

theorem keepsCredit_onPathRespReceived (p : Path) (data : UInt64) (multipath : Bool) :
    p.KeepsCredit (p.onPathRespReceived data multipath).1 := by
  rw [onPathRespReceived]
  by_cases hstate : p.state = .validated
  · rw [if_pos hstate]
    exact .refl p
  · dsimp only
    split_ifs
    · exact ⟨by simp [promoteTo_credit], fun _ => by simp [promoteTo_credit],
        fun _ => .inr (by simp [promoteTo_credit])⟩
    · exact ⟨by simp [promoteTo_credit], fun _ => by simp [promoteTo_credit],
        fun _ => .inr (by simp [promoteTo_credit])⟩

theorem keepsCredit_onPathChalSent (p : Path) (data : UInt64) (size : ℕ) (time : ℤ) :
    p.KeepsCredit (p.onPathChalSent data size time) := by
  rw [onPathChalSent, promoteTo]
  split_ifs
  · exact ⟨rfl, id, by rintro ⟨⟩⟩
  · exact .of_eq rfl rfl rfl

theorem keepsCredit_expireChals (now : ℤ) (chals : List SentChallenge) (p : Path) :
    p.KeepsCredit (expireChals now chals p) := by
  induction chals generalizing p with
  | nil => exact .of_eq rfl rfl rfl
  | cons c rest ih =>
    rw [expireChals]
    dsimp only
    split_ifs
    · exact .of_eq rfl rfl rfl
    · have hround : p.KeepsCredit
          { p with sentChals := rest, lostChal := p.lostChal + 1 }.initiatePathChal :=
        .of_eq rfl rfl rfl
      exact hround.trans (ih _)
    · exact ⟨rfl, id, by rintro ⟨⟩⟩

end Path

/-- No change of a path touches its credit. -/
theorem PathChange.keepsCredit (multipath : Bool) (p : Path) (change : PathChange) :
    p.KeepsCredit (change.apply multipath p) := by
  cases change with
  | respReceived data => exact p.keepsCredit_onPathRespReceived data multipath
  | chalSent data pktSize sentTime => exact p.keepsCredit_onPathChalSent data pktSize sentTime
  | chalReceived => exact .of_eq rfl rfl rfl
  | _ => exact .of_eq rfl rfl rfl

namespace PathMap

variable {m m' m'' : PathMap}

structure KeepsCredit (m m' : PathMap) : Prop where
  paths : ∀ {i : ℕ} {q : Path}, m'.get? i = some q → ∃ p, m.get? i = some p ∧ p.KeepsCredit q
  length : m'.paths.length = m.paths.length
  factor : m'.antiAmplFactor = m.antiAmplFactor
  isServer : m'.isServer = m.isServer

theorem KeepsCredit.of_forall₂ {paths : List Path}
    (h : List.Forall₂ Path.KeepsCredit m.paths paths) :
    m.KeepsCredit { m with paths := paths } :=
  ⟨fun hq => exists_left_of_forall₂ h hq, h.length_eq.symm, rfl, rfl⟩

theorem KeepsCredit.refl (m : PathMap) : m.KeepsCredit m :=
  .of_forall₂ (List.forall₂_same.mpr fun p _ => .refl p)

theorem KeepsCredit.trans (h : m.KeepsCredit m') (h' : m'.KeepsCredit m'') : m.KeepsCredit m'' := by
  refine ⟨fun hr => ?_, h'.length.trans h.length, h'.factor.trans h.factor,
    h'.isServer.trans h.isServer⟩
  obtain ⟨q, hq, hqr⟩ := h'.paths hr
  obtain ⟨p, hp, hpq⟩ := h.paths hq
  exact ⟨p, hp, hpq.trans hqr⟩

theorem keepsCredit_update {f : Path → Path} (hf : ∀ p : Path, p.KeepsCredit (f p)) (i : ℕ) :
    m.KeepsCredit (m.update i f) :=
  .of_forall₂ (forall₂_modify .refl hf m.paths i)

theorem keepsCredit_map {f : Path → Path} (hf : ∀ p : Path, p.KeepsCredit (f p)) :
    m.KeepsCredit { m with paths := m.paths.map f } := by
  apply KeepsCredit.of_forall₂
  rw [List.forall₂_map_right_iff]
  exact List.forall₂_same.mpr fun p _ => hf p

theorem keepsCredit_change (m : PathMap) (changes : List (ℕ × PathChange)) :
    m.KeepsCredit (m.change changes) := by
  induction changes generalizing m with
  | nil => exact .refl m
  | cons c rest ih =>
    have hfirst : m.KeepsCredit (m.update c.1 fun p => c.2.apply m.isMultipath p) :=
      keepsCredit_update (fun p => c.2.keepsCredit m.isMultipath p) c.1
    exact hfirst.trans (ih _)

theorem keepsCredit_onPathChalTimeout (m : PathMap) (now : ℤ) :
    m.KeepsCredit (m.onPathChalTimeout now) := by
  apply keepsCredit_map
  intro p
  rw [Path.onPathChalTimeout]
  split_ifs
  · exact .refl p
  · exact p.keepsCredit_expireChals now p.sentChals

theorem keepsCredit_abandonStalePaths (m : PathMap) (now : ℤ) (timeout : ℕ) :
    m.KeepsCredit (m.abandonStalePaths now timeout) := by
  rw [abandonStalePaths]
  split_ifs with htimeout
  · exact .refl m
  · apply keepsCredit_map
    intro p
    split_ifs
    · exact .refl p
    · exact .of_eq rfl rfl rfl
    · exact .refl p

end PathMap

namespace Flow

variable {f : Flow} {factor : ℕ}

/-- What was sent to an address that is not verified and what may still be sent there are covered by
what arrived. Until the handshake completes there is one path; afterwards a validated path is
verified. -/
structure Covered (factor : ℕ) (f : Flow) : Prop where
  server : f.paths.isServer = true
  factor_eq : f.paths.antiAmplFactor = factor
  credit : ∀ k p, f.paths.get? k = some p → p.verifiedPeerAddress = false →
    f.sent k + p.antiAmplLimit ≤ factor * f.received k
  single : f.handshakeCompleted = false → f.paths.paths.length = 1
  validated : f.handshakeCompleted = true → f.closing = false → ∀ k p,
    f.paths.get? k = some p → p.state = .validated → p.verifiedPeerAddress = true

variable {paths : PathMap}

theorem Covered.keeps (h : Covered factor f) (hkeeps : f.paths.KeepsCredit paths) :
    Covered factor { f with paths := paths } where
  server := hkeeps.isServer.trans h.server
  factor_eq := hkeeps.factor.trans h.factor_eq
  credit k q hq hverified := by
    obtain ⟨p, hp, hpq⟩ := hkeeps.paths hq
    have hp' : p.verifiedPeerAddress = false := by
      by_contra htrue
      rw [hpq.verified (Bool.not_eq_false _ ▸ htrue)] at hverified
      cases hverified
    have hle := h.credit k p hp hp'
    rw [hpq.credit]
    exact hle
  single hdone := hkeeps.length.trans (h.single hdone)
  validated hdone hclosing k q hq hstate := by
    obtain ⟨p, hp, hpq⟩ := hkeeps.paths hq
    rcases hpq.validated hstate with hp' | hq'
    · exact hpq.verified (h.validated hdone hclosing k p hp hp')
    · exact hq'

/-! ## Datagrams from the client -/

theorem Covered.close (h : Covered factor f) : Covered factor { f with closing := true } :=
  ⟨h.server, h.factor_eq, h.credit, h.single, fun _ hclosing => nomatch hclosing⟩

variable {pathId len outLen : ℕ} {room : Room} {packets : List Written}

theorem Covered.insertPath (h : Covered factor f) (hdone : f.handshakeCompleted = true)
    {path : Path} (hins : f.paths.insertPath path = .ok (pathId, paths))
    (hstate : path.state ≠ .validated) (hcredit : path.antiAmplLimit ≤ factor * len) :
    Covered factor { f with
      paths := paths
      received := Function.update f.received pathId len
      sent := Function.update f.sent pathId 0 } := by
  have hinserts := inserts_of_insertPath hins
  have hfactor := congrArg antiAmplFactor hinserts.rest
  have hserver := congrArg isServer hinserts.rest
  refine ⟨hserver.trans h.server, hfactor.trans h.factor_eq, ?_, fun hfalse => ?_, ?_⟩
  · intro k q hq hverified
    dsimp only
    rcases hinserts.get?_cases hq with ⟨rfl, rfl⟩ | ⟨hne, hold⟩
    · rw [update_self, update_self, zero_add]
      exact hcredit
    · rw [update_of_ne hne, update_of_ne hne]
      exact h.credit k q hold hverified
  · exact absurd (hdone.symm.trans hfalse) Bool.noConfusion
  · intro _ hclosing k q hq hvalidated
    rcases hinserts.get?_cases hq with ⟨rfl, rfl⟩ | ⟨hne, hold⟩
    · exact absurd hvalidated hstate
    · exact h.validated hdone hclosing k q hold hvalidated

variable {left : ℕ}

theorem Covered.pathFor (h : Covered factor f) (addrs : SocketAddr × SocketAddr) (time : ℤ)
    (recvPid : Option ℕ) (hleft : left ≤ len) (pkt : FlowPacket) :
    Covered factor (f.pathFor addrs time recvPid len left pkt).1 := by
  rw [pathFor.eq_def]
  by_cases hdone : pkt.pktType = .oneRtt ∧ f.handshakeCompleted = true
  · split_ifs
    · exact h
    · cases recvPid with
      | some pathId =>
        dsimp only
        cases f.paths.get? pathId with
        | none => exact h
        | some => exact h
      | none =>
        dsimp only
        split
        · exact h
        · next k paths hins =>
            refine h.insertPath hdone.2 hins nofun ?_
            calc wrap (left * f.paths.antiAmplFactor)
                ≤ left * f.paths.antiAmplFactor := Nat.mod_le _ _
              _ ≤ len * f.paths.antiAmplFactor := Nat.mul_le_mul_right _ hleft
              _ = factor * len := by rw [h.factor_eq, mul_comm]
  · rw [if_neg hdone]
    exact h

theorem pathFor_handshake {addrs : SocketAddr × SocketAddr} {time : ℤ} {recvPid : Option ℕ}
    {len left pathId : ℕ} {pkt : FlowPacket} (htype : pkt.pktType = .handshake)
    (hok : (f.pathFor addrs time recvPid len left pkt).2 = .ok pathId) :
    (f.pathFor addrs time recvPid len left pkt).1 = f ∧ pathId < f.paths.paths.length := by
  rw [pathFor.eq_def] at hok ⊢
  have hnot : ¬(pkt.pktType = .oneRtt ∧ f.handshakeCompleted = true) := by
    rw [htype]
    exact fun h => nomatch h.1
  rw [if_neg hnot] at hok ⊢
  exact ⟨rfl, getActivePathId_lt hok⟩

theorem Covered.frames_closing (h : Covered factor f) (pktType : PacketType) (completes : Bool)
    (changes : List (ℕ × PathChange)) :
    Covered factor { f.frames pktType completes changes with closing := true } := by
  have hkept := h.keeps (f.paths.keepsCredit_change changes)
  refine ⟨hkept.server, hkept.factor_eq, hkept.credit, fun hdone => ?_,
    fun _ hclosing => nomatch hclosing⟩
  exact hkept.single (Bool.or_eq_false_iff.mp hdone).1

theorem Covered.processPacket (h : Covered factor f) {pktType : PacketType}
    (hlt : pktType = .handshake → pathId < f.paths.paths.length) (completes : Bool)
    (changes : List (ℕ × PathChange)) :
    Covered factor (f.processPacket pathId pktType completes changes) := by
  have hkept := h.keeps (f.paths.keepsCredit_change changes)
  rw [Flow.processPacket]
  split_ifs with htype
  · have hverify : (f.paths.change changes).KeepsCredit
        ((f.paths.change changes).update pathId fun p => { p with verifiedPeerAddress := true }) :=
      by
        apply keepsCredit_update
        intro p
        exact ⟨rfl, fun _ => rfl, fun _ => .inr rfl⟩
    have hfinal := hkept.keeps hverify
    refine ⟨hfinal.server, hfinal.factor_eq, hfinal.credit, fun hdone => ?_, ?_⟩
    · exact hfinal.single (Bool.or_eq_false_iff.mp hdone).1
    · intro _ hclosing k q hq hstate
      cases hdone : f.handshakeCompleted with
      | true => exact hfinal.validated hdone hclosing k q hq hstate
      | false =>
        have hone := h.single hdone
        have hk : k = pathId := by
          have hklt : k < f.paths.paths.length := by
            have hlen := hverify.length.trans (f.paths.keepsCredit_change changes).length
            rw [← hlen]
            exact (getElem?_eq_some_iff.mp hq).1
          have := hlt htype
          omega
        subst hk
        rw [PathMap.get?, PathMap.update, List.getElem?_modify_eq] at hq
        obtain ⟨p, -, rfl⟩ := Option.map_eq_some_iff.mp hq
        rfl
  · refine ⟨hkept.server, hkept.factor_eq, hkept.credit, fun hdone => ?_, fun hdone => ?_⟩
    · exact hkept.single (Bool.or_eq_false_iff.mp hdone).1
    · -- only a Handshake packet completes the handshake
      have hold : f.handshakeCompleted = true := by
        simpa [frames, htype] using hdone
      exact hkept.validated hold

theorem Covered.buffer (h : Covered factor f) (addrs : SocketAddr × SocketAddr) (pkt : FlowPacket) :
    Covered factor (f.buffer addrs pkt) := by
  rw [Flow.buffer]
  split_ifs
  · exact h
  · exact ⟨h.server, h.factor_eq, h.credit, h.single, h.validated⟩

theorem Covered.recvPackets (addrs : SocketAddr × SocketAddr) (time : ℤ) (recvPid : Option ℕ)
    (len : ℕ) {packets : List FlowPacket} (h : Covered factor f) (hleft : left ≤ len) :
    Covered factor (recvPackets addrs time recvPid len packets left f) := by
  induction packets generalizing left f with
  | nil => exact h
  | cons pkt rest ih =>
    have hpath := h.pathFor addrs time recvPid hleft pkt
    have hhandshake := fun htype pathId => @pathFor_handshake f addrs time recvPid len left pathId
      pkt htype
    have hrest : left - pkt.size ≤ len := (Nat.sub_le _ _).trans hleft
    rw [recvPackets]
    split
    · exact h
    · rcases heq : f.pathFor addrs time recvPid len left pkt with ⟨f', r⟩
      rw [heq] at hpath hhandshake
      cases r with
      | error e =>
        have hclosed := hpath.close
        cases e <;> first | exact hpath | exact hclosed
      | ok pathId =>
        have hlt : pkt.pktType = .handshake → pathId < f'.paths.paths.length := by
          intro htype
          obtain ⟨rfl, hlt⟩ := hhandshake htype pathId rfl
          exact hlt
        cases pkt.fate with
        | dropped => exact hpath
        | failed completes changes => exact hpath.frames_closing _ completes changes
        | keyless =>
          split_ifs
          · exact hpath.buffer addrs pkt
          · exact ih (hpath.buffer addrs pkt) hrest
        | processed completes changes =>
          split_ifs
          · exact hpath.processPacket hlt completes changes
          · exact ih (hpath.processPacket hlt completes changes) hrest

variable {k : ℕ}

theorem get?_charge {m : PathMap} {g : ℕ → ℕ} (hq : (m.update pathId fun p =>
      if !p.verifiedPeerAddress then { p with antiAmplLimit := g p.antiAmplLimit } else p).get? k =
        some q) :
    ∃ p, m.get? k = some p ∧ q.verifiedPeerAddress = p.verifiedPeerAddress ∧ q.state = p.state ∧
      q.antiAmplLimit =
        if k = pathId ∧ p.verifiedPeerAddress = false then g p.antiAmplLimit
        else p.antiAmplLimit := by
  rw [PathMap.get?, PathMap.update, List.getElem?_modify] at hq
  obtain ⟨p, hp, rfl⟩ := Option.map_eq_some_iff.mp hq
  refine ⟨p, hp, ?_⟩
  by_cases hk : pathId = k
  · cases hverified : p.verifiedPeerAddress with
    | true => simp [hverified]
    | false => simp [hk]
  · simp [hk, Ne.symm hk]

theorem get?_incAntiAmplLimit {m : PathMap}
    (hq : (m.incAntiAmplLimit pathId len).get? k = some q) :
    ∃ p, m.get? k = some p ∧ q.verifiedPeerAddress = p.verifiedPeerAddress ∧ q.state = p.state ∧
      q.antiAmplLimit ≤ p.antiAmplLimit +
        if k = pathId ∧ p.verifiedPeerAddress = false then m.antiAmplFactor * len else 0 := by
  rw [incAntiAmplLimit] at hq
  split_ifs at hq
  · exact ⟨q, hq, rfl, rfl, Nat.le_add_right _ _⟩
  · have hcharge := get?_charge (g := fun limit =>
      saturatingAdd limit (min (m.antiAmplFactor * len) u64Max)) hq
    obtain ⟨p, hp, hverified, hstate, hlimit⟩ := hcharge
    refine ⟨p, hp, hverified, hstate, ?_⟩
    rw [hlimit]
    split_ifs
    · calc saturatingAdd p.antiAmplLimit (min (m.antiAmplFactor * len) u64Max)
          ≤ p.antiAmplLimit + min (m.antiAmplFactor * len) u64Max := min_le_left _ _
        _ ≤ p.antiAmplLimit + m.antiAmplFactor * len :=
            Nat.add_le_add_left (min_le_left _ _) _
    · exact Nat.le_add_right _ _

theorem incAntiAmplLimit_params (m : PathMap) (pathId len : ℕ) :
    (m.incAntiAmplLimit pathId len).antiAmplFactor = m.antiAmplFactor ∧
      (m.incAntiAmplLimit pathId len).isServer = m.isServer ∧
      (m.incAntiAmplLimit pathId len).paths.length = m.paths.length := by
  rw [incAntiAmplLimit]
  split_ifs
  · exact ⟨rfl, rfl, rfl⟩
  · exact ⟨rfl, rfl, length_update m _ _⟩

variable {counted : ℕ}

theorem Covered.credited (h : Covered factor f)
    (hcount : f.Unverified pathId → len ≤ counted) :
    Covered factor { f with
      paths := f.paths.incAntiAmplLimit pathId len
      received := Function.update f.received pathId (f.received pathId + counted) } := by
  obtain ⟨hfactor, hserver, hlength⟩ := incAntiAmplLimit_params f.paths pathId len
  refine ⟨hserver.trans h.server, hfactor.trans h.factor_eq, ?_,
    fun hdone => hlength.trans (h.single hdone), ?_⟩
  · intro k q hq hverified
    obtain ⟨p, hp, hsame, -, hle⟩ := get?_incAntiAmplLimit hq
    have hp' : p.verifiedPeerAddress = false := hsame.symm.trans hverified
    have hold := h.credit k p hp hp'
    rw [h.factor_eq] at hle
    dsimp only
    by_cases hk : k = pathId
    · subst hk
      rw [if_pos ⟨rfl, hp'⟩] at hle
      rw [update_self, mul_add]
      have hnew := Nat.mul_le_mul_left factor (hcount ⟨p, hp, hp'⟩)
      omega
    · rw [if_neg fun hboth => hk hboth.1] at hle
      rw [update_of_ne hk]
      omega
  · intro hdone hclosing k q hq hstate
    obtain ⟨p, hp, hsame, hstate', -⟩ := get?_incAntiAmplLimit hq
    exact hsame.trans (h.validated hdone hclosing k p hp (hstate'.symm.trans hstate))

/-- A datagram is credited if its bytes are counted for the path it arrived on. -/
theorem Covered.recv (h : Covered factor f) (addrs : SocketAddr × SocketAddr) (time : ℤ)
    (packets : List FlowPacket)
    (hcount : ∀ pathId ∈ f.paths.getPathId addrs, f.Unverified pathId → len ≤ counted) :
    Covered factor (f.recv addrs time len counted packets) := by
  rw [Flow.recv]
  cases hpid : f.paths.getPathId addrs with
  | none => exact h.recvPackets addrs time none len le_rfl
  | some pathId => exact (h.credited (hcount pathId hpid)).recvPackets addrs time _ len le_rfl

theorem Covered.replay (h : Covered factor f) (time : ℤ) (fate : PacketFate)
    (hexact : f.Exact (.replay time fate)) : Covered factor (f.replay time fate) := by
  rw [Flow.replay]
  cases hwaiting : f.undecryptable with
  | nil => exact h
  | cons first rest =>
    have hpopped : Covered factor { f with undecryptable := rest } :=
      ⟨h.server, h.factor_eq, h.credit, h.single, h.validated⟩
    refine hpopped.recv first.1 time _ ?_
    intro pathId hpid hunverified
    have hhead : first ∈ f.undecryptable.head? := by
      rw [hwaiting]
      rfl
    exact absurd hunverified (hexact first hhead pathId hpid)

/-! ## Datagrams to the client -/

def spent (f : Flow) (pathId : ℕ) (room : Room) : Flow :=
  { f with sent := Function.update f.sent pathId (f.sent pathId + room.done) }

/-- While a datagram is written there is credit for the room that is left. -/
structure Writes (factor : ℕ) (f : Flow) (pathId : ℕ) (room : Room) : Prop where
  covered : Covered factor (f.spent pathId room)
  left_le : ∀ p, f.paths.get? pathId = some p → p.verifiedPeerAddress = false →
    room.left ≤ p.antiAmplLimit

theorem get?_decAntiAmplLimit {m : PathMap} (hserver : m.isServer = true)
    (hq : (m.decAntiAmplLimit pathId len).get? k = some q) :
    ∃ p, m.get? k = some p ∧ q.verifiedPeerAddress = p.verifiedPeerAddress ∧ q.state = p.state ∧
      q.antiAmplLimit =
        if k = pathId ∧ p.verifiedPeerAddress = false then p.antiAmplLimit - len
        else p.antiAmplLimit := by
  rw [decAntiAmplLimit, hserver, Bool.not_true, if_neg Bool.false_ne_true] at hq
  exact get?_charge (g := fun limit => limit - len) hq

theorem decAntiAmplLimit_params (m : PathMap) (pathId len : ℕ) :
    (m.decAntiAmplLimit pathId len).antiAmplFactor = m.antiAmplFactor ∧
      (m.decAntiAmplLimit pathId len).isServer = m.isServer ∧
      (m.decAntiAmplLimit pathId len).paths.length = m.paths.length := by
  rw [decAntiAmplLimit]
  split_ifs
  · exact ⟨rfl, rfl, rfl⟩
  · exact ⟨rfl, rfl, length_update m _ _⟩

theorem Writes.write {pkt : Written} (h : Writes factor f pathId room)
    (hfits : f.fits pathId outLen room pkt = true) :
    Writes factor { f with paths := f.paths.decAntiAmplLimit pathId pkt.size } pathId
      (room.write pkt) := by
  have hcovered := h.covered
  obtain ⟨hfactor, hserver, hlength⟩ := decAntiAmplLimit_params f.paths pathId pkt.size
  -- a probe for the MTU is larger than the room, but goes to verified addresses only
  have hsize : ∀ p, f.paths.get? pathId = some p → p.verifiedPeerAddress = false →
      pkt.size ≤ room.left := by
    intro p hp hverified
    rw [fits] at hfits
    split_ifs at hfits with hprobe
    · simp only [Bool.and_eq_true, Bool.not_eq_true', decide_eq_true_eq] at hfits
      obtain ⟨⟨⟨⟨⟨-, hdone⟩, hclosing⟩, -⟩, hvalidated⟩, -⟩ := hfits
      rw [hp] at hvalidated
      have htrue := hcovered.validated hdone hclosing pathId p hp (of_decide_eq_true hvalidated)
      rw [hverified] at htrue
      cases htrue
    · exact of_decide_eq_true hfits
  refine ⟨⟨hserver.trans hcovered.server, hfactor.trans hcovered.factor_eq, ?_,
    fun hdone => hlength.trans (hcovered.single hdone), ?_⟩, ?_⟩
  · intro k q hq hverified
    obtain ⟨p, hp, hsame, -, hlimit⟩ := get?_decAntiAmplLimit hcovered.server hq
    have hp' : p.verifiedPeerAddress = false := hsame.symm.trans hverified
    have hold := hcovered.credit k p hp hp'
    dsimp only [spent] at hold ⊢
    rw [hlimit]
    by_cases hk : k = pathId
    · subst hk
      have hroom := h.left_le p hp hp'
      have hpkt := hsize p hp hp'
      rw [if_pos ⟨rfl, hp'⟩, update_self]
      rw [update_self] at hold
      dsimp only [Room.write]
      omega
    · rw [if_neg fun hboth => hk hboth.1, update_of_ne hk]
      rw [update_of_ne hk] at hold
      exact hold
  · intro hdone hclosing k q hq hstate
    obtain ⟨p, hp, hsame, hstate', -⟩ := get?_decAntiAmplLimit hcovered.server hq
    exact hsame.trans (hcovered.validated hdone hclosing k p hp (hstate'.symm.trans hstate))
  · intro q hq hverified
    obtain ⟨p, hp, hsame, -, hlimit⟩ := get?_decAntiAmplLimit hcovered.server hq
    have hp' : p.verifiedPeerAddress = false := hsame.symm.trans hverified
    have hroom := h.left_le p hp hp'
    rw [hlimit, if_pos ⟨rfl, hp'⟩]
    dsimp only [Room.write]
    omega

theorem Writes.writePackets (h : Writes factor f pathId room) :
    Writes factor (writePackets pathId outLen packets f room).1 pathId
      (writePackets pathId outLen packets f room).2 := by
  induction packets generalizing f room with
  | nil => exact h
  | cons pkt rest ih =>
    rw [writePackets]
    by_cases hstop : room.left = 0 ∨ (!f.fits pathId outLen room pkt) = true
    · rw [if_pos hstop]
      exact h
    · have hfits : f.fits pathId outLen room pkt = true := by
        cases hfits : f.fits pathId outLen room pkt with
        | true => rfl
        | false => exact absurd (.inr (by rw [hfits]; rfl)) hstop
      have hwritten := h.write hfits
      split_ifs
      · exact hwritten
      · exact ih hwritten

theorem Covered.write (h : Covered factor f) (pathId outLen maxDatagramSize : ℕ)
    (packets : List Written) :
    Writes factor (f.write pathId outLen maxDatagramSize packets).1 pathId
      (f.write pathId outLen maxDatagramSize packets).2 := by
  apply Writes.writePackets
  constructor
  · have hsame : f.spent pathId
        ⟨f.paths.cmpAntiAmplLimit pathId (min outLen maxDatagramSize), 0, false⟩ = f := by
      rw [spent]
      rw [add_zero, update_eq_self]
    rw [hsame]
    exact h
  · intro p hp hverified
    rw [cmpAntiAmplLimit, h.server, hp]
    simp [hverified]

theorem writePackets_back (hserver : f.paths.isServer = true) :
    ∀ k, (writePackets pathId outLen packets f room).1.Unverified k → f.Unverified k := by
  induction packets generalizing f room with
  | nil => exact fun _ h => h
  | cons pkt rest ih =>
    rw [writePackets]
    have hback : ∀ k, { f with paths :=
        f.paths.decAntiAmplLimit pathId pkt.size }.Unverified k → f.Unverified k := by
      rintro k ⟨q, hq, hverified⟩
      obtain ⟨p, hp, hsame, -⟩ := get?_decAntiAmplLimit hserver hq
      exact ⟨p, hp, hsame.symm.trans hverified⟩
    split
    · exact fun _ h => h
    · split
      · exact hback
      · have hserver' : (f.paths.decAntiAmplLimit pathId pkt.size).isServer = true :=
          (decAntiAmplLimit_params f.paths pathId pkt.size).2.1.trans hserver
        have hrest :=
          @ih { f with paths := f.paths.decAntiAmplLimit pathId pkt.size } (room.write pkt) hserver'
        exact fun k hk => hback k (hrest k hk)

theorem writePackets_hasInitial (h : ∀ pkt ∈ packets, pkt.pktType ≠ .initial) :
    (writePackets pathId outLen packets f room).2.hasInitial = room.hasInitial := by
  induction packets generalizing f room with
  | nil => rfl
  | cons pkt rest ih =>
    have hpkt : (room.write pkt).hasInitial = room.hasInitial := by
      simp [Room.write, h pkt (.head _)]
    rw [writePackets]
    split
    · rfl
    · split
      · exact hpkt
      · exact (ih fun q hq => h q (.tail _ hq)).trans hpkt

theorem writePackets_total {pathId outLen : ℕ} {packets : List Written} {room : Room}
    (hprobe : ∀ pkt ∈ packets, pkt.pmtuProbe = false)
    (hshort : ∀ pkt ∈ packets.dropLast, pkt.pktType ≠ .oneRtt)
    (hfit : (packets.map Written.size).sum ≤ room.left) :
    (writePackets pathId outLen packets f room).2.done =
        room.done + (packets.map Written.size).sum ∧
      (writePackets pathId outLen packets f room).2.left =
        room.left - (packets.map Written.size).sum := by
  induction packets generalizing f room with
  | nil => exact ⟨rfl, rfl⟩
  | cons pkt rest ih =>
    rw [List.map_cons, List.sum_cons] at hfit ⊢
    have hnot := hprobe pkt (.head _)
    have hfits : f.fits pathId outLen room pkt = true := by
      rw [fits, hnot, if_neg Bool.false_ne_true]
      exact decide_eq_true (by omega)
    rw [writePackets, hfits]
    by_cases hleft : room.left = 0
    · rw [if_pos (.inl hleft)]
      dsimp only
      exact ⟨by omega, by omega⟩
    · have hgo : ¬(room.left = 0 ∨ (!true) = true) := by simp [hleft]
      rw [if_neg hgo]
      cases rest with
      | nil =>
        split_ifs
        · exact ⟨rfl, rfl⟩
        · exact ⟨rfl, rfl⟩
      | cons =>
        have htype := hshort pkt (by simp)
        rw [if_neg (by simp [htype, hnot])]
        obtain ⟨hdone, hleft'⟩ := @ih { f with paths := f.paths.decAntiAmplLimit pathId pkt.size }
          (room.write pkt) (fun q hq => hprobe q (.tail _ hq))
          (fun q hq => hshort q (by simp [hq])) (by dsimp only [Room.write]; omega)
        dsimp only [Room.write] at hdone hleft' ⊢
        exact ⟨by omega, by omega⟩

theorem padLen_of_fills {pathId outLen left : ℕ} {packets : List Written}
    (h : Fills left packets) :
    (writePackets pathId outLen packets f ⟨left, 0, false⟩).2.padLen = 0 := by
  rw [Room.padLen, if_neg]
  rintro ⟨hinitial, hleft, hdone⟩
  rcases h with h | ⟨hprobe, hshort, hfit, hfull⟩
  · rw [writePackets_hasInitial h] at hinitial
    cases hinitial
  · obtain ⟨hdone', hleft'⟩ := @writePackets_total f pathId outLen packets ⟨left, 0, false⟩
      hprobe hshort hfit
    rw [hleft'] at hleft
    dsimp only at hleft
    omega

/-- What a datagram takes from the credit covers what is sent. -/
theorem Covered.send (h : Covered factor f) (pathId outLen maxDatagramSize : ℕ)
    (packets : List Written) (aborted : Bool)
    (hexact : f.Exact (.send pathId outLen maxDatagramSize packets aborted)) :
    Covered factor (f.send pathId outLen maxDatagramSize packets aborted) := by
  have hwrites := h.write pathId outLen maxDatagramSize packets
  have hback : ∀ k, (f.write pathId outLen maxDatagramSize packets).1.Unverified k →
      f.Unverified k := writePackets_back h.server
  rw [Flow.send]
  rcases heq : f.write pathId outLen maxDatagramSize packets with ⟨f', room⟩
  rw [heq] at hwrites hback
  have hcovered := hwrites.covered
  -- an address that is verified needs no cover
  have hcover (extra : ℕ) (hextra : f'.Unverified pathId → extra ≤ room.done) :
      Covered factor { f' with sent := update f'.sent pathId (f'.sent pathId + extra) } := by
    refine ⟨hcovered.server, hcovered.factor_eq, ?_, hcovered.single, hcovered.validated⟩
    intro k p hp hverified
    have hold := hcovered.credit k p hp hverified
    dsimp only [spent] at hold ⊢
    by_cases hk : k = pathId
    · subst hk
      rw [update_self] at hold ⊢
      have hle := hextra ⟨p, hp, hverified⟩
      omega
    · rw [update_of_ne hk] at hold ⊢
      exact hold
  dsimp only
  split_ifs
  · have hnone := hcover 0 fun _ => Nat.zero_le _
    rw [add_zero, update_eq_self] at hnone
    exact hnone
  · apply hcover
    intro hunverified
    have hpad : room.padLen = 0 := by
      have hfills := @padLen_of_fills f pathId outLen _ packets (hexact (hback pathId hunverified))
      rw [← Flow.write, heq] at hfills
      exact hfills
    rw [hpad, add_zero]

/-! ## The bound -/

theorem covered_start (localAddr remoteAddr : SocketAddr) (validToken : Bool)
    (maxPaths antiAmplFactor : ℕ) (now : ℤ) :
    Covered antiAmplFactor (start localAddr remoteAddr validToken maxPaths antiAmplFactor now) := by
  refine ⟨rfl, rfl, ?_, fun _ => rfl, nofun⟩
  intro k p hp _
  have hlimit : p.antiAmplLimit = 0 := by
    cases k with
    | zero =>
      cases hp
      rfl
    | succ => cases hp
  rw [hlimit]
  exact Nat.zero_le _

/-- Every operation keeps the sent bytes covered by the received ones. -/
theorem Covered.step {f' : Flow} (h : Covered factor f) {op : Op} (hexact : f.Exact op)
    (hstep : f.step op = .ok (f', ())) : Covered factor f' := by
  cases op with
  | recv addrs time len packets =>
    cases hstep
    exact h.recv addrs time packets fun _ _ _ => le_rfl
  | replay time fate =>
    cases hstep
    exact h.replay time fate hexact
  | send pathId outLen maxDatagramSize packets aborted =>
    cases hstep
    exact h.send pathId outLen maxDatagramSize packets aborted hexact
  | change changes =>
    cases hstep
    exact h.keeps (f.paths.keepsCredit_change changes)
  | pathChalTimeout now =>
    cases hstep
    exact h.keeps (f.paths.keepsCredit_onPathChalTimeout now)
  | keepAlive now timeout =>
    cases hstep
    exact h.keeps (f.paths.keepsCredit_abandonStalePaths now timeout)
  | close =>
    cases hstep
    exact h.close

/-- As long as an address is not verified, what was sent to it is bounded by what arrived
from it. -/
theorem amplification_bounded (localAddr remoteAddr : SocketAddr) (validToken : Bool)
    (maxPaths antiAmplFactor : ℕ) (now : ℤ)
    (hreaches : Exec.Reaches step Exact
      (start localAddr remoteAddr validToken maxPaths antiAmplFactor now) f)
    {pathId : ℕ} (hunverified : f.Unverified pathId) :
    f.sent pathId ≤ antiAmplFactor * f.received pathId := by
  have hcovered : Covered antiAmplFactor f :=
    hreaches.invariant (Covered antiAmplFactor) (fun _ _ _ _ h hexact hstep => h.step hexact hstep)
      (covered_start localAddr remoteAddr validToken maxPaths antiAmplFactor now)
  obtain ⟨p, hp, hverified⟩ := hunverified
  exact (Nat.le_add_right _ _).trans (hcovered.credit pathId p hp hverified)

instance (f : Flow) (pathId : ℕ) : Decidable (f.Unverified pathId) :=
  decidable_of_iff ((f.paths.get? pathId).any (fun p => !p.verifiedPeerAddress) = true) (by
    rw [Option.any_eq_true, Unverified]
    simp)

instance (room : ℕ) (packets : List Written) : Decidable (Fills room packets) :=
  inferInstanceAs (Decidable (_ ∨ _))

instance (f : Flow) (op : Op) : Decidable (f.Exact op) := by
  unfold Exact
  split <;> infer_instance

def serverAddr : SocketAddr := .lan 2 443

def clientAddr : SocketAddr := .lan 1 1

def unproved : Flow := start serverAddr clientAddr false 2 3 0

def hello (packets : List FlowPacket) : Op := .recv (serverAddr, clientAddr) 0 1200 packets

def clientInitial (size : ℕ) : FlowPacket := ⟨.initial, size, true, .processed false []⟩

def answered : Flow :=
  Exec.follow step Exact unproved
    [hello [clientInitial 1200],
      .send 0 1500 1200 [⟨.initial, 100, false⟩, ⟨.handshake, 1100, false⟩] false]

theorem amplification_bounded_answered :
    answered.sent 0 = 1200 ∧ answered.sent 0 ≤ 3 * answered.received 0 := by
  refine ⟨by decide +kernel, ?_⟩
  exact amplification_bounded _ _ _ _ _ _ (Exec.reaches_follow _ _) (by decide +kernel)

def paddedInitials : Flow :=
  Exec.follow step (fun _ _ => True) unproved
    (hello [clientInitial 1200] ::
      List.replicate 4 (.send 0 1500 1200 [⟨.initial, 100, false⟩] false))

/-- A 0-RTT packet that came before its key is counted twice. -/
def replayedPacket : Flow :=
  Exec.follow step (fun _ _ => True) unproved
    ([hello [clientInitial 200, ⟨.zeroRtt, 1000, true, .keyless⟩],
        .replay 0 (.processed false [])] ++
      List.replicate 4
        (.send 0 1500 1200 [⟨.initial, 100, false⟩, ⟨.handshake, 1100, false⟩] false))

theorem amplification_exceeded :
    (paddedInitials.Unverified 0 ∧ paddedInitials.received 0 = 1200 ∧
        paddedInitials.sent 0 = 4800) ∧
      replayedPacket.Unverified 0 ∧ replayedPacket.received 0 = 1200 ∧
        replayedPacket.sent 0 = 4800 := by
  decide +kernel

end Flow

end Tquic
