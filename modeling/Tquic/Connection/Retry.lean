import Tquic.Connection.LinkSteps

/-!
# Retry packets

A client answers a Retry packet by starting over: it takes the packet's token and id, forgets what
it sent, and has the TLS session begin again. The session, the packet number spaces and the
function behind the integrity tag are parameters.
-/

namespace Tquic

open Links

/-- The tag is the last 16 bytes of the packet. -/
abbrev IntegrityTag := List.Vector UInt8 16

structure RetryPacket where
  addrs : SocketAddr × SocketAddr
  scid : ConnectionId
  token : Bytes
  buf : Bytes

/-- The packet without its tag, behind the id that the client sent to. -/
def pseudoPacket (odcid : ConnectionId) (retryHdr : Bytes) : Bytes :=
  UInt8.ofNat odcid.len :: odcid.bytes ++ retryHdr

def verifyRetryIntegrityTag (tag : Bytes → IntegrityTag) (buf : Bytes) (odcid : ConnectionId) :
    Bool :=
  let hdrLen := buf.length - 16
  16 ≤ buf.length && buf.drop hdrLen = (tag (pseudoPacket odcid (buf.take hdrLen))).toList

/-- What a Retry packet makes of the TLS session, crypto streams, Initial keys and packet number
spaces. -/
structure TlsApi (T K S : Type) where
  deriveInitialSecrets : ConnectionId → (version : ℕ) → Result K
  clear : T → T × Result Unit
  process : T → T × Result Unit
  /-- `crypto_streams.clear(Level::Initial)` -/
  clearStreams : T → T
  /-- `on_pkt_num_space_discarded` for the Initial space -/
  discardInitial : S → S
  tag : Bytes → IntegrityTag

/-- A connection attempt of a client. The last two fields say whether a packet other than a Retry
packet, and whether a Retry packet, has been processed. -/
structure Attempt (T K S : Type) where
  links : Links
  version : ℕ
  token : Option Bytes
  odcid : Option ConnectionId
  rscid : Option ConnectionId
  initialKeys : Option K
  spaces : S
  tls : T
  gotPacket : Bool
  gotRetry : Bool

namespace Attempt

variable {T K S : Type} (api : TlsApi T K S)

def dropInitialSpace (w : Attempt T K S) : Attempt T K S :=
  if w.initialKeys.isNone then w
  else
    { w with
      initialKeys := none
      tls := api.clearStreams w.tls
      spaces := api.discardInitial w.spaces }

/-- The rest of `process_retry`, once the destination id is replaced. -/
def restart (w : Attempt T K S) : Attempt T K S × Result Unit :=
  match w.links.dcid with
  | .error e => (w, .error e)
  | .ok dcid =>
    let w := dropInitialSpace api { w with rscid := some dcid }
    match api.clear w.tls with
    | (tls, .error e) => ({ w with tls := tls }, .error e)
    | (tls, .ok ()) =>
      match api.deriveInitialSecrets dcid w.version with
      | .error e => ({ w with tls := tls }, .error e)
      | .ok keys =>
        match api.process tls with
        | (tls, .error e) => ({ w with tls := tls, initialKeys := some keys }, .error e)
        | (tls, .ok ()) => ({ w with tls := tls, initialKeys := some keys }, .error .done)

def processRetry (w : Attempt T K S) (pkt : RetryPacket) : Attempt T K S × Result Unit :=
  if w.links.isServer then (w, .error .done)
  else if w.links.didRetry then (w, .error .done)
  else
    match w.links.dcid with
    | .error e => (w, .error e)
    | .ok dcid =>
      if !verifyRetryIntegrityTag api.tag pkt.buf dcid then (w, .error .done)
      else
        let w := { w with
          token := some pkt.token
          links := { w.links with didRetry := true, gotPeerCid := false }
          odcid := some dcid
          gotRetry := true }
        match w.links.paths.getActivePathId with
        | .error e => (w, .error e)
        | .ok pathId =>
          restart api { w with links := w.links.setInitialDcid pkt.scid none pathId }

/-- An error other than `Done` closes the connection. -/
def settle : Attempt T K S × Result Unit → Attempt T K S
  | (w, .ok ()) => w
  | (w, .error .done) => w
  | (w, .error _) => { w with links := { w.links with closing := true } }

def recvRetry (w : Attempt T K S) (pkt : RetryPacket) : Attempt T K S :=
  if (w.links.paths.getPathId pkt.addrs).isNone && !w.links.isServer then w
  else if w.links.closing then w
  else
    match w.links.scid with
    | .error e => settle (w, .error e)
    | .ok _ => settle (processRetry api w pkt)

def processes (c : Links) : Links.Op → Bool
  | .receive a =>
    match c.paths.getPathId a.addrs with
    | none => c.isServer && (c.recvPacket none a).2 = .ok ()
    | some pathId =>
      ({ c with paths := c.paths.incAntiAmplLimit pathId a.len }.recvPacket (some pathId) a).2 =
        .ok ()
  | _ => false

def isRetry : Links.Op → Bool
  | .retry _ => true
  | _ => false

/-- Besides a Retry packet: an operation on paths and ids, and whatever the rest of the connection
does. -/
inductive Op (T K S : Type) where
  | retry (pkt : RetryPacket)
  | link (op : Links.Op)
  | rest (version : ℕ) (token : Option Bytes) (initialKeys : Option K) (spaces : S) (tls : T)

def step (w : Attempt T K S) : Op T K S → Exec (Attempt T K S × Unit)
  | .retry pkt => .ok (recvRetry api w pkt, ())
  | .link op =>
    -- Retry packets are the other case
    if isRetry op then .ok (w, ())
    else do
      let (links, _) ← w.links.step op
      return ({ w with
        links := links
        gotPacket := w.gotPacket || processes w.links op }, ())
  | .rest version token initialKeys spaces tls =>
    .ok ({ w with
      version := version, token := token, initialKeys := initialKeys, spaces := spaces
      tls := tls }, ())

def start (s : Links.Setup) (keys : K) (spaces : S) (tls : T) : Attempt T K S where
  links := Links.start s
  version := quicVersionV1
  token := none
  odcid := none
  rscid := none
  initialKeys := some keys
  spaces := spaces
  tls := tls
  gotPacket := false
  gotRetry := false

/-! ## The guard -/

variable {api} {w w' : Attempt T K S}

def Genuine (api : TlsApi T K S) (w : Attempt T K S) (pkt : RetryPacket) : Prop :=
  ∃ dcid, w.links.dcid = .ok dcid ∧ verifyRetryIntegrityTag api.tag pkt.buf dcid = true

/-- A genuine Retry packet is the first packet of the server, or not the first Retry packet. -/
def FirstOrAgain (api : TlsApi T K S) (w : Attempt T K S) : Op T K S → Prop
  | .retry pkt => Genuine api w pkt → w.gotPacket = false ∨ w.gotRetry = true
  | _ => True

/-- What a Retry packet that comes too late must leave alone. -/
structure Unchanged (w w' : Attempt T K S) : Prop where
  token : w'.token = w.token
  cids : w'.links.cids = w.links.cids
  paths : w'.links.paths = w.links.paths
  initialKeys : w'.initialKeys = w.initialKeys
  spaces : w'.spaces = w.spaces
  tls : w'.tls = w.tls

theorem Unchanged.refl (w : Attempt T K S) : w.Unchanged w := ⟨rfl, rfl, rfl, rfl, rfl, rfl⟩

theorem unchanged_settle_error (w : Attempt T K S) (e : Error) :
    w.Unchanged (settle (w, .error e)) := by
  cases e <;> exact ⟨rfl, rfl, rfl, rfl, rfl, rfl⟩

theorem unchanged_recvRetry {pkt : RetryPacket}
    (h : w.links.didRetry = true ∨ ¬Genuine api w pkt) : w.Unchanged (recvRetry api w pkt) := by
  rw [recvRetry]
  split_ifs
  · exact .refl w
  · exact .refl w
  · cases w.links.scid with
    | error e => exact unchanged_settle_error w e
    | ok =>
      rw [processRetry]
      split_ifs with hserver hretry
      · exact .refl w
      · exact .refl w
      · have hfalse := h.resolve_left hretry
        cases hdcid : w.links.dcid with
        | error e => exact unchanged_settle_error w e
        | ok dcid =>
          have htag : (!verifyRetryIntegrityTag api.tag pkt.buf dcid) = true := by
            rw [Bool.not_eq_true', Bool.eq_false_iff]
            exact fun htag => hfalse ⟨dcid, hdcid, htag⟩
          dsimp only
          rw [if_pos htag]
          exact .refl w

/-! ## What the guard remembers -/

theorem restart_links (w : Attempt T K S) : (restart api w).1.links = w.links := by
  have hdrop (w : Attempt T K S) : (dropInitialSpace api w).links = w.links := by
    rw [dropInitialSpace]
    split_ifs <;> rfl
  rw [restart]
  cases w.links.dcid with
  | error => rfl
  | ok dcid =>
    dsimp only
    split
    · exact hdrop { w with rscid := some dcid }
    · split
      · exact hdrop { w with rscid := some dcid }
      · split
        · exact hdrop { w with rscid := some dcid }
        · exact hdrop { w with rscid := some dcid }

theorem settle_links (r : Attempt T K S × Result Unit) :
    ((settle r).links = r.1.links ∨ (settle r).links = { r.1.links with closing := true }) ∧
      (settle r).gotRetry = r.1.gotRetry := by
  obtain ⟨w, r⟩ := r
  cases r with
  | ok => exact ⟨.inl rfl, rfl⟩
  | error e => cases e <;> first | exact ⟨.inl rfl, rfl⟩ | exact ⟨.inr rfl, rfl⟩

def Remembered (w : Attempt T K S) : Prop := w.gotRetry = true → w.links.didRetry = true

theorem Remembered.settle {r : Attempt T K S × Result Unit} (h : r.1.Remembered) :
    (settle r).Remembered := by
  obtain ⟨hlinks, hgot⟩ := settle_links r
  intro hgot'
  have hflag := h (hgot.symm.trans hgot')
  rcases hlinks with heq | heq
  · rw [heq]
    exact hflag
  · rw [heq]
    exact hflag

theorem Remembered.processRetry (h : w.Remembered) (pkt : RetryPacket) :
    (processRetry api w pkt).1.Remembered := by
  rw [Attempt.processRetry]
  split
  · exact h
  · split
    · exact h
    · cases w.links.dcid with
      | error => exact h
      | ok =>
        dsimp only
        split
        · exact h
        · cases w.links.paths.getActivePathId with
          | error => exact fun _ => rfl
          | ok =>
            intro _
            rw [restart_links]
            rfl

theorem Remembered.recvRetry (h : w.Remembered) (pkt : RetryPacket) :
    (recvRetry api w pkt).Remembered := by
  rw [Attempt.recvRetry]
  split
  · exact h
  · split
    · exact h
    · cases w.links.scid with
      | error e =>
        have hsame : ((w, .error e) : Attempt T K S × Result Unit).1.Remembered := h
        exact hsame.settle
      | ok => exact (h.processRetry pkt).settle

theorem didRetry_move {p : LinkPromise} {c c' : Links} (h : c.didRetry = true)
    (hmove : Links.Move p c c') : c'.didRetry = true := by
  cases hmove with
  | retireFrame seqNum pktDcid =>
    obtain ⟨cids, i, f, hfst, -⟩ := onRetireConnectionId_fst c seqNum pktDcid
    rw [hfst]
    exact h
  | newIdFrame seqNum retirePriorTo connId resetToken =>
    rw [(onNewConnectionId_core c seqNum retirePriorTo connId resetToken).2]
    exact h
  | newIdRefused seqNum retirePriorTo connId resetToken =>
    rw [(onNewConnectionId_core c seqNum retirePriorTo connId resetToken).2]
    exact h
  | completed =>
    rw [complete]
    split_ifs
    · exact h
    · exact h
  | retried => rfl
  | _ => exact h

theorem didRetry_step {c c' : Links} {op : Links.Op} {r : Result Unit} (h : c.didRetry = true)
    (hstep : c.step op = .ok (c', r)) : c'.didRetry = true := by
  have hmoves : Links.Moves {} c c' := moves_step (keeps_trivial c op) hstep
  clear hstep
  induction hmoves with
  | refl => exact h
  | tail _ hmove ih => exact didRetry_move ih hmove

theorem Remembered.step (h : w.Remembered) {op : Op T K S}
    (hstep : step api w op = .ok (w', ())) : w'.Remembered := by
  cases op with
  | retry pkt =>
    cases hstep
    exact h.recvRetry pkt
  | rest =>
    cases hstep
    exact h
  | link =>
    rw [Attempt.step] at hstep
    split_ifs at hstep
    · cases hstep
      exact h
    · obtain ⟨⟨links, r⟩, hlinks, hrest⟩ := Exec.bind_eq_ok.mp hstep
      cases hrest
      intro hgot
      exact didRetry_step (h hgot) hlinks

/-- Once any packet has been processed, a Retry packet changes nothing, in every run in
which a genuine Retry packet comes first or comes again. -/
theorem late_retry_ignored (api : TlsApi T K S) (s : Links.Setup) (keys : K) (spaces : S) (tls : T)
    {w : Attempt T K S}
    (hreaches : Exec.Reaches (step api) (FirstOrAgain api) (start s keys spaces tls) w)
    (hgot : w.gotPacket = true ∨ w.gotRetry = true) (pkt : RetryPacket)
    (hkept : FirstOrAgain api w (.retry pkt)) : w.Unchanged (recvRetry api w pkt) := by
  have hremembered : w.Remembered :=
    hreaches.invariant Remembered (fun _ _ _ _ h _ hstep => h.step hstep) (Bool.noConfusion ·)
  apply unchanged_recvRetry
  by_cases hretry : w.gotRetry = true
  · exact .inl (hremembered hretry)
  · right
    intro hgenuine
    have hpacket := hgot.resolve_right hretry
    rcases hkept hgenuine with hnone | hagain
    · rw [hpacket] at hnone
      cases hnone
    · exact hretry hagain

/-! ## A concrete client -/

/-- A session that counts its restarts, keys named by the id they come from, and the number of
packets in flight. -/
def counting : TlsApi ℕ ConnectionId ℕ where
  deriveInitialSecrets cid _ := .ok cid
  clear starts := (starts + 1, .ok ())
  process starts := (starts, .ok ())
  clearStreams starts := starts
  discardInitial _ := 0
  tag pseudo := ⟨List.replicate 16 (pseudo.headD 0), List.length_replicate⟩

def retryPacket (scid : List UInt8) : RetryPacket where
  addrs := Links.client.main
  scid := .new scid
  token := [42]
  buf := List.replicate 16 1

def attempt : Attempt ℕ ConnectionId ℕ := start Links.client Links.client.odcid 1 0

instance (api : TlsApi T K S) (w : Attempt T K S) (pkt : RetryPacket) :
    Decidable (Genuine api w pkt) :=
  match hdcid : w.links.dcid with
  | .error e => isFalse fun ⟨_, hok, _⟩ => nomatch hdcid.symm.trans hok
  | .ok dcid =>
    decidable_of_iff (verifyRetryIntegrityTag api.tag pkt.buf dcid = true)
      ⟨fun h => ⟨dcid, hdcid, h⟩, fun ⟨_, hok, h⟩ => by
        rw [hdcid] at hok
        cases hok
        exact h⟩

instance (api : TlsApi T K S) (w : Attempt T K S) (op : Op T K S) :
    Decidable (FirstOrAgain api w op) := by
  unfold FirstOrAgain
  split <;> infer_instance

def retriedAttempt : Attempt ℕ ConnectionId ℕ :=
  Exec.follow (step counting) (FirstOrAgain counting) attempt
    [.retry (retryPacket [3]),
      .link (.receive { Links.client.handshakePacket [4] with pktType := .initial })]

theorem late_retry_ignored_retriedAttempt :
    retriedAttempt.gotPacket = true ∧ retriedAttempt.token = some [42] ∧
      Genuine counting retriedAttempt (retryPacket [5]) ∧
      retriedAttempt.Unchanged (recvRetry counting retriedAttempt (retryPacket [5])) := by
  refine ⟨by decide +kernel, by decide +kernel, by decide +kernel, ?_⟩
  exact late_retry_ignored counting client _ _ _ (Exec.reaches_follow _ _)
    (by decide +kernel) (retryPacket [5]) (by decide +kernel)

def greetedAttempt : Attempt ℕ ConnectionId ℕ :=
  Exec.follow (step counting) (fun _ _ => True) attempt
    [.link (.receive { Links.client.handshakePacket [4] with pktType := .initial })]

/-- A Retry packet after the first Initial packet still replaces token, id and Initial keys,
drops the Initial space and starts the TLS session over. -/
theorem late_retry_taken :
    let w := recvRetry counting greetedAttempt (retryPacket [5])
    greetedAttempt.gotPacket = true ∧ greetedAttempt.token = none ∧ w.token = some [42] ∧
      greetedAttempt.links.dcid = .ok (.new [4]) ∧ w.links.dcid = .ok (.new [5]) ∧
      greetedAttempt.initialKeys = some (.new [2]) ∧ w.initialKeys = some (.new [5]) ∧
      greetedAttempt.spaces = 1 ∧ w.spaces = 0 ∧ greetedAttempt.tls = 0 ∧ w.tls = 1 := by
  decide +kernel

end Attempt

end Tquic
