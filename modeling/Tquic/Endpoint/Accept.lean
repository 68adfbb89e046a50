import Tquic.Base.Run
import Tquic.Endpoint.Invariant

/-!
# Accepting connections with address validation

A server that validates addresses answers a first Initial with a Retry packet, and takes the
original destination id back from the token. The Retry packets in the packet queue, which is not
drained here, record the tokens issued; a token is unforged when each key opens only tokens of this
record.
-/

namespace Tquic

structure RetryRecord where
  address : SocketAddr
  odcid : ConnectionId
  rscid : ConnectionId
  token : Bytes

def Packet.retryRecord (packet : Packet) : Option RetryRecord :=
  match packet.payload with
  | .retry rscid _ odcid token => some ⟨packet.info.dst, odcid, rscid, token⟩
  | _ => none

namespace Endpoint

variable {C W : Type}

def issued (ep : Endpoint C W) : List RetryRecord := ep.packets.filterMap Packet.retryRecord

theorem issued_congr {ep ep' : Endpoint C W} (h : ep'.packets = ep.packets) :
    ep'.issued = ep.issued := by
  rw [issued, issued, h]

theorem issued_addPacket (ep : Endpoint C W) (packet : Packet) :
    (ep.addPacket packet).issued = ep.issued ++ packet.retryRecord.toList := by
  rw [issued, issued, addPacket, List.filterMap_append]
  cases h : packet.retryRecord <;> simp [h]

theorem packets_markTickable (ep : Endpoint C W) (idx : ℕ) (tickable : Bool) :
    (ep.markTickable idx tickable).packets = ep.packets := by
  unfold markTickable mark
  repeat' split
  all_goals rfl

end Endpoint

variable {packet : Packet}

theorem Packet.retryRecord_eq_none (h : packet.payload.isRetry = false) :
    packet.retryRecord = none := by
  unfold retryRecord
  split
  · next heq =>
      rw [heq] at h
      cases h
  · rfl

namespace Env

open Endpoint Act AddressToken

variable {Key C W : Type} (env : Env Key C W)

/-! ## Tokens of this server -/

def Genuine (r : RetryRecord) : Prop :=
  ∃ nonce issued, AddressToken.encode env.aead nonce env.tokenKey
    (.newRetryToken issued r.address r.odcid r.rscid) = .ok r.token

def OpensOnlyIssued (issued : List RetryRecord) (address : SocketAddr) (dcid : ConnectionId)
    (key : Key) (token : Bytes) : Prop :=
  ∀ tokenType body, AddressToken.openBody env.aead key token address dcid =
      .ok (tokenType, true, body) →
    key = env.tokenKey ∧ ∃ r ∈ issued, r.token = token ∧
      AddressToken.retryData address dcid = AddressToken.retryData r.address r.rscid

/-- No key takes what the keys before it left of the token for a sealed token. -/
def Unforged (issued : List RetryRecord) (now : SystemTime) (address : SocketAddr)
    (dcid : ConnectionId) : Bytes → List Key → Prop
  | _, [] => True
  | token, key :: keys =>
    env.OpensOnlyIssued issued address dcid key token ∧
      Unforged issued now address dcid
        (AddressToken.decode env.aead now key token address dcid
          env.config.addressTokenLifetime).2 keys

variable {env}

theorem Genuine.tokenTypeOf {r : RetryRecord} (h : env.Genuine r) :
    AddressToken.tokenTypeOf r.token = .ok .retryToken := by
  obtain ⟨nonce, issued, hencode⟩ := h
  obtain ⟨body, -, htoken⟩ := encode_retry hencode
  rw [htoken]
  rfl

variable {now : SystemTime} {token : Bytes} {address : SocketAddr} {dcid : ConnectionId}
  {decoded : AddressToken}

theorem openBody_of_decode {key : Key}
    {lifetime : ℕ}
    (h : (AddressToken.decode env.aead now key token address dcid lifetime).1 = .ok decoded) :
    ∃ tokenType body, AddressToken.openBody env.aead key token address dcid =
      .ok (tokenType, true, body) := by
  unfold decode at h
  split at h
  · cases h
  · next tokenType opened body hopen =>
      cases opened with
      | false => cases h
      | true => exact ⟨tokenType, body, hopen⟩

theorem tryKeys_eq_ok (hlaw : env.aead.Lawful) {issued : List RetryRecord}
    (hissued : ∀ r ∈ issued, env.Genuine r)
    {keys : List Key}
    (hunforged : env.Unforged issued now address dcid token keys)
    (h : env.tryKeys now token address dcid keys = .ok decoded) :
    ∃ r ∈ issued, decoded.odcid = AddressToken.recovered r.odcid := by
  induction keys generalizing token with
  | nil => cases h
  | cons key keys ih =>
    obtain ⟨honly, hrest⟩ := hunforged
    rw [tryKeys] at h
    split at h
    · next decoded' rest hdecode =>
        obtain rfl : decoded' = decoded := Except.ok.inj h
        have hfst := congrArg Prod.fst hdecode
        obtain ⟨tokenType, body, hopen⟩ := openBody_of_decode hfst
        obtain ⟨rfl, r, hr, rfl, hdata⟩ := honly tokenType body hopen
        obtain ⟨nonce, time, hencode⟩ := hissued r hr
        refine ⟨r, hr, ?_⟩
        rw [decode_encode hlaw hencode hdata] at hfst
        split at hfst
        · rw [← Except.ok.inj hfst]
        · cases hfst
    · cases h
    · next e rest hexpired hdecode =>
        rw [hdecode] at hrest
        exact ih hrest h

/-! ## One datagram -/

variable (env) in
def Sound (ep : Endpoint C W) : Prop :=
  ∀ r ∈ ep.issued, env.Genuine r ∧ r.odcid.isEmpty = false

theorem Sound.congr {ep ep' : Endpoint C W} (h : env.Sound ep) (hp : ep'.packets = ep.packets) :
    env.Sound ep' := by
  unfold Sound
  rwa [issued_congr hp]

theorem Sound.addPacket {ep : Endpoint C W} (h : env.Sound ep)
    (hpacket : ∀ r, packet.retryRecord = some r → env.Genuine r ∧ r.odcid.isEmpty = false) :
    env.Sound (ep.addPacket packet) := by
  intro r hr
  rw [issued_addPacket, List.mem_append] at hr
  rcases hr with hr | hr
  · exact h r hr
  · exact hpacket r (by simpa using hr)

theorem sound_invariant : Invariant env.Sound (fun _ => env.Sound) where
  frame h _ _ hpackets := h.congr hpackets
  core _ _ h := h.congr rfl
  mark idx h := h.congr (packets_markTickable _ idx true)
  packet hpacket h := h.addPacket fun r hr => by
    rw [Packet.retryRecord_eq_none hpacket] at hr
    cases hr
  insert _ h := h.congr rfl
  pending h _ _ hpackets := h.congr hpackets
  setIndex h := h.congr rfl

theorem Sound.sendRetry {hdr : PacketHeader} (hdcid : hdr.dcid.isEmpty = false)
    (info : PacketInfo) : Keeps env.Sound (env.sendRetry hdr info) := by
  refine sound_invariant.sendRetry fun ep nonce issued rscid token hencode h => ?_
  refine h.addPacket ?_
  intro r hr
  cases hr
  exact ⟨⟨nonce, issued, hencode⟩, hdcid⟩

theorem originalDcid_returns (hdr : PacketHeader) {token : Option AddressToken}
    (htoken : ∀ t ∈ token, t.odcid.isSome) : (originalDcid hdr token).Returns fun _ => True := by
  cases token with
  | none => exact .intro trivial
  | some t =>
    obtain ⟨odcid, hsome⟩ := Option.isSome_iff_exists.mp (htoken t rfl)
    exact ⟨odcid, by rw [originalDcid, hsome, Exec.unwrap_some], trivial⟩

/-! ## Datagrams in a run -/

section Datagram

variable (env) (ep : Endpoint C W) (buf : Bytes) (info : PacketInfo)

/-- The token of an Initial, if it has one, was issued in a Retry and is unforged. -/
def Honest : Prop :=
  ∀ hdr len, PacketHeader.fromBytes buf env.config.cidLen = .ok (hdr, len) →
    hdr.pktType = .initial → ∀ token ∈ hdr.token, (∃ r ∈ ep.issued, r.token = token) ∧
      env.Unforged ep.issued (env.systemTime ep.world) info.src hdr.dcid token
        env.config.addressTokenKey

def AnsweredWithRetry (hdr : PacketHeader) : Prop :=
  (ep.routes.find hdr.dcid buf info).1 = none ∧ env.isServer = true ∧ hdr.pktType = .initial ∧
    ep.closed = false ∧ ep.conns.len < env.config.maxConcurrentConns ∧
    versionIsSupported hdr.version = true ∧ hdr.token = none ∧ env.config.retry = true

def NamesItself : Prop :=
  ∀ hdr len, PacketHeader.fromBytes buf env.config.cidLen = .ok (hdr, len) →
    env.AnsweredWithRetry ep buf info hdr → hdr.dcid.isEmpty = false

end Datagram

section Step

variable {ep : Endpoint C W} {buf : Bytes} {info : PacketInfo} {hdr : PacketHeader}

section

variable (hlaw : env.aead.Lawful) (hsound : env.Sound ep)

include hlaw hsound

section

variable
  (htoken : ∀ token ∈ hdr.token, (∃ r ∈ ep.issued, r.token = token) ∧
    env.Unforged ep.issued (env.systemTime ep.world) info.src hdr.dcid token
      env.config.addressTokenKey)

include htoken

theorem validateInitialToken_triple
    (hdcid : hdr.token = none → env.config.retry = true → hdr.dcid.isEmpty = false) :
    Triple (fun s => s = ep) (env.validateInitialToken hdr info)
      (fun token s => env.Sound s ∧ ∀ t ∈ token, t.odcid.isSome) (fun _ => env.Sound) := by
  unfold validateInitialToken
  cases hhdr : hdr.token with
  | none =>
    refine triple_ite (fun hretry => ?_) fun _ => triple_pure ?_
    · refine triple_bind (Q := fun _ => env.Sound) ?_ fun _ => triple_throw fun _ h => h
      rintro s rfl
      exact Sound.sendRetry (hdcid hhdr hretry) info s hsound
    · rintro s rfl
      exact ⟨hsound, by simp⟩
  | some token =>
    obtain ⟨⟨r, hr, rfl⟩, hunforged⟩ := htoken token hhdr
    refine triple_bind triple_get ?_
    rintro ep' s ⟨rfl, rfl⟩
    cases hvalid : env.validateAddressToken ep' r.token info.src hdr.dcid with
    | ok =>
      obtain ⟨r', hr', hodcid⟩ :=
        tryKeys_eq_ok hlaw (fun r hr => (hsound r hr).1) hunforged hvalid
      have hsome := (recovered_eq_some_iff r'.odcid).mpr (hsound r' hr').2
      refine .intro ⟨hsound, ?_⟩
      rintro t ⟨⟩
      simp [hodcid, hsome]
    | error =>
      simp only [rejectToken, (hsound r hr).1.tokenTypeOf]
      exact .intro hsound

theorem recvServerInitialIdx_triple
    (hdcid : ep.conns.len < env.config.maxConcurrentConns → versionIsSupported hdr.version = true →
      hdr.token = none → env.config.retry = true → hdr.dcid.isEmpty = false) :
    Triple (fun s => s = ep) (env.recvServerInitialIdx hdr buf info)
      (fun _ => env.Sound) (fun _ => env.Sound) := by
  refine triple_bind triple_get ?_
  rintro ep' s ⟨rfl, rfl⟩
  split
  · exact .intro hsound
  · next hroom =>
      split
      · exact (sound_invariant.sendVersionNegotiation hdr info).bind (fun _ => keeps_pure _) ep'
          hsound
      · next hversion =>
          refine triple_bind (validateInitialToken_triple hlaw hsound htoken
            (hdcid (not_le.mp hroom) (by simpa using hversion))) ?_ ep' rfl
          intro token s hs
          refine triple_bind (sound_invariant.createServerConn (originalDcid_returns hdr hs.2)
            info) (fun idx => ?_) s hs.1
          exact triple_bind (sound_invariant.deliverInitialToConn idx hdr buf info) fun _ =>
            keeps_pure _

end

theorem recvUnknown_triple
    (hparse : ∃ len, PacketHeader.fromBytes buf env.config.cidLen = .ok (hdr, len))
    (hroute : (ep.routes.find hdr.dcid buf info).1 = none)
    (hhonest : env.Honest ep buf info) (hnames : env.NamesItself ep buf info) :
    Triple (fun s => s = ep) (env.recvUnknown hdr buf info)
      (fun _ => env.Sound) (fun _ => env.Sound) := by
  obtain ⟨len, hparse⟩ := hparse
  refine triple_bind triple_get ?_
  rintro ep' s ⟨rfl, rfl⟩
  split
  · exact (sound_invariant.recvUnknownClient hdr _ info).bind (fun _ => keeps_pure _) ep' hsound
  · next hserver =>
      split
      · next hinitial =>
          refine recvServerInitialIdx_triple hlaw hsound (hhonest hdr len hparse hinitial.1)
            ?_ ep' rfl
          intro hroom hversion hnone hretry
          exact hnames hdr len hparse ⟨hroute, by simpa using hserver, hinitial.1, hinitial.2,
            hroom, hversion, hnone, hretry⟩
      · split
        · refine Keeps.bind ?_ (fun _ => keeps_pure _) ep' hsound
          exact keeps_modify fun _ h => h.congr rfl
        · split
          · exact (sound_invariant.sendStatelessReset _ _ _).bind (fun _ => keeps_pure _) ep' hsound
          · exact .intro hsound

theorem recvWithConnIndex_returns
    (hhonest : env.Honest ep buf info) (hnames : env.NamesItself ep buf info) :
    (env.recvWithConnIndex buf info ep).Returns fun out => env.Sound out.1 := by
  have htriple : Triple (fun s => s = ep) (env.recvWithConnIndex buf info)
      (fun _ => env.Sound) (fun _ => env.Sound) := by
    refine triple_bind (Q := fun out s => s = ep ∧
      PacketHeader.fromBytes buf env.config.cidLen = .ok out)
      (triple_lift (fun out s hout hs => ⟨hs, hout⟩) ?_) ?_
    · rintro e s rfl
      exact hsound
    · rintro ⟨hdr, len⟩
      refine triple_bind triple_get ?_
      rintro ep' s ⟨⟨rfl, hparse⟩, rfl⟩
      rcases hfind : ep'.routes.find hdr.dcid buf info with ⟨_ | idx, reset⟩
      · exact recvUnknown_triple hlaw hsound ⟨len, hparse⟩ (by rw [hfind]) hhonest hnames ep' rfl
      · exact (sound_invariant.recvExistingConn idx reset buf info).bind (fun _ => keeps_pure _) ep'
          hsound
  exact (htriple ep rfl).mono fun out hout => post_const.mp hout

end

end Step

/-! ## Runs -/

end Env

/-- A datagram arrives, or the endpoint does something else, which may change all but the record of
the packets. -/
inductive Arrival (C W : Type) where
  | datagram (buf : Bytes) (info : PacketInfo)
  | elsewhere (ep : Endpoint C W)

namespace Env

open AddressToken

variable {Key C W : Type} (env : Env Key C W)

def step (ep : Endpoint C W) : Arrival C W → Exec (Endpoint C W × Result (Option ℕ))
  | .datagram buf info => env.recvWithConnIndex buf info ep
  | .elsewhere ep' => .ok ({ ep' with packets := ep.packets }, .ok none)

def Legal (ep : Endpoint C W) : Arrival C W → Prop
  | .datagram buf info => env.Honest ep buf info
  | .elsewhere _ => True

def RetriesNamed (ep : Endpoint C W) : Arrival C W → Prop
  | .datagram buf info => env.NamesItself ep buf info
  | .elsewhere _ => True

variable {env}

theorem step_returns (hlaw : env.aead.Lawful) {ep : Endpoint C W} {arrival : Arrival C W}
    (hsound : env.Sound ep) (hlegal : env.Legal ep arrival)
    (hnamed : env.RetriesNamed ep arrival) :
    (env.step ep arrival).Returns fun out => env.Sound out.1 := by
  cases arrival with
  | datagram => exact recvWithConnIndex_returns hlaw hsound hlegal hnamed
  | elsewhere => exact .intro (hsound.congr rfl)

/-! ## A server with one key -/

def idleProtocol : Protocol Unit where
  newClient _ _ _ := .ok ()
  newServer _ _ _ _ := .ok ()
  startHandshake _ _ _ := ((), .ok ())
  recv _ _ _ := ((), .ok ())
  send _ := ((), .error .done)
  reset _ := ()
  connOnTimeout _ _ := ()
  timeout _ := none
  poll _ := none
  addScid _ _ := some ()
  isClosed _ := false
  isDraining _ := false
  isReady _ := false
  streamIter _ := []
  streamReadableIter _ := []
  streamWritableIter _ := []
  streamCheckReadable _ _ := false
  streamCheckWritable _ _ := false
  streamDestroy _ _ := ()
  routes _ := ([], [], [])

def idleServer : Env UInt8 Unit Unit where
  toProtocol := idleProtocol
  isServer := true
  config :=
    { addressTokenKey := [0]
      key_ne_nil := by simp
      addressTokenLifetime := 10 ^ 9
      retry := true
      statelessReset := true
      maxConcurrentConns := 10
      cidLen := 1
      zerorttBufferSize := 10
      sendBatchSize := 10 }
  aead := .transparent
  systemTime _ := .epoch
  instant _ := 0
  generate _ := (.new [7], ())
  nonce _ := (List.Vector.replicate _ 0, ())
  resetToken _ := []
  callback _ _ core := ⟨(), core, false, []⟩
  onPacketsSend _ packets := ((), .ok packets.length)
  pick _ queue := if h : queue.Nonempty then queue.min' h else 0
  pick_mem := by
    intro version queue hqueue
    rw [dif_pos hqueue]
    exact queue.min'_mem hqueue

def clientAddr : SocketAddr := .lan 1 4433

def serverAddr : SocketAddr := .lan 2 443

def initial (dcid token : Bytes) : Arrival Unit Unit :=
  .datagram
    ([0xc0, 0, 0, 0, 1] ++ UInt8.ofNat dcid.length :: dcid ++ [0] ++
      UInt8.ofNat token.length :: token)
    ⟨clientAddr, serverAddr⟩

/-- The token in the Retry for an Initial to `odcid`, which chose the id `[7]`. -/
def retryToken (odcid : Bytes) : Bytes :=
  label ++ [0] ++ List.replicate 12 0 ++ [0, 7, 10, 0, 0, 1, 0x11, 0x51, 7] ++
    List.replicate 8 0 ++ UInt8.ofNat odcid.length :: odcid

def afterRetry (odcid : Bytes) : Endpoint Unit Unit :=
  (Endpoint.new 10 ()).addPacket
    ⟨.retry (.new [7]) (.new []) (.new odcid) (retryToken odcid), ⟨serverAddr, clientAddr⟩⟩

theorem honest_of_parse {ep : Endpoint C W} {buf : Bytes} {info : PacketInfo} (hdr : PacketHeader)
    (len : ℕ) (hparse : PacketHeader.fromBytes buf env.config.cidLen = .ok (hdr, len))
    (htoken : ∀ token ∈ hdr.token, (∃ r ∈ ep.issued, r.token = token) ∧
      env.Unforged ep.issued (env.systemTime ep.world) info.src hdr.dcid token
        env.config.addressTokenKey) :
    env.Honest ep buf info := by
  intro hdr' len' hparse' _
  rw [hparse] at hparse'
  cases hparse'
  exact htoken

theorem unforged_retryToken (odcid : Bytes) :
    (∃ r ∈ (afterRetry odcid).issued, r.token = retryToken odcid) ∧
      idleServer.Unforged (afterRetry odcid).issued ⟨0, by decide⟩ clientAddr (.new [7])
        (retryToken odcid) [0] := by
  refine ⟨⟨_, List.mem_singleton_self _, rfl⟩, ?_, trivial⟩
  intro tokenType body _
  exact ⟨rfl, _, List.mem_singleton_self _, rfl, rfl⟩

/-- A Retry token gives its original id back exactly when that is not empty; a server that
sends no Retry for an empty id never panics, and takes from every token it accepts the id
of one of its Retry packets. -/
theorem accepts_with_original_dcid (env : Env Key C W) (hlaw : env.aead.Lawful) :
    (∀ nonce key issued address odcid rscid bytes now lifetime,
      encode env.aead nonce key (newRetryToken issued address odcid rscid) = .ok bytes →
      Alive now issued lifetime →
      ((∃ token, (decode env.aead now key bytes address rscid lifetime).1 = .ok token ∧
          token.odcid = some odcid) ↔
        odcid.isEmpty = false)) ∧
    ∀ (world : W) (arrivals : List (Arrival C W)),
      Exec.Follows env.step (fun ep arrival ↦ env.Legal ep arrival ∧ env.RetriesNamed ep arrival)
        (Endpoint.new env.config.zerorttBufferSize world) arrivals →
      (Exec.run env.step (Endpoint.new env.config.zerorttBufferSize world) arrivals).Returns
        fun out ↦ ∀ token address dcid decoded,
          env.Unforged out.1.issued (env.systemTime out.1.world) address dcid token
            env.config.addressTokenKey →
          env.validateAddressToken out.1 token address dcid = .ok decoded →
          ∃ r ∈ out.1.issued, decoded.odcid = some r.odcid := by
  constructor
  · intro nonce key issued address odcid rscid bytes now lifetime hencode halive
    rw [decode_encode hlaw hencode rfl, if_pos halive, ← recovered_eq_some_iff]
    simp
  · intro world arrivals hfollows
    have hnew : env.Sound (.new env.config.zerorttBufferSize world) := by
      intro r hr
      cases hr
    refine (Exec.run_returns env.Sound (fun ep arrival hsound hlegal =>
      step_returns hlaw hsound hlegal.1 hlegal.2) hnew hfollows).mono ?_
    intro out hsound token address dcid decoded hunforged hvalid
    obtain ⟨r, hr, hodcid⟩ := tryKeys_eq_ok hlaw (fun r hr => (hsound r hr).1) hunforged hvalid
    exact ⟨r, hr, hodcid.trans ((recovered_eq_some_iff r.odcid).mpr (hsound r hr).2)⟩

theorem accepts_with_original_dcid_idleServer :
    (∃ token, (decode .transparent ⟨0, by decide⟩ 0 (retryToken [5]) clientAddr (.new [7])
        (10 ^ 9)).1 = .ok token ∧ token.odcid = some (.new [5])) ∧
      (Exec.run idleServer.step (Endpoint.new 10 ())
        [initial [5] [], initial [7] (retryToken [5])]).Returns
        fun out ↦ ∀ token address dcid decoded,
          idleServer.Unforged out.1.issued ⟨0, by decide⟩ address dcid token [0] →
          idleServer.validateAddressToken out.1 token address dcid = .ok decoded →
          ∃ r ∈ out.1.issued, decoded.odcid = some r.odcid := by
  obtain ⟨hdecode, hrun⟩ := accepts_with_original_dcid idleServer Aead.transparent_lawful
  refine ⟨(hdecode (.replicate _ 0) 0 ⟨0, by decide⟩ clientAddr (.new [5]) (.new [7])
    (retryToken [5]) ⟨0, by decide⟩ (10 ^ 9) rfl (by decide)).mpr rfl, hrun () _ ?_⟩
  have hfirst : idleServer.step (.new 10 ()) (initial [5] []) =
      .ok (afterRetry [5], .error .done) := rfl
  refine .cons ⟨?_, ?_⟩ hfirst ⟨⟨?_, ?_⟩, fun _ _ _ => trivial⟩
  · exact honest_of_parse ⟨.initial, 1, .new [5], .new [], none⟩ 9 rfl (by simp)
  · rintro hdr len ⟨⟩ _
    rfl
  · exact honest_of_parse ⟨.initial, 1, .new [7], .new [], some (retryToken [5])⟩ 45 rfl
      (by rintro token ⟨⟩; exact unforged_retryToken [5])
  · rintro hdr len ⟨⟩ _
    rfl

/-- The server answers an Initial to an empty id with a Retry, and panics when the
client comes back with the token. -/
theorem empty_dcid_panics :
    Exec.Follows idleServer.step idleServer.Legal (Endpoint.new 10 ())
        [initial [] [], initial [7] (retryToken [])] ∧
      Exec.run idleServer.step (Endpoint.new 10 ())
        [initial [] [], initial [7] (retryToken [])] = .panic := by
  have hfirst : idleServer.step (.new 10 ()) (initial [] []) =
      .ok (afterRetry [], .error .done) := rfl
  refine ⟨Exec.Follows.cons ?_ hfirst ⟨?_, fun _ _ _ => trivial⟩, rfl⟩
  · exact honest_of_parse ⟨.initial, 1, .new [], .new [], none⟩ 8 rfl (by simp)
  · exact honest_of_parse ⟨.initial, 1, .new [7], .new [], some (retryToken [])⟩ 44 rfl
      (by rintro token ⟨⟩; exact unforged_retryToken [])

end Env

end Tquic
