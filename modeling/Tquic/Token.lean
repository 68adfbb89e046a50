import Tquic.Base.Aead
import Tquic.Packet.Header

/-!
# Address validation tokens

A token is a clear header (label, type, nonce) and a sealed body (issue time in whole seconds and,
for a Retry token, the original destination id). `AddressToken.decode` opens the body in place and
returns the buffer, since a failed attempt leaves other octets behind.
-/

namespace Tquic

open Decoder Except Result List BigEndian

inductive IpAddr where
  | v4 (octets : List.Vector UInt8 4)
  | v6 (octets : List.Vector UInt8 16)
  deriving DecidableEq

def IpAddr.octets : IpAddr → Bytes
  | .v4 octets => octets.toList
  | .v6 octets => octets.toList

def IpAddr.isV6 : IpAddr → Bool
  | .v4 _ => false
  | .v6 _ => true

structure SocketAddr where
  ip : IpAddr
  port : UInt16
  deriving DecidableEq

/-- A port of the host 10.0.0.`host`. -/
def SocketAddr.lan (host : UInt8) (port : UInt16) : SocketAddr :=
  ⟨.v4 ⟨[10, 0, 0, host], rfl⟩, port⟩

/-! ## System time -/

/-- The platform counts seconds in 64 signed bits. -/
def maxSecs : ℕ := 2 ^ 63

structure SystemTime where
  nanos : ℤ
  nanos_lt : nanos < maxSecs * 10 ^ 9
  deriving DecidableEq

namespace SystemTime

def epoch : SystemTime := ⟨0, by decide⟩

/-- The epoch plus a number of seconds, if the platform can represent it. -/
def ofSecs (secs : ℕ) : Option SystemTime :=
  if h : secs < maxSecs then some ⟨secs * 10 ^ 9, by omega⟩ else none

def secs (t : SystemTime) : ℕ := (t.nanos / 10 ^ 9).toNat

theorem secs_lt (t : SystemTime) : t.secs < maxSecs := by
  have hlt := t.nanos_lt
  have hpos : 0 < maxSecs := by decide
  simp only [secs]
  omega

def floor (t : SystemTime) : SystemTime :=
  ⟨t.secs * 10 ^ 9, by have := t.secs_lt; omega⟩

theorem ofSecs_secs (t : SystemTime) : ofSecs t.secs = some t.floor :=
  dif_pos t.secs_lt

end SystemTime

/-! ## Tokens -/

inductive AddressTokenType where
  | retryToken
  | resumeToken
  deriving DecidableEq, Repr

def AddressTokenType.toU8 : AddressTokenType → UInt8
  | .retryToken => 0
  | .resumeToken => 1

structure AddressToken where
  tokenType : AddressTokenType
  issued : SystemTime
  address : SocketAddr
  odcid : Option ConnectionId
  rscid : Option ConnectionId
  deriving DecidableEq

namespace AddressToken

def newRetryToken (now : SystemTime) (address : SocketAddr) (odcid rscid : ConnectionId) :
    AddressToken where
  tokenType := .retryToken
  issued := now
  address := address
  odcid := some odcid
  rscid := some rscid

def newResumeToken (now : SystemTime) (address : SocketAddr) : AddressToken where
  tokenType := .resumeToken
  issued := now
  address := address
  odcid := none
  rscid := none

def nonceLen : ℕ := 12

def label : Bytes := [0x71, 0x75, 0x69, 0x63]

/-- The data authenticated with the body: the client address and, for a Retry token, the port and
the id the server chose. -/
def additionalData (tokenType : AddressTokenType) (address : SocketAddr)
    (rscid : Option ConnectionId) : Result Bytes :=
  match tokenType, rscid with
  | .retryToken, some rscid =>
    .ok (address.ip.octets ++ BigEndian.toBytes 2 address.port.toNat ++ rscid.bytes)
  | .retryToken, none => .error .internalError
  | .resumeToken, _ => .ok address.ip.octets

def issueTime (token : AddressToken) : Result ℕ :=
  if token.issued.nanos < 0 then .error .internalError else .ok token.issued.secs

/-- The original destination id with its length in front; no other token carries one. -/
def odcidField (token : AddressToken) : Result Bytes :=
  match token.tokenType, token.odcid with
  | .retryToken, some odcid => .ok (UInt8.ofNat odcid.len :: odcid.bytes)
  | .retryToken, none => .error .internalError
  | .resumeToken, _ => .ok []

variable {Key : Type} (aead : Aead Key)

def encode (nonce : List.Vector UInt8 nonceLen) (key : Key) (token : AddressToken) :
    Result Bytes := do
  let seconds ← token.issueTime
  let odcid ← token.odcidField
  let aad ← additionalData token.tokenType token.address token.rscid
  match aead.sealInPlace key nonce.toList aad (BigEndian.toBytes 8 seconds ++ odcid) with
  | some body => return label ++ token.tokenType.toU8 :: nonce.toList ++ body
  | none => throw .internalError

def readType (b : UInt8) : Result AddressTokenType :=
  match b with
  | 0 => .ok .retryToken
  | 1 => .ok .resumeToken
  | _ => .error .invalidToken

def readHeader (token : Bytes) : Result (AddressTokenType × Bytes × Bytes) := do
  let (label', buf) ← Decoder.read token 4
  if label' ≠ label then
    throw .invalidToken
  let (b, buf) ← Decoder.readU8 buf
  let tokenType ← readType b
  let (nonce, buf) ← Decoder.read buf nonceLen
  return (tokenType, nonce, buf)

/-- The id that was authenticated with the token, which the client now sends as
its destination. -/
def expectedRscid (tokenType : AddressTokenType) (pktDcid : ConnectionId) : Option ConnectionId :=
  if tokenType = .retryToken then some pktDcid else none

def checkAge (now issued : SystemTime) (lifetime : ℕ) : Result Unit :=
  if issued.nanos ≤ now.nanos ∧ now.nanos - issued.nanos ≤ lifetime then .ok ()
  else .error .invalidToken

def readOdcid (tokenType : AddressTokenType) (pktDcid : ConnectionId) (buf : Bytes) :
    Result (Option ConnectionId) :=
  match tokenType with
  | .retryToken => do
      let (cidLen, buf) ← Decoder.readU8 buf
      -- A token written for an empty id comes back without one.
      if cidLen = 0 then
        return none
      else if cidLen.toNat ≤ 20 then
        let (cid, _) ← Decoder.read buf cidLen.toNat
        return some (.new cid)
      else
        throw .invalidToken
  | .resumeToken => .ok (some pktDcid)

def readIssued (buf : Bytes) : Result (SystemTime × Bytes) := do
  let (seconds, buf) ← Decoder.readU64 buf
  match SystemTime.ofSecs seconds with
  | some issued => return (issued, buf)
  | none => throw .invalidToken

def decodeBody (now : SystemTime) (tokenType : AddressTokenType) (body : Bytes)
    (address : SocketAddr) (pktDcid : ConnectionId) (lifetime : ℕ) : Result AddressToken := do
  let (issued, buf) ← readIssued body
  checkAge now issued lifetime
  let odcid ← readOdcid tokenType pktDcid buf
  return ⟨tokenType, issued, address, odcid, expectedRscid tokenType pktDcid⟩

/-- The type of a token, whether its body could be opened, and the body after the
attempt. -/
def openBody (key : Key) (token : Bytes) (address : SocketAddr) (pktDcid : ConnectionId) :
    Result (AddressTokenType × Bool × Bytes) := do
  let (tokenType, nonce, body) ← readHeader token
  let aad ← additionalData tokenType address (expectedRscid tokenType pktDcid)
  let (opened, body) := aead.openInPlace key nonce aad body
  return (tokenType, opened, body)

/-- Decode and validate a token; the second component is what is left in the
buffer that held it. -/
def decode (now : SystemTime) (key : Key) (token : Bytes) (address : SocketAddr)
    (pktDcid : ConnectionId) (lifetime : ℕ) : Result AddressToken × Bytes :=
  match openBody aead key token address pktDcid with
  | .error e => (.error e, token)
  | .ok (tokenType, opened, body) =>
    (if opened then decodeBody now tokenType body address pktDcid lifetime
      else .error .invalidToken,
    token.take (4 + 1 + nonceLen) ++ body)

def tokenTypeOf (token : Bytes) : Result AddressTokenType :=
  match token.drop 4 with
  | [] => .error .invalidToken
  | b :: _ => readType b

/-! ## Decoding what was encoded -/

/-- A token issued at `issued` is inside its lifetime; its age counts from the
whole second it carries. -/
def Alive (now issued : SystemTime) (lifetime : ℕ) : Prop :=
  issued.floor.nanos ≤ now.nanos ∧ now.nanos - issued.floor.nanos ≤ lifetime

instance (now issued : SystemTime) (lifetime : ℕ) : Decidable (Alive now issued lifetime) :=
  inferInstanceAs (Decidable (_ ∧ _))

def recovered (odcid : ConnectionId) : Option ConnectionId :=
  if odcid.isEmpty then none else some odcid

theorem recovered_eq_some_iff (odcid : ConnectionId) :
    recovered odcid = some odcid ↔ odcid.isEmpty = false := by
  unfold recovered
  split <;> simp_all

@[simp] theorem readType_toU8 (tokenType : AddressTokenType) :
    readType tokenType.toU8 = .ok tokenType := by
  cases tokenType <;> rfl

theorem readHeader_append (tokenType : AddressTokenType) (nonce : List.Vector UInt8 nonceLen)
    (body : Bytes) :
    readHeader (label ++ tokenType.toU8 :: nonce.toList ++ body) =
      .ok (tokenType, nonce.toList, body) := by
  have hlabel (buf : Bytes) : read (label ++ buf) 4 = .ok (label, buf) :=
    read_append label buf
  have hnonce : read (nonce.toList ++ body) nonceLen = .ok (nonce.toList, body) :=
    read_append_of_length nonce.toList_length body
  simp [readHeader, hlabel, hnonce]

theorem readOdcid_append (odcid pktDcid : ConnectionId) (tail : Bytes) :
    readOdcid .retryToken pktDcid (UInt8.ofNat odcid.len :: odcid.bytes ++ tail) =
      .ok (recovered odcid) := by
  have hle : odcid.len ≤ 20 := odcid.len_le
  have hread : read (odcid.bytes ++ tail) odcid.len = .ok (odcid.bytes, tail) :=
    read_append odcid.bytes tail
  obtain ⟨b, hb⟩ : ∃ b, UInt8.ofNat odcid.len = b := ⟨_, rfl⟩
  have hlen : b.toNat = odcid.len := by
    rw [← hb]
    exact UInt8.toNat_ofNat_of_lt' (by change odcid.len < 256; omega)
  have hzero : b = 0 ↔ odcid.isEmpty := by
    rw [← odcid.len_eq_zero_iff, ← UInt8.toNat_inj, hlen]
    rfl
  rw [hb]
  by_cases hempty : odcid.isEmpty
  · simp [readOdcid, recovered, hzero.mpr hempty, hempty]
  · simp [readOdcid, recovered, mt hzero.mp hempty, hempty, hlen, hle, hread]

theorem readIssued_append (t : SystemTime) (buf : Bytes) :
    readIssued (toBytes 8 t.secs ++ buf) = .ok (t.floor, buf) := by
  have hlt : t.secs < 2 ^ 64 := t.secs_lt.trans (by decide)
  simp [readIssued, readU64_toBytes hlt, t.ofSecs_secs]

theorem decodeBody_append (now t : SystemTime) (odcid rscid : ConnectionId) (tail : Bytes)
    (address : SocketAddr) (lifetime : ℕ) :
    decodeBody now .retryToken
        (toBytes 8 t.secs ++ UInt8.ofNat odcid.len :: odcid.bytes ++ tail)
        address rscid lifetime =
      if Alive now t lifetime then
        .ok ⟨.retryToken, t.floor, address, recovered odcid, some rscid⟩
      else .error .invalidToken := by
  have hage : checkAge now t.floor lifetime =
      if Alive now t lifetime then .ok () else .error .invalidToken := rfl
  rw [append_assoc, decodeBody, readIssued_append]
  simp only [ok_bind, readOdcid_append, hage]
  split <;> rfl

theorem decodeBody_resume (now t : SystemTime) (dcid : ConnectionId) (tail : Bytes)
    (address : SocketAddr) (lifetime : ℕ) :
    decodeBody now .resumeToken (toBytes 8 t.secs ++ tail) address dcid lifetime =
      if Alive now t lifetime then .ok ⟨.resumeToken, t.floor, address, some dcid, none⟩
      else .error .invalidToken := by
  have hage : checkAge now t.floor lifetime =
      if Alive now t lifetime then .ok () else .error .invalidToken := rfl
  rw [decodeBody, readIssued_append]
  simp only [ok_bind, readOdcid, hage]
  split <;> rfl

section Sealed

variable {aead : Aead Key} {nonce : List.Vector UInt8 nonceLen} {key : Key} {token : AddressToken}
  {bytes : Bytes}

theorem encode_eq_ok (h : encode aead nonce key token = .ok bytes) :
    ∃ odcid aad body, token.odcidField = .ok odcid ∧
      additionalData token.tokenType token.address token.rscid = .ok aad ∧
      aead.sealInPlace key nonce.toList aad
        (toBytes 8 token.issued.secs ++ odcid) = some body ∧
      bytes = label ++ token.tokenType.toU8 :: nonce.toList ++ body := by
  obtain ⟨seconds, hseconds, h⟩ := bind_eq_ok.mp h
  have hsecs : seconds = token.issued.secs := by
    unfold issueTime at hseconds
    split at hseconds
    · cases hseconds
    · exact (ok.inj hseconds).symm
  subst hsecs
  obtain ⟨odcid, hodcid, h⟩ := bind_eq_ok.mp h
  obtain ⟨aad, haad, h⟩ := bind_eq_ok.mp h
  split at h
  · next body hseal => exact ⟨odcid, aad, body, hodcid, haad, hseal, (ok.inj h).symm⟩
  · cases h

theorem decode_sealed (hlaw : aead.Lawful) {tokenType : AddressTokenType} {aad plain body : Bytes}
    (hseal : aead.sealInPlace key nonce.toList aad plain = some body) {address : SocketAddr}
    {dcid : ConnectionId}
    (hdata : additionalData tokenType address (expectedRscid tokenType dcid) = .ok aad)
    (now : SystemTime) (lifetime : ℕ) :
    ∃ tail, (decode aead now key (label ++ tokenType.toU8 :: nonce.toList ++ body) address dcid
        lifetime).1 =
      decodeBody now tokenType (plain ++ tail) address dcid lifetime := by
  obtain ⟨tail, hopen⟩ := hlaw.open_seal hseal
  refine ⟨tail, ?_⟩
  simp only [decode, openBody, readHeader_append, hdata, ok_bind, hopen, pure, Except.pure, if_true]

end Sealed

section Issued

variable {aead : Aead Key} {nonce : List.Vector UInt8 nonceLen} {key : Key} {issued : SystemTime}
  {address : SocketAddr} {odcid rscid : ConnectionId} {bytes : Bytes}

def retryData (address : SocketAddr) (rscid : ConnectionId) : Bytes :=
  address.ip.octets ++ BigEndian.toBytes 2 address.port.toNat ++ rscid.bytes

theorem encode_retry (h : encode aead nonce key (newRetryToken issued address odcid rscid) =
      .ok bytes) :
    ∃ body, aead.sealInPlace key nonce.toList (retryData address rscid)
          (toBytes 8 issued.secs ++ UInt8.ofNat odcid.len :: odcid.bytes) = some body ∧
        bytes = label ++ AddressTokenType.retryToken.toU8 :: nonce.toList ++ body := by
  obtain ⟨field, aad, body, hfield, haad, hseal, rfl⟩ := encode_eq_ok h
  obtain rfl : .ofNat odcid.len :: odcid.bytes = field := ok.inj hfield
  obtain rfl : retryData address rscid = aad := ok.inj haad
  exact ⟨body, hseal, rfl⟩

/-- A Retry token, presented with the data it was sealed with, decodes while it is
alive to its original id, which is lost if it was empty. -/
theorem decode_encode (hlaw : aead.Lawful)
    (h : encode aead nonce key (newRetryToken issued address odcid rscid) = .ok bytes)
    {address' : SocketAddr} {rscid' : ConnectionId}
    (hdata : retryData address' rscid' = retryData address rscid)
    (now : SystemTime) (lifetime : ℕ) :
    (decode aead now key bytes address' rscid' lifetime).1 =
      if Alive now issued lifetime then
        .ok ⟨.retryToken, issued.floor, address', recovered odcid, some rscid'⟩
      else .error .invalidToken := by
  obtain ⟨body, hseal, rfl⟩ := encode_retry h
  have hadditional : additionalData .retryToken address' (expectedRscid .retryToken rscid') =
      .ok (retryData address rscid) := by
    rw [← hdata]
    rfl
  obtain ⟨tail, hdecode⟩ := decode_sealed hlaw hseal hadditional now lifetime
  rw [hdecode, decodeBody_append]

theorem decode_encode_resume (hlaw : aead.Lawful)
    (h : encode aead nonce key (newResumeToken issued address) = .ok bytes) (dcid : ConnectionId)
    (now : SystemTime) (lifetime : ℕ) :
    (decode aead now key bytes address dcid lifetime).1 =
      if Alive now issued lifetime then
        .ok ⟨.resumeToken, issued.floor, address, some dcid, none⟩
      else .error .invalidToken := by
  obtain ⟨field, aad, body, hfield, haad, hseal, rfl⟩ := encode_eq_ok h
  obtain rfl : [] = field := ok.inj hfield
  obtain ⟨tail, hdecode⟩ := decode_sealed hlaw hseal haad now lifetime
  exact hdecode.trans (decodeBody_resume now issued dcid tail address lifetime)

end Issued

/-! ## Whom the authenticated data are for -/

theorem ip_eq_of_octets {ip ip' : IpAddr} (h : ip.octets = ip'.octets) : ip = ip' := by
  have hlen := congrArg length h
  cases ip with
  | v4 octets =>
    cases ip' with
    | v4 octets' => exact congrArg IpAddr.v4 (List.Vector.toList_injective h)
    | v6 octets' => simp [IpAddr.octets] at hlen
  | v6 octets =>
    cases ip' with
    | v4 octets' => simp [IpAddr.octets] at hlen
    | v6 octets' => exact congrArg IpAddr.v6 (List.Vector.toList_injective h)

theorem retryData_injective {address address' : SocketAddr} {rscid rscid' : ConnectionId}
    (hfamily : address.ip.octets.length = address'.ip.octets.length)
    (h : retryData address rscid = retryData address' rscid') :
    address = address' ∧ rscid = rscid' := by
  obtain ⟨haddress, hrscid⟩ := append_inj h (by simp [hfamily])
  obtain ⟨hip, hport⟩ := append_inj haddress hfamily
  have hports := congrArg ofBytes hport
  rw [ofBytes_toBytes_of_lt address.port.toNat_lt,
    ofBytes_toBytes_of_lt address'.port.toNat_lt] at hports
  obtain ⟨ip, port⟩ := address
  obtain ⟨ip', port'⟩ := address'
  obtain rfl := ip_eq_of_octets hip
  obtain rfl := UInt16.toNat_inj.mp hports
  exact ⟨rfl, ConnectionId.ext hrscid⟩

/-- Whom a token is for: its kind, the client's IP address and, for a Retry token, the port and the
id that the server chose. -/
inductive Subject where
  | retry (address : SocketAddr) (rscid : ConnectionId)
  | resume (ip : IpAddr)

/-- The kind of a token, whether the client has an IPv6 address, and the length of the id. -/
inductive Shape where
  | retry (v6 : Bool) (cidLen : Fin 21)
  | resume (v6 : Bool)

def subject? (tokenType : AddressTokenType) (address : SocketAddr)
    (rscid : Option ConnectionId) : Option Subject :=
  match tokenType, rscid with
  | .retryToken, some rscid => some (.retry address rscid)
  | .retryToken, none => none
  | .resumeToken, _ => some (.resume address.ip)

namespace Subject

def data : Subject → Bytes
  | .retry address rscid => retryData address rscid
  | .resume ip => ip.octets

def shape : Subject → Shape
  | .retry address rscid =>
    .retry address.ip.isV6 ⟨rscid.len, Nat.lt_succ_of_le rscid.length_le⟩
  | .resume ip => .resume ip.isV6

end Subject

theorem additionalData_of_subject? {tokenType : AddressTokenType} {address : SocketAddr}
    {rscid : Option ConnectionId} {x : Subject} (h : subject? tokenType address rscid = some x) :
    additionalData tokenType address rscid = .ok x.data := by
  cases tokenType <;> cases rscid <;> cases h <;> rfl

/-- Data of these shapes are equally long, and nothing in them says where the address ends. -/
def Shape.Confusable : Shape → Shape → Prop
  | .retry false n, .resume true => n.val = 10
  | .retry false n, .retry true n' => n.val = n'.val + 12
  | _, _ => False

theorem length_octets (ip : IpAddr) : ip.octets.length = if ip.isV6 then 16 else 4 := by
  cases ip <;> simp [IpAddr.octets, IpAddr.isV6]

theorem length_retryData (address : SocketAddr) (rscid : ConnectionId) :
    (retryData address rscid).length =
      (if address.ip.isV6 then 16 else 4) + 2 + rscid.len := by
  simp [retryData, length_octets, ConnectionId.len, Nat.add_assoc]

theorem Subject.eq_of_data {x y : Subject} (h : x.data = y.data)
    (hxy : ¬x.shape.Confusable y.shape) (hyx : ¬y.shape.Confusable x.shape) : x = y := by
  have hlen := congrArg length h
  cases x with
  | retry address rscid =>
    cases y with
    | retry address' rscid' =>
      simp only [data, length_retryData] at hlen
      have hfamily : address.ip.isV6 = address'.ip.isV6 := by
        cases hv : address.ip.isV6 <;> cases hv' : address'.ip.isV6 <;>
          simp [shape, Shape.Confusable, hv, hv'] at hlen hxy hyx ⊢ <;> omega
      obtain ⟨rfl, rfl⟩ := retryData_injective (by rw [length_octets, length_octets, hfamily]) h
      rfl
    | resume ip =>
      simp only [data, length_retryData, length_octets] at hlen
      cases hv : address.ip.isV6 <;> cases hv' : ip.isV6 <;>
        simp [shape, Shape.Confusable, hv, hv'] at hlen hxy <;> omega
  | resume ip =>
    cases y with
    | retry address rscid =>
      simp only [data, length_retryData, length_octets] at hlen
      cases hv : address.ip.isV6 <;> cases hv' : ip.isV6 <;>
        simp [shape, Shape.Confusable, hv, hv'] at hlen hyx <;> omega
    | resume ip' => exact congrArg resume (ip_eq_of_octets h)

/-- The address with all octets and the port made of ones, and an id of such octets. -/
def ones (v6 : Bool) : SocketAddr where
  ip := if v6 then .v6 (.replicate 16 1) else .v4 (.replicate 4 1)
  port := 257

theorem Shape.Confusable.collide {a b : Shape} (h : a.Confusable b) :
    ∃ x y : Subject, x.shape = a ∧ y.shape = b ∧ x.data = y.data ∧ x ≠ y := by
  have hlen (n : Fin 21) : (ConnectionId.new (replicate n 1)).len = n := by
    simp [ConnectionId.new, ConnectionId.len, maxCidLen]
    omega
  have hdata (v6 : Bool) (n : Fin 21) : retryData (ones v6) (.new (replicate n 1)) =
      replicate ((if v6 then 16 else 4) + 2 + n) 1 := by
    have hport : toBytes 2 (ones v6).port.toNat = replicate 2 1 := by cases v6 <;> rfl
    have hip : (ones v6).ip.octets = replicate (if v6 then 16 else 4) 1 := by cases v6 <;> rfl
    have hcid : (ConnectionId.new (replicate n 1)).bytes = replicate n 1 :=
      take_of_length_le (by simp [maxCidLen]; omega)
    rw [retryData, hport, hip, hcid, replicate_append_replicate, replicate_append_replicate]
  rcases a with ⟨_ | _, n⟩ | _ <;> rcases b with ⟨_ | _, n'⟩ | _ | _
  all_goals try exact False.elim h
  · refine ⟨.retry (ones false) (.new (replicate n 1)), .retry (ones true) (.new (replicate n' 1)),
      ?_, ?_, ?_, ?_⟩
    · simp [Subject.shape, ones, IpAddr.isV6, hlen]
    · simp [Subject.shape, ones, IpAddr.isV6, hlen]
    · rw [Subject.data, Subject.data, hdata, hdata, show n.val = n'.val + 12 from h]
      congr 1
      simp
      omega
    · simp [ones]
  · obtain rfl : n = 10 := Fin.ext h
    refine ⟨.retry (ones false) (.new (replicate 10 1)), .resume (ones true).ip, rfl, rfl, rfl, ?_⟩
    simp

theorem exists_subject? (x : Subject) :
    ∃ tokenType address rscid, subject? tokenType address rscid = some x :=
  match x with
  | .retry address rscid => ⟨.retryToken, address, some rscid, rfl⟩
  | .resume ip => ⟨.resumeToken, ⟨ip, 0⟩, none, rfl⟩

/-- The authenticated data tell apart whom tokens are for, and a token that is sealed for one of
them, whatever type its header is given, opens for no other, exactly for shapes that cannot be
confused. -/
theorem additionalData_injective (a b : Shape) :
    ((∀ tokenType address rscid tokenType' address' rscid' x y,
        subject? tokenType address rscid = some x → subject? tokenType' address' rscid' = some y →
        x.shape = a → y.shape = b →
        additionalData tokenType address rscid = additionalData tokenType' address' rscid' →
        x = y) ∧
      ∀ (Key : Type) (aead : Aead Key), aead.Binds → ∀ nonce key token body tokenType' address' dcid
        plain x y,
        encode aead nonce key token =
          .ok (label ++ token.tokenType.toU8 :: nonce.toList ++ body) →
        openBody aead key (label ++ tokenType'.toU8 :: nonce.toList ++ body) address' dcid =
          .ok (tokenType', true, plain) →
        subject? token.tokenType token.address token.rscid = some x →
        subject? tokenType' address' (expectedRscid tokenType' dcid) = some y →
        x.shape = a → y.shape = b → x = y) ↔
      ¬a.Confusable b ∧ ¬b.Confusable a := by
  constructor
  · rintro ⟨hdata, -⟩
    have hapart {x y : Subject} (hx : x.shape = a) (hy : y.shape = b) (h : x.data = y.data) :
        x = y := by
      obtain ⟨_, _, _, hsub⟩ := exists_subject? x
      obtain ⟨_, _, _, hsub'⟩ := exists_subject? y
      refine hdata _ _ _ _ _ _ x y hsub hsub' hx hy ?_
      rw [additionalData_of_subject? hsub, additionalData_of_subject? hsub', h]
    refine ⟨fun h => ?_, fun h => ?_⟩
    · obtain ⟨x, y, hx, hy, heq, hne⟩ := h.collide
      exact hne (hapart hx hy heq)
    · obtain ⟨y, x, hy, hx, heq, hne⟩ := h.collide
      exact hne (hapart hx hy heq.symm).symm
  · rintro ⟨hab, hba⟩
    refine ⟨fun _ _ _ _ _ _ x y hsub hsub' hx hy heq => ?_,
      fun Key aead hbinds nonce key token body type' address' dcid plain x y hencode hopen hsub
        hsub' hx hy => ?_⟩
    · rw [additionalData_of_subject? hsub, additionalData_of_subject? hsub'] at heq
      exact Subject.eq_of_data (ok.inj heq) (by rwa [hx, hy]) (by rwa [hx, hy])
    · obtain ⟨odcid, aad, sealed, -, haad, hseal, hbytes⟩ := encode_eq_ok hencode
      obtain rfl : body = sealed := append_cancel_left hbytes
      rw [additionalData_of_subject? hsub] at haad
      cases haad
      simp only [openBody, readHeader_append, additionalData_of_subject? hsub', ok_bind] at hopen
      refine Subject.eq_of_data (hbinds _ _ _ _ _ _ plain hseal ?_) (by rwa [hx, hy])
        (by rwa [hx, hy])
      simp only [Result.pure_def, ok.injEq, Prod.mk.injEq, true_and] at hopen
      exact Prod.ext hopen.1 hopen.2

/-- A resume token of an IPv6 client has the data of a Retry token of an IPv4 client, and
so have two Retry tokens of different families. -/
theorem additionalData_collides :
    let v4 (port : UInt16) : SocketAddr := ⟨.v4 ⟨List.replicate 4 1, rfl⟩, port⟩
    let v6 (port : UInt16) : SocketAddr := ⟨.v6 ⟨List.replicate 16 1, rfl⟩, port⟩
    let cid (n : ℕ) := .new (.replicate n 1)
    additionalData .resumeToken (v6 443) none =
        additionalData .retryToken (v4 257) (some (cid 10)) ∧
      additionalData .retryToken (v6 257) (some (cid 0)) =
        additionalData .retryToken (v4 257) (some (cid 12)) := by
  decide

end AddressToken

end Tquic
