import Tquic.Endpoint.Accept

/-!
# Address tokens under a list of keys

A server tries its keys in turn on the buffer that holds the token. An attempt that fails may
overwrite the buffer for the keys after it.
-/

namespace Tquic

open AddressToken

namespace AddressToken

/-- A token for a client: `dcid` is the id the client will send to, `odcid` the one it
sent to before a Retry. -/
def issueFor (tokenType : AddressTokenType) (issued : SystemTime) (address : SocketAddr)
    (odcid dcid : ConnectionId) : AddressToken :=
  match tokenType with
  | .retryToken => newRetryToken issued address odcid dcid
  | .resumeToken => newResumeToken issued address

def learned (tokenType : AddressTokenType) (issued : SystemTime) (address : SocketAddr)
    (odcid dcid : ConnectionId) : AddressToken where
  tokenType := tokenType
  issued := issued.floor
  address := address
  odcid := match tokenType with
    | .retryToken => recovered odcid
    | .resumeToken => some dcid
  rscid := expectedRscid tokenType dcid

variable {Key : Type} {aead : Aead Key} {nonce : List.Vector UInt8 nonceLen} {key : Key}
  {bytes : Bytes} {now issued : SystemTime} {lifetime : ℕ}

theorem decode_issueFor (hlaw : aead.Lawful) (tokenType : AddressTokenType) (address : SocketAddr)
    (odcid dcid : ConnectionId)
    (h : encode aead nonce key (issueFor tokenType issued address odcid dcid) = .ok bytes)
    (halive : Alive now issued lifetime) :
    (decode aead now key bytes address dcid lifetime).1 =
      .ok (learned tokenType issued address odcid dcid) := by
  cases tokenType with
  | retryToken => exact (decode_encode hlaw h rfl now lifetime).trans (if_pos halive)
  | resumeToken => exact (decode_encode_resume hlaw h dcid now lifetime).trans (if_pos halive)

end AddressToken

namespace Env

variable {Key C W : Type} {env : Env Key C W}

variable (env) in
def Spares (key : Key) (token : Bytes) (address : SocketAddr) (dcid : ConnectionId) : Prop :=
  ∃ tokenType, AddressToken.openBody env.aead key token address dcid =
    .ok (tokenType, false, token.drop (4 + 1 + AddressToken.nonceLen))

variable {token : Bytes} {address : SocketAddr} {dcid : ConnectionId}

theorem Spares.decode {key : Key} (h : env.Spares key token address dcid) (now : SystemTime)
    (lifetime : ℕ) :
    AddressToken.decode env.aead now key token address dcid lifetime =
      (.error .invalidToken, token) := by
  obtain ⟨tokenType, hopen⟩ := h
  simp only [AddressToken.decode, hopen, List.take_append_drop]
  rfl

theorem tryKeys_append {keys : List Key} {before : List Key}
    (hspares : ∀ key ∈ before, env.Spares key token address dcid) (now : SystemTime) :
    env.tryKeys now token address dcid (before ++ keys) =
      env.tryKeys now token address dcid keys := by
  induction before with
  | nil => rfl
  | cons key before ih =>
    have hfail := (hspares key (by simp)).decode now env.config.addressTokenLifetime
    rw [List.cons_append, tryKeys, hfail]
    apply ih
    exact fun key' hkey' => hspares key' (by simp [hkey'])

theorem tryKeys_cons_of_decode {key : Key} {keys : List Key} {now : SystemTime}
    {decoded : AddressToken} (h : (AddressToken.decode env.aead now key token address dcid
      env.config.addressTokenLifetime).1 = .ok decoded) :
    env.tryKeys now token address dcid (key :: keys) = .ok decoded := by
  obtain ⟨buf, hdecode⟩ : ∃ buf, decode env.aead now key token address dcid
      env.config.addressTokenLifetime = (.ok decoded, buf) := ⟨_, Prod.ext h rfl⟩
  rw [tryKeys, hdecode]

theorem openBody_marked {own : Key → Bool} {key : Key} {tokenType : AddressTokenType}
    (nonce : List.Vector UInt8 nonceLen) {body : Bytes}
    (hhead : body.head? ≠ some (own key).toNat.toUInt8) (address : SocketAddr)
    (dcid : ConnectionId) :
    openBody (.marked own) key (label ++ tokenType.toU8 :: nonce.toList ++ body) address dcid =
      .ok (tokenType, false, []) := by
  have hopen (nonce aad : Bytes) : (Aead.marked own).openInPlace key nonce aad body = (false, []) :=
    if_neg hhead
  cases tokenType <;> simp only [openBody, readHeader_append, Result.ok_bind, hopen] <;> rfl

/-- The first attempt, under another key, leaves nothing for the keys after it. -/
theorem tryKeys_marked {own : Key → Bool} {key : Key} (hown : own key = false)
    (haead : env.aead = .marked own) (keys : List Key) (tokenType : AddressTokenType)
    (nonce : List.Vector UInt8 nonceLen) (plain : Bytes) (now : SystemTime) :
    env.tryKeys now (label ++ tokenType.toU8 :: nonce.toList ++ 1 :: plain) address dcid
      (key :: keys) = .error .invalidToken := by
  have hlen : (label ++ tokenType.toU8 :: nonce.toList).length = 4 + 1 + nonceLen := by
    simp [label]
    omega
  have hspares : ∀ key ∈ keys, env.Spares key (label ++ tokenType.toU8 :: nonce.toList ++ [])
      address dcid := by
    intro key _
    refine ⟨tokenType, ?_⟩
    rw [haead, openBody_marked nonce (by simp), ← hlen, List.drop_left]
  have hfirst : openBody (.marked own) key (label ++ tokenType.toU8 :: nonce.toList ++ 1 :: plain)
      address dcid = .ok (tokenType, false, []) :=
    openBody_marked nonce (by simp [hown]) address dcid
  rw [tryKeys, decode, haead, hfirst]
  dsimp only
  rw [← hlen, List.take_left]
  rw [← List.append_nil keys]
  exact tryKeys_append hspares now

theorem exists_encode_marked {own : Key → Bool} {key : Key} (hown : own key = true)
    (tokenType : AddressTokenType) {issued : SystemTime} (hissued : 0 ≤ issued.nanos)
    (address : SocketAddr) (odcid dcid : ConnectionId) (nonce : List.Vector UInt8 nonceLen) :
    ∃ plain, encode (.marked own) nonce key (issueFor tokenType issued address odcid dcid) =
      .ok (label ++ tokenType.toU8 :: nonce.toList ++ 1 :: plain) := by
  have htime : ¬issued.nanos < 0 := not_lt.mpr hissued
  cases tokenType
  all_goals
    simp only [encode, issueTime, issueFor, newRetryToken, newResumeToken, htime, if_false,
      odcidField, additionalData, Result.ok_bind, Aead.marked, hown]
    exact ⟨_, rfl⟩

/-- A token is accepted for its client within its lifetime, whatever an AEAD leaves in a buffer that
it refuses, exactly if it is under the first of the keys. -/
theorem accepts_token_under_key (env : Env Key C W) (ep : Endpoint C W) (key : Key)
    (tokenType : AddressTokenType) {issued : SystemTime} (hissued : 0 ≤ issued.nanos)
    (halive : Alive (env.systemTime ep.world) issued env.config.addressTokenLifetime)
    (address : SocketAddr) (odcid dcid : ConnectionId) :
    (∀ aead : Aead Key, aead.Lawful → aead.Exact → ∀ nonce bytes,
      encode aead nonce key (issueFor tokenType issued address odcid dcid) = .ok bytes →
        { env with aead := aead }.validateAddressToken ep bytes address dcid =
          .ok (learned tokenType issued address odcid dcid)) ↔
      env.config.addressTokenKey.head? = some key := by
  constructor
  · intro h
    classical
    obtain ⟨first, keys, hkeys⟩ := List.exists_cons_of_ne_nil env.config.key_ne_nil
    rw [hkeys, List.head?_cons, Option.some_inj]
    by_contra hne
    let own (k : Key) : Bool := k = key
    have hown : own key = true := decide_eq_true rfl
    have hother : own first = false := decide_eq_false hne
    obtain ⟨plain, hencode⟩ := exists_encode_marked hown tokenType hissued address odcid dcid
      (.replicate _ 0)
    have haccept := h (.marked own) (Aead.marked_lawful own) (Aead.marked_exact own) _ _ hencode
    rw [validateAddressToken, hkeys, tryKeys_marked hother rfl] at haccept
    cases haccept
  · intro hfirst aead hlaw _ nonce bytes hencode
    obtain ⟨keys, hkeys⟩ := List.head?_eq_some_iff.mp hfirst
    rw [validateAddressToken, hkeys]
    apply tryKeys_cons_of_decode
    exact decode_issueFor hlaw tokenType address odcid dcid hencode halive

/-- A server that has changed its key from 0 to 1 and still knows the old one. -/
def rotatedServer : Env UInt8 Unit Unit :=
  { idleServer with
    config := { idleServer.config with
      addressTokenKey := [1, 0]
      key_ne_nil := by simp } }

def resumeToken (key : UInt8) : Bytes :=
  AddressToken.label ++ [1] ++ List.replicate 12 0 ++ [key, 4, 10, 0, 0, 1] ++ List.replicate 8 0

theorem accepts_token_under_key_new :
    { rotatedServer with aead := .marked (· == 1) }.validateAddressToken (Endpoint.new 10 ())
        (label ++ [1] ++ List.replicate 12 0 ++ 1 :: List.replicate 8 0) clientAddr (.new [7]) =
      .ok (learned .resumeToken ⟨0, by decide⟩ clientAddr (.new []) (.new [7])) :=
  (accepts_token_under_key rotatedServer (Endpoint.new 10 ()) 1 .resumeToken (by decide)
    (by decide) clientAddr (.new []) (.new [7])).mpr rfl _ (Aead.marked_lawful _)
    (Aead.marked_exact _) (.replicate _ 0) _ rfl

/-- A token under the old key is refused: the attempt under the new one destroys it. -/
theorem old_key_refused :
    AddressToken.encode rotatedServer.aead (List.Vector.replicate _ 0) 0
        (AddressToken.issueFor .resumeToken ⟨0, by decide⟩ clientAddr (.new []) (.new [7])) =
      .ok (resumeToken 0) ∧
    0 ∈ rotatedServer.config.addressTokenKey ∧
    AddressToken.Alive (rotatedServer.systemTime ()) ⟨0, by decide⟩
      rotatedServer.config.addressTokenLifetime ∧
    rotatedServer.validateAddressToken (Endpoint.new 10 ()) (resumeToken 0) clientAddr (.new [7]) =
      .error .invalidToken := by
  refine ⟨rfl, by decide, by decide, ?_⟩
  decide +kernel

end Env

end Tquic
