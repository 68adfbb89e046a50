import Tquic.Endpoint.Accept
import Tquic.Endpoint.RouteChanges

/-!
# Connection attempts

All first Initial packets of a client reach the connection that the first one has created, if the
server enters the id that the client chose in its routes: without address validation and for a
token of an earlier connection, but not for the id of a Retry packet.
-/

namespace Tquic

/-! ## The original id in a token -/

variable {decoded : AddressToken}

namespace AddressToken

theorem tokenTypeOf_eq (token : Bytes) :
    tokenTypeOf token = match token[4]? with
      | none => .error .invalidToken
      | some b => readType b := by
  rw [tokenTypeOf]
  cases hdrop : token.drop 4 with
  | nil =>
    rw [List.getElem?_eq_none (List.drop_eq_nil_iff.mp hdrop)]
  | cons b =>
    have hget : token[4]? = some b := by
      have hhead := congrArg List.head? hdrop
      rwa [List.head?_drop] at hhead
    rw [hget]

variable {tokenType : AddressTokenType}

theorem tokenTypeOf_of_readHeader {token nonce body : Bytes}
    (h : readHeader token = .ok (tokenType, nonce, body)) :
    tokenTypeOf token = .ok tokenType ∧ 4 < token.length := by
  obtain ⟨⟨first, buf⟩, hlabel, h⟩ := Result.bind_eq_ok.mp h
  dsimp only at h
  split_ifs at h
  · cases h
  obtain ⟨⟨b, buf'⟩, hbyte, h⟩ := Result.bind_eq_ok.mp h
  obtain ⟨tokenType', htype, h⟩ := Result.bind_eq_ok.mp h
  obtain ⟨⟨nonce', body'⟩, -, h⟩ := Result.bind_eq_ok.mp h
  obtain rfl : tokenType' = tokenType := (Prod.mk.inj (Except.ok.inj h)).1
  rw [Decoder.read] at hlabel
  split_ifs at hlabel
  obtain rfl := (Prod.mk.inj (Except.ok.inj hlabel)).2
  cases hdrop : token.drop 4 with
  | nil =>
    rw [hdrop] at hbyte
    cases hbyte
  | cons b' =>
    rw [hdrop] at hbyte
    obtain rfl : b' = b := (Prod.mk.inj (Except.ok.inj hbyte)).1
    constructor
    · rw [tokenTypeOf, hdrop]
      exact htype
    · by_contra hshort
      rw [List.drop_eq_nil_of_le (by omega)] at hdrop
      cases hdrop

variable {Key : Type} {aead : Aead Key} {now : SystemTime} {key : Key} {token : Bytes}
  {address : SocketAddr} {dcid : ConnectionId} {lifetime : ℕ}

theorem openBody_tokenType {opened : Bool} {body : Bytes}
    (h : openBody aead key token address dcid = .ok (tokenType, opened, body)) :
    tokenTypeOf token = .ok tokenType ∧ 4 < token.length := by
  obtain ⟨⟨tokenType', nonce, body'⟩, hheader, h⟩ := Result.bind_eq_ok.mp h
  obtain ⟨aad, -, h⟩ := Result.bind_eq_ok.mp h
  obtain rfl : tokenType' = tokenType := (Prod.mk.inj (Except.ok.inj h)).1
  exact tokenTypeOf_of_readHeader hheader

theorem tokenTypeOf_decode :
    tokenTypeOf (decode aead now key token address dcid lifetime).2 = tokenTypeOf token := by
  rw [decode]
  split
  · rfl
  next tokenType opened body hopen =>
  have hlen := (openBody_tokenType hopen).2
  have hget : (token.take (4 + 1 + nonceLen) ++ body)[4]? = token[4]? := by
    rw [List.getElem?_append_left, List.getElem?_take_of_lt]
    · decide
    · rw [List.length_take]
      exact lt_min (by decide) hlen
  rw [tokenTypeOf_eq, tokenTypeOf_eq, hget]

theorem decode_odcid (htype : tokenTypeOf token ≠ .ok .retryToken)
    (h : (decode aead now key token address dcid lifetime).1 = .ok decoded) :
    decoded.odcid = some dcid := by
  rw [decode] at h
  split at h
  · cases h
  next tokenType opened body hopen =>
  rw [(openBody_tokenType hopen).1] at htype
  cases opened with
  | false => cases h
  | true =>
    obtain ⟨⟨issued, buf⟩, -, h⟩ := Result.bind_eq_ok.mp h
    obtain ⟨-, -, h⟩ := Result.bind_eq_ok.mp h
    obtain ⟨odcid, hodcid, h⟩ := Result.bind_eq_ok.mp h
    cases h
    cases tokenType with
    | retryToken => exact absurd rfl htype
    | resumeToken => exact (Except.ok.inj hodcid).symm

end AddressToken

theorem Env.tryKeys_odcid {Key C W : Type} {env : Env Key C W} {now : SystemTime} {token : Bytes}
    {address : SocketAddr} {dcid : ConnectionId} {keys : List Key}
    (htype : AddressToken.tokenTypeOf token ≠ .ok .retryToken)
    (h : env.tryKeys now token address dcid keys = .ok decoded) : decoded.odcid = some dcid := by
  induction keys generalizing token with
  | nil => cases h
  | cons key keys ih =>
    rw [tryKeys] at h
    split at h
    · next decoded' rest hdecode =>
        cases h
        exact AddressToken.decode_odcid htype (congrArg Prod.fst hdecode)
    · cases h
    · next rest _ hdecode =>
        have hrest : _ = rest := congrArg Prod.snd hdecode
        refine ih ?_ h
        rw [← hrest, AddressToken.tokenTypeOf_decode]
        exact htype

/-! ## Ids of clients and of the server -/

/-- The id is a source id of the connection, or was one and its route is to be removed. -/
def Hosted.Names (c : Hosted) (cid : ConnectionId) : Prop :=
  cid ∈ c.scids ∨ .scidRetired cid ∈ c.events

theorem Hosted.names_act {c : Hosted} {action : Action} {cid : ConnectionId}
    (h : (c.act action).Names cid) : c.Names cid := by
  cases @scidsChange_act c action with
  | same hscids hevents =>
    obtain ⟨l, hl, hnone⟩ := hevents
    rw [Names, hscids, hl, List.mem_append] at h
    exact h.imp_right fun hevent => hevent.resolve_right (hnone cid)
  | retire retired hstored hscids _ hevents =>
    rw [Names, hevents, List.mem_append, List.mem_singleton] at h
    rcases h with hcid | hold | hnew
    · exact .inl (hscids hcid)
    · exact .inr hold
    · obtain rfl := Event.scidRetired.inj hnew
      exact .inl hstored

namespace Hosting

variable {Key C W : Type} (env : Env Key C W) (ours : ConnectionId → Bool)

/-- The ids that the server generates are not those that clients choose, which are not empty; no
client comes with a Retry token; and a connection without its peer's id only gets packets that lead
to it. -/
def Fair (w : Hosting) : Op → Prop
  | .connect seed _ _ => ours seed.scid = true
  | .recv _ hdr _ info seed => ours seed.scid = true ∧
      (hdr.pktType = .initial → w.routes.findCid hdr.dcid info = none →
        hdr.dcid.isEmpty = false ∧ ours hdr.dcid = false ∧
          ∀ token ∈ hdr.token, AddressToken.tokenTypeOf token ≠ .ok .retryToken)
  | .act idx (.packet _ _ dcid) => ∀ c ∈ w.host? idx,
      c.gotPeerCid = false → w.routes.cidTable dcid = some idx
  | .act _ _ => True
  | .pollEvent _ fresh => ∀ p ∈ fresh, ours p.1 = true
  | .cleanup _ => True
  | .close _ => True

def Attempted (w : Hosting) (cid : ConnectionId) (idx : ℕ) : Prop :=
  ∃ a ∈ w.accepted, a.dcid = cid ∧ a.idx = idx

structure Routed (w : Hosting) : Prop where
  routed : ∀ a ∈ w.accepted, (w.host? a.idx).isSome → w.routes.cidTable a.dcid = some a.idx
  chosen : ∀ a ∈ w.accepted, ours a.dcid = false ∧ a.dcid.isEmpty = false
  below : ∀ a ∈ w.accepted, a.idx < w.conns.nextIndex
  cids : ∀ cid idx, w.routes.cidTable cid = some idx → ours cid = true ∨ w.Attempted cid idx
  names : ∀ idx c, w.host? idx = some c → ∀ cid, c.Names cid → ours cid = true
  origin : ∀ idx c, w.host? idx = some c → ∀ cid ∈ c.odcid, ours cid = true ∨ w.Attempted cid idx

variable {env ours} {w : Hosting}

theorem routed_start : Routed ours start where
  routed _ h := absurd h List.not_mem_nil
  chosen _ h := absurd h List.not_mem_nil
  below _ h := absurd h List.not_mem_nil
  cids _ _ h := nomatch h
  names _ _ h := nomatch h
  origin _ _ h := nomatch h

variable {cid : ConnectionId} {idx : ℕ} {hdr : PacketHeader} {c : Hosted}
  {token : Option AddressToken} {routes : ConnectionRoutes}

theorem Routed.ne_of_ours (h : w.Routed ours) {a : Accepted} (ha : a ∈ w.accepted)
    (hcid : ours cid = true) : a.dcid ≠ cid := by
  rintro rfl
  rw [(h.chosen a ha).1] at hcid
  cases hcid

variable {w' : Hosting}

theorem attempted_append (h : w.Attempted cid idx) {new : List Accepted}
    (haccepted : w'.accepted = w.accepted ++ new) : w'.Attempted cid idx := by
  obtain ⟨a, ha, hcid, hidx⟩ := h
  refine ⟨a, ?_, hcid, hidx⟩
  rw [haccepted]
  exact List.mem_append_left _ ha

theorem Routed.insert (h : w.Routed ours) {c : Hosted} {routes : ConnectionRoutes}
    {new : List Accepted}
    (hkept : ∀ cid idx, w.routes.cidTable cid = some idx → ours cid = false →
      routes.cidTable cid = some idx)
    (hnew : ∀ a ∈ new, a.idx = w.conns.nextIndex ∧ ours a.dcid = false ∧
      a.dcid.isEmpty = false ∧ routes.cidTable a.dcid = some a.idx)
    (hcids : ∀ cid idx, routes.cidTable cid = some idx → w.routes.cidTable cid = some idx ∨
      ours cid = true ∨ ∃ a ∈ new, a.dcid = cid ∧ a.idx = idx)
    (hnames : ∀ cid, c.Names cid → ours cid = true)
    (horigin : ∀ cid ∈ c.odcid, ∃ a ∈ new, a.dcid = cid) :
    { w with
      conns := w.conns.insert c, routes := routes, accepted := w.accepted ++ new }.Routed ours := by
  have hother : ∀ {idx}, idx ≠ w.conns.nextIndex → { w with
      conns := w.conns.insert c, routes := routes, accepted := w.accepted ++ new }.host? idx =
        w.host? idx := by
    intro idx hne
    simp [host?, ConnectionTable.get?_insert_of_ne _ hne]
  have hself : { w with
      conns := w.conns.insert c, routes := routes, accepted := w.accepted ++ new }.host?
        w.conns.nextIndex = some c := by simp [host?, ConnectionTable.get?_insert_self]
  refine ⟨?_, ?_, ?_, ?_, ?_, ?_⟩
  · intro a ha hlive
    rcases List.mem_append.mp ha with ha | ha
    · have hne : a.idx ≠ w.conns.nextIndex := (h.below a ha).ne
      rw [hother hne] at hlive
      exact hkept _ _ (h.routed a ha hlive) (h.chosen a ha).1
    · exact (hnew a ha).2.2.2
  · intro a ha
    rcases List.mem_append.mp ha with ha | ha
    · exact h.chosen a ha
    · exact ⟨(hnew a ha).2.1, (hnew a ha).2.2.1⟩
  · intro a ha
    rcases List.mem_append.mp ha with ha | ha
    · exact (h.below a ha).trans (Nat.lt_succ_self _)
    · rw [(hnew a ha).1]
      exact Nat.lt_succ_self _
  · intro cid idx hroute
    rcases hcids cid idx hroute with hold | hours | ⟨a, ha, hcid, hidx⟩
    · exact (h.cids cid idx hold).imp_right fun hattempt => attempted_append hattempt rfl
    · exact .inl hours
    · exact .inr ⟨a, List.mem_append_right _ ha, hcid, hidx⟩
  · intro idx c' hc' cid hcid
    by_cases hidx : idx = w.conns.nextIndex
    · subst hidx
      cases hself.symm.trans hc'
      exact hnames cid hcid
    · rw [hother hidx] at hc'
      exact h.names idx c' hc' cid hcid
  · intro idx c' hc' cid hcid
    by_cases hidx : idx = w.conns.nextIndex
    · subst hidx
      cases hself.symm.trans hc'
      obtain ⟨a, ha, hdcid⟩ := horigin cid hcid
      exact .inr ⟨a, List.mem_append_right _ ha, hdcid, (hnew a ha).1⟩
    · rw [hother hidx] at hc'
      exact (h.origin idx c' hc' cid hcid).imp_right fun hattempt => attempted_append hattempt rfl

variable {seed : Seed}

theorem Routed.connect (h : w.Routed ours) (hseed : ours seed.scid = true)
    (addr : FourTuple) (dcid : ConnectionId) : (w.connect seed addr dcid).Routed ours := by
  have hinsert := @Routed.insert ours w h (.newClient seed addr dcid)
    (Env.addClientRoute seed.scid w.conns.nextIndex addr w.routes) []
  rw [List.append_nil] at hinsert
  apply hinsert
  · intro cid idx hroute hours
    rw [Env.addClientRoute]
    split_ifs
    · exact hroute
    · have hne : cid ≠ seed.scid := by
        rintro rfl
        rw [hseed] at hours
        cases hours
      exact (Function.update_of_ne hne _ _).trans hroute
  · exact fun a ha => absurd ha List.not_mem_nil
  · intro cid idx hroute
    rw [Env.addClientRoute] at hroute
    split_ifs at hroute
    · exact .inl hroute
    · by_cases hcid : cid = seed.scid
      · exact .inr (.inl (hcid ▸ hseed))
      · exact .inl ((Function.update_of_ne hcid _ _).symm.trans hroute)
  · rintro cid (hcid | hcid)
    · obtain rfl := List.mem_singleton.mp hcid
      exact hseed
    · exact absurd hcid List.not_mem_nil
  · exact fun cid hcid => nomatch hcid

theorem findCid_of_isEmpty {dcid : ConnectionId} (h : dcid.isEmpty = false) (info : PacketInfo) :
    routes.findCid dcid info = routes.cidTable dcid := by
  rw [ConnectionRoutes.findCid, h]
  rfl

variable {info : PacketInfo}

section

variable (h : w.Routed ours)

include h

theorem Routed.accept (hlen : 0 < env.config.cidLen)
    (hseed : ours seed.scid = true) {token : Option AddressToken}
    (hfind : w.routes.cidTable hdr.dcid = none) (hempty : hdr.dcid.isEmpty = false)
    (hours : ours hdr.dcid = false) (htoken : ∀ t ∈ token, t.odcid = some hdr.dcid) :
    (w.accept env hdr token info seed hdr.dcid).Routed ours := by
  have htable : ∀ cid, (env.addRoutes seed.scid hdr.dcid info w.conns.nextIndex
      w.routes).cidTable cid = if cid = hdr.dcid then some w.conns.nextIndex
        else if cid = seed.scid then some w.conns.nextIndex else w.routes.cidTable cid := by
    intro cid
    rw [Env.addRoutes, if_pos hlen]
    simp only [ConnectionRoutes.insertWithCid, Function.update_apply]
  apply h.insert
  · intro cid idx hroute hcid
    have hne : cid ≠ hdr.dcid := by
      rintro rfl
      rw [hfind] at hroute
      cases hroute
    have hne' : cid ≠ seed.scid := by
      rintro rfl
      rw [hseed] at hcid
      cases hcid
    rw [htable, if_neg hne, if_neg hne']
    exact hroute
  · intro a ha
    obtain rfl := List.mem_singleton.mp ha
    exact ⟨rfl, hours, hempty, (htable _).trans (if_pos rfl)⟩
  · intro cid idx hroute
    rw [htable] at hroute
    split_ifs at hroute with hcid hcid'
    · exact .inr (.inr ⟨_, List.mem_singleton_self _, hcid.symm, Option.some.inj hroute⟩)
    · exact .inr (.inl (hcid' ▸ hseed))
    · exact .inl hroute
  · rintro cid (hcid | hcid)
    · obtain rfl := List.mem_singleton.mp hcid
      exact hseed
    · exact absurd hcid List.not_mem_nil
  · intro cid hcid
    obtain ⟨t, ht, hodcid⟩ := Option.bind_eq_some_iff.mp hcid
    rw [htoken t ht] at hodcid
    exact ⟨_, List.mem_singleton_self _, Option.some.inj hodcid⟩

theorem Routed.change (hlive : (w.host? idx).isSome)
    (hkept : ∀ cid i, w.routes.cidTable cid = some i → ours cid = false →
      routes.cidTable cid = some i) (hcids : ∀ cid i, routes.cidTable cid = some i →
      w.routes.cidTable cid = some i ∨ ours cid = true)
    (hnames : ∀ cid, c.Names cid → ours cid = true)
    (horigin : ∀ cid ∈ c.odcid, ours cid = true ∨ w.Attempted cid idx) :
    { w.setCore idx c with routes := routes }.Routed ours := by
  have hself : { w.setCore idx c with routes := routes }.host? idx = some c :=
    host?_setCore_self hlive c
  have hother : ∀ {i}, i ≠ idx → { w.setCore idx c with routes := routes }.host? i = w.host? i :=
    fun hne => host?_setCore_of_ne hne c
  refine ⟨?_, h.chosen, h.below, ?_, ?_, ?_⟩
  · intro a ha halive
    refine hkept _ _ (h.routed a ha ?_) (h.chosen a ha).1
    by_cases hidx : a.idx = idx
    · rw [hidx]
      exact hlive
    · rwa [hother hidx] at halive
  · intro cid i hroute
    rcases hcids cid i hroute with hold | hours
    · exact h.cids cid i hold
    · exact .inl hours
  · intro i c' hc' cid hcid
    by_cases hidx : i = idx
    · subst hidx
      cases hself.symm.trans hc'
      exact hnames cid hcid
    · rw [hother hidx] at hc'
      exact h.names i c' hc' cid hcid
  · intro i c' hc' cid hcid
    by_cases hidx : i = idx
    · subst hidx
      cases hself.symm.trans hc'
      exact horigin cid hcid
    · rw [hother hidx] at hc'
      exact h.origin i c' hc' cid hcid

section

variable (hc : w.host? idx = some c)

include hc

theorem Routed.act {action : Hosted.Action}
    (hfair : Fair ours w (.act idx action)) : (w.setCore idx (c.act action)).Routed ours := by
  refine h.change (by rw [hc]; rfl) (fun _ _ hroute _ => hroute)
    (fun _ _ hroute => .inl hroute) ?_ ?_
  · exact fun cid hcid => h.names idx c hc cid (Hosted.names_act hcid)
  · intro cid hcid
    rcases Hosted.odcid_act hcid with hold | ⟨hgot, pathId, scid, rfl⟩
    · exact h.origin idx c hc cid hold
    · exact h.cids cid idx (hfair c hc hgot)

theorem Routed.poll {event : Event}
    {events : List Event} (hevents : c.events = event :: events) {fresh : List (ConnectionId × ℕ)}
    (hfresh : ∀ p ∈ fresh, ours p.1 = true) :
    { w.setCore idx (handleEvent idx fresh { c with events := events } w.routes event).1 with
      routes := (handleEvent idx fresh { c with events := events } w.routes event).2 }.Routed
        ours := by
  have hlive : (w.host? idx).isSome := by
    rw [hc]
    rfl
  have hnames : ∀ cid, { c with events := events }.Names cid → ours cid = true := by
    intro cid hcid
    apply h.names idx c hc
    refine hcid.imp_right fun hevent => ?_
    rw [hevents]
    exact .tail _ hevent
  have hsame : ∀ routes : ConnectionRoutes, routes.cidTable = w.routes.cidTable →
      { w.setCore idx { c with events := events } with routes := routes }.Routed ours := by
    intro routes htable
    refine h.change hlive ?_ ?_ hnames (h.origin idx c hc)
    · exact fun cid i hroute _ => htable ▸ hroute
    · exact fun cid i hroute => .inl (htable ▸ hroute)
  cases event with
  | scidToAdvertise num =>
    have hext := extended_connAddScids idx (fresh.take num) { c with events := events } w.routes
    have hours : ∀ cid ∈ (fresh.take num).map Prod.fst, ours cid = true := by
      intro cid hcid
      obtain ⟨p, hp, rfl⟩ := List.mem_map.mp hcid
      exact hfresh p (List.mem_of_mem_take hp)
    refine h.change hlive ?_ ?_ ?_ ?_
    · intro cid i hroute hcid
      rcases hext.routed cid with heq | ⟨-, hmem, -⟩
      · exact heq.trans hroute
      · rw [hours cid hmem] at hcid
        cases hcid
    · intro cid i hroute
      rcases hext.routed cid with heq | ⟨-, hmem, -⟩
      · exact .inl (heq.symm.trans hroute)
      · exact .inr (hours cid hmem)
    · rintro cid (hcid | hcid)
      · rcases hext.stored cid hcid with hold | hnew
        · exact hnames cid (.inl hold)
        · exact hours cid hnew
      · have hkept : (connAddScids idx (fresh.take num)
            ({ c with events := events }, w.routes)).1.events = events := by rw [hext.core]
        exact hnames cid (.inr (hkept ▸ hcid))
    · have hkept : (connAddScids idx (fresh.take num)
          ({ c with events := events }, w.routes)).1.odcid = c.odcid := by rw [hext.core]
      exact fun cid hcid => h.origin idx c hc cid (hkept ▸ hcid)
  | scidRetired retired =>
    have hours : ours retired = true := by
      apply h.names idx c hc
      right
      rw [hevents]
      exact List.mem_cons_self ..
    refine h.change hlive ?_ ?_ hnames (h.origin idx c hc)
    · intro cid i hroute hcid
      have hne : cid ≠ retired := by
        rintro rfl
        rw [hours] at hcid
        cases hcid
      exact (Function.update_of_ne hne _ _).trans hroute
    · intro cid i hroute
      rcases eq_or_ne cid retired with rfl | hne
      · exact .inr hours
      · exact .inl ((Function.update_of_ne hne _ _).symm.trans hroute)
  | dcidAdvertised | dcidRetired | resetTokenAdvertised | connectionEstablished | newToken
  | streamCreated | streamClosed | datagramReceived => exact hsame _ rfl

theorem Routed.mem_routes (hcid : cid ∈ c.routes.1) : ours cid = true ∨ w.Attempted cid idx := by
  rcases List.mem_append.mp hcid with hscid | hodcid
  · split_ifs at hscid
    · exact absurd hscid List.not_mem_nil
    · exact .inl (h.names idx c hc cid (.inl hscid))
  · split_ifs at hodcid
    · exact h.origin idx c hc cid (Option.mem_toList.mp hodcid)
    · exact absurd hodcid List.not_mem_nil

theorem Routed.cleanup :
    { w with routes := w.routes.remove c.routes, conns := w.conns.remove idx }.Routed ours := by
  have hlive : (w.host? idx).isSome := by
    rw [hc]
    rfl
  have htable : ∀ cid, (w.routes.remove c.routes).cidTable cid =
      if cid ∈ c.routes.1 then none else w.routes.cidTable cid :=
    ConnectionRoutes.cidTable_remove _ _
  have hother : ∀ {i c'}, { w with
      routes := w.routes.remove c.routes, conns := w.conns.remove idx }.host? i = some c' →
        i ≠ idx ∧ w.host? i = some c' := by
    intro i c' hi
    have hne : i ≠ idx := by
      rintro rfl
      simp [host?, ConnectionTable.get?_remove_self] at hi
    exact ⟨hne, by simpa [host?, ConnectionTable.get?_remove_of_ne _ hne] using hi⟩
  refine ⟨?_, h.chosen, h.below, ?_, ?_, ?_⟩
  · intro a ha halive
    obtain ⟨c', hc'⟩ := Option.isSome_iff_exists.mp halive
    obtain ⟨hne, hold⟩ := hother hc'
    have hroute := h.routed a ha (by rw [hold]; rfl)
    rw [htable, if_neg, hroute]
    intro hmem
    rcases h.mem_routes hc hmem with hours | ⟨b, hb, hdcid, hidx⟩
    · exact h.ne_of_ours ha hours rfl
    · -- two live connections would share the id
      have hroute' := h.routed b hb (by rw [hidx]; exact hlive)
      rw [hdcid, hroute, hidx] at hroute'
      exact hne (Option.some.inj hroute')
  · intro cid i hroute
    rw [htable] at hroute
    split_ifs at hroute
    exact h.cids cid i hroute
  · intro i c' hc'
    exact h.names i c' (hother hc').2
  · intro i c' hc'
    exact h.origin i c' (hother hc').2

end

theorem Routed.close (force : Bool) : (w.close force).Routed ours := by
  cases force with
  | false => exact ⟨h.routed, h.chosen, h.below, h.cids, h.names, h.origin⟩
  | true =>
    exact ⟨fun _ _ hlive => (nomatch hlive), h.chosen, h.below, fun _ _ hroute => (nomatch hroute),
      fun _ _ hc => (nomatch hc), fun _ _ hc => (nomatch hc)⟩

end

theorem odcid_of_validate {now : SystemTime}
    (hretry : ∀ t ∈ hdr.token, AddressToken.tokenTypeOf t ≠ .ok .retryToken)
    (h : validateInitialToken env now hdr info = some token) :
    ∀ t ∈ token, t.odcid = some hdr.dcid := by
  rw [validateInitialToken] at h
  split at h
  · next bytes hbytes =>
      split at h
      · next decoded hdecoded =>
          cases h
          rintro t ⟨⟩
          exact Env.tryKeys_odcid (hretry bytes hbytes) hdecoded
      · cases h
  · split_ifs at h
    cases h
    exact fun t ht => nomatch ht

theorem originalDcid_eq {odcid : ConnectionId}
    (htoken : ∀ t ∈ token, t.odcid = some hdr.dcid) (h : Env.originalDcid hdr token = .ok odcid) :
    odcid = hdr.dcid := by
  cases token with
  | none => exact (Exec.ok.inj h).symm
  | some t =>
    rw [Env.originalDcid, htoken t rfl] at h
    exact (Exec.ok.inj h).symm

/-- Every fair operation keeps the routes of the attempts. -/
theorem Routed.step (h : w.Routed ours) (hlen : 0 < env.config.cidLen) {op : Op}
    (hfair : Fair ours w op) {o : Option ℕ}
    (hstep : step env w op = .ok (w', o)) : w'.Routed ours := by
  rcases step_cases hstep with rfl | hchange
  · exact h
  cases hchange with
  | connect seed addr dcid => exact h.connect hfair addr dcid
  | accept hfind hinitial hvalid hodcid =>
    obtain ⟨hseed, hchosen⟩ := hfair
    obtain ⟨hempty, hours, hretry⟩ := hchosen hinitial hfind
    have htoken := odcid_of_validate hretry hvalid
    obtain rfl := originalDcid_eq htoken hodcid
    rw [findCid_of_isEmpty hempty] at hfind
    exact h.accept hlen hseed hfind hempty hours htoken
  | act action hc => exact h.act hc hfair
  | poll fresh hc hevents => exact h.poll hc hevents hfair
  | cleanup hc => exact h.cleanup hc
  | close force => exact h.close force

instance decidableFair (w : Hosting) (op : Op) : Decidable (Fair ours w op) := by
  unfold Fair
  split <;> infer_instance

/-! ## Every Initial of an attempt reaches its connection -/

/-- In every run of fair steps, as long as the connection that an attempt has created exists, every
datagram to the id of the attempt goes to it. -/
theorem attempt_reaches_its_connection (env : Env Key C W) (ours : ConnectionId → Bool)
    (hlen : 0 < env.config.cidLen) {w : Hosting}
    (hreach : Exec.Reaches (step env) (Fair ours) start w) {a : Accepted} (ha : a ∈ w.accepted)
    (hlive : (w.host? a.idx).isSome) (now : SystemTime) {hdr : PacketHeader}
    (hdcid : hdr.dcid = a.dcid) (buf : Bytes) (info : PacketInfo) (seed : Seed) :
    w.recv env now hdr buf info seed = .ok (w, some a.idx) := by
  have hrouted : w.Routed ours :=
    hreach.invariant (Routed ours) (fun _ _ _ _ h hfair hstep => h.step hlen hfair hstep)
      routed_start
  have hfind : w.routes.findCid hdr.dcid info = some a.idx := by
    rw [hdcid, findCid_of_isEmpty (hrouted.chosen a ha).2]
    exact hrouted.routed a ha hlive
  rw [recv, ConnectionRoutes.find, hfind]

/-! ## Two servers -/

open Env

def openServer : Env UInt8 Unit Unit :=
  { idleServer with config := { idleServer.config with retry := false } }

/-- An Initial of the client; the server has the id `scid` for a new connection. -/
def initialTo (dcid : Bytes) (token : Option Bytes) (scid : Bytes) : Op :=
  .recv .epoch ⟨.initial, 1, .new dcid, .new [], token⟩ [] ⟨clientAddr, serverAddr⟩
    ⟨.new scid, none, 2⟩

def startsWithSeven (cid : ConnectionId) : Bool := cid.bytes.head? = some 7

def attempted : Hosting :=
  Exec.follow (step openServer) (Fair startsWithSeven) start
    [initialTo [1] none [7], .act 0 (.packet 0 (.new []) (.new [1])), initialTo [2] none [7, 1],
      initialTo [1] none [7, 2]]

theorem attempt_reaches_its_connection_second :
    attempted.accepted = [⟨.new [1], .new [1], 0⟩, ⟨.new [2], .new [2], 1⟩] ∧
      attempted.recv openServer ⟨0, by decide⟩ ⟨.initial, 1, .new [1], .new [], none⟩ []
        ⟨clientAddr, serverAddr⟩ ⟨.new [7, 3], none, 2⟩ = .ok (attempted, some 0) := by
  have haccepted : attempted.accepted = [⟨.new [1], .new [1], 0⟩, ⟨.new [2], .new [2], 1⟩] := by
    decide +kernel
  have hreach : Exec.Reaches (step openServer) (Fair startsWithSeven) start attempted :=
    Exec.reaches_follow start _
  have hmem : ⟨.new [1], .new [1], 0⟩ ∈ attempted.accepted := by
    exact List.mem_cons_self ..
  refine ⟨haccepted, ?_⟩
  exact attempt_reaches_its_connection openServer startsWithSeven (by decide) hreach hmem
    (by decide +kernel) _ rfl _ _ _

def afterTwo (env : Env UInt8 Unit Unit) (dcid : Bytes) (token : Option Bytes) : Hosting :=
  Exec.follow (step env) (fun _ _ => True) start
    [initialTo dcid token [8], initialTo dcid token [9]]

/-- The client answers the Retry for its Initial to `[1]` with two Initials to the id of the
Retry, and the server creates a connection for each. -/
theorem second_connection_after_retry :
    AddressToken.encode idleServer.aead (List.Vector.replicate _ 0) idleServer.tokenKey
        (.newRetryToken ⟨0, by decide⟩ clientAddr (.new [1]) (.new [7])) = .ok (retryToken [1]) ∧
      Exec.Reaches (step idleServer) (fun _ _ ↦ True) start
        (afterTwo idleServer [7] (some (retryToken [1]))) ∧
      (afterTwo idleServer [7] (some (retryToken [1]))).accepted =
        [⟨.new [7], .new [1], 0⟩, ⟨.new [7], .new [1], 1⟩] ∧
      ((afterTwo idleServer [7] (some (retryToken [1]))).host? 0).isSome ∧
      ((afterTwo idleServer [7] (some (retryToken [1]))).host? 1).isSome :=
  ⟨by decide +kernel, Exec.reaches_follow start _, by decide +kernel, by decide +kernel,
    by decide +kernel⟩

end Hosting

end Tquic
