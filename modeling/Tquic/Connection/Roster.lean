import Tquic.Connection.Delivery
import Tquic.Connection.Silence

/-!
# Closed streams and credits

Who opened each stream, which are closed and what limits come next. The next limit is the initial
one and one more for every closed stream of the peer.
-/

namespace Tquic

open SortedMap ConcurrencyControl Finset StreamEvent

/-- A live stream is given by its opener, this endpoint or not, and by whether it is closed. -/
structure Roster where
  isServer : Bool
  live : SortedMap ℕ (Bool × Bool)
  gone : List ℕ
  due : List ℕ
  next : Bool → ℕ

namespace Roster

def create (r : Roster) (id : ℕ) : Roster :=
  { r with live := r.live.insert id (isLocal id r.isServer, false) }

def close (r : Roster) (id : ℕ) (own : Bool) : Roster :=
  { r with
    live := r.live.insert id (own, true)
    due := r.due ++ [id]
    next := if own then r.next
      else Function.update r.next (isBidi id) (saturatingAdd (r.next (isBidi id)) 1) }

def destroy (r : Roster) (id : ℕ) : Roster :=
  match r.live.get? id with
  | none => r
  | some _ => { r with live := r.live.erase id, gone := id :: r.gone }

def Used (r : Roster) (id : ℕ) : Prop := (∃ v, r.live.get? id = some v) ∨ id ∈ r.gone

inductive Step (r : Roster) : Roster → Prop
  | created {id : ℕ} (hnew : ¬r.Used id) : Step r (r.create id)
  | closed {id : ℕ} {own : Bool} (hget : r.live.get? id = some (own, false)) :
      Step r (r.close id own)
  | destroyed {id : ℕ} {rest : List ℕ} (hdue : r.due = id :: rest) :
      Step r (({ r with due := rest } : Roster).destroy id)

abbrev Path : Roster → Roster → Prop := Relation.ReflTransGen Step

theorem Path.of_eq {r r' : Roster} (h : r' = r) : Path r r' := h ▸ .refl

variable {r r' : Roster} {id : ℕ}

/-! ## Closed streams -/

def closed (r : Roster) : Finset ℕ :=
  {id ∈ r.live.keys | (r.live.get? id).any Prod.snd} ∪ r.gone.toFinset

theorem mem_closed : id ∈ r.closed ↔ (∃ own, r.live.get? id = some (own, true)) ∨ id ∈ r.gone := by
  simp only [closed, mem_union, mem_filter, mem_keys, List.mem_toFinset, Option.any_eq_true]
  constructor
  · rintro (⟨-, ⟨own, flag⟩, hget, hflag⟩ | hgone)
    · obtain rfl : flag = true := hflag
      exact .inl ⟨own, hget⟩
    · exact .inr hgone
  · rintro (⟨own, hget⟩ | hgone)
    · exact .inl ⟨⟨_, hget⟩, _, hget, rfl⟩
    · exact .inr hgone

def closedPeers (r : Roster) (b : Bool) : Finset ℕ :=
  {id ∈ r.closed | isLocal id r.isServer = false ∧ isBidi id = b}

theorem mem_closedPeers {b : Bool} :
    id ∈ r.closedPeers b ↔ id ∈ r.closed ∧ isLocal id r.isServer = false ∧ isBidi id = b :=
  mem_filter

/-- The identifier names the opener of a stream, no stream is both live and gone, and the credits
are those of the closed streams. -/
structure Sound (initial : Bool → ℕ) (r : Roster) : Prop where
  roles : ∀ id v, r.live.get? id = some v → v.1 = isLocal id r.isServer
  due : ∀ id ∈ r.due, id ∈ r.closed
  disjoint : ∀ id v, r.live.get? id = some v → id ∉ r.gone
  credits : ∀ b, r.next b = min (initial b + (r.closedPeers b).card) u64Max

/-! ## Steps -/

theorem closed_create (hnew : ¬r.Used id) : (r.create id).closed = r.closed := by
  ext id'
  rw [mem_closed, mem_closed]
  by_cases hid : id' = id
  · subst hid
    have hold : r.live.get? id' = none := by
      cases hget : r.live.get? id' with
      | none => rfl
      | some v => exact absurd (.inl ⟨v, hget⟩) hnew
    simp [create, get?_insert_self, hold]
  · simp [create, get?_insert_of_ne _ hid]

variable {own : Bool}

theorem closed_close : (r.close id own).closed = insert id r.closed := by
  ext id'
  rw [mem_closed, Finset.mem_insert, mem_closed]
  by_cases hid : id' = id
  · subst hid
    simp [close, get?_insert_self]
  · simp [close, get?_insert_of_ne _ hid, hid]

theorem closed_destroy (h : id ∈ r.closed) : (r.destroy id).closed = r.closed := by
  unfold destroy
  cases hget : r.live.get? id with
  | none => rfl
  | some =>
    ext id'
    rw [mem_closed]
    by_cases hid : id' = id
    · subst hid
      simp [h]
    · rw [mem_closed]
      simp [get?_erase_of_ne _ hid, hid]

theorem isServer_destroy (r : Roster) (id : ℕ) : (r.destroy id).isServer = r.isServer := by
  unfold destroy
  split <;> rfl

theorem isServer_of_step (h : Step r r') : r'.isServer = r.isServer := by
  cases h with
  | created | closed => rfl
  | destroyed => exact isServer_destroy _ _

variable {initial : Bool → ℕ}

theorem Sound.closed_step (h : r.Sound initial) (hstep : Step r r') :
    r'.closed = r.closed ∨
      ∃ id own, r.live.get? id = some (own, false) ∧ r'.closed = insert id r.closed := by
  cases hstep with
  | created hnew => exact .inl (closed_create hnew)
  | closed hget => exact .inr ⟨_, _, hget, closed_close⟩
  | @destroyed id rest hdue =>
    have hid : id ∈ r.closed := h.due id (hdue ▸ .head _)
    exact .inl (closed_destroy (r := { r with due := rest }) hid)

theorem Sound.notMem_closed (h : r.Sound initial) (hget : r.live.get? id = some (own, false)) :
    id ∉ r.closed := by
  intro hid
  rcases mem_closed.mp hid with ⟨own', hget'⟩ | hgone
  · rw [hget] at hget'
    cases hget'
  · exact h.disjoint id _ hget hgone

theorem Sound.create (h : r.Sound initial) (hnew : ¬r.Used id) : (r.create id).Sound initial := by
  have hclosed := closed_create hnew
  refine ⟨?_, ?_, ?_, ?_⟩
  · intro id' v hget
    rcases get?_insert_eq_some.mp hget with ⟨rfl, rfl⟩ | ⟨hin, -⟩
    · rfl
    · exact h.roles id' v hin
  · intro id' hdue
    rw [hclosed]
    exact h.due id' hdue
  · intro id' v hget hgone
    rcases get?_insert_eq_some.mp hget with ⟨rfl, -⟩ | ⟨hin, -⟩
    · exact hnew (.inr hgone)
    · exact h.disjoint id' v hin hgone
  · intro b
    rw [closedPeers, hclosed]
    exact h.credits b

theorem closedPeers_close (hrole : own = isLocal id r.isServer) (b : Bool) :
    (r.close id own).closedPeers b =
      if own = false ∧ isBidi id = b then insert id (r.closedPeers b) else r.closedPeers b := by
  ext id'
  rw [mem_closedPeers, closed_close, Finset.mem_insert]
  change (id' = id ∨ id' ∈ r.closed) ∧ isLocal id' r.isServer = false ∧ isBidi id' = b ↔ _
  split_ifs with hpeer
  · rw [Finset.mem_insert, mem_closedPeers]
    constructor
    · rintro ⟨rfl | hid, hkind⟩
      · exact .inl rfl
      · exact .inr ⟨hid, hkind⟩
    · rintro (rfl | ⟨hid, hkind⟩)
      · exact ⟨.inl rfl, hrole ▸ hpeer.1, hpeer.2⟩
      · exact ⟨.inr hid, hkind⟩
  · rw [mem_closedPeers]
    constructor
    · rintro ⟨rfl | hid, hkind⟩
      · exact absurd ⟨hrole.trans hkind.1, hkind.2⟩ hpeer
      · exact ⟨hid, hkind⟩
    · exact fun ⟨hid, hkind⟩ => ⟨.inr hid, hkind⟩

section

variable (h : r.Sound initial)

include h

theorem Sound.close (hget : r.live.get? id = some (own, false)) :
    (r.close id own).Sound initial := by
  have hrole : own = isLocal id r.isServer := h.roles id _ hget
  have hfresh := h.notMem_closed hget
  refine ⟨?_, ?_, ?_, ?_⟩
  · intro id' v hget'
    rcases get?_insert_eq_some.mp hget' with ⟨rfl, rfl⟩ | ⟨hin, -⟩
    · exact hrole
    · exact h.roles id' v hin
  · intro id' hdue
    rw [closed_close, Finset.mem_insert]
    rcases List.mem_append.mp hdue with hdue | hdue
    · exact .inr (h.due id' hdue)
    · exact .inl (List.mem_singleton.mp hdue)
  · intro id' v hget' hgone
    rcases get?_insert_eq_some.mp hget' with ⟨rfl, -⟩ | ⟨hin, -⟩
    · exact h.disjoint id' _ hget hgone
    · exact h.disjoint id' v hin hgone
  · intro b
    have hcredits := h.credits b
    rw [closedPeers_close hrole]
    cases own with
    | true =>
      have hnext : (r.close id true).next = r.next := rfl
      exact hcredits
    | false =>
      have hnext : (r.close id false).next =
          Function.update r.next (isBidi id) (saturatingAdd (r.next (isBidi id)) 1) := rfl
      rw [hnext]
      by_cases hb : isBidi id = b
      · subst hb
        have hnot : id ∉ r.closedPeers (isBidi id) := fun hid => hfresh (mem_closedPeers.mp hid).1
        rw [if_pos ⟨rfl, rfl⟩, card_insert_of_notMem hnot, Function.update_self,
          saturatingAdd, hcredits]
        omega
      · rw [if_neg fun hpeer => hb hpeer.2, Function.update_of_ne (symm hb)]
        exact hcredits

theorem Sound.destroy {rest : List ℕ} (hdue : r.due = id :: rest) :
    (({ r with due := rest } : Roster).destroy id).Sound initial := by
  have hid : id ∈ r.closed := h.due id (hdue ▸ .head _)
  have hclosed : (({ r with due := rest } : Roster).destroy id).closed = r.closed :=
    closed_destroy hid
  have hfewer : ∀ id' ∈ rest, id' ∈ r.closed :=
    fun id' hmem => h.due id' (hdue ▸ .tail _ hmem)
  have hcredits : ∀ b, (({ r with due := rest } : Roster).destroy id).closedPeers b =
      r.closedPeers b := by
    intro b
    rw [closedPeers, hclosed, isServer_destroy]
    rfl
  cases hget : r.live.get? id with
  | none =>
    have hsame : ({ r with due := rest } : Roster).destroy id = { r with due := rest } := by
      unfold Roster.destroy
      rw [hget]
    rw [hsame]
    exact ⟨h.roles, hfewer, h.disjoint, h.credits⟩
  | some v =>
    have hgone : ({ r with due := rest } : Roster).destroy id =
        { r with due := rest, live := r.live.erase id, gone := id :: r.gone } := by
      unfold Roster.destroy
      rw [hget]
    rw [hgone] at hclosed hcredits ⊢
    refine ⟨fun id' v hget' => h.roles id' v (get?_erase_eq_some.mp hget').1, ?_, ?_, ?_⟩
    · intro id' hmem
      rw [hclosed]
      exact hfewer id' hmem
    · intro id' v hget' hin
      obtain ⟨hget', hne⟩ := get?_erase_eq_some.mp hget'
      rcases List.mem_cons.mp hin with heq | hin
      · exact hne heq
      · exact h.disjoint id' v hget' hin
    · intro b
      rw [hcredits b]
      exact h.credits b

/-- Creating, closing and destroying streams keep the roster sound. -/
theorem Sound.step (hstep : Step r r') : r'.Sound initial := by
  cases hstep with
  | created hnew => exact h.create hnew
  | closed hget => exact h.close hget
  | destroyed hdue => exact h.destroy hdue

theorem Sound.gone_step (hstep : Step r r') : r.closed ⊆ r'.closed ∧ r.gone ⊆ r'.gone := by
  constructor
  · rcases h.closed_step hstep with heq | ⟨id, own, -, heq⟩
    · exact heq.symm.subset
    · exact heq ▸ subset_insert _ _
  · cases hstep with
    | created | closed => exact fun _ hid => hid
    | destroyed =>
      unfold Roster.destroy
      split
      · exact fun _ hid => hid
      · exact List.subset_cons_self _ _

theorem Sound.path (hpath : Path r r') :
    r'.Sound initial ∧ r'.isServer = r.isServer ∧ r.closed ⊆ r'.closed ∧ r.gone ⊆ r'.gone := by
  induction hpath with
  | refl => exact ⟨h, rfl, subset_rfl, fun _ hid => hid⟩
  | tail _ hstep ih =>
    obtain ⟨hsound, hserver, hclosed, hgone⟩ := ih
    obtain ⟨hclosed', hgone'⟩ := hsound.gone_step hstep
    exact ⟨hsound.step hstep, (isServer_of_step hstep).trans hserver, hclosed.trans hclosed',
      fun _ hid => hgone' (hgone hid)⟩

end

end Roster

def StreamEvent.toDestroy : StreamEvent → Option ℕ
  | .streamClosed id => some id
  | .streamCreated _ => none

namespace StreamMap

variable {p : Promise} {m m' : StreamMap} {id : ℕ} {s t : Stream}

/-! ## The roster of a stream map -/

def roster (m : StreamMap) : Roster where
  isServer := m.isServer
  live := m.streams.mapValues fun s => (s.isLocal, s.closed)
  gone := m.destroyed.map Prod.fst
  due := (m.events.getD []).filterMap StreamEvent.toDestroy
  next := m.concurrencyControl.localMaxStreamsNext

theorem roster_get? (m : StreamMap) (id : ℕ) :
    m.roster.live.get? id = (m.get? id).map fun s => (s.isLocal, s.closed) :=
  get?_mapValues _ _ _

theorem roster_get?_some (hget : m.get? id = some s) :
    m.roster.live.get? id = some (s.isLocal, s.closed) := by
  rw [roster_get?, hget]
  rfl

theorem roster_used : m.roster.Used id ↔ m.book.used id := by
  refine or_congr ?_ .rfl
  rw [mem_live_iff, roster_get?]
  simp only [Option.map_eq_some_iff]
  constructor
  · rintro ⟨v, s, hget, -⟩
    exact ⟨s, hget⟩
  · rintro ⟨s, hget⟩
    exact ⟨_, s, hget, rfl⟩

theorem Alike.roster_eq (h : Alike m m') : m'.roster = m.roster := by
  obtain ⟨t, rfl⟩ := h
  rfl

theorem roster_setStream (m : StreamMap) (id : ℕ) (t : Stream) :
    (m.setStream id t).roster =
      { m.roster with live := m.roster.live.insert id (t.isLocal, t.closed) } := by
  simp only [setStream, roster, mapValues_insert]

theorem roster_setStream_same (hget : m.get? id = some s) (hlocal : t.isLocal = s.isLocal)
    (hclosed : t.closed = s.closed) : (m.setStream id t).roster = m.roster := by
  rw [roster_setStream, hlocal, hclosed, insert_eq_self (roster_get?_some hget)]

theorem roster_setRecv (hget : m.get? id = some s) (recv : RecvBuf) :
    (m.setStream id { s with recv }).roster = m.roster :=
  roster_setStream_same hget rfl rfl

theorem roster_setSend (hget : m.get? id = some s) (send : SendBuf) :
    (m.setStream id { s with send }).roster = m.roster :=
  roster_setStream_same hget rfl rfl

theorem roster_pushWhen (m : StreamMap) (push : Bool) (id : ℕ) (s : Stream) :
    (m.pushWhen push id s).roster = m.roster := by
  cases push <;> rfl

theorem roster_fillWhen (m : StreamMap) (full : Bool) (id : ℕ) :
    (m.fillWhen full id).roster = m.roster := by
  cases full <;> rfl

theorem roster_streamDestroy (m : StreamMap) (id : ℕ) :
    (m.streamDestroy id).roster = m.roster.destroy id := by
  unfold streamDestroy Roster.destroy
  rw [roster_get?]
  cases m.get? id with
  | none => rfl
  | some => simp only [Option.map_some, roster, mapValues_erase, List.map_cons]

theorem roster_addEvent_closed {events : List StreamEvent} (h : m.events = some events) :
    (m.addEvent (.streamClosed id)).roster = { m.roster with due := m.roster.due ++ [id] } := by
  simp [roster, addEvent, h, toDestroy]

theorem roster_peerLimit (m : StreamMap) (bidi : Bool) (n : ℕ) :
    ({ m with concurrencyControl := m.concurrencyControl.updatePeerMaxStreams bidi n } :
      StreamMap).roster = m.roster := by
  have hunblock : ∀ c : ConcurrencyControl,
      (c.unblock bidi).localMaxStreamsNext = c.localMaxStreamsNext := by
    intro c
    unfold unblock
    split
    · rfl
    · split_ifs <;> rfl
  simp only [roster, updatePeerMaxStreams, hunblock]
  split_ifs <;> rfl

theorem rosters_closeWhen (hget : m.get? id = some s) (done : Bool) :
    Roster.Path m.roster (m.closeWhen done id s.isLocal).roster := by
  unfold closeWhen closeCore
  split_ifs with hdone hclosed
  · exact .refl
  · have hopen : s.closed = false := by
      unfold isClosed at hclosed
      rw [hget] at hclosed
      exact Bool.eq_false_iff.mpr hclosed
    have hflag : ((m.giveCredit id s.isLocal).flagClosed id).roster =
        { m.roster.close id s.isLocal with due := m.roster.due } := by
      unfold flagClosed
      rw [show (m.giveCredit id s.isLocal).get? id = some s from hget]
      rw [roster_setStream]
      cases hlocal : s.isLocal with
      | true => simp [roster, giveCredit, Roster.close, Stream.markClosed, hlocal]
      | false =>
        simp [roster, giveCredit, Roster.close, Stream.markClosed, hlocal,
          increaseMaxStreamsCredits]
    have hclose : Roster.Step m.roster (m.roster.close id s.isLocal) :=
      .closed (by rw [roster_get?_some hget, hopen])
    have hevents : ((m.giveCredit id s.isLocal).flagClosed id).events = m.events := by
      unfold flagClosed
      split <;> rfl
    unfold announceClosed
    cases hm : m.events with
    | some =>
      rw [hevents, hm]
      refine .single ?_
      rw [roster_addEvent_closed (hevents.trans hm), hflag]
      exact hclose
    | none =>
      have hnone : m.roster.due = [] := by
        change (m.events.getD []).filterMap _ = []
        rw [hm]
        rfl
      rw [hevents, hm]
      refine .tail (.single hclose) ?_
      rw [roster_streamDestroy, hflag, hnone]
      apply Roster.Step.destroyed
      change m.roster.due ++ [id] = [id]
      rw [hnone, List.nil_append]
  · exact .refl

/-- What one change of the stream map does to the roster. -/
theorem rosters_change (hkept : m.book.Kept) (h : Change p m m') :
    Roster.Path m.roster m'.roster := by
  cases h with
  | tables hm => exact .of_eq hm.roster_eq
  | created c id opener hget hid hclosed hopener hcheck =>
    have hnew : ¬m.roster.Used id := fun hused =>
      ((hkept.avail_iff id).mp (mem_availFor hget hclosed hcheck)).2 (roster_used.mp hused)
    have hcreate : (m.enroll c id opener).roster = m.roster.create id := by
      obtain ⟨-, peerOpened, localOpened, rfl⟩ := check_ok hcheck
      cases hevents : m.events <;>
        simp [enroll, create, addEvent, roster, Roster.create, mapValues_insert,
          removeAvailId, hopener, newStream, Stream.new, hevents,
          toDestroy]
    rw [hcreate]
    exact .single (.created hnew)
  | touched hget hs hm => rw [hm.roster_eq, roster_setStream_same hget hs.isLocal hs.closed]
  | @prioritized id s urgency incremental hget =>
    rw [roster_setStream_same (t := { s with urgency, incremental }) hget rfl rfl]
  | @read id cap s recv out fin _ hget hready hread hm =>
    rw [hm.roster_eq]
    refine .trans (Roster.Path.of_eq ?_) (rosters_closeWhen get?_consume_self _)
    exact (roster_fillWhen _ _ _).trans (roster_setRecv hget recv)
  | readFailed hget hready hread hm =>
    rw [hm.roster_eq]
    exact .trans (Roster.Path.of_eq (roster_setRecv hget _))
      (rosters_closeWhen (get?_setStream_self m _ _) _)
  | wrote hget hfinish hwrite hs hm =>
    rw [hm.roster_eq, roster_pushWhen, roster_setStream_same hget hs.isLocal hs.closed]
  | shutdownRead hget hallowed hshutdown hm =>
    rw [hm.roster_eq]
    exact .of_eq (roster_setRecv hget _)
  | shutdownWrite hget hallowed hshutdown hm => rw [hm.roster_eq, roster_setSend hget]
  | stopped hget hstop hm => rw [hm.roster_eq, roster_setSend hget]
  | maxDataRaised hget hmax hm => rw [hm.roster_eq, roster_pushWhen, roster_setSend hget]
  | received hget hframe hleft hwrite hm =>
    rw [hm.roster_eq]
    split_ifs
    · exact .of_eq (roster_setRecv hget _)
    · exact .of_eq (roster_setRecv hget _)
  | wasReset hget hframe hleft hreset hm =>
    rw [hm.roster_eq]
    exact .trans (Roster.Path.of_eq (roster_setRecv hget _))
      (rosters_closeWhen (get?_setStream_self m _ _) _)
  | peerLimit bidi => exact .of_eq (roster_peerLimit m bidi _)
  | peerParams => exact .refl
  | @polled e rest hevents _ hm =>
    rw [hm]
    cases e with
    | streamCreated =>
      refine of_eq ?_
      simp only [roster, hevents, Option.getD_some, List.filterMap_cons, toDestroy]
    | streamClosed =>
      rw [roster_streamDestroy]
      refine .single (.destroyed ?_)
      simp [roster, hevents, toDestroy]

theorem roster_control {now srtt : ℕ} {w w' : Writer} (h : Writer.Control now srtt w w') :
    w'.map.roster = w.map.roster := by
  cases h with
  | maxStreams | forgotten => rfl
  | tuned id s hget => exact roster_setRecv hget _
  | maxStreamData id s len hget => exact roster_setRecv hget _
  | connTuned | maxData | other => rfl

theorem roster_emission {w w' : Writer} (h : Writer.Emission w w') : w'.map.roster = w.map.roster :=
  view_emission h (fun _ _ => rfl) fun send hget => roster_setSend hget send

theorem rosters_acked {frame : Frame} (h : Acked m frame m') : Roster.Path m.roster m'.roster := by
  cases h with
  | stream hget hack hm =>
    rw [hm.roster_eq]
    exact .trans (Roster.Path.of_eq (roster_setSend hget _))
      (rosters_closeWhen (get?_setStream_self m _ _) _)
  | reset hget hm =>
    rw [hm.roster_eq]
    exact rosters_closeWhen hget _
  | other => exact .refl

theorem roster_lost {frame : Frame} (h : Lost m frame m') : m'.roster = m.roster := by
  cases h with
  | stream hget => rw [roster_pushWhen, roster_setSend hget]
  | maxData | maxStreamData => rfl
  | other hframe hm => exact hm.roster_eq

theorem rosters_move {x x' : Wire} (hkept : x.map.book.Kept) (h : Move p x x') :
    Roster.Path x.map.roster x'.map.roster := by
  cases h with
  | call h => exact rosters_change hkept h
  | frame hopen h => exact rosters_change hkept h
  | refused hopen h =>
    obtain ⟨id, s, code, size, recv, res, hget, hreset, -, rfl⟩ := h
    exact .of_eq (roster_setRecv hget recv)
  | closed => exact .refl
  | control hopen h => exact .of_eq (roster_control h)
  | emission hopen h => exact .of_eq (roster_emission h)
  | packed | ackPacket => exact .refl
  | ackFrame hopen hacking h => exact rosters_acked h
  | losePacket | probePacket => exact .refl
  | loseFrame hlost h => exact .of_eq (roster_lost h)

theorem rosters_of_moves {x x' : Wire} (hkept : x.map.book.Kept) (h : Moves p x x') :
    Roster.Path x.map.roster x'.map.roster := by
  induction h with
  | refl => exact .refl
  | tail hmoves hmove ih =>
    exact ih.trans (rosters_move (kept_of_books hkept (World.books_of_moves hmoves)) hmove)

theorem sound_start (conf : ReceiveConfig) (isServer endpoint : Bool) :
    (World.start conf isServer endpoint).map.roster.Sound
      conf.localTransportParams.initialMaxStreams := by
  have hdue : (World.start conf isServer endpoint).map.roster.due = [] := by
    cases endpoint <;> rfl
  refine ⟨nofun, ?_, nofun, ?_⟩
  · intro id hid
    rw [hdue] at hid
    cases hid
  · intro b
    have hmax := conf.params_encodable.streams b
    have hcard : ((World.start conf isServer endpoint).map.roster.closedPeers b).card = 0 := rfl
    rw [hcard, add_zero, min_eq_left (hmax.trans (by decide))]
    rfl

namespace World

variable {conf : ReceiveConfig} {isServer endpoint : Bool} {w w' : World}
  {legal : World → Op → Prop}

theorem rosters_of_reaches (hkept : w.map.book.Kept) (h : Exec.Reaches step legal w w') :
    Roster.Path w.map.roster w'.map.roster := by
  have hmoves : Moves _ w.wire w'.wire :=
    moves_of_reaches (h.mono fun w op _ => keeps_any w op)
  exact rosters_of_moves hkept hmoves

/-- The roster is sound in every reachable state, and the role never changes. -/
theorem sound_of_reaches (h : Exec.Reaches step legal (start conf isServer endpoint) w) :
    w.map.roster.Sound conf.localTransportParams.initialMaxStreams ∧ w.map.isServer = isServer := by
  have hpath := (sound_start conf isServer endpoint).path
    (rosters_of_reaches (kept_start conf isServer endpoint) h)
  exact ⟨hpath.1, hpath.2.1⟩

end World

end StreamMap

end Tquic
