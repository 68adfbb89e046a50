import Tquic.Connection.Move

/-!
# Identifiers of streams

The part of the stream map that decides which stream may be opened. Every move of a run changes it
in one of the five ways of `Book.Step`.
-/

namespace Tquic

open ConcurrencyControl SortedMap RangeSet

/-- Limits and sets of sequence numbers are given by opener, this endpoint or not,
and by direction. -/
structure Book where
  isServer : Bool
  live : Finset ℕ
  gone : List ℕ
  limit : Bool → Bool → ℕ
  avail : Bool → Bool → RangeSet
  pending : Bool → ℕ
  next : Bool → ℕ

theorem id_eq_of_kind {id id' : ℕ} {isServer : Bool}
    (hlocal : isLocal id isServer = isLocal id' isServer) (hbidi : isBidi id = isBidi id')
    (hseq : id / 4 = id' / 4) : id = id' := by
  have hserver : isServer.toNat = 0 ∨ isServer.toNat = 1 := by cases isServer <;> simp
  simp only [isLocal, isBidi, decide_eq_decide] at hlocal hbidi
  omega

variable {n : ℕ} {k' : Book}

namespace Book

def used (k : Book) (id : ℕ) : Prop := id ∈ k.live ∨ id ∈ k.gone

def availFor (k : Book) (id : ℕ) : RangeSet := k.avail (isLocal id k.isServer) (isBidi id)

def limitFor (k : Book) (id : ℕ) : ℕ := k.limit (isLocal id k.isServer) (isBidi id)

def setAvail (k : Book) (l b : Bool) (r : RangeSet) : Bool → Bool → RangeSet :=
  Function.update k.avail l (Function.update (k.avail l) b r)

def create (k : Book) (id : ℕ) : Book :=
  { k with
    live := insert id k.live
    avail := k.setAvail (isLocal id k.isServer) (isBidi id) ((k.availFor id).removeElem (id / 4))
    next := Function.update k.next (isBidi id) (saturatingAdd (max (k.next (isBidi id)) id) 4) }

def raise (k : Book) (l b : Bool) (n : ℕ) : Book :=
  { k with
    limit := Function.update k.limit l (Function.update (k.limit l) b n)
    avail := k.setAvail l b ((k.avail l b).insert (k.limit l b) n) }

/-- The steps; `adopt` says whether streams of this endpoint may be created. -/
inductive Step (adopt : Prop) (k : Book) : Book → Prop
  | created (id : ℕ) (hid : id ≤ vintMax) (havail : id / 4 ∈ k.availFor id)
      (hadopt : isLocal id k.isServer = true → adopt) : Step adopt k (k.create id)
  | removed (id : ℕ) (hlive : id ∈ k.live) :
      Step adopt k { k with live := k.live.erase id, gone := id :: k.gone }
  | credited (bidi : Bool) :
      Step adopt k { k with
        pending := Function.update k.pending bidi (saturatingAdd (k.pending bidi) 1) }
  | peerRaised (bidi : Bool) (n : ℕ) (hlt : k.limit true bidi < n) (hn : n ≤ vintMax) :
      Step adopt k (k.raise true bidi n)
  | localRaised (bidi : Bool) (hn : k.pending bidi ≤ vintMax) :
      Step adopt k (k.raise false bidi (k.pending bidi))

/-! ## Available numbers -/

/-- A sequence number is available when it is within the limit and was not used. -/
structure Kept (k : Book) : Prop where
  disjoint : ∀ id ∈ k.live, id ∉ k.gone
  avail_iff : ∀ id, id / 4 ∈ k.availFor id ↔ id / 4 < k.limitFor id ∧ ¬ k.used id
  below : ∀ l b, (k.avail l b).Below (vintMax + 1)
  used_lt : ∀ id, k.used id → id / 4 < k.limitFor id
  limit_le : ∀ l b, k.limit l b ≤ vintMax
  pending_le : ∀ b, k.limit false b ≤ k.pending b

theorem setAvail_self (k : Book) (l b : Bool) (r : RangeSet) : k.setAvail l b r l b = r := by
  simp [setAvail]

variable {l b : Bool}

theorem setAvail_of_ne (k : Book) {l' b' : Bool} (r : RangeSet) (h : ¬(l' = l ∧ b' = b)) :
    k.setAvail l b r l' b' = k.avail l' b' := by
  unfold setAvail
  by_cases hl : l' = l
  · subst hl
    have hb : b' ≠ b := fun hb => h ⟨rfl, hb⟩
    simp [hb]
  · simp [hl]

theorem vintMax_lt : vintMax + 1 < 2 ^ 64 := by decide

variable {k : Book}

theorem Kept.create (h : k.Kept) {id : ℕ} (havail : id / 4 ∈ k.availFor id) :
    (k.create id).Kept := by
  obtain ⟨hlt, hfresh⟩ := (h.avail_iff id).mp havail
  have hused : ∀ id', (k.create id).used id' ↔ id' = id ∨ k.used id' := by
    intro id'
    simp only [used, Book.create, Finset.mem_insert, or_assoc]
  refine ⟨?_, ?_, ?_, ?_, h.limit_le, h.pending_le⟩
  · intro id' hid' hgone
    rcases Finset.mem_insert.mp hid' with rfl | hid'
    · exact hfresh (.inr hgone)
    · exact h.disjoint id' hid' hgone
  · intro id'
    have hold := h.avail_iff id'
    have hlimit : (k.create id).limitFor id' = k.limitFor id' := rfl
    rw [hused, hlimit]
    by_cases hkind : isLocal id' k.isServer = isLocal id k.isServer ∧ isBidi id' = isBidi id
    · have hset : (k.create id).availFor id' = (k.availFor id).removeElem (id / 4) := by
        change k.setAvail _ _ _ (isLocal id' k.isServer) (isBidi id') = _
        rw [hkind.1, hkind.2, setAvail_self]
      have hsame : k.availFor id' = k.availFor id := by
        simp only [availFor, hkind.1, hkind.2]
      have hsmall : id / 4 < u64Max := by
        have hbelow := (h.below _ _).lt _ havail
        have hmax : vintMax < u64Max := by decide
        omega
      rw [hset, mem_removeElem hsmall, ← hsame, hold]
      have hid : id' / 4 = id / 4 ↔ id' = id := by
        constructor
        · intro hseq
          exact id_eq_of_kind hkind.1 hkind.2 hseq
        · rintro rfl
          rfl
      tauto
    · have hset : (k.create id).availFor id' = k.availFor id' :=
        k.setAvail_of_ne _ hkind
      rw [hset, hold]
      tauto
  · intro l b
    change (k.setAvail _ _ _ l b).Below _
    by_cases hkind : l = isLocal id k.isServer ∧ b = isBidi id
    · rw [hkind.1, hkind.2, setAvail_self]
      exact (h.below _ _).remove _ _
    · rw [k.setAvail_of_ne _ hkind]
      exact h.below l b
  · intro id' hid'
    rcases (hused id').mp hid' with rfl | hid'
    · exact hlt
    · exact h.used_lt id' hid'

theorem Kept.raise (h : k.Kept) (hle : k.limit l b ≤ n) (hn : n ≤ vintMax)
    (hpending : l = false → n ≤ k.pending b) : (k.raise l b n).Kept := by
  have hlimit_self : (k.raise l b n).limit l b = n := by simp [Book.raise]
  have hlimit_ne : ∀ l' b', ¬(l' = l ∧ b' = b) → (k.raise l b n).limit l' b' = k.limit l' b' := by
    intro l' b' hne
    simp only [Book.raise]
    by_cases hl : l' = l
    · subst hl
      have hb : b' ≠ b := fun hb => hne ⟨rfl, hb⟩
      simp [hb]
    · simp [hl]
  have hlimitFor : ∀ id, isLocal id k.isServer = l → isBidi id = b →
      k.limitFor id = k.limit l b ∧ (k.raise l b n).limitFor id = n := by
    intro id hl hb
    refine ⟨by simp only [limitFor, hl, hb], ?_⟩
    change (k.raise l b n).limit (isLocal id k.isServer) (isBidi id) = n
    rw [hl, hb, hlimit_self]
  refine ⟨h.disjoint, ?_, ?_, ?_, ?_, ?_⟩
  · intro id
    have hold := h.avail_iff id
    have hused : (k.raise l b n).used id ↔ k.used id := .rfl
    rw [hused]
    by_cases hkind : isLocal id k.isServer = l ∧ isBidi id = b
    · have hset : (k.raise l b n).availFor id = (k.avail l b).insert (k.limit l b) n := by
        change k.setAvail _ _ _ (isLocal id k.isServer) (isBidi id) = _
        rw [hkind.1, hkind.2, setAvail_self]
      obtain ⟨hlimOld, hlim⟩ := hlimitFor id hkind.1 hkind.2
      have havailOld : k.availFor id = k.avail l b := by
        simp only [availFor, hkind.1, hkind.2]
      -- a number between the two limits was never used
      have hnew : k.limit l b ≤ id / 4 → ¬ k.used id := by
        intro hge hid
        have := h.used_lt id hid
        omega
      rw [hset, hlim, (h.below l b).mem_insert vintMax_lt, ← havailOld, hold, hlimOld]
      constructor
      · rintro (⟨hlt, hid⟩ | ⟨hge, hlt⟩)
        · exact ⟨by omega, hid⟩
        · exact ⟨hlt, hnew hge⟩
      · rintro ⟨hlt, hid⟩
        by_cases hge : k.limit l b ≤ id / 4
        · exact .inr ⟨hge, hlt⟩
        · exact .inl ⟨not_le.mp hge, hid⟩
    · have hset : (k.raise l b n).availFor id = k.availFor id := k.setAvail_of_ne _ hkind
      have hlim : (k.raise l b n).limitFor id = k.limitFor id := hlimit_ne _ _ hkind
      rw [hset, hlim, hold]
  · intro l' b'
    change (k.setAvail _ _ _ l' b').Below _
    by_cases hkind : l' = l ∧ b' = b
    · rw [hkind.1, hkind.2, setAvail_self]
      refine (h.below _ _).insert vintMax_lt ?_
      intro x _ hx
      omega
    · rw [k.setAvail_of_ne _ hkind]
      exact h.below l' b'
  · intro id hid
    have hold := h.used_lt id hid
    by_cases hkind : isLocal id k.isServer = l ∧ isBidi id = b
    · obtain ⟨hlimOld, hlim⟩ := hlimitFor id hkind.1 hkind.2
      omega
    · have hlim : (k.raise l b n).limitFor id = k.limitFor id := hlimit_ne _ _ hkind
      omega
  · intro l' b'
    by_cases hkind : l' = l ∧ b' = b
    · rw [hkind.1, hkind.2, hlimit_self]
      exact hn
    · rw [hlimit_ne l' b' hkind]
      exact h.limit_le l' b'
  · intro b'
    by_cases hkind : false = l ∧ b' = b
    · obtain ⟨rfl, rfl⟩ := hkind
      rw [hlimit_self]
      exact hpending rfl
    · rw [hlimit_ne false b' hkind]
      exact h.pending_le b'

theorem used_removed {id : ℕ} (hlive : id ∈ k.live) (id' : ℕ) :
    ({ k with live := k.live.erase id, gone := id :: k.gone } : Book).used id' ↔ k.used id' := by
  simp only [used, Finset.mem_erase, List.mem_cons]
  by_cases heq : id' = id
  · subst heq
    simp [hlive]
  · simp [heq]

/-- Every step of the book keeps it. -/
theorem Kept.step {adopt : Prop} (h : k.Kept) (hstep : Step adopt k k') : k'.Kept := by
  cases hstep with
  | created id hid havail => exact h.create havail
  | removed id hlive =>
    have hused := used_removed hlive
    refine ⟨?_, ?_, h.below, ?_, h.limit_le, h.pending_le⟩
    · intro id' hid' hgone
      obtain ⟨hne, hid'⟩ := Finset.mem_erase.mp hid'
      rcases List.mem_cons.mp hgone with heq | hgone
      · exact hne heq
      · exact h.disjoint id' hid' hgone
    · intro id'
      rw [hused id']
      exact h.avail_iff id'
    · intro id' hid'
      exact h.used_lt id' ((hused id').mp hid')
  | credited =>
    refine ⟨h.disjoint, h.avail_iff, h.below, h.used_lt, h.limit_le, ?_⟩
    intro b
    have hold := h.pending_le b
    have hmax := h.limit_le false b
    have hvint := vintMax_lt
    simp only [Function.update_apply]
    split_ifs with hb
    · subst hb
      simp only [saturatingAdd, u64Max]
      omega
    · exact hold
  | peerRaised bidi n hlt hn => exact h.raise hlt.le hn (by rintro ⟨⟩)
  | localRaised bidi hn => exact h.raise (h.pending_le bidi) hn fun _ => le_rfl

end Book

namespace StreamMap

variable {p : Promise} {m m' : StreamMap} {id : ℕ} {s : Stream}

/-! ## The book of a stream map -/

def book (m : StreamMap) : Book where
  isServer := m.isServer
  live := m.streams.keys
  gone := m.destroyed.map Prod.fst
  limit opener bidi :=
    if opener then m.concurrencyControl.peerMaxStreams bidi
    else m.concurrencyControl.localMaxStreams bidi
  avail := m.concurrencyControl.availIds
  pending := m.concurrencyControl.localMaxStreamsNext
  next := m.nextStreamId

abbrev Books (p : Promise) : Book → Book → Prop := Relation.ReflTransGen (Book.Step p.adopt)

theorem Books.of_eq {k : Book} (h : k' = k) : Books p k k' := h ▸ .refl

theorem mem_live_iff : id ∈ m.book.live ↔ ∃ s, m.get? id = some s := mem_keys

theorem Alike.book_eq (h : Alike m m') : m'.book = m.book := by
  obtain ⟨t, rfl⟩ := h
  rfl

theorem book_setStream (hget : m.get? id = some s) (t : Stream) :
    (m.setStream id t).book = m.book := by
  have hkeys : (m.streams.insert id t).keys = m.streams.keys := by
    rw [keys_insert, Finset.insert_eq_self]
    exact mem_keys.mpr ⟨s, hget⟩
  simp only [setStream, book, hkeys]

section

variable (m : StreamMap)

theorem book_pushWhen (push : Bool) (id : ℕ) (s : Stream) :
    (m.pushWhen push id s).book = m.book := by
  cases push <;> rfl

theorem book_fillWhen (full : Bool) (id : ℕ) : (m.fillWhen full id).book = m.book := by
  cases full <;> rfl

theorem books_streamDestroy (id : ℕ) : Books p m.book (m.streamDestroy id).book := by
  unfold streamDestroy
  cases hget : m.get? id with
  | none => exact .refl
  | some s =>
    have hbook : ({ m with
        streams := m.streams.erase id
        destroyed := (id, s) :: m.destroyed } : StreamMap).book =
        { m.book with live := m.book.live.erase id, gone := id :: m.book.gone } := by
      simp only [book, keys_erase, List.map_cons]
    rw [hbook]
    exact .single (.removed id (mem_live_iff.mpr ⟨s, hget⟩))

theorem books_closeWhen (done : Bool) (id : ℕ) (isLocal : Bool) :
    Books p m.book (m.closeWhen done id isLocal).book := by
  unfold closeWhen closeCore
  split_ifs
  · exact .refl
  · have hcredit : Books p m.book (m.giveCredit id isLocal).book := by
      cases isLocal with
      | true => exact .refl
      | false => exact .single (.credited (isBidi id))
    have hflag :
        ((m.giveCredit id isLocal).flagClosed id).book = (m.giveCredit id isLocal).book := by
      unfold flagClosed
      split
      · next s hget => exact book_setStream hget _
      · rfl
    refine hcredit.trans ?_
    rw [← hflag]
    unfold announceClosed
    split
    · exact .refl
    · exact books_streamDestroy _ id
  · exact .refl

theorem books_peerLimit (bidi : Bool) (hn : n ≤ vintMax) :
    Books p m.book ({ m with
      concurrencyControl :=
        m.concurrencyControl.updatePeerMaxStreams bidi n } : StreamMap).book := by
  have hunblock : ∀ c : ConcurrencyControl, ({ m with
      concurrencyControl := c.unblock bidi } : StreamMap).book =
      ({ m with concurrencyControl := c } : StreamMap).book := by
    intro c
    unfold unblock
    split
    · rfl
    · split_ifs <;> rfl
  unfold updatePeerMaxStreams
  rw [hunblock]
  split_ifs with hlt
  · have hraise : ({ m with concurrencyControl :=
        { m.concurrencyControl.insertAvailId (m.concurrencyControl.peerMaxStreams bidi) n true bidi
          with peerMaxStreams := Function.update m.concurrencyControl.peerMaxStreams bidi n } } :
        StreamMap).book = m.book.raise true bidi n := by
      simp only [book, Book.raise, Book.setAvail, insertAvailId, if_true,
        Book.mk.injEq, true_and, and_true]
      funext l b
      cases l with
      | true => by_cases hb : b = bidi <;> simp [hb]
      | false => simp
    rw [hraise]
    exact .single (.peerRaised bidi n hlt hn)
  · exact .refl

end

variable {c : ConcurrencyControl}

theorem book_enroll {opener : Bool}
    (hcheck : m.concurrencyControl.checkConcurrencyLimits id m.isServer = (c, .ok ())) :
    (m.enroll c id opener).book = m.book.create id := by
  obtain ⟨-, peerOpened, localOpened, rfl⟩ := check_ok hcheck
  simp only [enroll, create, addEvent, book, Book.create, keys_insert, Book.availFor,
    Book.setAvail, removeAvailId]

theorem mem_availFor (hget : m.get? id = none) (hclosed : m.isClosed id = false)
    (hcheck : m.concurrencyControl.checkConcurrencyLimits id m.isServer = (c, .ok ())) :
    id / 4 ∈ m.book.availFor id := by
  obtain ⟨hlimit, -⟩ := check_ok hcheck
  unfold isClosed at hclosed
  rw [hget] at hclosed
  simp only [Bool.not_eq_false', Bool.or_eq_true, isAvailable,
    isLimited, decide_eq_true_eq, contains_iff] at hclosed
  rcases hclosed with havail | hlimited
  · exact havail
  · omega

/-- What one change of the stream map does to the book of identifiers. -/
theorem books_change (h : Change p m m') : Books p m.book m'.book := by
  cases h with
  | tables hm => exact .of_eq hm.book_eq
  | created c id opener hget hid hclosed hopener hcheck hadopt =>
    rw [book_enroll hcheck]
    exact .single (.created id hid (mem_availFor hget hclosed hcheck)
      fun hlocal => hadopt (hopener.trans hlocal))
  | touched hget hs hm => rw [hm.book_eq, book_setStream hget]
  | prioritized urgency incremental hget => exact .of_eq (book_setStream hget _)
  | read hget hready hread hm =>
    rw [hm.book_eq]
    refine trans (Books.of_eq ?_) (books_closeWhen _ _ _ _)
    exact (book_fillWhen _ _ _).trans (book_setStream hget _)
  | readFailed hget hready hread hm =>
    rw [hm.book_eq]
    exact trans (Books.of_eq (book_setStream hget _)) (books_closeWhen _ _ _ _)
  | wrote hget hfinish hwrite hs hm => rw [hm.book_eq, book_pushWhen, book_setStream hget]
  | shutdownRead hget hallowed hshutdown hm =>
    rw [hm.book_eq]
    exact .of_eq (book_setStream hget _)
  | shutdownWrite hget hallowed hshutdown hm => rw [hm.book_eq, book_setStream hget]
  | stopped hget hstop hm => rw [hm.book_eq, book_setStream hget]
  | maxDataRaised hget hmax hm => rw [hm.book_eq, book_pushWhen, book_setStream hget]
  | received hget hframe hleft hwrite hm =>
    rw [hm.book_eq]
    split_ifs
    · exact .of_eq (book_setStream hget _)
    · exact .of_eq (book_setStream hget _)
  | wasReset hget hframe hleft hreset hm =>
    rw [hm.book_eq]
    exact trans (Books.of_eq (book_setStream hget _)) (books_closeWhen _ _ _ _)
  | peerLimit bidi hn => exact books_peerLimit m bidi hn
  | peerParams => exact .refl
  | @polled e rest hevents _ hm =>
    rw [hm]
    cases e with
    | streamClosed id => exact books_streamDestroy ({ m with events := some rest } : StreamMap) id
    | streamCreated => exact .refl

variable {w w' : Writer}

theorem books_control {now srtt : ℕ} (h : Writer.Control now srtt w w') :
    Books p w.map.book w'.map.book := by
  cases h with
  | maxStreams bidi len hshould hlen =>
    have hraise : ({ w.map with concurrencyControl :=
        w.map.concurrencyControl.updateLocalMaxStreams bidi } : StreamMap).book =
        w.map.book.raise false bidi (w.map.book.pending bidi) := by
      simp only [book, Book.raise, Book.setAvail, updateLocalMaxStreams,
        insertAvailId, Book.mk.injEq, true_and, and_true, Bool.false_eq_true,
        if_false]
      funext l b
      cases l with
      | true => simp
      | false => by_cases hb : b = bidi <;> simp [hb]
    rw [hraise]
    exact .single (.localRaised bidi (Frame.le_of_wireLen_maxStreams hlen))
  | forgotten => exact .refl
  | tuned id s hget => exact .of_eq (book_setStream hget _)
  | maxStreamData id s len hget => exact .of_eq (book_setStream hget _)
  | connTuned | maxData | other => exact .refl

theorem book_emission (h : Writer.Emission w w') : w'.map.book = w.map.book :=
  view_emission h (fun _ _ => rfl) fun _ hget => book_setStream hget _

variable {frame : Frame}

theorem books_acked (h : Acked m frame m') : Books p m.book m'.book := by
  cases h with
  | stream hget hack hm =>
    rw [hm.book_eq]
    exact trans (Books.of_eq (book_setStream hget _)) (books_closeWhen _ _ _ _)
  | reset hget hm =>
    rw [hm.book_eq]
    exact books_closeWhen _ _ _ _
  | other => exact .refl

theorem book_lost (h : Lost m frame m') : m'.book = m.book := by
  cases h with
  | stream hget => rw [book_pushWhen, book_setStream hget]
  | maxData | maxStreamData => rfl
  | other hframe hm => exact hm.book_eq

variable {x x' : Wire}

theorem books_move (h : Move p x x') : Books p x.map.book x'.map.book := by
  cases h with
  | call h => exact (books_change h : Books p.offline _ _)
  | frame hopen h => exact books_change h
  | refused hopen h =>
    obtain ⟨id, s, code, size, recv, res, hget, hreset, -, rfl⟩ := h
    exact .of_eq (book_setStream hget _)
  | closed => exact .refl
  | control hopen h => exact books_control h
  | emission hopen h => exact .of_eq (book_emission h)
  | packed | ackPacket => exact .refl
  | ackFrame hopen hacking h => exact books_acked h
  | losePacket | probePacket => exact .refl
  | loseFrame hlost h => exact .of_eq (book_lost h)

theorem kept_start (conf : ReceiveConfig) (isServer endpoint : Bool) :
    (World.start conf isServer endpoint).map.book.Kept := by
  have hmax := conf.params_encodable.streams
  have hempty : (default : RangeSet).Below (vintMax + 1) := .new _
  have hused : ∀ id, ¬ (World.start conf isServer endpoint).map.book.used id := by
    intro id hid
    rcases hid with hid | hid
    · obtain ⟨s, hs⟩ := mem_live_iff.mp hid
      cases hs
    · cases hid
  refine ⟨fun id hid hgone => hused id (.inl hid), ?_, ?_, fun id hid => absurd hid (hused id), ?_,
    fun b => le_rfl⟩
  · intro id
    simp only [hused id, not_false_eq_true, and_true]
    change id / 4 ∈ (if isLocal id isServer = true then default else
      RangeSet.insert default 0 (conf.localTransportParams.initialMaxStreams (isBidi id))) ↔
      id / 4 < if isLocal id isServer = true then 0
        else conf.localTransportParams.initialMaxStreams (isBidi id)
    have hdefault : id / 4 ∉ (default : RangeSet) := not_mem_new usizeMax _
    split_ifs
    · simp [hdefault]
    · rw [hempty.mem_insert Book.vintMax_lt]
      simp [hdefault]
  · intro l b
    cases l with
    | true => exact hempty
    | false =>
      refine hempty.insert Book.vintMax_lt ?_
      intro x _ hx
      have := hmax b
      omega
  · intro l b
    cases l with
    | true => exact Nat.zero_le _
    | false => exact hmax b

theorem kept_of_books {k : Book} (h : k.Kept) (hbooks : Books p k k') : k'.Kept :=
  Exec.invariant_of_steps (R := Book.Step p.adopt) (fun _ _ hk hstep => .step hk hstep) hbooks h

theorem World.books_of_moves (h : Moves p x x') : Books p x.map.book x'.map.book := by
  induction h with
  | refl => exact .refl
  | tail _ hmove ih => exact ih.trans (books_move hmove)

end StreamMap

end Tquic
