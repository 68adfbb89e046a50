import Tquic.Connection.Identifiers

/-!
# Identifiers of new streams

Which identifiers `stream_bidi_new` and `stream_uni_new` return. The counter of a direction is
raised by every stream of that direction, whoever opened it.
-/

namespace Tquic

open Function Exec

def idAfter (isServer bidi : Bool) (opened : List ℕ) : ℕ :=
  match opened.getLast? with
  | some last => last + 4
  | none => StreamMap.firstStreamId isServer bidi

theorem idAfter_concat (isServer bidi : Bool) (opened : List ℕ) (id : ℕ) :
    idAfter isServer bidi (opened ++ [id]) = id + 4 := by
  simp [idAfter]

theorem kind_of_count (isServer bidi : Bool) (n : ℕ) :
    isLocal (StreamMap.firstStreamId isServer bidi + 4 * n) isServer = true ∧
      isBidi (StreamMap.firstStreamId isServer bidi + 4 * n) = bidi := by
  have hserver : isServer.toNat = 0 ∨ isServer.toNat = 1 := by cases isServer <;> simp
  cases bidi with
  | true =>
    simp only [StreamMap.firstStreamId, isLocal, isBidi, if_true, decide_eq_true_eq]
    omega
  | false =>
    simp only [StreamMap.firstStreamId, isLocal, isBidi, Bool.false_eq_true, if_false,
      decide_eq_true_eq, decide_eq_false_iff_not]
    omega

theorem isBidi_add_four (id : ℕ) : isBidi (id + 4) = isBidi id := by
  simp only [isBidi, decide_eq_decide]
  omega

variable {id : ℕ}

namespace Book

variable {k k' : Book} {b : Bool} {opened : List ℕ}

def Own (k : Book) (b : Bool) : Prop :=
  ∀ id, k.used id → isBidi id = b → isLocal id k.isServer = true

/-- The counter of the direction follows the identifiers returned. -/
structure Counts (k : Book) (b : Bool) (opened : List ℕ) : Prop where
  count : ∃ n, k.next b = StreamMap.firstStreamId k.isServer b + 4 * n
  next_eq : k.next b = idAfter k.isServer b opened

theorem used_create (k : Book) (id id' : ℕ) : (k.create id).used id' ↔ id' = id ∨ k.used id' := by
  simp only [used, create, Finset.mem_insert, or_assoc]

variable {adopt : Prop}

theorem isServer_of_step (h : Step adopt k k') : k'.isServer = k.isServer := by
  cases h <;> rfl

theorem used_of_step (h : Step adopt k k') (hid : k.used id) : k'.used id := by
  cases h with
  | created id' => exact (used_create k id' id).mpr (.inr hid)
  | removed id' hlive => exact (used_removed hlive id).mpr hid
  | credited | peerRaised | localRaised => exact hid

/-- The counters have the types of their directions and are beyond all streams, whoever opened
them. -/
structure Typed (k : Book) : Prop where
  next : ∀ b, k.next b ≤ vintMax → isBidi (k.next b) = b
  used : ∀ id, k.used id → id ≤ vintMax ∧ id < k.next (isBidi id)

theorem Typed.create (h : k.Typed) (hid : id ≤ vintMax) : (k.create id).Typed := by
  have hmax : vintMax + 4 < 2 ^ 64 := by decide
  have hnext : (k.create id).next (isBidi id) =
      min (max (k.next (isBidi id)) id + 4) (2 ^ 64 - 1) := update_self _ _ _
  have hother {b : Bool} (hb : b ≠ isBidi id) : (k.create id).next b = k.next b :=
    update_of_ne hb _ _
  refine ⟨fun b => ?_, fun id' hused => ?_⟩
  · by_cases hb : b = isBidi id
    · subst hb
      rw [hnext]
      intro hle
      rw [min_eq_left (by omega), isBidi_add_four]
      rcases le_total (k.next (isBidi id)) id with hcase | hcase
      · rw [max_eq_right hcase]
      · rw [max_eq_left hcase]
        exact h.next _ (by omega)
    · rw [hother hb]
      exact h.next b
  · have hold : id' = id ∨ id' ≤ vintMax ∧ id' < k.next (isBidi id') :=
      ((used_create k id id').mp hused).imp_right (h.used id')
    by_cases hb : isBidi id' = isBidi id
    · rw [hb] at hold ⊢
      rw [hnext]
      omega
    · rw [hother hb]
      exact hold.resolve_left fun heq => hb (heq ▸ rfl)

theorem Typed.step (h : k.Typed) (hstep : Step adopt k k') : k'.Typed := by
  cases hstep with
  | created id hle => exact h.create hle
  | removed id hlive =>
    exact ⟨h.next, fun id' hid' => h.used id' ((used_removed hlive id').mp hid')⟩
  | credited | peerRaised | localRaised => exact ⟨h.next, h.used⟩

theorem Typed.not_used_next (h : k.Typed) (b : Bool) : ¬k.used (k.next b) := by
  intro hused
  obtain ⟨hle, hlt⟩ := h.used _ hused
  rw [h.next b hle] at hlt
  exact lt_irrefl _ hlt

theorem Counts.create_other (h : k.Counts b opened) (hb : b ≠ isBidi id) :
    (k.create id).Counts b opened := by
  have hnext : (k.create id).next b = k.next b := update_of_ne hb _ _
  exact ⟨hnext ▸ h.count, hnext ▸ h.next_eq⟩

theorem Counts.step (h : k.Own b → k.Counts b opened) (hstep : Step False k k') (hown : k'.Own b) :
    k'.Counts b opened := by
  have hownBefore : k.Own b := by
    intro id hid hb
    rw [← isServer_of_step hstep]
    exact hown id (used_of_step hstep hid) hb
  have hcounts := h hownBefore
  cases hstep with
  | created id hle havail hadopt =>
    refine hcounts.create_other fun hb => ?_
    exact hadopt (hown id ((used_create k id id).mpr (.inl rfl)) hb.symm)
  | removed | credited | peerRaised | localRaised => exact ⟨hcounts.count, hcounts.next_eq⟩

theorem Counts.create (h : k.Counts b opened) (hle : k.next b ≤ vintMax) :
    (k.create (k.next b)).Counts b (opened ++ [k.next b]) := by
  obtain ⟨n, hn⟩ := h.count
  have hkind : isBidi (k.next b) = b := by
    rw [hn]
    exact (kind_of_count k.isServer b n).2
  have hnext : (k.create (k.next b)).next b = k.next b + 4 := by
    have hmax : vintMax + 4 < 2 ^ 64 := by decide
    simp only [Book.create, hkind, update_self, max_self, saturatingAdd, u64Max]
    omega
  refine ⟨⟨n + 1, ?_⟩, ?_⟩
  · change _ = StreamMap.firstStreamId k.isServer b + 4 * (n + 1)
    omega
  · rw [hnext, idAfter_concat]

end Book

namespace StreamMap

def usedIds (m : StreamMap) : List ℕ :=
  m.streams.entries.map Prod.fst ++ m.destroyed.map Prod.fst

variable {m : StreamMap}

theorem mem_usedIds : id ∈ m.usedIds ↔ m.book.used id := by
  simp only [usedIds, List.mem_append, Book.used, book, SortedMap.keys, List.mem_toFinset]

theorem used_of_isClosed (h : m.book.Kept) (hget : m.get? id = none)
    (hclosed : m.isClosed id = true) : m.book.used id := by
  unfold isClosed at hclosed
  rw [hget] at hclosed
  simp only [Bool.not_eq_true', Bool.or_eq_false_iff, ConcurrencyControl.isAvailable,
    ConcurrencyControl.isLimited, decide_eq_false_iff_not] at hclosed
  have hnot : ¬ id / 4 ∈ m.book.availFor id := by
    intro hmem
    have hcontains := RangeSet.contains_iff.mpr hmem
    rw [show (m.book.availFor id).contains (id / 4) = false from hclosed.1] at hcontains
    cases hcontains
  have hlimit : m.book.limitFor id = m.concurrencyControl.limit id m.isServer := rfl
  by_contra hused
  exact hnot ((h.avail_iff id).mpr ⟨by omega, hused⟩)

/-- `stream_bidi_new` and `stream_uni_new` fail, return an identifier used before, or create a
stream. -/
inductive Opening (m : StreamMap) (bidi : Bool) : StreamMap × Result ℕ → Prop
  | failed {m' : StreamMap} (e : Error) (hm : m'.book = m.book) : Opening m bidi (m', .error e)
  | reused {m' : StreamMap} (hm : m'.book = m.book) (hused : m.book.used (m.nextStreamId bidi)) :
      Opening m bidi (m', .ok (m.nextStreamId bidi))
  | created {m' : StreamMap} (hm : m'.book = m.book.create (m.nextStreamId bidi))
      (hid : m.nextStreamId bidi ≤ vintMax)
      (hlocal : isLocal (m.nextStreamId bidi) m.isServer = true)
      (havail : m.nextStreamId bidi / 4 ∈ m.book.availFor (m.nextStreamId bidi)) :
      Opening m bidi (m', .ok (m.nextStreamId bidi))

theorem opening_streamNew (h : m.book.Kept) (bidi : Bool) (urgency : ℕ) (incremental : Bool) :
    Opening m bidi (m.streamNew bidi urgency incremental) := by
  have hlook := getOrCreate_cases m (m.nextStreamId bidi) true
  unfold streamNew streamSetPriority
  dsimp only
  generalize m.getOrCreate (m.nextStreamId bidi) true = out at hlook
  cases hlook with
  | failed e t herror hclosed =>
    by_cases hdone : e = .done
    · obtain ⟨hget, hclosed⟩ := hclosed hdone
      simp only [hdone, if_true]
      exact .reused rfl (used_of_isClosed h hget hclosed)
    · simp only [hdone, if_false]
      exact .failed e rfl
  | found s hget => exact .reused (book_setStream hget _) (.inl (mem_live_iff.mpr ⟨s, hget⟩))
  | created c hget hid hclosed hopener hcheck =>
    refine .created ?_ hid hopener.symm (mem_availFor hget hclosed hcheck)
    have henroll : (m.enroll c (m.nextStreamId bidi) true).book = _ := book_enroll hcheck
    rw [← henroll]
    exact book_setStream (s := m.newStream (m.nextStreamId bidi) true)
      (Lookup.get? (.created c hget hid hclosed hopener hcheck) rfl) _

namespace World

variable {w w' : World} {isServer : Bool}

def OpensByNew (w : World) : Op → Prop
  | .setPriority id _ _ | .setContext id | .write id _ _ => ¬ w.map.Opens id
  | _ => True

instance (w : World) (op : Op) : Decidable (w.OpensByNew op) := by
  unfold OpensByNew
  split <;> infer_instance

/-- The counters of a direction follow the identifiers returned while the peer has opened no stream
of it. -/
structure Numbered (isServer : Bool) (w : World) : Prop where
  server : w.map.isServer = isServer
  kept : w.map.book.Kept
  typed : w.map.book.Typed
  counts : ∀ b, w.map.book.Own b → w.map.book.Counts b (w.opened b)

theorem numbered_start (conf : ReceiveConfig) (isServer endpoint : Bool) :
    (start conf isServer endpoint).Numbered isServer := by
  refine ⟨rfl, kept_start conf isServer endpoint, ⟨?_, ?_⟩, fun b _ => ⟨⟨0, rfl⟩, rfl⟩⟩
  · intro b _
    exact (kind_of_count isServer b 0).2
  · intro id hid
    have hnone : (start conf isServer endpoint).map.usedIds = [] := rfl
    rw [← mem_usedIds, hnone] at hid
    cases hid

theorem Numbered.of_books (h : w.Numbered isServer)
    (hbooks : Relation.ReflTransGen (Book.Step False) w.map.book w'.map.book)
    (hopened : w'.opened = w.opened) : w'.Numbered isServer := by
  let inv : Book → Prop := fun k => k.isServer = isServer ∧ k.Kept ∧ k.Typed ∧
    ∀ b, k.Own b → k.Counts b (w.opened b)
  have hinv : ∀ k k', inv k → Book.Step False k k' → inv k' := by
    intro k k' hk hstep
    obtain ⟨hserver, hkept, htyped, hcounts⟩ := hk
    exact ⟨(Book.isServer_of_step hstep).trans hserver, hkept.step hstep, htyped.step hstep,
      fun b hown => .step (hcounts b) hstep hown⟩
  obtain ⟨hserver, hkept, htyped, hcounts⟩ :=
    invariant_of_steps hinv hbooks ⟨h.server, h.kept, h.typed, h.counts⟩
  exact ⟨hserver, hkept, htyped, hopened ▸ hcounts⟩

theorem Numbered.streamNew (h : w.Numbered isServer) (bidi : Bool) (urgency : ℕ)
    (incremental : Bool) : (w.streamNew bidi urgency incremental).1.Numbered isServer := by
  have hopening := opening_streamNew h.kept bidi urgency incremental
  unfold World.streamNew
  generalize w.map.streamNew bidi urgency incremental = out at hopening
  cases hopening with
  | @failed m' e hm =>
    have hbooks : Relation.ReflTransGen (Book.Step False) w.map.book m'.book := by rw [hm]
    exact @Numbered.of_books w { w with map := m' } isServer h hbooks rfl
  | reused hm hused => exact absurd hused (h.typed.not_used_next bidi)
  | created hm hid hlocal havail =>
    refine ⟨?_, hm ▸ h.kept.create havail, hm ▸ h.typed.create hid, ?_⟩
    · exact (congrArg Book.isServer hm).trans h.server
    · intro b hown
      dsimp only at hown ⊢
      rw [hm] at hown ⊢
      have hownBefore : w.map.book.Own b := fun id hused =>
        hown id ((Book.used_create _ _ id).mpr (.inr hused))
      have hcounts := h.counts b hownBefore
      by_cases hb : b = bidi
      · subst hb
        rw [update_self]
        exact hcounts.create hid
      · rw [update_of_ne hb]
        refine hcounts.create_other ?_
        have hkind : isBidi (w.map.nextStreamId bidi) = bidi := h.typed.next bidi hid
        rwa [hkind]

variable {op : Op} {o : Outcome}

theorem opened_of_step (h : w.step op = .ok (w', o))
    (hop : ∀ bidi urgency incremental, op ≠ .streamNew bidi urgency incremental) :
    w'.opened = w.opened := by
  cases op with
  | streamNew bidi urgency incremental => exact absurd rfl (hop bidi urgency incremental)
  | setPriority | setContext =>
    cases h
    rfl
  | read | write =>
    obtain ⟨r, -, h⟩ := bind_eq_ok.mp h
    cases h
    rfl
  | shutdown =>
    cases h
    rfl
  | writable =>
    obtain ⟨r, -, h⟩ := bind_eq_ok.mp h
    cases h
    rfl
  | wantRead | wantWrite | close | pollEvent =>
    cases h
    rfl
  | receive frame =>
    change w.receive frame = _ at h
    unfold receive at h
    split_ifs at h
    · cases h
      rfl
    · obtain ⟨r, -, h⟩ := bind_eq_ok.mp h
      cases h
      rfl
  | peerParams =>
    cases h
    rfl
  | sendPacket q =>
    change w.sendPacket q = _ at h
    unfold sendPacket at h
    split_ifs at h
    · cases h
      rfl
    · obtain ⟨r, -, h⟩ := bind_eq_ok.mp h
      cases h
      rfl
  | ackPacket k =>
    change w.ackPacket k = _ at h
    unfold ackPacket at h
    split_ifs at h
    · cases h
      rfl
    · split at h
      · cases h
        rfl
      · obtain ⟨r, -, h⟩ := bind_eq_ok.mp h
        cases h
        rfl
  | losePacket =>
    cases h
    unfold losePacket
    split <;> rfl
  | probePacket =>
    cases h
    unfold probePacket
    split <;> rfl
  | handleLost =>
    cases h
    rfl

theorem keeps_of_opensByNew (hlegal : w.OpensByNew op)
    (hop : ∀ bidi urgency incremental, op ≠ .streamNew bidi urgency incremental) :
    w.Keeps { adopt := False } op := by
  have hfree := keeps_free w op
  cases op with
  | streamNew bidi urgency incremental => exact absurd rfl (hop bidi urgency incremental)
  | setPriority => exact ⟨hlegal, trivial⟩
  | setContext => exact hlegal
  | write => exact ⟨hlegal, fun _ => trivial⟩
  | _ => exact hfree

theorem Numbered.step (h : w.Numbered isServer)
    (hlegal : w.OpensByNew op) (hstep : w.step op = .ok (w', o)) : w'.Numbered isServer := by
  by_cases hnew : ∃ bidi urgency incremental, op = .streamNew bidi urgency incremental
  · obtain ⟨bidi, urgency, incremental, rfl⟩ := hnew
    obtain rfl := congrArg Prod.fst (ok.inj hstep)
    exact h.streamNew bidi urgency incremental
  · have hop : ∀ bidi urgency incremental, op ≠ .streamNew bidi urgency incremental := by
      intro bidi urgency incremental heq
      exact hnew ⟨bidi, urgency, incremental, heq⟩
    have hmoves := moves_step (keeps_of_opensByNew hlegal hop) hstep
    exact h.of_books (books_of_moves hmoves) (opened_of_step hstep hop)

/-- If streams are opened with `stream_bidi_new` and `stream_uni_new` only, the identifiers returned
are new and of the right kind, and in sequence while the peer has opened no stream of the
direction. -/
theorem streamNew_returns_next {conf : ReceiveConfig} {isServer endpoint bidi incremental : Bool}
    {urgency id : ℕ} {w w' : World}
    (h : Exec.Reaches step OpensByNew (start conf isServer endpoint) w)
    (hstep : w.step (.streamNew bidi urgency incremental) = .ok (w', .opened (.ok id))) :
    isLocal id isServer = true ∧ isBidi id = bidi ∧ id ∉ w.map.usedIds ∧
      ((∀ id ∈ w.map.usedIds, isBidi id = bidi → isLocal id isServer = true) →
        id = idAfter isServer bidi (w.opened bidi)) := by
  have hnumbered : w.Numbered isServer := by
    refine h.invariant (Numbered isServer) ?_ (numbered_start conf isServer endpoint)
    intro w₁ op w₂ o hw₁ hlegal hstep
    exact hw₁.step hlegal hstep
  have hserver : w.map.book.isServer = isServer := hnumbered.server
  have hopening := opening_streamNew hnumbered.kept bidi urgency incremental
  have hout := congrArg Prod.snd (ok.inj hstep)
  unfold streamNew at hout
  generalize w.map.streamNew bidi urgency incremental = out at hopening hout
  cases hopening with
  | failed => cases hout
  | reused _ hused => exact absurd hused (hnumbered.typed.not_used_next bidi)
  | created _ hid hlocal =>
    cases hout
    refine ⟨hserver ▸ hlocal, hnumbered.typed.next bidi hid, ?_, fun hpeer => ?_⟩
    · rw [mem_usedIds]
      exact hnumbered.typed.not_used_next bidi
    · have hown : w.map.book.Own bidi := by
        intro id' hid' hb
        rw [hserver]
        exact hpeer id' (mem_usedIds.mpr hid') hb
      rw [← hserver]
      exact (hnumbered.counts bidi hown).next_eq

def smallParams : {p : StreamTransportParams // p.Encodable} :=
  ⟨⟨100, 100, 100, 100, 10, 10⟩, by constructor <;> decide⟩

theorem step_streamNew {bidi incremental : Bool} {urgency : ℕ}
    (h : (w.streamNew bidi urgency incremental).2 = .opened (.ok id)) :
    w.step (.streamNew bidi urgency incremental) =
      .ok ((w.streamNew bidi urgency incremental).1, .opened (.ok id)) :=
  congrArg ok (Prod.ext rfl h)

/-- A client that has opened stream 0, while the peer has opened the unidirectional
stream 3. -/
def clientBeforeFour : World :=
  Exec.follow step OpensByNew (start .new false true)
    [.peerParams smallParams, .streamNew true 127 true, .receive (.stream 3 0 [1] false)]

theorem streamNew_returns_next_four :
    (clientBeforeFour.streamNew true 127 true).2 = .opened (.ok 4) ∧
      clientBeforeFour.opened true = [0] ∧ 4 ∉ clientBeforeFour.map.usedIds := by
  have hout : (clientBeforeFour.streamNew true 127 true).2 = .opened (.ok 4) := by decide +kernel
  have hreach : Exec.Reaches step OpensByNew (start .new false true) clientBeforeFour :=
    reaches_follow _ _
  have hnext := streamNew_returns_next hreach (step_streamNew hout)
  exact ⟨hout, by decide +kernel, hnext.2.2.1⟩

/-- The peer has opened the bidirectional stream 1 after the client had opened stream
0. -/
def clientAfterPeer : World :=
  Exec.follow step OpensByNew (start .new false true)
    [.peerParams smallParams, .streamNew true 127 true, .receive (.stream 1 0 [1] false)]

/-- The identifier that follows 0 is 8 then. -/
theorem streamNew_skips_id :
    ∃ w w' : World, Exec.Reaches step OpensByNew (start .new false true) w ∧
      w.opened true = [0] ∧ w.step (.streamNew true 127 true) = .ok (w', .opened (.ok 8)) :=
  ⟨clientAfterPeer, _, reaches_follow _ _, by decide +kernel,
    step_streamNew (by decide +kernel)⟩

end World

end StreamMap

end Tquic
