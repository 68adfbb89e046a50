import Tquic.Base.Run

/-!
# Wakers of the reactor

A stream operation that has to wait leaves a waker in a table that the reactor and the handles
share. Both halves of a stream have their wakers in one entry, and dropping a handle removes the
whole entry.
-/

namespace Tquic.TokioAdapter

inductive Half where
  | send
  | recv
  deriving DecidableEq

structure Slot where
  connIndex : ℕ
  streamId : ℕ
  half : Half
  deriving DecidableEq

structure WakerTable where
  connections : List ℕ := []
  streamWakers : List (Slot × ℕ) := []
  /-- The wakers that the last event has woken. -/
  woken : List ℕ := []
  deriving DecidableEq

namespace WakerTable

def register (t : WakerTable) (slot : Slot) (waker : ℕ) : WakerTable :=
  { t with streamWakers := (slot, waker) :: t.streamWakers.filter (·.1 ≠ slot), woken := [] }

def remove (t : WakerTable) (slots : Slot → Bool) : WakerTable :=
  { t with streamWakers := t.streamWakers.filter fun e => !slots e.1, woken := [] }

def wake (t : WakerTable) (slots : Slot → Bool) : WakerTable :=
  { t.remove slots with
    woken := (t.streamWakers.filter fun e => slots e.1).map Prod.snd }

def removeConnWakers (connIndex : ℕ) (slot : Slot) : Bool := slot.connIndex = connIndex

def removeStreamWakers (connIndex streamId : ℕ) (slot : Slot) : Bool :=
  slot.connIndex = connIndex ∧ slot.streamId = streamId

inductive Event where
  | pending (slot : Slot) (waker : ℕ)
  | dropped (slot : Slot)
  | connCreated (index : ℕ)
  | connClosed (index : ℕ)
  | streamReadable (index streamId : ℕ)
  | streamWritable (index streamId : ℕ)
  | streamClosed (index streamId : ℕ)
  | shutdown
  deriving DecidableEq

def step (t : WakerTable) : Event → WakerTable
  | .pending slot waker => t.register slot waker
  | .dropped slot => t.remove (removeStreamWakers slot.connIndex slot.streamId)
  | .connCreated index => { t with connections := index :: t.connections, woken := [] }
  | .connClosed index =>
    if index ∈ t.connections then
      { t.wake (removeConnWakers index) with connections := t.connections.filter (· ≠ index) }
    else { t with woken := [] }
  | .streamReadable index streamId => t.wake (· = ⟨index, streamId, .recv⟩)
  | .streamWritable index streamId => t.wake (· = ⟨index, streamId, .send⟩)
  | .streamClosed index streamId => t.wake (removeStreamWakers index streamId)
  -- The wakers that `shutdown_all` collects are not woken.
  | .shutdown => { t.remove (fun slot => slot.connIndex ∈ t.connections) with connections := [] }

/-- No handle is dropped while an operation of the other half is pending, and no operation is
pending when the reactor shuts down. -/
def Careful (t : WakerTable) : Event → Prop
  | .dropped slot => ∀ e ∈ t.streamWakers,
      removeStreamWakers slot.connIndex slot.streamId e.1 = true → e.1 = slot
  | .shutdown => t.streamWakers = []
  | _ => True

variable {t : WakerTable} {slots : Slot → Bool} {e : Slot × ℕ}

theorem slots_of_removed (he : e ∈ t.streamWakers) (hgone : e ∉ (t.remove slots).streamWakers) :
    slots e.1 = true := by
  by_contra hnot
  exact hgone (List.mem_filter.mpr ⟨he, by simpa using hnot⟩)

theorem woken_of_removed (he : e ∈ t.streamWakers) (hgone : e ∉ (t.wake slots).streamWakers) :
    e.2 ∈ (t.wake slots).woken := by
  apply List.mem_map_of_mem
  exact List.mem_filter.mpr ⟨he, slots_of_removed he hgone⟩

/-- A waker that the event takes out of the table was woken by it, or replaced by a newer one of its
half, or dropped with the handle of that half; shutting down wakes all. -/
def Accounts (t : WakerTable) (event : Event) : Prop :=
  (∀ e ∈ t.streamWakers, e ∉ (t.step event).streamWakers →
    e.2 ∈ (t.step event).woken ∨ (∃ waker, event = .pending e.1 waker) ∨ event = .dropped e.1) ∧
  (event = .shutdown → ∀ e ∈ t.streamWakers, e.2 ∈ (t.step event).woken)

theorem accounts_iff_careful (t : WakerTable) (event : Event) :
    t.Accounts event ↔ t.Careful event := by
  constructor
  · rintro ⟨hgone, hshut⟩
    cases event with
    | dropped slot =>
      intro e he hslots
      have hleft : e ∉ (t.step (.dropped slot)).streamWakers :=
        fun hmem => by simpa [hslots] using (List.mem_filter.mp hmem).2
      rcases hgone e he hleft with hwoken | ⟨waker, hw⟩ | hdropped
      · cases hwoken
      · cases hw
      · cases hdropped
        rfl
    | shutdown =>
      refine List.eq_nil_iff_forall_not_mem.mpr fun e he => ?_
      cases hshut rfl e he
    | _ => trivial
  · refine fun h => ⟨fun e he hgone => ?_, ?_⟩
    · cases event with
      | pending slot waker =>
        have hslot : e.1 = slot := by
          by_contra hne
          exact hgone (.tail _ (List.mem_filter.mpr ⟨he, by simpa using hne⟩))
        exact .inr (.inl ⟨waker, by rw [hslot]⟩)
      | dropped slot =>
        have hslot := h e he (slots_of_removed he hgone)
        exact .inr (.inr (by rw [hslot]))
      | connCreated => exact absurd he hgone
      | connClosed index =>
        by_cases hin : index ∈ t.connections
        · rw [step, if_pos hin] at hgone ⊢
          exact .inl (woken_of_removed he hgone)
        · rw [step, if_neg hin] at hgone
          exact absurd he hgone
      | streamReadable | streamWritable | streamClosed => exact .inl (woken_of_removed he hgone)
      | shutdown =>
        rw [show t.streamWakers = [] from h] at he
        cases he
    · rintro rfl e he
      rw [show t.streamWakers = [] from h] at he
      cases he

/-! ## Runs -/

def react (t : WakerTable) (event : Event) : Exec (WakerTable × Unit) := .ok (t.step event, ())

def after (t : WakerTable) (events : List Event) : WakerTable := events.foldl step t

/-- Along every run that drops no handle while the other half is pending and shuts down with
nothing pending, a waker stays in the table until an event wakes it, replaces it or drops the handle
of its half. -/
theorem waker_leaves_only_woken {t : WakerTable} {events : List Event}
    (h : Exec.Follows react Careful t events) :
    (∀ e ∈ t.streamWakers, e ∈ (t.after events).streamWakers ∨
      ∃ before event rest, events = before ++ event :: rest ∧
        (e.2 ∈ (t.after (before ++ [event])).woken ∨ (∃ waker, event = .pending e.1 waker) ∨
          event = .dropped e.1)) ∧
    ∀ before rest, events = before ++ .shutdown :: rest →
      ∀ e ∈ (t.after before).streamWakers, e.2 ∈ (t.after (before ++ [.shutdown])).woken := by
  induction events generalizing t with
  | nil => exact ⟨fun e he => .inl he, fun before rest heq => by simp at heq⟩
  | cons event events ih =>
    obtain ⟨hcareful, hrest⟩ := h
    obtain ⟨hgone, hshut⟩ := (t.accounts_iff_careful event).mpr hcareful
    obtain ⟨hstays, hlater⟩ := ih (hrest _ _ rfl)
    refine ⟨fun e he => ?_, fun before rest heq => ?_⟩
    · by_cases hin : e ∈ (t.step event).streamWakers
      · rcases hstays e hin with hin | ⟨before, next, rest, rfl, hnext⟩
        · exact .inl hin
        · exact .inr ⟨event :: before, next, rest, rfl, hnext⟩
      · exact .inr ⟨[], event, events, rfl, hgone e he hin⟩
    · cases before with
      | nil =>
        cases heq
        exact hshut rfl
      | cons first before =>
        cases heq
        exact hlater before rest rfl

theorem waker_leaves_only_woken_readable :
    let t : WakerTable := after {} [.connCreated 1, .pending ⟨1, 4, .recv⟩ 7]
    (⟨1, 4, .recv⟩, 7) ∈ t.streamWakers ∧
      ((⟨1, 4, .recv⟩, 7) ∈ (t.after [.streamReadable 1 4, .shutdown]).streamWakers ∨
        ∃ before event rest, [.streamReadable 1 4, .shutdown] = before ++ event :: rest ∧
          (7 ∈ (t.after (before ++ [event])).woken ∨
            (∃ waker, event = .pending ⟨1, 4, .recv⟩ waker) ∨
            event = .dropped ⟨1, 4, .recv⟩)) := by
  intro t
  have hcareful : Exec.Follows react Careful t [.streamReadable 1 4, .shutdown] :=
    .cons trivial rfl (.cons (by rfl) rfl trivial)
  exact ⟨by decide, (waker_leaves_only_woken hcareful).1 _ (by decide)⟩

theorem wakers_lost :
    let t : WakerTable := (({} : WakerTable).step (.connCreated 1)).step (.pending ⟨1, 4, .recv⟩ 7)
    (t.step (.dropped ⟨1, 4, .send⟩)).streamWakers = [] ∧
      (t.step (.dropped ⟨1, 4, .send⟩)).woken = [] ∧
      (t.step .shutdown).streamWakers = [] ∧ (t.step .shutdown).woken = [] := by
  decide

end WakerTable

end Tquic.TokioAdapter
