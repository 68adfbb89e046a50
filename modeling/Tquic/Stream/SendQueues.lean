import Tquic.Stream.StreamMap

/-!
# The send queues

The queues of all urgencies as one multiset of slots. Pushing a stream adds a slot, peeking
leaves the slots as they are, and removing after a peek takes out one slot of the stream that was
peeked.
-/

namespace Tquic

open SortedMap StreamPriorityQueue

structure Slot where
  urgency : ℕ
  incremental : Bool
  id : ℕ
  deriving DecidableEq, Repr

/-! ## One urgency -/

namespace StreamPriorityQueue

variable {q : StreamPriorityQueue} {id : ℕ}

def slots (q : StreamPriorityQueue) (urgency : ℕ) : Multiset Slot :=
  ↑(q.nonIncremental.map (Slot.mk urgency false)) + ↑(q.incremental.map (Slot.mk urgency true))

theorem exists_mem_slots {urgency : ℕ} : (∃ slot ∈ q.slots urgency, slot.id = id) ↔
    id ∈ q.nonIncremental ∨ id ∈ q.incremental := by
  simp only [slots, Multiset.mem_add, Multiset.mem_coe, List.mem_map]
  constructor
  · rintro ⟨slot, ⟨id', hmem, rfl⟩ | ⟨id', hmem, rfl⟩, rfl⟩
    · exact .inl hmem
    · exact .inr hmem
  · rintro (hmem | hmem)
    · exact ⟨⟨urgency, false, id⟩, .inl ⟨id, hmem, rfl⟩, rfl⟩
    · exact ⟨⟨urgency, true, id⟩, .inr ⟨id, hmem, rfl⟩, rfl⟩

theorem slots_push (q : StreamPriorityQueue) (urgency id : ℕ) (incremental : Bool) :
    (q.push id incremental).slots urgency = ⟨urgency, incremental, id⟩ ::ₘ q.slots urgency := by
  unfold push slots
  cases incremental with
  | true =>
    rw [if_pos rfl, List.map_append, ← Multiset.coe_add, ← add_assoc, add_comm]
    rfl
  | false =>
    rw [if_neg Bool.false_ne_true, ← Multiset.cons_add, Multiset.cons_coe, ← List.map_cons]
    congr 1
    exact Multiset.coe_eq_coe.mpr ((List.perm_orderedInsert _ _ _).map _)

theorem slots_peek (q : StreamPriorityQueue) (urgency : ℕ) :
    q.peek.1.slots urgency = q.slots urgency := by
  obtain ⟨first, second⟩ := q
  cases first with
  | cons => rfl
  | nil =>
    cases second with
    | nil => rfl
    | cons a rest =>
      unfold slots
      congr 1
      exact Multiset.coe_eq_coe.mpr ((List.perm_append_singleton a rest).map _)

theorem slots_remove_peek (h : q.peek.2 = some id) (urgency : ℕ) :
    ∃ incremental, q.slots urgency =
      ⟨urgency, incremental, id⟩ ::ₘ q.peek.1.remove.slots urgency := by
  obtain ⟨first, second⟩ := q
  cases first with
  | cons a rest =>
    cases h
    have hcons : (⟨urgency, false, id⟩ ::ₘ ↑(rest.map (Slot.mk urgency false)) : Multiset Slot) +
        ↑(second.map (Slot.mk urgency true)) = _ := Multiset.cons_add _ _ _
    exact ⟨false, hcons⟩
  | nil =>
    cases second with
    | nil => cases h
    | cons a rest =>
      cases h
      refine ⟨true, ?_⟩
      have hlast : ((⟨[], id :: rest⟩ : StreamPriorityQueue).peek.1.remove) = ⟨[], rest⟩ := by
        simp [peek, remove]
      have hcons : (0 : Multiset Slot) +
          ⟨urgency, true, id⟩ ::ₘ ↑(rest.map (Slot.mk urgency true)) = _ :=
        Multiset.add_cons _ _ _
      rw [hlast]
      exact hcons

theorem slots_remove_le (q : StreamPriorityQueue) (urgency : ℕ) :
    q.remove.slots urgency ≤ q.slots urgency := by
  obtain ⟨first, second⟩ := q
  cases first with
  | cons => exact add_le_add_left (Multiset.le_cons_self _ _) _
  | nil =>
    apply add_le_add_right
    exact Multiset.coe_le.mpr ((List.dropLast_sublist second).map _).subperm

theorem slots_of_isEmpty (h : q.isEmpty = true) (urgency : ℕ) : q.slots urgency = 0 := by
  simp only [isEmpty, Bool.and_eq_true, List.isEmpty_iff] at h
  rw [slots, h.1, h.2]
  rfl

end StreamPriorityQueue

/-! ## All urgencies -/

namespace StreamMap

variable {m m' : StreamMap} {id : ℕ}

def slots (m : StreamMap) : Multiset Slot := m.sendable.sum fun e => e.2.slots e.1

theorem mem_slots {slot : Slot} : slot ∈ m.slots ↔ ∃ e ∈ m.sendable, slot ∈ e.2.slots e.1 := by
  unfold slots sum
  simp only [mem_def]
  induction m.sendable.entries with
  | nil => simp
  | cons e l ih =>
    rw [List.map_cons, List.sum_cons, Multiset.mem_add, ih, List.exists_mem_cons_iff]

theorem slots_eq_of_get? {urgency : ℕ} {q : StreamPriorityQueue}
    (h : m.sendable.get? urgency = some q) :
    m.slots = q.slots urgency + (m.sendable.erase urgency).sum fun e => e.2.slots e.1 :=
  sum_eq_of_get? _ h

theorem slots_insert {urgency : ℕ} {q : StreamPriorityQueue}
    (h : m'.sendable = m.sendable.insert urgency q) :
    m'.slots = q.slots urgency + (m.sendable.erase urgency).sum fun e => e.2.slots e.1 := by
  rw [slots, h]
  exact sum_insert _ _ _ _

theorem slots_pushSendable (m : StreamMap) (id urgency : ℕ) (incremental : Bool) :
    (m.pushSendable id urgency incremental).slots = ⟨urgency, incremental, id⟩ ::ₘ m.slots := by
  have hpush : (m.pushSendable id urgency incremental).slots = _ := slots_insert rfl
  rw [hpush, slots_push, Multiset.cons_add]
  cases hget : m.sendable.get? urgency with
  | none =>
    rw [erase_eq_self hget]
    exact congrArg _ (Multiset.zero_add _)
  | some => rw [slots_eq_of_get? hget, Option.getD_some]

theorem slots_peekSendable (m : StreamMap) : m.peekSendable.1.slots = m.slots := by
  unfold peekSendable
  cases hfirst : m.sendable.first? with
  | none => rfl
  | some e =>
    have hget : m.sendable.get? e.1 = some e.2 :=
      get?_eq_some_iff.mpr (first?_eq_some_iff.mp hfirst).1
    have hpeek : ({ m with sendable := m.sendable.insert e.1 e.2.peek.1 } : StreamMap).slots = _ :=
      slots_insert rfl
    rw [slots_peek, ← slots_eq_of_get? hget] at hpeek
    exact hpeek

theorem slots_removeSendable_le (m : StreamMap) : m.removeSendable.slots ≤ m.slots := by
  unfold removeSendable
  cases hfirst : m.sendable.first? with
  | none => exact le_rfl
  | some e =>
    have hget : m.sendable.get? e.1 = some e.2 :=
      get?_eq_some_iff.mpr (first?_eq_some_iff.mp hfirst).1
    rw [slots_eq_of_get? hget]
    dsimp only
    split_ifs
    · exact Multiset.le_add_left _ _
    · rw [slots_insert rfl]
      exact add_le_add_left (e.2.slots_remove_le e.1) _

theorem slots_removeSendable (hnext : m.peekSendable.2 = some id)
    (hm : m'.sendable = m.peekSendable.1.sendable) :
    ∃ urgency incremental, m.slots = ⟨urgency, incremental, id⟩ ::ₘ m'.removeSendable.slots := by
  unfold peekSendable at hnext hm
  cases hfirst : m.sendable.first? with
  | none =>
    rw [hfirst] at hnext
    cases hnext
  | some e =>
    rw [hfirst] at hnext hm
    obtain ⟨he, hmin⟩ := first?_eq_some_iff.mp hfirst
    have hfirst' : m'.sendable.first? = some (e.1, e.2.peek.1) := by
      rw [hm, first?_eq_some_iff]
      refine ⟨mem_insert.mpr (.inl rfl), fun e' he' => ?_⟩
      rcases mem_insert.mp he' with rfl | ⟨he', -⟩
      · exact le_rfl
      · exact hmin e' he'
    -- what is left of the first queue, and the other queues
    have hrest : m'.removeSendable.slots = e.2.peek.1.remove.slots e.1 +
        (m.sendable.erase e.1).sum fun e => e.2.slots e.1 := by
      unfold removeSendable
      rw [hfirst']
      dsimp only
      split_ifs with hempty
      · rw [slots_of_isEmpty hempty, Multiset.zero_add, slots, hm,
          erase_insert]
      · refine slots_insert ?_
        rw [hm, insert_insert]
    obtain ⟨incremental, hslot⟩ := slots_remove_peek hnext e.1
    refine ⟨e.1, incremental, ?_⟩
    rw [slots_eq_of_get? (get?_eq_some_iff.mpr he), hslot, Multiset.cons_add, hrest]

end StreamMap

end Tquic
