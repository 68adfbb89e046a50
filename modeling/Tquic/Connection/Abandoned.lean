import Tquic.Connection.Purse

/-!
# Abandoned streams

A stream that is shut down or stopped announces its final size in a RESET_STREAM frame, and keeps
to it. When nothing about it waits or is queued again, later packets say nothing else about it.
-/

namespace Tquic

open SortedMap

/-- The frame carries data of the stream, or says that the stream is blocked. -/
def Frame.About (id : ℕ) : Frame → Prop
  | .stream id' _ _ _ => id' = id
  | .streamDataBlocked id' _ => id' = id
  | _ => False

namespace Purse

variable {loose : Prop} {p p' : Purse} {id size : ℕ} {b : SendBuf}

/-! ## Buffers -/

structure Sound (p : Purse) : Prop where
  accounted : ∀ id b, p.Has id b → b.Accounted
  announced : ∀ id code size, p.reset.get? id = some (code, size) → p.Announced id size

theorem has_setSend_self (p : Purse) (id : ℕ) (b : SendBuf) : (p.setSend id b).Has id b :=
  .inl (get?_insert_self _ _ _)

variable {id' : ℕ} {b' : SendBuf}

theorem has_setSend (h : (p.setSend id b).Has id' b') : id' = id ∧ b' = b ∨ p.Has id' b' := by
  rcases h with hget | hmem
  · exact (get?_insert_eq_some.mp hget).imp_right fun hin => .inl hin.1
  · exact .inr (.inr hmem)

theorem Has.setSend (h : p.Has id' b') (id : ℕ) (b : SendBuf) :
    (p.setSend id b).Has id' b' ∨ id' = id ∧ p.streams.get? id = some b' := by
  rcases h with hget | hmem
  · by_cases hid : id' = id
    · exact .inr ⟨hid, hid ▸ hget⟩
    · exact .inl (.inl ((get?_insert_of_ne _ hid _).trans hget))
  · exact .inl (.inr hmem)

theorem has_remove (hget : p.streams.get? id = some b) :
    (p.remove id b).Has id' b' ↔ p.Has id' b' := by
  constructor
  · rintro (hin | hmem)
    · exact .inl (get?_erase_eq_some.mp hin).1
    · rcases List.mem_cons.mp hmem with heq | hmem
      · cases heq
        exact .inl hget
      · exact .inr hmem
  · rintro (hin | hmem)
    · by_cases hid : id' = id
      · subst hid
        cases hget.symm.trans hin
        exact .inr List.mem_cons_self
      · exact .inl ((get?_erase_of_ne _ hid).trans hin)
    · exact .inr (.tail _ hmem)

theorem Announced.setSend (h : p.Announced id size)
    (hkeep : ∀ b, p.streams.get? id' = some b → b.isAbandoned = true →
      b'.isAbandoned = true ∧ b'.finOff = b.finOff) : (p.setSend id' b').Announced id size := by
  obtain ⟨b, hb, habandoned, hfin⟩ := h
  rcases hb.setSend id' b' with hstill | ⟨rfl, hget⟩
  · exact ⟨b, hstill, habandoned, hfin⟩
  · obtain ⟨habandoned', hfin'⟩ := hkeep b hget habandoned
    exact ⟨b', has_setSend_self p id b', habandoned', hfin'.trans hfin⟩

theorem Announced.step (hs : p.Sound) (hstep : Step loose p p') (h : p.Announced id size) :
    p'.Announced id size := by
  cases hstep with
  | created id' maxTx hget =>
    refine h.setSend ?_
    intro b hb
    rw [hget] at hb
    cases hb
  | continued hget hb =>
    refine h.setSend ?_
    intro b₁ hb₁ habandoned
    cases hget.symm.trans hb₁
    exact ⟨hb.isAbandoned_eq.trans habandoned, hb.finOff_eq⟩
  | wrote hget hroom hwrite =>
    refine setSend h ?_
    intro b₁ hb₁ habandoned
    cases hget.symm.trans hb₁
    exact ((hs.accounted _ _ (.inl hget)).write hwrite).2.2.2 habandoned
  | abandoned code hget hb =>
    refine setSend h ?_
    intro b₁ hb₁ habandoned
    cases hget.symm.trans hb₁
    exact ⟨hb.abandoned, hb.finOff_again (hs.accounted _ _ (.inl hget)) habandoned⟩
  | removed hget =>
    obtain ⟨b, hb, hrest⟩ := h
    exact ⟨b, (has_remove hget).mpr hb, hrest⟩
  | _ => exact h

theorem Sound.accounted_step (h : p.Sound) (hstep : Step loose p p') (hb : p'.Has id b) :
    b.Accounted := by
  cases hstep with
  | created id' maxTx =>
    rcases has_setSend hb with ⟨-, rfl⟩ | hb
    · exact .new maxTx
    · exact h.accounted _ _ hb
  | continued hget hcontinues =>
    rcases has_setSend hb with ⟨-, rfl⟩ | hb
    · exact (h.accounted _ _ (.inl hget)).continues hcontinues
    · exact h.accounted _ _ hb
  | wrote hget hroom hwrite =>
    rcases has_setSend hb with ⟨-, rfl⟩ | hb
    · exact ((h.accounted _ _ (.inl hget)).write hwrite).2.2.1
    · exact h.accounted _ _ hb
  | abandoned code hget habandons =>
    rcases has_setSend hb with ⟨-, rfl⟩ | hb
    · exact habandons.accounted
    · exact h.accounted _ _ hb
  | removed hget => exact h.accounted _ _ ((has_remove hget).mp hb)
  | _ => exact h.accounted _ _ hb

theorem Sound.step (h : p.Sound) (hstep : Step loose p p') : p'.Sound := by
  refine ⟨fun id b hb => h.accounted_step hstep hb, ?_⟩
  intro id' code' size' hget'
  have hkeep : p.reset.get? id' = some (code', size') → p'.Announced id' size' :=
    fun hin => .step h hstep (h.announced _ _ _ hin)
  cases hstep with
  | created | continued | wrote => exact hkeep hget'
  | @abandoned id size unsent b b' code hget hb =>
    rcases get?_insert_eq_some.mp hget' with ⟨rfl, heq⟩ | ⟨hin, -⟩
    · cases heq
      exact ⟨b', has_setSend_self p id' b', hb.abandoned, hb.size_eq ▸ hb.finOff_eq⟩
    · exact hkeep hin
  | removed => exact hkeep hget'
  | resetSent =>
    exact hkeep (get?_erase_eq_some.mp hget').1
  | resetLost code hannounced =>
    rcases get?_insert_eq_some.mp hget' with ⟨rfl, heq⟩ | ⟨hin, -⟩
    · cases heq
      exact hannounced
    · exact hkeep hin
  | _ => exact hkeep hget'

theorem Sound.path (h : p.Sound) (hpath : Path loose p p') : p'.Sound := by
  induction hpath with
  | refl => exact h
  | tail _ hstep ih => exact ih.step hstep

theorem Announced.path (hs : p.Sound) (hpath : Path loose p p') (h : p.Announced id size) :
    p'.Announced id size := by
  induction hpath with
  | refl => exact h
  | tail hbefore hstep ih => exact ih.step (hs.path hbefore) hstep

theorem Step.loosen (h : Step False p p') : Step loose p p' := by
  cases h with
  | created id maxTx hget hfresh => exact .created id maxTx hget (hfresh.imp_left False.elim)
  | continued hget hb => exact .continued hget hb
  | wrote hget hroom hwrite => exact .wrote hget hroom hwrite
  | abandoned code hget hb hquiet => exact .abandoned code hget hb (hquiet.imp_left False.elim)
  | removed hget => exact .removed hget
  | resetSent id => exact .resetSent id
  | resetLost code hannounced => exact .resetLost code hannounced
  | queued hget hq hwhy => exact .queued hget hq (hwhy.imp_right (.imp_left False.elim))
  | unqueued hq => exact .unqueued hq
  | blocked off hget hwhy => exact .blocked off hget (hwhy.imp_right (.imp_left False.elim))
  | unblocked id => exact .unblocked id

theorem Path.loosen (h : Path False p p') : Path loose p p' := by
  induction h with
  | refl => exact .refl
  | tail _ hstep ih => exact ih.tail hstep.loosen

/-! ## Silence -/

/-- Nothing about an abandoned stream waits to be sent, except its reset; a stopped stream may be
left in the queues. -/
structure Silent (p : Purse) : Prop where
  blocked : ∀ id size, p.Announced id size → p.dataBlocked.get? id = none
  queued : ∀ id b, p.streams.get? id = some b → b.isAbandoned = true →
    b.isStopped = true ∨ id ∉ p.queued
  apart : ∀ id b, p.streams.get? id = some b → ∀ b', (id, b') ∉ p.destroyed

theorem announced_setSend (h : (p.setSend id b).Announced id' size) :
    id' = id ∧ b.isAbandoned = true ∨ p.Announced id' size := by
  obtain ⟨b', hb', habandoned, hfin⟩ := h
  rcases has_setSend hb' with ⟨rfl, rfl⟩ | hb'
  · exact .inl ⟨rfl, habandoned⟩
  · exact .inr ⟨b', hb', habandoned, hfin⟩

theorem Sound.announced_of_get? (hs : p.Sound) (hget : p.streams.get? id = some b)
    (habandoned : b.isAbandoned = true) : p.Announced id b.writeOff :=
  ⟨b, .inl hget, habandoned, ((hs.accounted id b (.inl hget)).abandoned habandoned).1⟩

theorem Silent.setSend (h : p.Silent) (hfresh : ∀ b₁, (id, b₁) ∉ p.destroyed)
    (hquiet : b'.isAbandoned = true →
      p.dataBlocked.get? id = none ∧ (b'.isStopped = true ∨ id ∉ p.queued)) :
    (p.setSend id b').Silent where
  blocked id' size hannounced := by
    rcases announced_setSend hannounced with ⟨rfl, habandoned⟩ | hannounced
    · exact (hquiet habandoned).1
    · exact h.blocked id' size hannounced
  queued id' b₁ hget habandoned := by
    rcases get?_insert_eq_some.mp hget with ⟨rfl, rfl⟩ | ⟨hin, -⟩
    · exact (hquiet habandoned).2
    · exact h.queued id' b₁ hin habandoned
  apart id' b₁ hget := by
    rcases get?_insert_eq_some.mp hget with ⟨rfl, -⟩ | ⟨hin, -⟩
    · exact hfresh
    · exact h.apart id' b₁ hin

theorem Silent.quiet (h : p.Silent) (hs : p.Sound) (hget : p.streams.get? id = some b)
    (habandoned : b.isAbandoned = true) :
    p.dataBlocked.get? id = none ∧ (b.isStopped = true ∨ id ∉ p.queued) :=
  ⟨h.blocked id _ (hs.announced_of_get? hget habandoned), h.queued id b hget habandoned⟩

/-- Every strict step of the purse keeps abandoned streams silent. -/
theorem Silent.step (h : p.Silent) (hs : p.Sound) (hstep : Step False p p') : p'.Silent := by
  cases hstep with
  | created id maxTx hget hfresh => exact h.setSend (hfresh.resolve_left not_false) nofun
  | @continued id b b' hget hb =>
    refine h.setSend (h.apart id b hget) ?_
    intro habandoned
    rw [hb.isAbandoned_eq] at habandoned
    rw [hb.isStopped_eq]
    exact h.quiet hs hget habandoned
  | @wrote id n data fin b b' hget hroom hwrite =>
    obtain ⟨room, -, -, hb, -⟩ := SendBuf.write_cases hwrite
    have hset : (p.setSend id b').Silent := by
      refine h.setSend (h.apart id b hget) ?_
      intro habandoned
      rw [hb.isAbandoned_eq] at habandoned
      rw [hb.isStopped_eq]
      exact h.quiet hs hget habandoned
    exact ⟨hset.blocked, hset.queued, hset.apart⟩
  | @abandoned id size unsent b b' code hget hb hquiet =>
    have hset : (p.setSend id b').Silent :=
      h.setSend (h.apart id b hget) fun _ => hquiet.resolve_left fun hfalse => hfalse
    exact ⟨hset.blocked, hset.queued, hset.apart⟩
  | @removed id b hget =>
    refine ⟨?_, ?_, ?_⟩
    · rintro id' size ⟨b', hb', hrest⟩
      exact h.blocked id' size ⟨b', (has_remove hget).mp hb', hrest⟩
    · intro id' b' hget' habandoned
      exact h.queued id' b' (get?_erase_eq_some.mp hget').1 habandoned
    · intro id' b' hget' b₁ hmem
      obtain ⟨hget', hid⟩ := get?_erase_eq_some.mp hget'
      rcases List.mem_cons.mp hmem with heq | hmem
      · exact hid (Prod.mk.inj heq).1
      · exact h.apart id' b' hget' b₁ hmem
  | resetSent | resetLost => exact ⟨h.blocked, h.queued, h.apart⟩
  | @queued id b q hget hq hwhy =>
    refine ⟨h.blocked, ?_, h.apart⟩
    intro id' b' hget' habandoned
    refine (h.queued id' b' hget' habandoned).imp_right fun hout hmem => ?_
    rcases hq hmem with rfl | hmem
    · -- the stream that is queued has something to send, so it is not abandoned
      cases hget.symm.trans hget'
      have hready := (hs.accounted _ _ (.inl hget)).not_ready habandoned
      simp [hready, habandoned] at hwhy
    · exact hout hmem
  | unqueued hq =>
    refine ⟨h.blocked, ?_, h.apart⟩
    intro id' b' hget' habandoned
    exact (h.queued id' b' hget' habandoned).imp_right fun hout hmem => hout (hq hmem)
  | @blocked id b off hget hwhy =>
    refine ⟨?_, h.queued, h.apart⟩
    rintro id' size ⟨b', hb', habandoned, hfin⟩
    have hid : id' ≠ id := by
      rintro rfl
      rcases hb' with hget' | hmem
      · cases hget.symm.trans hget'
        have hunfinished := (hs.accounted _ _ (.inl hget)).not_abandoned
        rcases hwhy with hwhy | hfalse | hwhy
        · exact absurd habandoned (by rw [hunfinished hwhy]; decide)
        · exact hfalse
        · exact absurd habandoned (by rw [hwhy]; decide)
      · exact h.apart id' b hget b' hmem
    exact (get?_insert_of_ne _ hid _).trans (h.blocked id' size ⟨b', hb', habandoned, hfin⟩)
  | unblocked id =>
    refine ⟨?_, h.queued, h.apart⟩
    intro id' size hannounced
    by_cases hid : id' = id
    · subst hid
      exact get?_erase_self _ _
    · exact (get?_erase_of_ne _ hid).trans (h.blocked id' size hannounced)

theorem Silent.path (h : p.Silent) (hs : p.Sound) (hpath : Path False p p') : p'.Silent := by
  induction hpath with
  | refl => exact h
  | tail hbefore hstep ih => exact ih.step (hs.path hbefore) hstep

end Purse

end Tquic
