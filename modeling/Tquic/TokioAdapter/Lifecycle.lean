import Tquic.Base.Run

/-!
# Waiting for a connection to be established or closed

Tasks wait in `established` and `closed` for notifications of the reactor. A `Notify` is the
number of its notifications: a `Notified` future is ready when the count has grown. Each shared
access is a step of its own.
-/

namespace Tquic.TokioAdapter

/-- What a task does next: the calls `closed` and `established`, access by access. -/
inductive Task where
  | closed
  | closedWait
  | closedAwait (closed : ℕ)
  | established
  | isClosed
  | establishedWait
  | recheck (established : ℕ)
  | select (established : ℕ)
  | selectAwait (established closed : ℕ)
  | returned
  deriving DecidableEq

/-- What the reactor does next for the connection: an event has two steps, and the last
notification ends it. -/
inductive Phase where
  | alive
  | establishing
  | closing
  | over
  deriving DecidableEq

/-- `SharedConnState`, the reactor and the tasks that hold the connection. -/
structure Lifecycle where
  isEstablished : Bool := false
  hasCloseInfo : Bool := false
  established : ℕ := 0
  closed : ℕ := 0
  phase : Phase := .alive
  tasks : List Task := []

namespace Lifecycle

/-- `pick` says which of two ready branches `select!` takes. -/
def next (s : Lifecycle) (pick : Bool) : Task → Task
  | .closed => if s.hasCloseInfo then .returned else .closedWait
  | .closedWait => .closedAwait s.closed
  | .closedAwait closed => if closed < s.closed then .closed else .closedAwait closed
  | .established => if s.isEstablished then .returned else .isClosed
  | .isClosed => if s.hasCloseInfo then .returned else .establishedWait
  | .establishedWait => .recheck s.established
  | .recheck established => if s.isEstablished then .returned else .select established
  | .select established => .selectAwait established s.closed
  | .selectAwait established closed =>
    if established < s.established ∧ (pick ∨ ¬closed < s.closed) then .established
    else if closed < s.closed then .returned
    else .selectAwait established closed
  | .returned => .returned

inductive Input where
  | callClosed
  | callEstablished
  | run (task : ℕ) (pick : Bool)
  | onConnEstablished
  | onConnClosed
  | shutdownAll
  | notifyWaiters

def step (s : Lifecycle) : Input → Exec (Lifecycle × Unit)
  | .callClosed => .ok ({ s with tasks := s.tasks ++ [.closed] }, ())
  | .callEstablished => .ok ({ s with tasks := s.tasks ++ [.established] }, ())
  | .run task pick => .ok ({ s with tasks := s.tasks.modify task (s.next pick) }, ())
  | .onConnEstablished =>
    if s.phase = .alive then .ok ({ s with isEstablished := true, phase := .establishing }, ())
    else .ok (s, ())
  | .onConnClosed =>
    if s.phase = .alive then .ok ({ s with hasCloseInfo := true, phase := .closing }, ())
    else .ok (s, ())
  -- `shutdown_all` notifies, but leaves no close info behind.
  | .shutdownAll =>
    if s.phase = .alive then .ok ({ s with closed := s.closed + 1, phase := .over }, ())
    else .ok (s, ())
  | .notifyWaiters =>
    match s.phase with
    | .establishing => .ok ({ s with established := s.established + 1, phase := .alive }, ())
    | .closing => .ok ({ s with closed := s.closed + 1, phase := .over }, ())
    | _ => .ok (s, ())

/-- The task has found no close info and not created its future yet. -/
def between : Task → Bool
  | .closedWait | .establishedWait | .recheck _ | .select _ => true
  | _ => false

/-- The connection is closed before the reactor shuts down, and the close is not notified while a
task is about to wait. -/
def Orderly (s : Lifecycle) : Input → Prop
  | .shutdownAll => s.phase = .over
  | .notifyWaiters => s.phase = .closing → ∀ t ∈ s.tasks, between t = false
  | _ => True

instance (s : Lifecycle) : DecidablePred s.Orderly := fun i => by
  cases i <;> unfold Orderly <;> infer_instance

def Suspended (s : Lifecycle) : Task → Prop
  | .closedAwait closed => ¬closed < s.closed
  | .selectAwait established closed => ¬established < s.established ∧ ¬closed < s.closed
  | _ => False

def Before (n : ℕ) : Task → Prop
  | .closedAwait closed | .selectAwait _ closed => closed < n
  | _ => True

structure Sound (s : Lifecycle) : Prop where
  past : ∀ t ∈ s.tasks, Before (s.closed + 1) t
  info : s.phase = .closing ∨ s.phase = .over → s.hasCloseInfo = true
  awake : s.phase = .over → ∀ t ∈ s.tasks, between t = false ∧ Before s.closed t

variable {s s' : Lifecycle}

theorem before_next (pick : Bool) {t : Task} (h : Before (s.closed + 1) t) :
    Before (s.closed + 1) (s.next pick t) := by
  fun_cases next s pick t <;> simp_all [Before]

theorem awake_next (pick : Bool) (hinfo : s.hasCloseInfo = true) {t : Task}
    (h : between t = false ∧ Before s.closed t) :
    between (s.next pick t) = false ∧ Before s.closed (s.next pick t) := by
  fun_cases next s pick t <;> simp_all [Before, between]

theorem forall_modify {P : Task → Prop} {f : Task → Task} (hf : ∀ t, P t → P (f t))
    {tasks : List Task} (h : ∀ t ∈ tasks, P t) (i : ℕ) : ∀ t ∈ tasks.modify i f, P t := by
  induction tasks generalizing i with
  | nil => simp
  | cons t tasks ih =>
    obtain ⟨ht, htasks⟩ := List.forall_mem_cons.mp h
    cases i with
    | zero => exact List.forall_mem_cons.mpr ⟨hf t ht, htasks⟩
    | succ i => exact List.forall_mem_cons.mpr ⟨ht, ih htasks i⟩

theorem Sound.step {i : Input} (h : s.Sound) (hi : s.Orderly i)
    (hstep : s.step i = .ok (s', ())) : s'.Sound := by
  cases i with
  | callClosed | callEstablished =>
    cases hstep
    exact ⟨List.forall_mem_append.mpr ⟨h.past, by simp [Before]⟩, h.info,
      fun ho => List.forall_mem_append.mpr ⟨h.awake ho, by simp [Before, between]⟩⟩
  | run i pick =>
    cases hstep
    refine ⟨forall_modify (P := Before (s.closed + 1)) (fun _ => before_next pick) h.past i,
      h.info, fun ho => ?_⟩
    exact forall_modify (P := fun t => between t = false ∧ Before s.closed t)
      (fun _ => awake_next pick (h.info (.inr ho))) (h.awake ho) i
  | onConnEstablished | onConnClosed =>
    simp only [Lifecycle.step] at hstep
    split_ifs at hstep with halive <;> cases hstep
    · exact ⟨h.past, by simp, by simp⟩
    · exact h
  | shutdownAll =>
    have hover : s.phase = .over := hi
    simp only [Lifecycle.step, hover] at hstep
    cases hstep
    exact h
  | notifyWaiters =>
    simp only [Lifecycle.step] at hstep
    split at hstep <;> cases hstep
    · exact ⟨h.past, by simp, by simp⟩
    · rename_i hclosing
      refine ⟨fun t ht => ?_, fun _ => h.info (.inl hclosing),
        fun _ t ht => ⟨hi hclosing t ht, h.past t ht⟩⟩
      have := h.past t ht
      cases t <;> simp_all [Before] <;> omega
    · exact h

/-- After the last notification for a connection no task is suspended in `closed` or
`established`, if it was closed in order. -/
theorem none_suspended_when_over (h : Exec.Reaches step Orderly {} s) (hover : s.phase = .over) :
    ∀ t ∈ s.tasks, ¬s.Suspended t := by
  have hsound : s.Sound := h.invariant Sound (fun _ _ _ _ hs hi hstep => hs.step hi hstep)
    ⟨by simp, by simp, by simp⟩
  intro t ht hsuspended
  have hbefore := (hsound.awake hover t ht).2
  cases t with
  | closedAwait => exact hsuspended hbefore
  | selectAwait => exact hsuspended.2 hbefore
  | _ => exact hsuspended

theorem none_suspended_when_over_closed :
    let s := Exec.follow step Orderly {} [.callClosed, .run 0 true, .run 0 true, .run 0 true,
      .onConnClosed, .notifyWaiters]
    s.phase = .over ∧ s.tasks = [.closedAwait 0] ∧ ∀ t ∈ s.tasks, ¬s.Suspended t :=
  ⟨by decide, by decide, none_suspended_when_over (Exec.reaches_follow _ _) (by decide)⟩

/-- A task that has found no close info waits for a notification that was given, and one that
shutdown has woken finds no close info again. -/
theorem suspended_when_over :
    let race := Exec.follow step (fun _ _ => True) {} [.callClosed, .run 0 true, .onConnClosed,
      .notifyWaiters, .run 0 true]
    let woken := Exec.follow step (fun _ _ => True) {} [.callClosed, .run 0 true, .run 0 true,
      .shutdownAll, .run 0 true, .run 0 true, .run 0 true]
    race.phase = .over ∧ race.tasks = [.closedAwait 1] ∧ race.Suspended (.closedAwait 1) ∧
      woken.phase = .over ∧ woken.tasks = [.closedAwait 1] ∧
      woken.Suspended (.closedAwait 1) := by
  refine ⟨by decide, by decide, ?_, by decide, by decide, ?_⟩ <;> exact lt_irrefl 1

end Lifecycle

end Tquic.TokioAdapter
