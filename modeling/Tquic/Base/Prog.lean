import Tquic.Base.Act

/-!
# Programs with unbounded loops

A program is given fuel, the number of rounds each of its loops may make, and runs out of it or
returns. More fuel never changes what was returned, so "the program returns" means one value. A
triple is total: from a state in the precondition some fuel is enough.
-/

universe u

namespace Exec

variable {α β : Type u}

/-- `y` is `x`, or `x` ran out of fuel. -/
def Approx (x y : Exec α) : Prop := x = .diverge ∨ x = y

theorem Approx.refl (x : Exec α) : Approx x x := .inr rfl

theorem Approx.eq_of_ok {x y : Exec α} {a : α} (h : Approx x y) (hx : x = .ok a) : y = .ok a := by
  rcases h with h | rfl
  · rw [h] at hx
    cases hx
  · exact hx

end Exec

open Exec Act

namespace Act

variable {σ ε α β ι : Type u} {body : ι → Act σ ε (Next ι α)}

theorem bind_approx {x x' : Act σ ε α} {f f' : α → Act σ ε β} {s : σ} (hx : Approx (x s) (x' s))
    (hf : ∀ a s, Approx (f a s) (f' a s)) : Approx ((x >>= f) s) ((x' >>= f') s) := by
  change Approx (bind x f s) (bind x' f' s)
  unfold bind
  rcases hx with hx | hx
  · simp [hx, Approx]
  · rw [hx]
    rcases x' s with ⟨s', _ | a⟩ | _ | _
    · exact .refl _
    · exact hf a s'
    · exact .refl _
    · exact .refl _

/-- The rounds of a loop with the local variables `i`. -/
def iterate (body : ι → Act σ ε (Next ι α)) : ℕ → ι → Act σ ε α
  | 0, _ => fun _ => .diverge
  | rounds + 1, i => do
      match ← body i with
      | .again i => iterate body rounds i
      | .done a => return a

theorem moves_iterate {S : σ → σ → Prop}
    (hbody : ∀ i, Moves S (body i)) (rounds : ℕ) (i : ι) : Moves S (iterate body rounds i) := by
  induction rounds generalizing i with
  | zero => exact fun s out h => nomatch h
  | succ rounds ih =>
    refine moves_bind (hbody i) fun next => ?_
    cases next with
    | again i' => exact ih i'
    | done a => exact moves_pure a

theorem valid_iterate (Inv : ι → σ → Prop) {Q : α → σ → Prop} {E : ε → σ → Prop}
    (hbody : ∀ i, Valid (Inv i) (body i) (fun next s => next.Holds (Inv · s) (Q · s)) E)
    (rounds : ℕ) (i : ι) : Valid (Inv i) (iterate body rounds i) Q E := by
  induction rounds generalizing i with
  | zero => exact fun s out _ h => nomatch h
  | succ rounds ih =>
    refine valid_bind (hbody i) fun next => ?_
    cases next with
    | again i' => exact ih i'
    | done => exact valid_pure fun s hs => hs

theorem iterate_ne_diverge (Inv : ι → σ → Prop)
    (measure : ι → σ → ℕ) (hbody : ∀ i s, Inv i s → body i s ≠ .diverge)
    (hagain : ∀ i s i' s', Inv i s → body i s = .ok (s', .ok (.again i')) →
      Inv i' s' ∧ measure i' s' < measure i s)
    {rounds : ℕ} {i : ι} {s : σ} (hs : Inv i s) (hlt : measure i s < rounds) :
    iterate body rounds i s ≠ .diverge := by
  induction rounds generalizing i s with
  | zero => omega
  | succ rounds ih =>
    change bind (body i) _ s ≠ _
    unfold bind
    cases hx : body i s with
    | panic => exact nofun
    | diverge => exact absurd hx (hbody i s hs)
    | ok out =>
      obtain ⟨s', r⟩ := out
      cases r with
      | error => exact nofun
      | ok next =>
        cases next with
        | done => exact nofun
        | again i' =>
          obtain ⟨hs', hless⟩ := hagain i s i' s' hs hx
          exact ih hs' (by omega)

theorem iterate_diverges (Stuck : ι → σ → Prop) (hround : ∀ i s, Stuck i s → body i s = .diverge ∨
      ∃ i' s', body i s = .ok (s', .ok (.again i')) ∧ Stuck i' s')
    {i : ι} {s : σ} (h : Stuck i s) (rounds : ℕ) : iterate body rounds i s = .diverge := by
  induction rounds generalizing i s with
  | zero => rfl
  | succ rounds ih =>
    rcases hround i s h with hdiv | ⟨i', s', heq, hs'⟩
    · change bind _ _ s = _
      simp only [bind, hdiv]
    · exact (bind_of_ok heq).trans (ih hs')

theorem iterate_approx {body' : ι → Act σ ε (Next ι α)}
    (hbody : ∀ i s, Approx (body i s) (body' i s)) {k k' : ℕ} (hk : k ≤ k') (i : ι) (s : σ) :
    Approx (iterate body k i s) (iterate body' k' i s) := by
  induction k generalizing k' i s with
  | zero => exact .inl rfl
  | succ k ih =>
    obtain ⟨k', rfl⟩ := Nat.exists_eq_add_of_lt hk
    refine bind_approx (hbody i s) fun next s' => ?_
    cases next with
    | again i' => exact ih (by omega) i' s'
    | done => exact .refl _

end Act

/-- A program over the state `σ` with errors `ε`. -/
structure Prog (σ ε α : Type u) where
  run : ℕ → Act σ ε α
  mono : ∀ {m n : ℕ}, m ≤ n → ∀ s, Approx (run m s) (run n s)

namespace Prog

variable {σ ε α β ι : Type u}
variable {x : Prog σ ε α} {f : α → Prog σ ε β} {body : ι → Prog σ ε (Next ι α)} {s s' : σ}
  {a : α} {e : ε} {i : ι}

def act (x : Act σ ε α) : Prog σ ε α := ⟨fun _ => x, fun _ _ => Approx.refl _⟩

instance : Monad (Prog σ ε) where
  pure a := act (pure a)
  bind x f := ⟨fun n => x.run n >>= fun a => (f a).run n,
    fun h s => Act.bind_approx (x.mono h s) fun a s => (f a).mono h s⟩

def get : Prog σ ε σ := act Act.get

def modify (f : σ → σ) : Prog σ ε PUnit := act (Act.modify f)

def throw (e : ε) : Prog σ ε α := act (Act.throw e)

theorem bind_run (x : Prog σ ε α) (f : α → Prog σ ε β) (n : ℕ) :
    (x >>= f).run n = x.run n >>= fun a => (f a).run n := rfl

@[simp] theorem get_bind_run (f : σ → Prog σ ε β) (n : ℕ) (s : σ) :
    ((get : Prog σ ε σ) >>= f).run n s = (f s).run n s := rfl

def loop (body : ι → Prog σ ε (Next ι α)) (i : ι) : Prog σ ε α where
  run n := Act.iterate (fun i => (body i).run n) n i
  mono h s := Act.iterate_approx (fun i s => (body i).mono h s) h i s

/-- The result of `x`, an error included, as a value. -/
def attempt (x : Prog σ ε α) : Prog σ ε (Except ε α) where
  run n s := (x.run n s).bind fun out => .ok (out.1, .ok out.2)
  mono h s := by
    rcases x.mono h s with hs | hs
    · exact .inl (by rw [hs]; rfl)
    · exact .inr (by rw [hs])

/-- With enough fuel the program returns `out`. -/
def Yields (x : Prog σ ε α) (s : σ) (out : σ × Except ε α) : Prop := ∃ n, x.run n s = .ok out

variable {out : σ × Except ε α}

theorem Yields.unique {out' : σ × Except ε α} (h : x.Yields s out) (h' : x.Yields s out') :
    out = out' := by
  obtain ⟨n, hn⟩ := h
  obtain ⟨m, hm⟩ := h'
  have h₁ := (x.mono (le_max_left n m) s).eq_of_ok hn
  have h₂ := (x.mono (le_max_right n m) s).eq_of_ok hm
  rw [h₁] at h₂
  cases h₂
  rfl

def final (x : Prog σ ε α) (n : ℕ) (s : σ) : σ :=
  match x.run n s with
  | .ok out => out.1
  | _ => s

def result? (x : Prog σ ε α) (n : ℕ) (s : σ) : Option (Except ε α) :=
  match x.run n s with
  | .ok out => some out.2
  | _ => none

theorem yields_of_result? {n : ℕ} {r : Except ε α}
    (h : x.result? n s = some r) : x.Yields s (x.final n s, r) := by
  refine ⟨n, ?_⟩
  unfold result? at h
  unfold final
  split at h
  · next out heq =>
      rw [heq, ← Option.some.inj h]
  · cases h

theorem yields_bind
    {out : σ × Except ε β} (hx : x.Yields s (s', .ok a)) (hf : (f a).Yields s' out) :
    (x >>= f).Yields s out := by
  obtain ⟨n, hn⟩ := hx
  obtain ⟨m, hm⟩ := hf
  refine ⟨max n m, ?_⟩
  have hx' := (x.mono (le_max_left n m) s).eq_of_ok hn
  have hf' := ((f a).mono (le_max_right n m) s').eq_of_ok hm
  exact (bind_of_ok hx').trans hf'

theorem yields_bind_error
    (hx : x.Yields s (s', .error e)) (f : α → Prog σ ε β) : (x >>= f).Yields s (s', .error e) := by
  obtain ⟨n, hn⟩ := hx
  exact ⟨n, bind_of_error hn⟩

/-! ## Triples -/

/-- From a state in `P` the program returns, a value into `Q` or an error into `E`. -/
def Triple (P : σ → Prop) (x : Prog σ ε α) (Q : α → σ → Prop) (E : ε → σ → Prop) : Prop :=
  ∀ s, P s → ∃ out, x.Yields s out ∧ Act.Post Q E out

variable {P P' : σ → Prop} {Q Q' : α → σ → Prop} {R : β → σ → Prop} {E : ε → σ → Prop}

theorem triple_act {x : Act σ ε α} (h : Act.Triple P x Q E) : Triple P (act x) Q E := by
  intro s hs
  obtain ⟨out, hx, hout⟩ := h s hs
  exact ⟨out, ⟨0, hx⟩, hout⟩

theorem triple_pure (h : ∀ s, P s → Q a s) : Triple P (pure a : Prog σ ε α) Q E :=
  triple_act (Act.triple_pure h)

theorem triple_bind (hx : Triple P x Q E)
    (hf : ∀ a, Triple (Q a) (f a) R E) : Triple P (x >>= f) R E := by
  intro s hs
  obtain ⟨⟨s', r⟩, hyields, hr⟩ := hx s hs
  cases r with
  | error e => exact ⟨(s', .error e), yields_bind_error hyields f, hr⟩
  | ok a =>
    obtain ⟨out, hf', hout⟩ := hf a s' hr
    exact ⟨out, yields_bind hyields hf', hout⟩

theorem triple_get : Triple P (get : Prog σ ε σ) (fun a s => P s ∧ a = s) E :=
  triple_act Act.triple_get

theorem triple_modify {f : σ → σ} {Q : PUnit → σ → Prop} (h : ∀ s, P s → Q ⟨⟩ (f s)) :
    Triple P (modify f : Prog σ ε PUnit) Q E :=
  triple_act (Act.triple_modify h)

theorem triple_throw (h : ∀ s, P s → E e s) : Triple P (throw e : Prog σ ε α) Q E :=
  triple_act (Act.triple_throw h)

theorem Triple.mono (h : Triple P x Q E) (hP : ∀ s, P' s → P s)
    (hQ : ∀ a s, Q a s → Q' a s) : Triple P' x Q' E := by
  intro s hs
  obtain ⟨⟨s', r⟩, hx, hr⟩ := h s (hP s hs)
  refine ⟨(s', r), hx, ?_⟩
  cases r with
  | ok a => exact hQ a s' hr
  | error => exact hr

theorem Triple.weaken {E' : ε → σ → Prop} (h : Triple P x Q E)
    (hE : ∀ e s, E e s → E' e s) : Triple P x Q E' := by
  intro s hs
  obtain ⟨⟨s', r⟩, hx, hr⟩ := h s hs
  refine ⟨(s', r), hx, ?_⟩
  cases r with
  | ok => exact hr
  | error e => exact hE e s' hr

theorem triple_attempt (h : Triple P x Q E) :
    Triple P x.attempt (fun r s => Act.Post Q E (s, r)) E := by
  intro s hs
  obtain ⟨⟨s', r⟩, ⟨n, hn⟩, hr⟩ := h s hs
  refine ⟨(s', .ok r), ⟨n, ?_⟩, hr⟩
  simp only [attempt, hn]
  rfl

theorem loop_again {i i' : ι} (hbody : (body i).Yields s (s', .ok (.again i')))
    (h : (loop body i').Yields s' out) : (loop body i).Yields s out := by
  obtain ⟨n, hn⟩ := hbody
  obtain ⟨m, hm⟩ := h
  refine ⟨max n m + 1, ?_⟩
  have hbody' := ((body i).mono (Nat.le_succ_of_le (le_max_left n m)) s).eq_of_ok hn
  refine (bind_of_ok hbody').trans ?_
  exact (iterate_approx (fun i s => (body i).mono (Nat.le_succ_of_le (le_max_right n m)) s)
    (le_max_right n m) i' s').eq_of_ok hm

theorem loop_done
    (hbody : (body i).Yields s (s', .ok (.done a))) : (loop body i).Yields s (s', .ok a) := by
  obtain ⟨n, hn⟩ := hbody
  exact ⟨n + 1, bind_of_ok (((body i).mono (Nat.le_succ n) s).eq_of_ok hn)⟩

theorem loop_error
    (hbody : (body i).Yields s (s', .error e)) : (loop body i).Yields s (s', .error e) := by
  obtain ⟨n, hn⟩ := hbody
  exact ⟨n + 1, bind_of_error (((body i).mono (Nat.le_succ n) s).eq_of_ok hn)⟩

/-- A loop returns if each round keeps the invariant and lowers the measure. -/
theorem triple_loop (Inv : ι → σ → Prop) (measure : ι → σ → ℕ)
    (hround : ∀ i n, Triple (fun s => Inv i s ∧ measure i s = n) (body i)
      (fun next s => next.Holds (fun i' => Inv i' s ∧ measure i' s < n) (fun a => Q a s)) E)
    (i : ι) : Triple (Inv i) (loop body i) Q E := by
  intro s hs
  induction hn : measure i s using Nat.strong_induction_on generalizing i s with
  | h n ih =>
    obtain ⟨⟨s', r⟩, hbody, hr⟩ := hround i n s ⟨hs, hn⟩
    cases r with
    | error e => exact ⟨(s', .error e), loop_error hbody, hr⟩
    | ok next =>
      cases next with
      | done a => exact ⟨(s', .ok a), loop_done hbody, hr⟩
      | again i' =>
        obtain ⟨hs', hlt⟩ : Inv i' s' ∧ measure i' s' < n := hr
        obtain ⟨out, hloop, hout⟩ := ih (measure i' s') hlt i' s' hs' rfl
        exact ⟨out, loop_again hbody hloop, hout⟩

theorem Triple.of_yields (h : Triple P x Q E) (hs : P s) (hout : x.Yields s out) :
    Act.Post Q E out := by
  obtain ⟨out', hout', hpost⟩ := h s hs
  rwa [hout.unique hout']

/-! ## Partial correctness -/

/-- When the program returns from a state in `P`, it is a value into `Q` or an error
into `E`. -/
def Valid (P : σ → Prop) (x : Prog σ ε α) (Q : α → σ → Prop) (E : ε → σ → Prop) : Prop :=
  ∀ s out, P s → x.Yields s out → Act.Post Q E out

theorem Triple.valid (h : Triple P x Q E) : Valid P x Q E :=
  fun _ _ hs hout => h.of_yields hs hout

theorem valid_act {x : Act σ ε α} (h : Act.Valid P x Q E) : Valid P (act x) Q E := by
  rintro s out hs ⟨n, hn⟩
  exact h s out hs hn

theorem valid_pure (h : ∀ s, P s → Q a s) : Valid P (pure a : Prog σ ε α) Q E :=
  (triple_pure h).valid

theorem valid_modify {f : σ → σ} {Q : PUnit → σ → Prop} (h : ∀ s, P s → Q ⟨⟩ (f s)) :
    Valid P (modify f : Prog σ ε PUnit) Q E :=
  (triple_modify h).valid

theorem valid_bind (hx : Valid P x Q E)
    (hf : ∀ a, Valid (Q a) (f a) R E) : Valid P (x >>= f) R E := by
  rintro s out hs ⟨n, hn⟩
  refine Act.valid_bind (Q := Q) (x := x.run n) (f := fun a => (f a).run n) ?_ ?_ s out hs hn
  · exact fun s out hs hout => hx s out hs ⟨n, hout⟩
  · exact fun a s out hs hout => hf a s out hs ⟨n, hout⟩

/-- What every round preserves holds when the loop is left. -/
theorem valid_loop (Inv : ι → σ → Prop) (hround : ∀ i, Valid (Inv i) (body i)
      (fun next s => next.Holds (fun i' => Inv i' s) (fun a => Q a s)) E)
    (i : ι) : Valid (Inv i) (loop body i) Q E := by
  rintro s out hs ⟨n, hn⟩
  refine valid_iterate Inv (fun i s out hs hout => ?_) n i s out hs hn
  exact hround i s out hs ⟨n, hout⟩

/-! ## Loops that do not return -/

theorem loop_diverges (Stuck : ι → σ → Prop)
    (hround : ∀ i s n, Stuck i s → (body i).run n s = .diverge ∨
      ∃ i' s', (body i).run n s = .ok (s', .ok (.again i')) ∧ Stuck i' s')
    (h : Stuck i s) (n : ℕ) : (loop body i).run n s = .diverge := by
  exact iterate_diverges Stuck (fun i s => hround i s n) h n

/-! ## Runs -/

/-- The states after a sequence of calls that all returned. -/
inductive Reach (perform : ι → Prog σ ε α) (legal : σ → ι → Prop) (s₀ : σ) : List ι → σ → Prop
  | start : Reach perform legal s₀ [] s₀
  | call {inputs : List ι} {s s' : σ} {i : ι} {r : Except ε α} :
      Reach perform legal s₀ inputs s → legal s i → (perform i).Yields s (s', r) →
      Reach perform legal s₀ (inputs ++ [i]) s'

theorem Reach.invariant {perform : ι → Prog σ ε α} {legal : σ → ι → Prop} {s₀ s : σ}
    {inputs : List ι} (h : Reach perform legal s₀ inputs s) {Inv : σ → Prop} (h₀ : Inv s₀)
    (hstep : ∀ i s out, Inv s → legal s i → (perform i).Yields s out → Inv out.1) : Inv s := by
  induction h with
  | start => exact h₀
  | call _ hlegal hyields ih => exact hstep _ _ _ ih hlegal hyields

end Prog
