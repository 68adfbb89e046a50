import Tquic.Base.Exec

/-!
# Fallible code over a state

`Act σ ε α` is code with a state, early returns of an error and the panics and loops of `Exec`. An
error keeps the state reached so far. A triple has one postcondition for a value and one for an
error.
-/

universe u

def Act (σ ε α : Type u) : Type u := σ → Exec (σ × Except ε α)

namespace Act

variable {σ ε α β : Type u} {x : Act σ ε α} {f : α → Act σ ε β}

def bind (x : Act σ ε α) (f : α → Act σ ε β) : Act σ ε β := fun s =>
  match x s with
  | .ok (s', .ok a) => f a s'
  | .ok (s', .error e) => .ok (s', .error e)
  | .panic => .panic
  | .diverge => .diverge

instance : Monad (Act σ ε) where
  pure a := fun s => .ok (s, .ok a)
  bind := bind

def get : Act σ ε σ := fun s => .ok (s, .ok s)

def modify (f : σ → σ) : Act σ ε PUnit := fun s => .ok (f s, .ok ⟨⟩)

def throw (e : ε) : Act σ ε α := fun s => .ok (s, .error e)

/-- A computation that only reads the result of a pure function. -/
def lift (r : Except ε α) : Act σ ε α := fun s => .ok (s, r)

/-- Code that may panic or loop, but neither fails nor touches the state. -/
def exec (x : Exec α) : Act σ ε α := fun s => x.bind fun a => .ok (s, .ok a)

section Apply

variable (s : σ)

@[simp] theorem pure_apply (a : α) : (pure a : Act σ ε α) s = .ok (s, .ok a) := rfl

@[simp] theorem get_apply : (get : Act σ ε σ) s = .ok (s, .ok s) := rfl

@[simp] theorem modify_apply (f : σ → σ) :
    (modify f : Act σ ε PUnit) s = .ok (f s, .ok ⟨⟩) := rfl

@[simp] theorem throw_apply (e : ε) : (throw e : Act σ ε α) s = .ok (s, .error e) := rfl

@[simp] theorem lift_apply (r : Except ε α) : (lift r : Act σ ε α) s = .ok (s, r) := rfl

@[simp] theorem get_bind (f : σ → Act σ ε β) : ((get : Act σ ε σ) >>= f) s = f s s := rfl

@[simp] theorem modify_bind (g : σ → σ) (f : PUnit → Act σ ε β) :
    ((modify g : Act σ ε PUnit) >>= f) s = f ⟨⟩ (g s) := rfl

@[simp] theorem exec_ok_bind (a : α) (f : α → Act σ ε β) :
    ((exec (.ok a) : Act σ ε α) >>= f) s = f a s := rfl

variable {s} {s' : σ} {x : Act σ ε α} {f : α → Act σ ε β}

theorem bind_of_ok {a : α} (h : x s = .ok (s', .ok a)) : (x >>= f) s = f a s' := by
  change bind x f s = _
  simp only [bind, h]

theorem bind_of_error {e : ε} (h : x s = .ok (s', .error e)) :
    (x >>= f) s = .ok (s', .error e) := by
  change bind x f s = _
  simp only [bind, h]

theorem bind_of_panic (h : x s = .panic) : (x >>= f) s = .panic := by
  change bind x f s = _
  simp only [bind, h]

end Apply

theorem bind_ne_diverge {s : σ} (hx : x s ≠ .diverge)
    (hf : ∀ a s', x s = .ok (s', .ok a) → f a s' ≠ .diverge) : (x >>= f) s ≠ .diverge := by
  cases h : x s with
  | diverge => exact absurd h hx
  | panic =>
    rw [bind_of_panic h]
    exact nofun
  | ok out =>
    obtain ⟨s', r⟩ := out
    cases r with
    | error =>
      rw [bind_of_error h]
      exact nofun
    | ok a =>
      rw [bind_of_ok h]
      exact hf a s' h

/-! ## Triples -/

/-- The outcome satisfies `Q` when it is a value and `E` when it is an error. -/
def Post (Q : α → σ → Prop) (E : ε → σ → Prop) : σ × Except ε α → Prop
  | (s, .ok a) => Q a s
  | (s, .error e) => E e s

theorem post_const {P : σ → Prop} {out : σ × Except ε α} :
    Post (fun _ => P) (fun _ => P) out ↔ P out.1 := by
  obtain ⟨s, r⟩ := out
  cases r <;> rfl

/-- From a state in `P` the code returns, a value into `Q` or an error into `E`. -/
def Triple (P : σ → Prop) (x : Act σ ε α) (Q : α → σ → Prop) (E : ε → σ → Prop) : Prop :=
  ∀ s, P s → (x s).Returns (Post Q E)

variable {P P' : σ → Prop} {Q Q' : α → σ → Prop} {R : β → σ → Prop} {E : ε → σ → Prop}

theorem triple_pure {a : α} (h : ∀ s, P s → Q a s) : Triple P (pure a : Act σ ε α) Q E :=
  fun s hs => Exec.Returns.intro (h s hs)

theorem triple_throw {e : ε} (h : ∀ s, P s → E e s) : Triple P (throw e : Act σ ε α) Q E :=
  fun s hs => Exec.Returns.intro (h s hs)

theorem triple_get : Triple P (get : Act σ ε σ) (fun a s => P s ∧ a = s) E :=
  fun _ hs => Exec.Returns.intro ⟨hs, rfl⟩

theorem triple_modify {f : σ → σ} {Q : PUnit → σ → Prop} (h : ∀ s, P s → Q ⟨⟩ (f s)) :
    Triple P (modify f : Act σ ε PUnit) Q E :=
  fun s hs => Exec.Returns.intro (h s hs)

theorem triple_lift {r : Except ε α} (hok : ∀ a s, r = .ok a → P s → Q a s)
    (herror : ∀ e s, P s → E e s) : Triple P (lift r : Act σ ε α) Q E := by
  intro s hs
  refine Exec.Returns.intro ?_
  cases r with
  | ok a => exact hok a s rfl hs
  | error e => exact herror e s hs

theorem triple_exec {x : Exec α} {V : α → Prop} (hx : x.Returns V)
    (h : ∀ a s, V a → P s → Q a s) : Triple P (exec x : Act σ ε α) Q E := by
  intro s hs
  obtain ⟨a, rfl, ha⟩ := hx
  exact Exec.Returns.intro (h a s ha hs)

/-- The rule of sequential composition; an error skips the second part. -/
theorem triple_bind (hx : Triple P x Q E)
    (hf : ∀ a, Triple (Q a) (f a) R E) : Triple P (x >>= f) R E := by
  intro s hs
  obtain ⟨⟨s', r⟩, heq, hr⟩ := hx s hs
  cases r with
  | ok a =>
    rw [bind_of_ok heq]
    exact hf a s' hr
  | error =>
    rw [bind_of_error heq]
    exact Exec.Returns.intro hr

theorem Triple.mono (h : Triple P x Q E) (hP : ∀ s, P' s → P s)
    (hQ : ∀ a s, Q a s → Q' a s) : Triple P' x Q' E := by
  intro s hs
  refine (h s (hP s hs)).mono ?_
  rintro ⟨s', r⟩ hr
  cases r with
  | ok a => exact hQ a s' hr
  | error => exact hr

theorem triple_ite {c : Prop} [Decidable c] {y : Act σ ε α} (hx : c → Triple P x Q E)
    (hy : ¬c → Triple P y Q E) : Triple P (if c then x else y) Q E := by
  split
  · exact hx ‹c›
  · exact hy ‹¬c›

/-! ## Partial correctness -/

/-- From a state in `P` the code returns a value into `Q` or an error into `E`, or it panics. -/
def Valid (P : σ → Prop) (x : Act σ ε α) (Q : α → σ → Prop) (E : ε → σ → Prop) : Prop :=
  ∀ s out, P s → x s = .ok out → Post Q E out

theorem Triple.valid (h : Triple P x Q E) : Valid P x Q E := by
  intro s out hs hout
  exact (h s hs).of_eq hout

theorem valid_pure {a : α} (h : ∀ s, P s → Q a s) : Valid P (pure a : Act σ ε α) Q E :=
  (triple_pure h).valid

theorem valid_bind (hx : Valid P x Q E)
    (hf : ∀ a, Valid (Q a) (f a) R E) : Valid P (x >>= f) R E := by
  intro s out hs hout
  change bind x f s = .ok out at hout
  unfold bind at hout
  split at hout
  · next s' a heq => exact hf a s' out (hx s _ hs heq) hout
  · next s' e heq =>
      cases hout
      exact hx s _ hs heq
  · cases hout
  · cases hout

/-! ## Steps -/

/-- Whatever the code returns, it went along `S` to the state it leaves. -/
def Moves (S : σ → σ → Prop) (x : Act σ ε α) : Prop :=
  ∀ s out, x s = .ok out → Relation.ReflTransGen S s out.1

variable {S : σ → σ → Prop}

theorem moves_pure (a : α) : Moves S (pure a : Act σ ε α) := by
  intro s out h
  cases h
  exact .refl

theorem moves_get : Moves S (get : Act σ ε σ) := by
  intro s out h
  cases h
  exact .refl

theorem moves_bind (hx : Moves S x) (hf : ∀ a, Moves S (f a)) : Moves S (x >>= f) := by
  intro s out hout
  change bind x f s = .ok out at hout
  unfold bind at hout
  split at hout
  · next s' a heq => exact (hx s _ heq).trans (hf a s' out hout)
  · next s' e heq =>
      cases hout
      exact hx s _ heq
  · cases hout
  · cases hout

end Act
