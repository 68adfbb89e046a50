import Mathlib

/-!
# Running code that may panic or loop

A piece of imperative code returns, panics, or outruns the fuel of one of its loops. An invariant
and a decreasing measure prove that a loop returns, and a repeated state that it never does.
-/

universe u v

/-- The result of running code that returns a value of type `α`. -/
inductive Exec (α : Type u) where
  | ok (a : α)
  | panic
  | diverge
  deriving DecidableEq, Repr

namespace Exec

variable {α : Type u} {β : Type v} {x : Exec α} {P : α → Prop} {a : α}

def bind (x : Exec α) (f : α → Exec β) : Exec β :=
  match x with
  | .ok a => f a
  | .panic => .panic
  | .diverge => .diverge

instance : Monad Exec where
  pure := .ok
  bind := Exec.bind

@[simp] theorem pure_def (a : α) : (pure a : Exec α) = .ok a := rfl

@[simp] theorem ok_bind {β : Type u} (a : α) (f : α → Exec β) : (Exec.ok a >>= f) = f a := rfl

@[simp] theorem panic_bind {β : Type u} (f : α → Exec β) :
    ((Exec.panic : Exec α) >>= f) = .panic := rfl

@[simp] theorem diverge_bind {β : Type u} (f : α → Exec β) :
    ((Exec.diverge : Exec α) >>= f) = .diverge := rfl

theorem bind_eq_ok {β : Type u} {f : α → Exec β} {b : β} :
    (x >>= f) = .ok b ↔ ∃ a, x = .ok a ∧ f a = .ok b := by
  cases x <;> simp

instance : LawfulMonad Exec :=
  LawfulMonad.mk' Exec (fun x => by cases x <;> rfl) (fun _ _ => rfl)
    (fun x _ _ => by cases x <;> rfl)

@[simp] theorem map_ok {β : Type u} (f : α → β) (a : α) : f <$> Exec.ok a = .ok (f a) := rfl

theorem map_def {β : Type u} (f : α → β) (x : Exec α) : f <$> x = x >>= fun a => .ok (f a) := by
  cases x <;> rfl

theorem map_eq_ok {β : Type u} {f : α → β} {b : β} :
    f <$> x = .ok b ↔ ∃ a, x = .ok a ∧ f a = b := by
  cases x <;> simp [Functor.map, Exec.bind]

def assert (p : Prop) [Decidable p] : Exec Unit :=
  if p then .ok () else .panic

@[simp] theorem assert_pos {p : Prop} [Decidable p] (h : p) : assert p = .ok () := by
  simp [assert, h]

def sub (a b : ℕ) : Exec ℕ :=
  if b ≤ a then .ok (a - b) else .panic

@[simp] theorem sub_of_le {a b : ℕ} (h : b ≤ a) : sub a b = .ok (a - b) := by
  simp [sub, h]

def div (a b : ℕ) : Exec ℕ :=
  if b = 0 then .panic else .ok (a / b)

@[simp] theorem div_of_pos {a b : ℕ} (h : 0 < b) : div a b = .ok (a / b) := by
  simp [div, Nat.ne_of_gt h]

def unwrap : Option α → Exec α
  | some a => .ok a
  | none => .panic

@[simp] theorem unwrap_some (a : α) : unwrap (some a) = .ok a := rfl

@[simp] theorem unwrap_none : unwrap (none : Option α) = .panic := rfl

theorem unwrap_eq_ok {o : Option α} : unwrap o = .ok a ↔ o = some a := by
  cases o <;> simp

def isPanic : Exec α → Bool
  | .panic => true
  | _ => false

theorem isPanic_iff : x.isPanic = true ↔ x = .panic := by
  cases x <;> simp [isPanic]

/-! ## Total correctness -/

def Returns (x : Exec α) (P : α → Prop) : Prop := ∃ a, x = .ok a ∧ P a

theorem Returns.intro (h : P a) : (Exec.ok a).Returns P := ⟨a, rfl, h⟩

@[simp] theorem returns_ok : (Exec.ok a).Returns P ↔ P a := by
  simp [Returns]

theorem Returns.mono {Q : α → Prop} (h : x.Returns P) (hPQ : ∀ a, P a → Q a) : x.Returns Q := by
  obtain ⟨a, hx, ha⟩ := h
  exact ⟨a, hx, hPQ a ha⟩

theorem Returns.bind {α β : Type u} {x : Exec α} {f : α → Exec β} {P : α → Prop} {Q : β → Prop}
    (hx : x.Returns P) (hf : ∀ a, P a → (f a).Returns Q) : (x >>= f).Returns Q := by
  obtain ⟨a, rfl, ha⟩ := hx
  exact hf a ha

theorem Returns.of_eq (h : x.Returns P) (hx : x = .ok a) : P a := by
  subst hx
  simpa using h

/-! ## Folds -/

variable {σ ρ : Type u}

variable {f : σ → α → Exec σ} {l : List α} {s : σ}

theorem foldlM_returns (Inv : σ → Prop)
    (hf : ∀ s, ∀ a ∈ l, Inv s → (f s a).Returns Inv) (hs : Inv s) :
    (l.foldlM f s).Returns Inv := by
  induction l generalizing s with
  | nil => exact Returns.intro hs
  | cons a l ih =>
    apply (hf s a List.mem_cons_self hs).bind
    intro s' hs'
    exact ih (fun s b hb => hf s b (List.mem_cons_of_mem a hb)) hs'

theorem foldlM_keeps (Inv : σ → Prop)
    (hf : ∀ s a s', Inv s → f s a = .ok s' → Inv s') {s' : σ} (hs : Inv s)
    (h : l.foldlM f s = .ok s') : Inv s' := by
  induction l generalizing s with
  | nil =>
    cases h
    exact hs
  | cons a l ih =>
    obtain ⟨s₁, hfirst, h⟩ := bind_eq_ok.mp h
    exact ih (hf s a s₁ hs hfirst) h

/-- A fold panics if one of its steps is bound to and the steps before keep the invariant or panic
themselves. -/
theorem foldlM_panics (Inv : σ → Prop)
    (hf : ∀ s, ∀ a ∈ l, Inv s → f s a = .panic ∨ (f s a).Returns Inv)
    (hbad : ∃ a ∈ l, ∀ s, Inv s → f s a = .panic) (hs : Inv s) :
    l.foldlM f s = .panic := by
  induction l generalizing s with
  | nil =>
    obtain ⟨a, ha, -⟩ := hbad
    exact absurd ha List.not_mem_nil
  | cons a l ih =>
    rw [List.foldlM_cons]
    rcases hf s a List.mem_cons_self hs with hpanic | ⟨s', hs', hInv⟩
    · rw [hpanic]
      rfl
    · rw [hs', ok_bind]
      obtain ⟨b, hb, hbpanic⟩ := hbad
      rcases List.mem_cons.mp hb with rfl | hb
      · exact absurd (hbpanic s hs) (by simp [hs'])
      · exact ih (fun s c hc => hf s c (List.mem_cons_of_mem a hc)) ⟨b, hb, hbpanic⟩ hInv

/-! ## Loops -/

/-- What a loop body decides: another round from a new state, or the result. -/
inductive Next (σ : Type u) (ρ : Type u) where
  | again (s : σ)
  | done (r : ρ)
  deriving DecidableEq, Repr

/-- The decision satisfies `P` when it is to go on and `Q` when it is the result. -/
def Next.Holds (P : σ → Prop) (Q : ρ → Prop) : Next σ ρ → Prop
  | .again s => P s
  | .done r => Q r

/-- Run `body` until it is done, for at most `fuel` rounds. -/
def loop (body : σ → Exec (Next σ ρ)) : ℕ → σ → Exec ρ
  | 0, _ => .diverge
  | fuel + 1, s =>
    match body s with
    | .ok (.again s') => loop body fuel s'
    | .ok (.done r) => .ok r
    | .panic => .panic
    | .diverge => .diverge

variable {body : σ → Exec (Next σ ρ)}

theorem loop_again {s' : σ} (h : body s = .ok (.again s'))
    (fuel : ℕ) : loop body (fuel + 1) s = loop body fuel s' := by
  simp [loop, h]

theorem loop_done {r : ρ} (h : body s = .ok (.done r))
    (fuel : ℕ) : loop body (fuel + 1) s = .ok r := by
  simp [loop, h]

/-- Total correctness of a loop: every round keeps the invariant and drops the measure, and the last
one gives the postcondition. -/
theorem loop_returns (Inv : σ → Prop) (measure : σ → ℕ)
    {Post : ρ → Prop}
    (hround : ∀ s, Inv s →
      (body s).Returns (Next.Holds (fun s' => Inv s' ∧ measure s' < measure s) Post)) :
    ∀ (fuel : ℕ) (s : σ), Inv s → measure s < fuel → (loop body fuel s).Returns Post := by
  intro fuel
  induction fuel with
  | zero => intro s _ hlt; omega
  | succ fuel ih =>
    intro s hs hlt
    obtain ⟨n, hbody, hn⟩ := hround s hs
    cases n with
    | again s' =>
      obtain ⟨hs', hdrop⟩ : Inv s' ∧ measure s' < measure s := hn
      rw [loop_again hbody]
      exact ih s' hs' (by omega)
    | done =>
      rw [loop_done hbody]
      exact Returns.intro hn

/-- Partial correctness of a loop: what it returns, when every round that returns
keeps the invariant. -/
theorem loop_valid {body : σ → Exec (Next σ ρ)} (Inv : σ → Prop) {Post : ρ → Prop}
    (hround : ∀ s n, Inv s → body s = .ok n → Next.Holds Inv Post n) :
    ∀ (fuel : ℕ) (s : σ) (r : ρ), Inv s → loop body fuel s = .ok r → Post r := by
  intro fuel
  induction fuel with
  | zero =>
    intro s r _ h
    cases h
  | succ fuel ih =>
    intro s r hs h
    cases hbody : body s with
    | ok n =>
      have hn := hround s n hs hbody
      cases n with
      | again s' =>
        rw [loop_again hbody] at h
        exact ih s' r hn h
      | done =>
        rw [loop_done hbody] at h
        cases h
        exact hn
    | panic => simp [loop, hbody] at h
    | diverge => simp [loop, hbody] at h

end Exec
