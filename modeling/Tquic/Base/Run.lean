import Tquic.Base.Exec

/-!
# Runs of a step function

A component takes inputs, one step each, and every step may panic or loop. What its callers promise
is a predicate on the state before the step. An invariant that every promised step keeps, and under
which it returns, holds after every promised run.
-/

universe u

namespace Exec

variable {σ ι ο : Type u}

def run (step : σ → ι → Exec (σ × ο)) : σ → List ι → Exec (σ × List ο)
  | s, [] => .ok (s, [])
  | s, i :: inputs => do
      let (s, o) ← step s i
      let (s, outputs) ← run step s inputs
      return (s, o :: outputs)

def Follows (step : σ → ι → Exec (σ × ο)) (legal : σ → ι → Prop) : σ → List ι → Prop
  | _, [] => True
  | s, i :: inputs => legal s i ∧ ∀ s' o, step s i = .ok (s', o) → Follows step legal s' inputs

variable {step : σ → ι → Exec (σ × ο)} {legal : σ → ι → Prop}

variable {s s' : σ}

variable {i : ι} {o : ο} {inputs : List ι}

theorem Follows.cons (hlegal : legal s i)
    (hstep : step s i = .ok (s', o)) (hrest : Follows step legal s' inputs) :
    Follows step legal s (i :: inputs) := by
  refine ⟨hlegal, ?_⟩
  intro s'' o' hstep'
  rw [hstep] at hstep'
  cases hstep'
  exact hrest

instance decidableFollows [∀ s i, Decidable (legal s i)] :
    (s : σ) → (inputs : List ι) → Decidable (Follows step legal s inputs)
  | _, [] => isTrue trivial
  | s, i :: inputs =>
    have : Decidable (∀ s' o, step s i = .ok (s', o) → Follows step legal s' inputs) :=
      match hstep : step s i with
      | .ok (s', o) =>
        have := decidableFollows s' inputs
        decidable_of_iff (Follows step legal s' inputs)
          ⟨fun h _ _ heq => by cases heq; exact h, fun h => h s' o rfl⟩
      | .panic => isTrue fun _ _ h => nomatch h
      | .diverge => isTrue fun _ _ h => nomatch h
    inferInstanceAs (Decidable (_ ∧ _))

theorem run_cons_eq (h : step s i = .ok (s', o)) (inputs : List ι) :
    run step s (i :: inputs) = do
      let (s'', outputs) ← run step s' inputs
      return (s'', o :: outputs) := by
  simp [run, h]

theorem run_returns (Inv : σ → Prop)
    (hstep : ∀ s i, Inv s → legal s i → (step s i).Returns fun r => Inv r.1)
    (hs : Inv s) (hlegal : Follows step legal s inputs) :
    (run step s inputs).Returns fun r => Inv r.1 := by
  induction inputs generalizing s with
  | nil => exact Returns.intro hs
  | cons i inputs ih =>
    obtain ⟨hi, hrest⟩ := hlegal
    obtain ⟨⟨s', o⟩, heq, hs'⟩ := hstep s i hs hi
    rw [run_cons_eq heq]
    apply (ih hs' (hrest s' o heq)).bind
    rintro ⟨s'', outputs⟩ hs''
    exact Returns.intro hs''

/-! ## States reached -/

/-- The state is reached from `s` by legal steps that return. -/
inductive Reaches (step : σ → ι → Exec (σ × ο)) (legal : σ → ι → Prop) (s : σ) : σ → Prop
  | refl : Reaches step legal s s
  | tail {s' s'' : σ} {i : ι} {o : ο} (h : Reaches step legal s s') (hlegal : legal s' i)
      (hstep : step s' i = .ok (s'', o)) : Reaches step legal s s''

theorem Reaches.invariant (Inv : σ → Prop)
    (hkeep : ∀ s i s' o, Inv s → legal s i → step s i = .ok (s', o) → Inv s') (hs : Inv s)
    (h : Reaches step legal s s') : Inv s' := by
  induction h with
  | refl => exact hs
  | tail _ hlegal hstep ih => exact hkeep _ _ _ _ ih hlegal hstep

theorem Reaches.mono {legal' : σ → ι → Prop} (hle : ∀ s i, legal s i → legal' s i)
    (h : Reaches step legal s s') : Reaches step legal' s s' := by
  induction h with
  | refl => exact .refl
  | tail _ hlegal hstep ih => exact .tail ih (hle _ _ hlegal) hstep

variable {τ : Type*} {R : τ → τ → Prop}

theorem Reaches.simulates (view : σ → τ)
    (hsim : ∀ s i s' o, legal s i → step s i = .ok (s', o) →
      Relation.ReflTransGen R (view s) (view s')) (h : Reaches step legal s s') :
    Relation.ReflTransGen R (view s) (view s') := by
  induction h with
  | refl => exact .refl
  | tail _ hlegal hstep ih => exact ih.trans (hsim _ _ _ _ hlegal hstep)

theorem invariant_of_steps {Inv : τ → Prop}
    (hstep : ∀ x x', Inv x → R x x' → Inv x') {x x' : τ} (h : Relation.ReflTransGen R x x')
    (hx : Inv x) : Inv x' := by
  induction h with
  | refl => exact hx
  | tail _ hlast ih => exact hstep _ _ ih hlast

def output? : Exec (σ × ο) → Option ο
  | .ok (_, o) => some o
  | .panic => none
  | .diverge => none

theorem exists_of_output? {x : Exec (σ × ο)} (h : output? x = some o) : ∃ s, x = .ok (s, o) := by
  cases x with
  | ok r => exact ⟨r.1, by rw [← Option.some.inj h]⟩
  | panic => cases h
  | diverge => cases h

/-- Feed the inputs as long as they are legal and the steps return. -/
def follow (step : σ → ι → Exec (σ × ο)) (legal : σ → ι → Prop) [∀ s i, Decidable (legal s i)] :
    σ → List ι → σ
  | s, [] => s
  | s, i :: inputs =>
    if legal s i then
      match step s i with
      | .ok (s', _) => follow step legal s' inputs
      | _ => s
    else s

theorem Reaches.trans {s'' : σ} (h : Reaches step legal s s') (h' : Reaches step legal s' s'') :
    Reaches step legal s s'' := by
  induction h' with
  | refl => exact h
  | tail _ hlegal hstep ih => exact .tail ih hlegal hstep

theorem reaches_follow [∀ s i, Decidable (legal s i)] (s : σ) (inputs : List ι) :
    Reaches step legal s (follow step legal s inputs) := by
  induction inputs generalizing s with
  | nil => exact .refl
  | cons i inputs ih =>
    unfold follow
    split_ifs with hlegal
    · split
      · next s' o hstep => exact (Reaches.tail .refl hlegal hstep).trans (ih s')
      · exact .refl
    · exact .refl

end Exec
