import Mathlib.Data.List.Induction

/-! Runs of a deterministic system: a step function folded over a list of inputs. -/

namespace Transition

variable {S S' I : Type*} {step : S → I → S}

/-- Every step of the run from `s` on `inputs` is taken in a state and on an input
that are `good`. -/
def Along (step : S → I → S) (good : S → I → Prop) (s : S) (inputs : List I) : Prop :=
  ∀ pre i post, inputs = pre ++ i :: post → good (pre.foldl step s) i

theorem Along.mono {good good' : S → I → Prop} {s : S} {inputs : List I}
    (h : Along step good s inputs) (himp : ∀ s i, good s i → good' s i) :
    Along step good' s inputs :=
  fun pre i post heq => himp _ _ (h pre i post heq)

theorem along_nil {good : S → I → Prop} {s : S} : Along step good s [] := by
  intro pre i post heq
  simp at heq

theorem along_cons {good : S → I → Prop} {s : S} {i : I} {inputs : List I} (h0 : good s i)
    (h : Along step good (step s i) inputs) : Along step good s (i :: inputs) := by
  intro pre j post heq
  cases pre with
  | nil =>
    obtain ⟨rfl, rfl⟩ := List.cons.inj heq
    exact h0
  | cons k pre =>
    obtain ⟨rfl, rfl⟩ := List.cons.inj heq
    exact h pre j post rfl

theorem along_cons_iff {good : S → I → Prop} {s : S} {i : I} {inputs : List I} :
    Along step good s (i :: inputs) ↔ good s i ∧ Along step good (step s i) inputs := by
  constructor
  · intro h
    refine ⟨h [] i inputs rfl, fun pre j post heq => ?_⟩
    exact h (i :: pre) j post (congrArg (List.cons i) heq)
  · rintro ⟨h0, h⟩
    exact along_cons h0 h

theorem along_concat_iff {good : S → I → Prop} {s : S} {inputs : List I} {i : I} :
    Along step good s (inputs ++ [i]) ↔
      Along step good s inputs ∧ good (inputs.foldl step s) i := by
  induction inputs generalizing s with
  | nil => simp [along_cons_iff, along_nil]
  | cons j inputs ih =>
    rw [List.cons_append, along_cons_iff, along_cons_iff, ih, List.foldl_cons, and_assoc]

instance decidableAlong {good : S → I → Prop} [∀ s i, Decidable (good s i)] :
    ∀ (s : S) (inputs : List I), Decidable (Along step good s inputs)
  | _, [] => isTrue along_nil
  | s, i :: inputs =>
    have : Decidable (Along step good (step s i) inputs) := decidableAlong (step s i) inputs
    decidable_of_iff (good s i ∧ Along step good (step s i) inputs) along_cons_iff.symm

/-- A property of the inputs taken and the state reached holds at every point of a
run if it holds at its start and every step keeps it. -/
theorem run_prefix (inv : List I → S → Prop) {s : S} {inputs : List I} (hinit : inv [] s)
    (hstep : ∀ pre i post, inputs = pre ++ i :: post → inv pre (pre.foldl step s) →
      inv (pre ++ [i]) (step (pre.foldl step s) i)) :
    ∀ pre post, inputs = pre ++ post → inv pre (pre.foldl step s) := by
  intro pre
  induction pre using List.reverseRecOn with
  | nil => exact fun _ _ => hinit
  | append_singleton pre i ih =>
    intro post heq
    have heq' : inputs = pre ++ i :: post := by simpa using heq
    simpa [List.foldl_append] using hstep pre i post heq' (ih (i :: post) heq')

theorem run_invariant (inv : List I → S → Prop) {s : S} {inputs : List I} (hinit : inv [] s)
    (hstep : ∀ pre i post, inputs = pre ++ i :: post → inv pre (pre.foldl step s) →
      inv (pre ++ [i]) (step (pre.foldl step s) i)) :
    inv inputs (inputs.foldl step s) :=
  run_prefix inv hinit hstep inputs [] (by simp)

/-- An invariant that good steps keep holds at the end of a good run. -/
theorem Along.invariant {good : S → I → Prop} {inv : S → Prop} {s : S} {inputs : List I}
    (h : Along step good s inputs) (hinit : inv s)
    (hstep : ∀ s i, inv s → good s i → inv (step s i)) : inv (inputs.foldl step s) :=
  run_invariant (fun _ s => inv s) hinit
    fun pre i post heq hinv => hstep _ _ hinv (h pre i post heq)

/-- A system that good steps of another one simulate stays in the image of its states. -/
theorem Along.simulation_prefix {step' : S' → I → S'} {good : S → I → Prop} {s : S}
    {inputs : List I} (h : Along step good s inputs) (image : S → S')
    (hstep : ∀ s i, good s i → step' (image s) i = image (step s i)) :
    ∀ pre post, inputs = pre ++ post → pre.foldl step' (image s) = image (pre.foldl step s) := by
  refine run_prefix (fun pre s' => s' = image (pre.foldl step s)) rfl ?_
  intro pre i post heq hs
  rw [hs, hstep _ _ (h pre i post heq), List.foldl_append]
  rfl

theorem Along.simulation {step' : S' → I → S'} {good : S → I → Prop} {s : S} {inputs : List I}
    (h : Along step good s inputs) (image : S → S')
    (hstep : ∀ s i, good s i → step' (image s) i = image (step s i)) :
    inputs.foldl step' (image s) = image (inputs.foldl step s) :=
  h.simulation_prefix image hstep inputs [] (by simp)

/-! ### Steps that need not have a result -/

end Transition
