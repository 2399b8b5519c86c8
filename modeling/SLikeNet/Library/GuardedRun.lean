import Mathlib.Data.List.Basic

/-! Runs of a machine whose operations have a condition on the state before them. -/

namespace GuardedRun

variable {S O : Type*} {perform : S → O → S} {allowed : S → O → Prop} {start s : S}

/-- The states that are reached by operations that meet the condition. -/
inductive Reachable (perform : S → O → S) (allowed : S → O → Prop) (start : S) : S → Prop
  | start : Reachable perform allowed start start
  | perform {s : S} {op : O} : Reachable perform allowed start s → allowed s op →
    Reachable perform allowed start (perform s op)

/-- What holds at the start and is kept by every operation holds in every reachable state. -/
theorem Reachable.invariant {I : S → Prop} (h : Reachable perform allowed start s)
    (hstart : I start) (hperform : ∀ s op, I s → allowed s op → I (perform s op)) :
    I s := by
  induction h with
  | start => exact hstart
  | perform _ hallowed ih => exact hperform _ _ ih hallowed

theorem Reachable.imp {allowed' : S → O → Prop} (h : Reachable perform allowed start s)
    (himp : ∀ s op, allowed s op → allowed' s op) : Reachable perform allowed' start s :=
  h.invariant .start fun s op hs hop => .perform hs (himp s op hop)

/-- Every operation meets the condition when it is its turn. -/
def EachAllowed (perform : S → O → S) (allowed : S → O → Prop) : S → List O → Prop
  | _, [] => True
  | s, op :: operations => allowed s op ∧ EachAllowed perform allowed (perform s op) operations

theorem Reachable.run {operations : List O} (h : Reachable perform allowed start s)
    (heach : EachAllowed perform allowed s operations) :
    Reachable perform allowed start (operations.foldl perform s) := by
  induction operations generalizing s with
  | nil => exact h
  | cons op operations ih => exact ih (.perform h heach.1) heach.2

end GuardedRun
