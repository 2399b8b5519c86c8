import Mathlib.Data.List.Basic

/-! Loops that may run for ever. A computation takes fuel, and returns `none` when the fuel runs
out or when something that it needs is missing. -/

namespace FuelledLoop

variable {S T : Type*} {enough : Prop}

/-- The result, if there is one, satisfies `post`; there is one if the fuel is `enough`. -/
def Yields (enough : Prop) (post : S → Prop) : Option S → Prop
  | none => ¬enough
  | some s => post s

theorem Yields.post {post : S → Prop} {result : Option S} {s : S} (h : Yields enough post result)
    (hs : result = some s) : post s := by
  rw [hs] at h
  exact h

theorem Yields.exists {post : S → Prop} {result : Option S} (h : Yields enough post result)
    (he : enough) : ∃ s, result = some s ∧ post s := by
  cases result with
  | none => exact absurd he h
  | some s => exact ⟨s, rfl, h⟩

theorem Yields.mono {post post' : S → Prop} {result : Option S} (h : Yields enough post result)
    (himp : ∀ s, post s → post' s) : Yields enough post' result := by
  cases result with
  | none => exact h
  | some s => exact himp s h

theorem Yields.bind {post : S → Prop} {post' : T → Prop} {result : Option S} {f : S → Option T}
    (h : Yields enough post result) (hf : ∀ s, post s → Yields enough post' (f s)) :
    Yields enough post' (result.bind f) := by
  cases result with
  | none => exact h
  | some s => exact hf s h

theorem Yields.map {post : S → Prop} {post' : T → Prop} {result : Option S} {f : S → T}
    (h : Yields enough post result) (hf : ∀ s, post s → post' (f s)) :
    Yields enough post' (result.map f) := by
  cases result with
  | none => exact h
  | some s => exact hf s h

/-- `while (cond) body`. -/
def whileLoop (cond : S → Bool) (body : S → Option S) : ℕ → S → Option S
  | 0, _ => none
  | fuel + 1, s => if cond s then (body s).bind (whileLoop cond body fuel) else some s

/-- The rule of a loop: an invariant that the body keeps, and a measure that it lowers. -/
theorem whileLoop_yields {cond : S → Bool} {body : S → Option S} (inv : S → Prop)
    (measure : S → ℕ)
    (hbody : ∀ s, inv s → cond s = true →
      Yields enough (fun s' => inv s' ∧ measure s' < measure s) (body s)) :
    ∀ fuel s, inv s → (enough → measure s < fuel) →
      Yields enough (fun s' => inv s' ∧ cond s' = false) (whileLoop cond body fuel s) := by
  intro fuel
  induction fuel with
  | zero =>
    intro s _ hfuel he
    have hlt := hfuel he
    omega
  | succ fuel ih =>
    intro s hs hfuel
    rw [whileLoop]
    by_cases hc : cond s = true
    · rw [if_pos hc]
      apply (hbody s hs hc).bind
      intro s' hs'
      apply ih s' hs'.1
      intro he
      have hlt := hfuel he
      omega
    · rw [if_neg hc]
      exact ⟨hs, by simpa using hc⟩

/-- What the body keeps holds when the loop ends. -/
theorem whileLoop_some {cond : S → Bool} {body : S → Option S} (inv : S → Prop)
    (hbody : ∀ s s', inv s → cond s = true → body s = some s' → inv s') :
    ∀ fuel s s', inv s → whileLoop cond body fuel s = some s' → inv s' ∧ cond s' = false := by
  intro fuel
  induction fuel with
  | zero =>
    intro s s' _ h
    cases h
  | succ fuel ih =>
    intro s s' hs h
    rw [whileLoop] at h
    by_cases hc : cond s = true
    · rw [if_pos hc] at h
      obtain ⟨next, hnext, hrest⟩ := Option.bind_eq_some_iff.mp h
      exact ih next s' (hbody s next hs hc hnext) hrest
    · rw [if_neg hc] at h
      obtain rfl := Option.some.inj h
      exact ⟨hs, by simpa using hc⟩

/-- `for (i = first; i < size; i++)` with a counter that has `modulus` values. -/
def countedLoop (modulus size : ℕ) (body : ℕ → S → Option S) : ℕ → ℕ → S → Option S
  | 0, _, _ => none
  | fuel + 1, i, s =>
    if i < size then (body i s).bind (countedLoop modulus size body fuel ((i + 1) % modulus))
    else some s

/-- A counter that cannot reach the end of the loop. -/
theorem countedLoop_none {modulus size : ℕ} {body : ℕ → S → Option S} (hsize : modulus ≤ size) :
    ∀ fuel i s, i < modulus → countedLoop modulus size body fuel i s = none := by
  intro fuel
  induction fuel with
  | zero => exact fun _ _ _ => rfl
  | succ fuel ih =>
    intro i s hi
    rw [countedLoop, if_pos (by omega)]
    cases body i s with
    | none => rfl
    | some s' => exact ih _ s' (Nat.mod_lt _ (by omega))

/-- A loop that ends has the same result with more fuel. -/
theorem countedLoop_add {modulus size : ℕ} {body : ℕ → S → Option S} {s' : S} (more : ℕ) :
    ∀ fuel i s, countedLoop modulus size body fuel i s = some s' →
      countedLoop modulus size body (fuel + more) i s = some s' := by
  intro fuel
  induction fuel with
  | zero =>
    intro i s h
    cases h
  | succ fuel ih =>
    intro i s h
    rw [countedLoop] at h
    rw [Nat.succ_add, countedLoop]
    by_cases hlt : i < size
    · rw [if_pos hlt] at h ⊢
      obtain ⟨next, hnext, hrest⟩ := Option.bind_eq_some_iff.mp h
      rw [hnext, Option.bind_some]
      exact ih _ _ hrest
    · rwa [if_neg hlt] at h ⊢

theorem countedLoop_unique {modulus size : ℕ} {body : ℕ → S → Option S} {fuel fuel' i : ℕ}
    {s s₁ s₂ : S} (h₁ : countedLoop modulus size body fuel i s = some s₁)
    (h₂ : countedLoop modulus size body fuel' i s = some s₂) : s₁ = s₂ := by
  have hmore₁ := countedLoop_add fuel' fuel i s h₁
  have hmore₂ := countedLoop_add fuel fuel' i s h₂
  rw [Nat.add_comm] at hmore₂
  exact Option.some.inj (hmore₁.symm.trans hmore₂)

theorem countedLoop_yields {modulus size : ℕ} {body : ℕ → S → Option S} (inv : ℕ → S → Prop)
    (henough : enough → size < modulus)
    (hbody : ∀ i s, i < size → inv i s → Yields enough (inv (i + 1)) (body i s)) :
    ∀ fuel i s, i < modulus → i ≤ size → inv i s → (enough → size - i < fuel) →
      Yields enough (inv size) (countedLoop modulus size body fuel i s) := by
  intro fuel i s him hi hs hfuel
  by_cases hsize : modulus ≤ size
  · rw [countedLoop_none hsize fuel i s him]
    intro he
    have hlt := henough he
    omega
  · induction fuel generalizing i s with
    | zero =>
      intro he
      have hlt := hfuel he
      omega
    | succ fuel ih =>
      rw [countedLoop]
      by_cases hlt : i < size
      · rw [if_pos hlt]
        apply (hbody i s hlt hs).bind
        intro s' hs'
        rw [Nat.mod_eq_of_lt (by omega)]
        apply ih (i + 1) s' (by omega) (by omega) hs'
        intro he
        have hle := hfuel he
        omega
      · obtain rfl : i = size := by omega
        rw [if_neg hlt]
        exact hs

/-- What the body keeps turn after turn holds when the loop ends. -/
theorem countedLoop_some {modulus size : ℕ} {body : ℕ → S → Option S} (inv : ℕ → S → Prop)
    (hbody : ∀ i s s', i < size → inv i s → body i s = some s' → inv (i + 1) s') {fuel i : ℕ}
    {s s' : S} (him : i < modulus) (hi : i ≤ size) (hs : inv i s)
    (h : countedLoop modulus size body fuel i s = some s') : inv size s' := by
  refine (countedLoop_yields inv False.elim (fun i s hlt hinv => ?_) fuel i s him
    hi hs False.elim).post h
  cases hnext : body i s with
  | none => exact id
  | some next => exact hbody i s next hlt hinv hnext

/-- A loop that ends, and whose body always has a result, is a fold. -/
theorem countedLoop_eq_foldl {modulus size : ℕ} (step : S → ℕ → S) {fuel : ℕ} {s s' : S}
    (hmodulus : 0 < modulus)
    (h : countedLoop modulus size (fun i s => some (step s i)) fuel 0 s = some s') :
    s' = (List.range size).foldl step s := by
  refine countedLoop_some (fun i s' => s' = (List.range i).foldl step s) ?_ hmodulus
    (Nat.zero_le size) rfl h
  rintro i s₁ s₂ - rfl hstep
  rw [List.range_succ, List.foldl_append, ← Option.some.inj hstep]
  rfl

/-- A loop over the numbers below `n`, whose body may have to stop. -/
theorem foldlM_range_yields {body : S → ℕ → Option S} (inv : ℕ → S → Prop) (n : ℕ)
    (hbody : ∀ i s, i < n → inv i s → Yields enough (inv (i + 1)) (body s i)) {s : S}
    (hs : inv 0 s) : Yields enough (inv n) ((List.range n).foldlM body s) := by
  induction n with
  | zero => exact hs
  | succ n ih =>
    rw [List.range_succ, List.foldlM_append]
    refine (ih fun i s hi => hbody i s (by omega)).bind fun s' hs' => ?_
    refine (hbody n s' (by omega) hs').bind fun s'' hs'' => ?_
    exact hs''

end FuelledLoop
