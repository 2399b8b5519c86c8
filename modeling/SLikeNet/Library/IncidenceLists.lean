import Mathlib.Data.List.Nodup
import Mathlib.Logic.Function.Basic

/-! Edges between different vertices, at most one between two of them, where every vertex keeps the
list of its own edges. -/

namespace IncidenceLists

variable {V E : Type*} {ends : E → Option (V × V)} {edges : V → Option (List E)}

/-- `v` is an end of the edge `e`. -/
def IsEnd (ends : E → Option (V × V)) (v : V) (e : E) : Prop :=
  ∃ p, ends e = some p ∧ (p.1 = v ∨ p.2 = v)

/-- The lists are those of the edges, without repetition, and the vertices at the ends exist. -/
structure Sound (ends : E → Option (V × V)) (edges : V → Option (List E)) : Prop where
  mem_edges : ∀ v l, edges v = some l → ∀ e, e ∈ l ↔ IsEnd ends v e
  nodup : ∀ v l, edges v = some l → l.Nodup
  ne : ∀ e p, ends e = some p → p.1 ≠ p.2
  exists_edges : ∀ v e, IsEnd ends v e → ∃ l, edges v = some l
  unique : ∀ e e' p p', ends e = some p → ends e' = some p' → (p' = p ∨ p' = p.swap) → e = e'

theorem isEnd_iff {e : E} {p : V × V} (h : ends e = some p) {v : V} :
    IsEnd ends v e ↔ p.1 = v ∨ p.2 = v := by
  refine ⟨fun ⟨q, hq, hv⟩ => ?_, fun hv => ⟨p, h, hv⟩⟩
  obtain rfl : p = q := Option.some.inj (h.symm.trans hq)
  exact hv

theorem empty_sound : Sound (fun _ : E => none) (fun _ : V => none) where
  mem_edges _ _ h := nomatch h
  nodup _ _ h := nomatch h
  ne _ _ h := nomatch h
  exists_edges _ _ h := nomatch h.choose_spec.1
  unique _ _ _ _ h := nomatch h

theorem Sound.mem_of_end (h : Sound ends edges) {e : E} {p : V × V} (he : ends e = some p) {v : V}
    {l : List E} (hl : edges v = some l) (hv : p.1 = v ∨ p.2 = v) : e ∈ l :=
  (h.mem_edges v l hl e).mpr ⟨p, he, hv⟩

theorem Sound.end_of_mem (h : Sound ends edges) {e : E} {v : V} {l : List E}
    (hl : edges v = some l) (he : e ∈ l) : ∃ p, ends e = some p ∧ (p.1 = v ∨ p.2 = v) :=
  (h.mem_edges v l hl e).mp he

variable [DecidableEq V]

theorem update_eq_some {W : Type*} {f : V → Option W} {v u : V} {w : Option W} {x : W} :
    Function.update f v w u = some x ↔ u = v ∧ w = some x ∨ u ≠ v ∧ f u = some x := by
  rw [Function.update_apply]
  split_ifs with h <;> simp [h]

theorem exists_update {W : Type*} {f : V → Option W} {v u : V} {w : W} (h : ∃ x, f u = some x) :
    ∃ x, Function.update f v (some w) u = some x := by
  rw [Function.update_apply]
  split_ifs
  · exact ⟨w, rfl⟩
  · exact h

/-- A new vertex without edges. -/
theorem Sound.add_vertex (h : Sound ends edges) {v : V} (hv : edges v = none) :
    Sound ends (Function.update edges v (some [])) where
  mem_edges w l hl e := by
    rcases update_eq_some.mp hl with ⟨rfl, ⟨⟩⟩ | ⟨-, hl⟩
    · refine iff_of_false List.not_mem_nil fun hend => ?_
      obtain ⟨k, hk⟩ := h.exists_edges w e hend
      exact nomatch hv.symm.trans hk
    · exact h.mem_edges w l hl e
  nodup w l hl := by
    rcases update_eq_some.mp hl with ⟨-, ⟨⟩⟩ | ⟨-, hl⟩
    · exact List.nodup_nil
    · exact h.nodup w l hl
  ne := h.ne
  exists_edges w e hend := exists_update (h.exists_edges w e hend)
  unique := h.unique

/-- A vertex without edges goes. -/
theorem Sound.remove_vertex (h : Sound ends edges) {v : V} (hv : edges v = some []) :
    Sound ends (Function.update edges v none) where
  mem_edges w l hl e := by
    rcases update_eq_some.mp hl with ⟨-, ⟨⟩⟩ | ⟨-, hl⟩
    exact h.mem_edges w l hl e
  nodup w l hl := by
    rcases update_eq_some.mp hl with ⟨-, ⟨⟩⟩ | ⟨-, hl⟩
    exact h.nodup w l hl
  ne := h.ne
  exists_edges w e hend := by
    have hw : w ≠ v := by
      rintro rfl
      exact List.not_mem_nil ((h.mem_edges w [] hv e).mpr hend)
    rw [Function.update_of_ne hw]
    exact h.exists_edges w e hend
  unique := h.unique

variable [DecidableEq E]

/-- The ends of an edge have it at the end of their lists. -/
theorem Sound.add_edge (h : Sound ends edges) {e : E} {v w : V} {l k : List E}
    (he : ends e = none) (hne : v ≠ w) (hl : edges v = some l) (hk : edges w = some k)
    (hfree : ∀ e' ∈ k, ¬ IsEnd ends v e') :
    Sound (Function.update ends e (some (v, w)))
      (Function.update (Function.update edges v (some (l ++ [e]))) w (some (k ++ [e]))) := by
  have hnew : ∀ u, ¬ IsEnd ends u e := fun u ⟨p, hp, _⟩ => nomatch he.symm.trans hp
  have hends : ∀ u e', IsEnd (Function.update ends e (some (v, w))) u e' ↔
      IsEnd ends u e' ∨ e' = e ∧ (u = v ∨ u = w) := by
    intro u e'
    by_cases heq : e' = e
    · subst heq
      rw [isEnd_iff (Function.update_self _ _ _)]
      simp only [hnew u, true_and, false_or, eq_comm]
    · simp only [IsEnd, Function.update_of_ne heq, heq, false_and, or_false]
  have hnone : ∀ e' p', ends e' = some p' → ¬ (p' = (v, w) ∨ p' = (w, v)) := by
    intro e' p' hp' heq
    refine hfree e' ((h.mem_edges w k hk e').mpr ⟨p', hp', ?_⟩) ⟨p', hp', ?_⟩
    all_goals rcases heq with rfl | rfl <;> simp
  have hnodup : ∀ u m, edges u = some m → (m ++ [e]).Nodup := fun u m hm =>
    List.nodup_append.mpr ⟨h.nodup u m hm, List.nodup_singleton e, fun a ha b hb hab =>
      hnew u ((h.mem_edges u m hm e).mp (List.mem_singleton.mp hb ▸ hab ▸ ha))⟩
  refine ⟨fun u l' hl' e' => ?_, fun u l' hl' => ?_, fun e' p hp => ?_, fun u e' hend => ?_,
    fun e' e'' p p' hp hp' heq => ?_⟩
  · rw [hends]
    rcases update_eq_some.mp hl' with ⟨rfl, ⟨⟩⟩ | ⟨huw, hl'⟩
    · rw [List.mem_append, h.mem_edges u k hk, List.mem_singleton]
      simp
    · rcases update_eq_some.mp hl' with ⟨rfl, ⟨⟩⟩ | ⟨huv, hl'⟩
      · rw [List.mem_append, h.mem_edges u l hl, List.mem_singleton]
        simp
      · rw [h.mem_edges u l' hl']
        simp [huv, huw]
  · rcases update_eq_some.mp hl' with ⟨-, ⟨⟩⟩ | ⟨-, hl'⟩
    · exact hnodup w k hk
    · rcases update_eq_some.mp hl' with ⟨-, ⟨⟩⟩ | ⟨-, hl'⟩
      · exact hnodup v l hl
      · exact h.nodup u l' hl'
  · rcases update_eq_some.mp hp with ⟨-, ⟨⟩⟩ | ⟨-, hp⟩
    · exact hne
    · exact h.ne e' p hp
  · refine exists_update (exists_update ?_)
    rcases (hends u e').mp hend with hold | ⟨-, rfl | rfl⟩
    · exact h.exists_edges u e' hold
    · exact ⟨l, hl⟩
    · exact ⟨k, hk⟩
  · rcases update_eq_some.mp hp with ⟨he', ⟨⟩⟩ | ⟨-, hp⟩
    · rcases update_eq_some.mp hp' with ⟨he'', -⟩ | ⟨-, hp'⟩
      · rw [he', he'']
      · exact absurd heq (hnone e'' p' hp')
    · rcases update_eq_some.mp hp' with ⟨-, ⟨⟩⟩ | ⟨-, hp'⟩
      · refine absurd (heq.imp Eq.symm fun hswap => ?_) (hnone e' p hp)
        rw [← p.swap_swap, ← hswap]
        rfl
      · exact h.unique e' e'' p p' hp hp' heq

/-- An edge goes from the lists of its ends. -/
theorem Sound.remove_edge (h : Sound ends edges) {e : E} {v w : V} {l k : List E}
    (he : ends e = some (v, w)) (hl : edges v = some l) (hk : edges w = some k) :
    Sound (Function.update ends e none)
      (Function.update (Function.update edges v (some (l.erase e))) w (some (k.erase e))) := by
  have hends : ∀ u e', IsEnd (Function.update ends e none) u e' ↔ e' ≠ e ∧ IsEnd ends u e' := by
    intro u e'
    by_cases heq : e' = e
    · subst heq
      simp [IsEnd]
    · simp only [IsEnd, Function.update_of_ne heq, ne_eq, heq, not_false_eq_true, true_and]
  refine ⟨fun u l' hl' e' => ?_, fun u l' hl' => ?_, fun e' p hp => ?_, fun u e' hend => ?_,
    fun e' e'' p p' hp hp' heq => ?_⟩
  · rw [hends]
    rcases update_eq_some.mp hl' with ⟨rfl, ⟨⟩⟩ | ⟨huw, hl'⟩
    · rw [(h.nodup u k hk).mem_erase_iff, h.mem_edges u k hk]
    · rcases update_eq_some.mp hl' with ⟨rfl, ⟨⟩⟩ | ⟨huv, hl'⟩
      · rw [(h.nodup u l hl).mem_erase_iff, h.mem_edges u l hl]
      · rw [h.mem_edges u l' hl']
        refine ⟨fun hend => ⟨fun heq => ?_, hend⟩, And.right⟩
        rw [heq, isEnd_iff he] at hend
        exact hend.elim (fun h => huv h.symm) fun h => huw h.symm
  · rcases update_eq_some.mp hl' with ⟨-, ⟨⟩⟩ | ⟨-, hl'⟩
    · exact (h.nodup w k hk).erase e
    · rcases update_eq_some.mp hl' with ⟨-, ⟨⟩⟩ | ⟨-, hl'⟩
      · exact (h.nodup v l hl).erase e
      · exact h.nodup u l' hl'
  · rcases update_eq_some.mp hp with ⟨-, ⟨⟩⟩ | ⟨-, hp⟩
    exact h.ne e' p hp
  · exact exists_update (exists_update (h.exists_edges u e' ((hends u e').mp hend).2))
  · rcases update_eq_some.mp hp with ⟨-, ⟨⟩⟩ | ⟨-, hp⟩
    rcases update_eq_some.mp hp' with ⟨-, ⟨⟩⟩ | ⟨-, hp'⟩
    exact h.unique e' e'' p p' hp hp' heq

end IncidenceLists
