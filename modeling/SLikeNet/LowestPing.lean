import Mathlib.Algebra.Order.Field.Rat
import Mathlib.Algebra.Order.Ring.Cast
import Mathlib.Data.List.MinMax

/-! The system that `ConnectionGraph2` takes for the one with the lowest average ping. -/

namespace SLikeNet

namespace ConnectionGraph2

/-- `averagePing` is what `GetAveragePing` of this system tells of it, with `none` for -1. Of
`remoteConnections` the values `sendersPingToThatSystem`. -/
structure RemoteSystem where
  guid : ℕ
  averagePing : Option ℕ
  remoteConnections : List UInt16
deriving DecidableEq

structure Graph where
  myGUID : ℕ
  remoteSystems : List RemoteSystem

def getAveragePing (system : RemoteSystem) : ℤ := system.averagePing.elim (-1) Nat.cast

/-- `WriteCasted` of a ping, as `AddParticipant` sends it. -/
def writeCasted (ping : ℤ) : UInt16 := .ofInt ping

/-- What the loops do with a ping to `thisAvePing` and `count`. -/
def addPing (r : ℚ × ℕ) (ap : ℤ) : ℚ × ℕ := if ap ≠ -1 then (r.1 + ap, r.2 + 1) else r

/-- The loop over the systems that this one knows sets `thisAvePing` back for each of them. -/
def localPings (g : Graph) : ℚ × ℕ :=
  g.remoteSystems.foldl (fun r system => addPing (0, r.2) (getAveragePing system)) (0, 0)

def remotePings (system : RemoteSystem) : ℚ × ℕ :=
  system.remoteConnections.foldl (fun r ping => addPing r ping.toNat) (0, 0)

/-- `lowestPing` and the system of `lowestPingIdx`. -/
def comparePing (lowest : ℚ × Option RemoteSystem) (system : RemoteSystem) :
    ℚ × Option RemoteSystem :=
  let r := remotePings system
  if 0 < r.2 ∧ (lowest.1 = -1 ∨ r.1 / r.2 < lowest.1) then (r.1 / r.2, some system) else lowest

/-- There is no system where `lowestPingIdx` is -1. -/
def lowestPingSystem (g : Graph) : Option RemoteSystem :=
  let r := localPings g
  (g.remoteSystems.foldl comparePing (if 0 < r.2 then r.1 / r.2 else -1, none)).2

def getLowestAveragePingSystem (g : Graph) : ℕ :=
  (lowestPingSystem g).elim g.myGUID RemoteSystem.guid

/-! ### The averages -/

/-- This system is `none`. -/
def systems (g : Graph) : List (Option RemoteSystem) := none :: g.remoteSystems.map some

def knownPings (g : Graph) : Option RemoteSystem → List ℕ
  | none => g.remoteSystems.filterMap RemoteSystem.averagePing
  | some system => (system.remoteConnections.filter (· ≠ writeCasted (-1))).map UInt16.toNat

def average (g : Graph) (system : Option RemoteSystem) : ℚ :=
  (knownPings g system).sum / (knownPings g system).length

/-- No system with a known ping has a lower average, and this one has a known ping. -/
def IsLowest (g : Graph) (system : Option RemoteSystem) : Prop :=
  knownPings g system ≠ [] ∧
    ∀ other ∈ systems g, knownPings g other ≠ [] → average g system ≤ average g other

/-- The pings that are summed up for a system. -/
def summedPings (g : Graph) : Option RemoteSystem → ℚ × ℕ
  | none => localPings g
  | some system => remotePings system

def comparedPing (g : Graph) (system : Option RemoteSystem) : ℚ :=
  (summedPings g system).1 / (summedPings g system).2

def comparedSystems (g : Graph) : List (Option RemoteSystem) :=
  (systems g).filter fun system => 0 < (summedPings g system).2

/-- The system is compared before the other one, and has a lower value or the same. -/
def ComesBefore (g : Graph) (system other : Option RemoteSystem) : Prop :=
  comparedPing g system < comparedPing g other ∨ comparedPing g system = comparedPing g other ∧
    (comparedSystems g).idxOf system < (comparedSystems g).idxOf other

variable {g : Graph}

/-! ### The scan -/

theorem addPing_nonneg {r : ℚ × ℕ} (hr : 0 ≤ r.1) {ap : ℤ} (hap : -1 ≤ ap) :
    0 ≤ (addPing r ap).1 := by
  rw [addPing]
  split
  · next hne =>
    have hap' : (0 : ℚ) ≤ ap := Int.cast_nonneg (by omega)
    exact add_nonneg hr hap'
  · exact hr

theorem foldl_addPing_nonneg {α : Type*} {step : ℚ × ℕ → α → ℚ × ℕ}
    (hstep : ∀ r a, 0 ≤ r.1 → 0 ≤ (step r a).1) (l : List α) {r : ℚ × ℕ} (hr : 0 ≤ r.1) :
    0 ≤ (l.foldl step r).1 := by
  induction l generalizing r with
  | nil => exact hr
  | cons a l ih => exact ih (hstep r a hr)

theorem comparedPing_nonneg (g : Graph) (system : Option RemoteSystem) :
    0 ≤ comparedPing g system := by
  refine div_nonneg ?_ (Nat.cast_nonneg _)
  cases system with
  | none =>
    refine foldl_addPing_nonneg (fun r system _ => addPing_nonneg le_rfl ?_) _ le_rfl
    rw [getAveragePing]
    cases system.averagePing with
    | none => exact le_rfl
    | some ping => simp only [Option.elim_some]; omega
  | some system =>
    exact foldl_addPing_nonneg (fun r ping hr => addPing_nonneg hr (by omega)) _ le_rfl

/-- The variables of the scan after the system `best`. -/
def scanned (g : Graph) (best : Option (Option RemoteSystem)) : ℚ × Option RemoteSystem :=
  (best.elim (-1) (comparedPing g), best.join)

theorem foldl_comparePing (l : List RemoteSystem) (best : Option (Option RemoteSystem)) :
    l.foldl comparePing (scanned g best) = scanned g
      (((l.map some).filter fun system => 0 < (summedPings g system).2).foldl
        (List.argAux fun b c => comparedPing g b < comparedPing g c) best) := by
  induction l generalizing best with
  | nil => rfl
  | cons system l ih =>
    rw [List.foldl_cons, List.map_cons, List.filter_cons]
    have hpings : summedPings g (some system) = remotePings system := rfl
    rw [hpings]
    by_cases hcount : 0 < (remotePings system).2
    · have hstep : comparePing (scanned g best) system = scanned g
          (List.argAux (fun b c => comparedPing g b < comparedPing g c) best (some system)) := by
        have hcompared : (remotePings system).1 / (remotePings system).2 =
            comparedPing g (some system) := rfl
        rw [comparePing, hcompared]
        cases best with
        | none => exact if_pos ⟨hcount, .inl rfl⟩
        | some best =>
          have hne : comparedPing g best ≠ -1 := fun heq => by
            have hnonneg := comparedPing_nonneg g best
            rw [heq] at hnonneg
            exact absurd hnonneg (by decide)
          rw [List.argAux]
          by_cases hlt : comparedPing g (some system) < comparedPing g best
          · rw [if_pos ⟨hcount, .inr hlt⟩]
            dsimp only
            rw [if_pos hlt]
            rfl
          · rw [if_neg fun hboth => hboth.2.elim hne hlt]
            dsimp only
            rw [if_neg hlt]
      rw [hstep, ih, if_pos (decide_eq_true hcount), List.foldl_cons]
    · have hstep : comparePing (scanned g best) system = scanned g best :=
        if_neg fun hboth => hcount hboth.1
      rw [hstep, ih, if_neg fun h => hcount (of_decide_eq_true h)]

theorem lowestPingSystem_eq (g : Graph) :
    lowestPingSystem g = ((comparedSystems g).argmin (comparedPing g)).join := by
  have hpings : summedPings g none = localPings g := rfl
  rw [lowestPingSystem, comparedSystems, systems, List.argmin, List.filter_cons, hpings]
  by_cases hcount : 0 < (localPings g).2
  · have hstart : ((if 0 < (localPings g).2 then (localPings g).1 / (localPings g).2 else -1,
        none) : ℚ × Option RemoteSystem) = scanned g (some none) :=
      Prod.ext (if_pos hcount) rfl
    rw [if_pos (decide_eq_true hcount), List.foldl_cons, hstart, foldl_comparePing]
    rfl
  · have hstart : ((if 0 < (localPings g).2 then (localPings g).1 / (localPings g).2 else -1,
        none) : ℚ × Option RemoteSystem) = scanned g none :=
      Prod.ext (if_neg hcount) rfl
    rw [if_neg fun h => hcount (of_decide_eq_true h), hstart, foldl_comparePing]
    rfl

/-! ### The lowest system -/

theorem localPings_count (g : Graph) : (localPings g).2 = (knownPings g none).length := by
  have hfold : ∀ (l : List RemoteSystem) (r : ℚ × ℕ),
      (l.foldl (fun r system => addPing (0, r.2) (getAveragePing system)) r).2 =
        r.2 + (l.filterMap RemoteSystem.averagePing).length := by
    intro l
    induction l with
    | nil => exact fun r => rfl
    | cons system l ih =>
      intro r
      rw [List.foldl_cons, ih, getAveragePing]
      cases hping : system.averagePing with
      | none =>
        rw [List.filterMap_cons_none hping]
        rfl
      | some ping =>
        have hne : ((some ping).elim (-1) Nat.cast : ℤ) ≠ -1 := by
          rw [Option.elim_some]
          omega
        rw [List.filterMap_cons_some hping, addPing, if_pos hne, List.length_cons]
        omega
  exact (hfold g.remoteSystems (0, 0)).trans (Nat.zero_add _)

theorem remotePings_count (system : RemoteSystem) :
    (remotePings system).2 = system.remoteConnections.length := by
  have hfold : ∀ (l : List UInt16) (r : ℚ × ℕ),
      (l.foldl (fun r ping => addPing r ping.toNat) r).2 = r.2 + l.length := by
    intro l
    induction l with
    | nil => exact fun r => rfl
    | cons ping l ih =>
      intro r
      -- A ping of 16 bits is not -1, so that the unknown ones are summed up, too.
      have hne : (ping.toNat : ℤ) ≠ -1 := by omega
      rw [List.foldl_cons, ih, addPing, if_pos hne, List.length_cons]
      omega
  exact (hfold system.remoteConnections (0, 0)).trans (Nat.zero_add _)

theorem mem_comparedSystems {system : Option RemoteSystem} (hmem : system ∈ systems g)
    (hknown : knownPings g system ≠ []) : system ∈ comparedSystems g := by
  refine List.mem_filter.mpr ⟨hmem, decide_eq_true ?_⟩
  cases system with
  | none => exact (localPings_count g) ▸ List.length_pos_of_ne_nil hknown
  | some system =>
    refine (remotePings_count system) ▸ List.length_pos_of_ne_nil fun hnil => hknown ?_
    rw [knownPings, hnil]
    rfl

/-- What is returned has the lowest average if and only if some system with the lowest average comes
before all that do not have it. -/
theorem isLowest_lowestPingSystem_iff (g : Graph) :
    ((∃ system ∈ systems g, knownPings g system ≠ []) → IsLowest g (lowestPingSystem g)) ↔
      ((∃ system ∈ systems g, knownPings g system ≠ []) →
        ∃ system ∈ comparedSystems g, IsLowest g system ∧
          ∀ other ∈ comparedSystems g, ¬ IsLowest g other → ComesBefore g system other) := by
  refine forall_congr' fun ⟨known, hmem, hknown⟩ => ?_
  have hcompared := mem_comparedSystems hmem hknown
  cases hfirst : (comparedSystems g).argmin (comparedPing g) with
  | none => exact absurd hcompared (List.argmin_eq_none.mp hfirst ▸ List.not_mem_nil)
  | some first =>
    rw [lowestPingSystem_eq, hfirst, Option.join_some]
    have hle : ∀ other ∈ comparedSystems g, comparedPing g first ≤ comparedPing g other :=
      fun other hother => List.le_of_mem_argmin hother hfirst
    have hindex : ∀ other ∈ comparedSystems g, comparedPing g other ≤ comparedPing g first →
        (comparedSystems g).idxOf first ≤ (comparedSystems g).idxOf other :=
      fun other hother => by
        rw [lawful_beq_subsingleton Option.instBEq instBEqOfDecidableEq]
        exact List.index_of_argmin hfirst hother
    constructor
    · intro hlowest
      refine ⟨first, List.argmin_mem hfirst, hlowest, fun other hother hnot => ?_⟩
      obtain hlt | heq := (hle other hother).lt_or_eq
      · exact .inl hlt
      · refine .inr ⟨heq, lt_of_le_of_ne (hindex other hother heq.ge) fun hsame => hnot ?_⟩
        rwa [← List.idxOf_inj (List.argmin_mem hfirst) |>.mp hsame]
    · rintro ⟨system, hsystem, hlowest, hbefore⟩
      by_contra hnot
      obtain hlt | ⟨heq, hlt⟩ := hbefore first (List.argmin_mem hfirst) hnot
      · exact absurd (hle system hsystem) (not_le_of_gt hlt)
      · exact absurd (hindex system hsystem heq.le) (not_le_of_gt hlt)

/-- This system has the average 51, and is compared with 1: it is returned in front of one with the
average 10. -/
theorem own_system_not_lowest : ¬ ∀ g : Graph,
    (∃ system ∈ systems g, knownPings g system ≠ []) → IsLowest g (lowestPingSystem g) := by
  intro h
  have hlowest := h ⟨0, [⟨1, some 100, [10]⟩, ⟨2, some 2, [60]⟩]⟩
    ⟨none, List.mem_cons_self, by decide⟩
  rw [show lowestPingSystem ⟨0, [⟨1, some 100, [10]⟩, ⟨2, some 2, [60]⟩]⟩ = none by
    decide +kernel] at hlowest
  have hle := hlowest.2 (some ⟨1, some 100, [10]⟩) (by decide) (by decide)
  exact absurd hle (by decide +kernel)

end ConnectionGraph2

end SLikeNet
