import Mathlib.Data.List.Basic
import Mathlib.Data.Nat.Find

/-! `RakString::Find`, a single pass over the text, and the occurrences that it passes over. -/

namespace SLikeNet

namespace RakString

/-- The loop of `Find` over the characters from `i` on; `none` stands for `(size_t) -1`. -/
def findLoop (stringToFind : List UInt8) : List UInt8 → ℕ → ℕ → ℕ → Option ℕ
  | [], _, _, _ => none
  | c :: rest, i, matchPos, iStart =>
    if stringToFind[matchPos]? = some c then
      let iStart' := if matchPos = 0 then i else iStart
      if stringToFind.length ≤ matchPos + 1 then some iStart'
      else findLoop stringToFind rest (i + 1) (matchPos + 1) iStart'
    else findLoop stringToFind rest (i + 1) 0 iStart

/-- `str` has the characters in front of the NUL. -/
def find (str stringToFind : List UInt8) (pos : ℕ) : Option ℕ :=
  if str.length ≤ pos ∨ stringToFind = [] then none
  else findLoop stringToFind (str.drop pos) pos 0 0

def OccursAt (str stringToFind : List UInt8) (i : ℕ) : Prop :=
  i + stringToFind.length ≤ str.length ∧ (str.drop i).take stringToFind.length = stringToFind

instance (str stringToFind : List UInt8) (i : ℕ) : Decidable (OccursAt str stringToFind i) :=
  inferInstanceAs (Decidable (_ ∧ _))

def FirstFrom (str stringToFind : List UInt8) (pos i : ℕ) : Prop :=
  pos ≤ i ∧ OccursAt str stringToFind i ∧ ∀ j, pos ≤ j → j < i → ¬OccursAt str stringToFind j

/-- The least place from `pos` on, or that there is none. -/
def FindsFirst (str stringToFind : List UInt8) (pos : ℕ) : Option ℕ → Prop
  | some i => FirstFrom str stringToFind pos i
  | none => ∀ j, pos ≤ j → ¬OccursAt str stringToFind j

/-- How far the strings agree. -/
def agreement : List UInt8 → List UInt8 → ℕ
  | a :: as, b :: bs => if a = b then agreement as bs + 1 else 0
  | _, _ => 0

/-- A comparison that starts at `i` leads to one that starts at `j`: where it fails, the next one
starts behind the character that differs. -/
inductive LeadsTo (str stringToFind : List UInt8) : ℕ → ℕ → Prop
  | here (i : ℕ) : LeadsTo str stringToFind i i
  | next {i j : ℕ} (hfails : ¬OccursAt str stringToFind i)
    (h : LeadsTo str stringToFind (i + agreement stringToFind (str.drop i) + 1) j) :
    LeadsTo str stringToFind i j

variable {str stringToFind : List UInt8} {pos i j k : ℕ}

theorem LeadsTo.le (h : LeadsTo str stringToFind i j) : i ≤ j := by
  induction h with
  | here => exact Nat.le_refl _
  | next _ _ ih => omega

theorem LeadsTo.unique (hi : LeadsTo str stringToFind pos i) (hj : LeadsTo str stringToFind pos j)
    (hoccurs : OccursAt str stringToFind i) (hoccurs' : OccursAt str stringToFind j) : i = j := by
  induction hi with
  | here i =>
    cases hj with
    | here => rfl
    | next hfails _ => exact absurd hoccurs hfails
  | next hfails _ ih =>
    cases hj with
    | here => exact absurd hoccurs' hfails
    | next _ h => exact ih h hoccurs

theorem agreement_eq {as bs : List UInt8} (htake : as.take k = bs.take k)
    (hne : as[k]? ≠ bs[k]?) : agreement as bs = k := by
  induction k generalizing as bs with
  | zero =>
    cases as with
    | nil => rfl
    | cons a as =>
      cases bs with
      | nil => rfl
      | cons b bs =>
        rw [List.getElem?_cons_zero, List.getElem?_cons_zero, ne_eq, Option.some.injEq] at hne
        rw [agreement, if_neg hne]
  | succ k ih =>
    cases as with
    | nil =>
      cases bs with
      | nil => exact absurd rfl hne
      | cons b bs => cases htake
    | cons a as =>
      cases bs with
      | nil => cases htake
      | cons b bs =>
        rw [List.take_succ_cons, List.take_succ_cons, List.cons.injEq] at htake
        rw [List.getElem?_cons_succ, List.getElem?_cons_succ] at hne
        rw [agreement, if_pos htake.1, ih htake.2 hne]

theorem not_occursAt_of_agreement (h : agreement stringToFind (str.drop i) < stringToFind.length) :
    ¬OccursAt str stringToFind i := by
  rintro ⟨-, htake⟩
  have hfull : ∀ as bs : List UInt8, bs.take as.length = as → agreement as bs = as.length := by
    intro as
    induction as with
    | nil => exact fun bs _ => rfl
    | cons a as ih =>
      intro bs hbs
      cases bs with
      | nil => cases hbs
      | cons b bs =>
        rw [List.length_cons, List.take_succ_cons, List.cons.injEq] at hbs
        rw [agreement, if_pos hbs.1.symm, ih bs hbs.2, List.length_cons]
  rw [hfull _ _ htake] at h
  exact Nat.lt_irrefl _ h

/-- Where the loop stands: a comparison that started at `start` agrees on `matchPos` characters. -/
structure Comparing (str stringToFind : List UInt8) (start matchPos iStart : ℕ) : Prop where
  short : matchPos < stringToFind.length
  agrees : stringToFind.take matchPos = (str.drop start).take matchPos
  inside : start + matchPos ≤ str.length
  starts : 0 < matchPos → iStart = start

/-- What the loop returns from there on. -/
def Settles (str stringToFind : List UInt8) (start : ℕ) : Option ℕ → Prop
  | some i => LeadsTo str stringToFind start i ∧ OccursAt str stringToFind i
  | none => ∀ j, LeadsTo str stringToFind start j → ¬OccursAt str stringToFind j

theorem Settles.next {result : Option ℕ} (hfails : ¬OccursAt str stringToFind i)
    (h : Settles str stringToFind (i + agreement stringToFind (str.drop i) + 1) result) :
    Settles str stringToFind i result := by
  cases result with
  | some j => exact ⟨.next hfails h.1, h.2⟩
  | none =>
    intro j hj
    cases hj with
    | here => exact hfails
    | next _ hj => exact h j hj

theorem findLoop_settles {start matchPos iStart : ℕ} {rest : List UInt8}
    (h : Comparing str stringToFind start matchPos iStart)
    (hrest : str.drop (start + matchPos) = rest) :
    Settles str stringToFind start
      (findLoop stringToFind rest (start + matchPos) matchPos iStart) := by
  induction rest generalizing start matchPos iStart with
  | nil =>
    have hend : str.length ≤ start + matchPos := List.drop_eq_nil_iff.mp hrest
    intro j hj hoccurs
    have hshort := h.short
    cases hj with
    | here => have := hoccurs.1; omega
    | next hfails hj =>
      have hle := hj.le
      have hinside := hoccurs.1
      have hne : stringToFind[matchPos]? ≠ (str.drop start)[matchPos]? := by
        rw [List.getElem?_eq_getElem hshort, List.getElem?_drop, List.getElem?_eq_none hend]
        exact Option.some_ne_none _
      rw [agreement_eq h.agrees hne] at hle
      omega
  | cons c rest ih =>
    have hc : (str.drop start)[matchPos]? = some c := by
      rw [List.getElem?_drop, ← Nat.add_zero (start + matchPos), ← List.getElem?_drop, hrest]
      rfl
    have hlt : start + matchPos < str.length := by
      by_contra hge
      rw [List.drop_eq_nil_of_le (by omega)] at hrest
      cases hrest
    have htail : str.drop (start + matchPos + 1) = rest := by
      rw [← List.drop_drop, hrest]
      rfl
    rw [findLoop]
    split
    · next heq =>
      have hstart : (if matchPos = 0 then start + matchPos else iStart) = start := by
        split
        · next hzero => rw [hzero, Nat.add_zero]
        · next hpos => exact h.starts (Nat.pos_of_ne_zero hpos)
      have hagrees : stringToFind.take (matchPos + 1) = (str.drop start).take (matchPos + 1) := by
        rw [List.take_add_one, List.take_add_one, h.agrees, heq, hc]
      dsimp only
      rw [hstart]
      split
      · next hfull =>
        have hlength : stringToFind.length = matchPos + 1 := by
          have := h.short
          omega
        refine ⟨.here start, by omega, ?_⟩
        rw [hlength, ← hagrees, ← hlength, List.take_length]
      · next hmore =>
        exact ih ⟨by omega, hagrees, by omega, fun _ => rfl⟩ htail
    · next hne =>
      rw [← hc] at hne
      have hfrom := agreement_eq h.agrees hne
      apply Settles.next (not_occursAt_of_agreement (hfrom ▸ h.short))
      rw [hfrom]
      have hpos : 0 < stringToFind.length := Nat.zero_lt_of_lt h.short
      exact ih ⟨hpos, rfl, by omega, fun hzero => absurd hzero (Nat.lt_irrefl 0)⟩ htail

theorem find_settles (hne : stringToFind ≠ []) (pos : ℕ) :
    Settles str stringToFind pos (find str stringToFind pos) := by
  have hlength := List.length_pos_of_ne_nil hne
  rw [find]
  by_cases hpos : str.length ≤ pos
  · rw [if_pos (.inl hpos)]
    intro j hj hoccurs
    have hle := hj.le
    have hinside := hoccurs.1
    omega
  · rw [if_neg (not_or.mpr ⟨hpos, hne⟩)]
    exact findLoop_settles
      ⟨hlength, rfl, by omega, fun hzero => absurd hzero (Nat.lt_irrefl 0)⟩ rfl

theorem FirstFrom.exists (hpos : pos ≤ i) (h : OccursAt str stringToFind i) :
    ∃ f ≤ i, FirstFrom str stringToFind pos f := by
  have hex : ∃ f, pos ≤ f ∧ OccursAt str stringToFind f := ⟨i, hpos, h⟩
  obtain ⟨hge, hoccurs⟩ := Nat.find_spec hex
  exact ⟨Nat.find hex, Nat.find_le ⟨hpos, h⟩, hge, hoccurs,
    fun j hj hlt hoccurs' => Nat.find_min hex hlt ⟨hj, hoccurs'⟩⟩

/-- `Find` returns the first occurrence exactly if no comparison that fails passes over it. -/
theorem find_first_iff (str : List UInt8) (hne : stringToFind ≠ []) (pos : ℕ) :
    FindsFirst str stringToFind pos (find str stringToFind pos) ↔
      ∀ f, FirstFrom str stringToFind pos f → LeadsTo str stringToFind pos f := by
  have hsettles : Settles str stringToFind pos (find str stringToFind pos) := find_settles hne pos
  cases hfind : find str stringToFind pos with
  | some i =>
    rw [hfind] at hsettles
    constructor
    · rintro ⟨hge, hoccurs, hfirst⟩ f ⟨hge', hoccurs', hfirst'⟩
      obtain hlt | rfl | hlt := Nat.lt_trichotomy i f
      · exact absurd hoccurs (hfirst' i hge hlt)
      · exact hsettles.1
      · exact absurd hoccurs' (hfirst f hge' hlt)
    · intro h
      obtain ⟨f, -, hf⟩ := FirstFrom.exists hsettles.1.le hsettles.2
      obtain rfl := (h f hf).unique hsettles.1 hf.2.1 hsettles.2
      exact hf
  | none =>
    rw [hfind] at hsettles
    constructor
    · exact fun h f hf => absurd hf.2.1 (h f hf.1)
    · intro h j hj hoccurs
      obtain ⟨f, -, hf⟩ := FirstFrom.exists hj hoccurs
      exact hsettles f (h f hf) hf.2.1

/-- "b" in "ab". -/
theorem find_first_iff_tail :
    FindsFirst [97, 98] [98] 0 (find [97, 98] [98] 0) ↔
      ∀ f, FirstFrom [97, 98] [98] 0 f → LeadsTo [97, 98] [98] 0 f :=
  find_first_iff [97, 98] (by decide) 0

/-- "ab" in "aab". -/
theorem repeated_start_not_found :
    ¬FindsFirst [97, 97, 98] [97, 98] 0 (find [97, 97, 98] [97, 98] 0) := by
  have hnone : find [97, 97, 98] [97, 98] 0 = none := by decide
  rw [hnone]
  intro h
  exact h 1 (Nat.zero_le 1) (by decide)

end RakString

end SLikeNet
