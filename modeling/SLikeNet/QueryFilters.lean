import Mathlib.Data.List.Forall2
import SLikeNet.Table

/-! What the filters of a query say about a row, and when `QueryRow` decides so. -/

namespace SLikeNet

namespace Table

variable {R : Type}

theorem strcmp_spec (a b : List UInt8) :
    (strcmp a b = .lt ↔ a < b) ∧ (strcmp a b = .eq ↔ a = b) ∧ (strcmp a b = .gt ↔ b < a) := by
  induction a generalizing b with
  | nil =>
    cases b with
    | nil => simp [strcmp]
    | cons y b => simp [strcmp]
  | cons x a ih =>
    cases b with
    | nil => simp [strcmp]
    | cons y b =>
      rw [strcmp, List.cons_lt_cons_iff, List.cons_lt_cons_iff, List.cons.injEq]
      by_cases hlt : x < y
      · have hne : x ≠ y := fun h => UInt8.lt_irrefl x (h ▸ hlt)
        simp [hlt, UInt8.lt_asymm hlt, hne, hne.symm]
      · by_cases hgt : y < x
        · have hne : x ≠ y := fun h => UInt8.lt_irrefl x (h ▸ hgt)
          simp [hlt, hgt, hne]
        · have heq : x = y := UInt8.le_antisymm (UInt8.not_lt.mp hgt) (UInt8.not_lt.mp hlt)
          subst heq
          simp [UInt8.lt_irrefl, ih b]

/-! ### What a filter means -/

/-- The value that a cell of a column of this type holds, if it holds one. -/
def Cell.HasType : Cell R → ColumnType → Prop
  | .empty, _ => True
  | .number _, columnType => columnType = .numeric
  | .string _, columnType => columnType = .string
  | .binary _, columnType => columnType = .binary
  | .pointer _, columnType => columnType = .pointer

section Holds

variable [BEq R] [LT R] [LE R]

/-- A comparison of two values. An order of binary data, and a comparison with a string that is not
there, hold of nothing. -/
def FilterQueryType.Compares : FilterQueryType → Cell R → Cell R → Prop
  | .isEmpty, cell, _ => cell = .empty
  | .notEmpty, cell, _ => cell ≠ .empty
  | .equal, .number a, .number b => (a == b) = true
  | .equal, .string (some a), .string (some b) => a = b
  | .equal, .binary a, .binary b => a = b
  | .equal, .pointer a, .pointer b => a = b
  | .notEqual, .number a, .number b => (a != b) = true
  | .notEqual, .string (some a), .string (some b) => a ≠ b
  | .notEqual, .binary a, .binary b => a ≠ b
  | .notEqual, .pointer a, .pointer b => a ≠ b
  | .greaterThan, .number a, .number b => b < a
  | .greaterThan, .string (some a), .string (some b) => b < a
  | .greaterThan, .pointer a, .pointer b => b < a
  | .greaterThanEq, .number a, .number b => b ≤ a
  | .greaterThanEq, .string (some a), .string (some b) => b ≤ a
  | .greaterThanEq, .pointer a, .pointer b => b ≤ a
  | .lessThan, .number a, .number b => a < b
  | .lessThan, .string (some a), .string (some b) => a < b
  | .lessThan, .pointer a, .pointer b => a < b
  | .lessThanEq, .number a, .number b => a ≤ b
  | .lessThanEq, .string (some a), .string (some b) => a ≤ b
  | .lessThanEq, .pointer a, .pointer b => a ≤ b
  | _, _, _ => False

end Holds

/-- The cell that a filter looks at, empty where the table has no such column. -/
def filterCell (table : Table R) (row : Row R) (filter : FilterQuery R) : Cell R :=
  match table.filterColumn filter with
  | none => .empty
  | some columnIndex => row.getD columnIndex .empty

def Holds [BEq R] [LT R] [LE R] (table : Table R) (row : Row R) (filter : FilterQuery R) : Prop :=
  filter.operation.Compares (table.filterCell row filter) filter.cellValue

/-- The value of a filter is one of its column's type, and a string is not a null pointer. -/
def TypedFilter (table : Table R) (filter : FilterQuery R) : Prop :=
  filter.cellValue ≠ .empty ∧ filter.cellValue ≠ .string none ∧
    ∀ columnIndex, table.filterColumn filter = some columnIndex →
      filter.cellValue.HasType (table.getColumnType columnIndex)

/-- The cells of a row are those of the columns, each empty or of the column's type. -/
def TypedRow (table : Table R) (row : Row R) : Prop :=
  List.Forall₂ (fun column cell => cell.HasType column.columnType) table.columns row

/-! ### How `QueryRow` answers -/

/-- `>`, `>=`, `<` and `<=`. -/
def FilterQueryType.isOrder : FilterQueryType → Bool
  | .greaterThan | .greaterThanEq | .lessThan | .lessThanEq => true
  | _ => false

def Cell.isNullString : Cell R → Bool
  | .string none => true
  | _ => false

/-- A filter on a string that is a null pointer. -/
def LooksAtNull (table : Table R) (row : Row R) (filter : FilterQuery R) : Prop :=
  (table.filterCell row filter).isNullString = true

def OrdersBinary (table : Table R) (row : Row R) (filter : FilterQuery R) : Prop :=
  (∃ c, table.filterCell row filter = .binary c) ∧ filter.operation.isOrder = true

def DistinguishesBinary (table : Table R) (row : Row R) (filter : FilterQuery R) : Prop :=
  (∃ c, table.filterCell row filter = .binary c) ∧ filter.operation = .notEqual

/-- The other filters, which `QueryRow` decides as they are named. -/
def Decided (table : Table R) (row : Row R) (filter : FilterQuery R) : Prop :=
  ¬table.LooksAtNull row filter ∧ ¬table.OrdersBinary row filter ∧
    ¬table.DistinguishesBinary row filter

theorem looksAtNull_iff {table : Table R} {row : Row R} {filter : FilterQuery R} :
    table.LooksAtNull row filter ↔ table.filterCell row filter = .string none := by
  rw [LooksAtNull]
  cases table.filterCell row filter with
  | string c =>
    cases c with
    | none => simp [Cell.isNullString]
    | some a => simp [Cell.isNullString]
  | _ => simp [Cell.isNullString]

theorem filter_kinds (table : Table R) (row : Row R) (filter : FilterQuery R) :
    table.LooksAtNull row filter ∨ table.OrdersBinary row filter ∨
      table.DistinguishesBinary row filter ∨ table.Decided row filter := by
  by_cases hnull : table.LooksAtNull row filter
  · exact Or.inl hnull
  · by_cases horders : table.OrdersBinary row filter
    · exact Or.inr (Or.inl horders)
    · by_cases hne : table.DistinguishesBinary row filter
      · exact Or.inr (Or.inr (Or.inl hne))
      · exact Or.inr (Or.inr (Or.inr ⟨hnull, horders, hne⟩))

section

variable {table : Table R} {row : Row R} {filter : FilterQuery R}

theorem not_null_of_orders (h : table.OrdersBinary row filter) : ¬table.LooksAtNull row filter := by
  obtain ⟨⟨c, hcell⟩, -⟩ := h
  rw [looksAtNull_iff, hcell]
  simp

theorem not_null_of_distinguishes (h : table.DistinguishesBinary row filter) :
    ¬table.LooksAtNull row filter := by
  obtain ⟨⟨c, hcell⟩, -⟩ := h
  rw [looksAtNull_iff, hcell]
  simp

theorem not_orders_of_distinguishes (h : table.DistinguishesBinary row filter) :
    ¬table.OrdersBinary row filter := by
  rintro ⟨-, horder⟩
  rw [h.2] at horder
  simp [FilterQueryType.isOrder] at horder

variable [BEq R] [LT R] [LE R]

theorem holds_of_null (h : table.LooksAtNull row filter) :
    table.Holds row filter ↔ filter.operation = .notEmpty := by
  rw [Holds, looksAtNull_iff.mp h]
  cases filter.operation <;> simp [FilterQueryType.Compares]

theorem not_holds_of_orders (h : table.OrdersBinary row filter) : ¬table.Holds row filter := by
  obtain ⟨⟨c, hcell⟩, horder⟩ := h
  rw [Holds, hcell]
  cases hoperation : filter.operation <;>
    simp [hoperation, FilterQueryType.isOrder] at horder <;> simp [FilterQueryType.Compares]

theorem not_all_hold_iff {filters : List (FilterQuery R)}
    (hdecided : ∀ f ∈ filters, table.Decided row f → table.Holds row f)
    (hne : ∀ f ∈ filters, table.DistinguishesBinary row f → ¬table.Holds row f) :
    (¬∀ f ∈ filters, table.Holds row f) ↔
      ∃ f ∈ filters, table.DistinguishesBinary row f ∨ table.OrdersBinary row f ∨
        (table.LooksAtNull row f ∧ f.operation ≠ .notEmpty) := by
  constructor
  · intro h
    obtain ⟨f, hf, hnot⟩ : ∃ f ∈ filters, ¬table.Holds row f := by
      by_contra hall
      exact h fun f hf => by_contra fun hnot => hall ⟨f, hf, hnot⟩
    refine ⟨f, hf, ?_⟩
    rcases filter_kinds table row f with hkind | hkind | hkind | hkind
    · exact Or.inr (Or.inr ⟨hkind, fun h => hnot ((holds_of_null hkind).mpr h)⟩)
    · exact Or.inr (Or.inl hkind)
    · exact Or.inl hkind
    · exact absurd (hdecided f hf hkind) hnot
  · rintro ⟨f, hf, hkind | hkind | ⟨hkind, hoperation⟩⟩ h
    · exact hne f hf hkind (h f hf)
    · exact not_holds_of_orders hkind (h f hf)
    · exact hoperation ((holds_of_null hkind).mp (h f hf))

theorem first_iff_of_all_hold {filters : List (FilterQuery R)}
    (h : ∀ f ∈ filters, table.Holds row f) :
    (∃ f, filters.find? (fun f => !(table.filterCell row f).isNullString) = some f ∧
      ¬table.OrdersBinary row f) ↔ ¬∀ f ∈ filters, table.LooksAtNull row f := by
  constructor
  · rintro ⟨f, hfind, -⟩ hall
    have hnull := hall f (List.mem_of_find?_eq_some hfind)
    have hnot := List.find?_some hfind
    rw [LooksAtNull] at hnull
    simp [hnull] at hnot
  · intro hnot
    obtain ⟨f, hfind⟩ : ∃ f, filters.find? (fun f => !(table.filterCell row f).isNullString) =
        some f := by
      by_contra hnone
      refine hnot fun f hf => ?_
      have hf' := List.find?_eq_none.mp (Option.eq_none_iff_forall_ne_some.mpr
        fun g hg => hnone ⟨g, hg⟩) f hf
      simpa [LooksAtNull] using hf'
    exact ⟨f, hfind, fun horders =>
      not_holds_of_orders horders (h f (List.mem_of_find?_eq_some hfind))⟩

theorem distinguishes_iff_of_all_hold {filters : List (FilterQuery R)}
    (h : ∀ f ∈ filters, table.Holds row f) :
    (∀ f ∈ filters, table.DistinguishesBinary row f → ¬table.Holds row f) ↔
      ¬∃ f ∈ filters, table.DistinguishesBinary row f := by
  constructor
  · rintro hne ⟨f, hf, hkind⟩
    exact hne f hf hkind (h f hf)
  · exact fun hnone f hf hkind => absurd ⟨f, hf, hkind⟩ hnone

end

/-- What a filter does to the answer so far: nothing at all, nothing but leave the loop if it is
negative, or replace it. -/
inductive Verdict
  | skipped
  | kept
  | answer (pass : Bool)
deriving DecidableEq

/-- A round of the loop; it goes on to the next filter where the answer is `none`. -/
def Verdict.round : Verdict → Bool → Option Bool
  | .skipped, _ => none
  | .kept, pass => some pass
  | .answer pass, _ => some pass

/-- The loop over the filters. -/
def decideAll : List Verdict → Bool → Bool
  | [], pass => pass
  | .skipped :: verdicts, pass => decideAll verdicts pass
  | .kept :: verdicts, pass => if pass then decideAll verdicts true else false
  | .answer pass :: verdicts, _ => if pass then decideAll verdicts true else false

theorem decideAll_true (verdicts : List Verdict) :
    decideAll verdicts true = true ↔ .answer false ∉ verdicts := by
  induction verdicts with
  | nil => simp [decideAll]
  | cons verdict verdicts ih =>
    cases verdict with
    | skipped => simp [decideAll, ih]
    | kept => simp [decideAll, ih]
    | answer pass =>
      cases pass with
      | true => simp [decideAll, ih]
      | false => simp [decideAll]

/-- The first filter that is not skipped gives an answer. -/
def FirstAnswers (verdicts : List Verdict) : Prop :=
  ∃ pass, verdicts.find? (· ≠ .skipped) = some (.answer pass)

theorem decideAll_false (verdicts : List Verdict) :
    decideAll verdicts false = true ↔ .answer false ∉ verdicts ∧ FirstAnswers verdicts := by
  induction verdicts with
  | nil => simp [decideAll, FirstAnswers]
  | cons verdict verdicts ih =>
    cases verdict with
    | skipped => simp [decideAll, ih, FirstAnswers]
    | kept => simp [decideAll, FirstAnswers]
    | answer pass =>
      cases pass with
      | true => simp [decideAll, decideAll_true, FirstAnswers]
      | false => simp [decideAll]

theorem filterColumn_lt {table : Table R} {filter : FilterQuery R} {columnIndex : ℕ}
    (h : table.filterColumn filter = some columnIndex) : columnIndex < table.columns.length := by
  rw [filterColumn] at h
  obtain ⟨-, hlt⟩ := Option.filter_eq_some_iff.mp h
  exact of_decide_eq_true hlt

theorem typed_filterCell {table : Table R} {row : Row R} {filter : FilterQuery R} 
    (hrow : table.TypedRow row) {columnIndex : ℕ} (h : table.filterColumn filter = some columnIndex) :
    (table.filterCell row filter).HasType (table.getColumnType columnIndex) := by
  have hlt := filterColumn_lt h
  have hlt' : columnIndex < row.length := List.Forall₂.length_eq hrow ▸ hlt
  have hcell := List.Forall₂.get hrow hlt hlt'
  rw [filterCell, h, getColumnType, List.getElem?_eq_getElem hlt]
  show (row.getD columnIndex .empty).HasType _
  rw [List.getD_eq_getElem?_getD, List.getElem?_eq_getElem hlt']
  exact hcell

theorem not_null_string {columnType : ColumnType} {cell value : Cell R}
    (hcell : cell.HasType columnType) (hnonempty : cell ≠ .empty) (hstring : cell ≠ .string none)
    (hvalue : value.HasType columnType) (hvalue' : value ≠ .empty)
    (hvalueString : value ≠ .string none) :
    ¬(columnType = .string ∧ (cell.isNull ∨ value.isNull)) := by
  rintro ⟨rfl, hnull⟩
  cases cell with
  | string c =>
    cases value with
    | string d =>
      cases c with
      | none => exact hstring rfl
      | some a =>
        cases d with
        | none => exact hvalueString rfl
        | some b => simp [Cell.isNull] at hnull
    | empty => exact hvalue' rfl
    | number i => simp [Cell.HasType] at hvalue
    | binary c => simp [Cell.HasType] at hvalue
    | pointer ptr => simp [Cell.HasType] at hvalue
  | empty => exact hnonempty rfl
  | number i => simp [Cell.HasType] at hcell
  | binary c => simp [Cell.HasType] at hcell
  | pointer ptr => simp [Cell.HasType] at hcell

theorem wrong_iff {filters : List (FilterQuery R)} (hnil : ¬filters = [])
    {decided equal first all fails wrong : Prop} (hfails : decided ∧ equal → (¬all ↔ fails))
    (hall : all → (¬((decided ∧ equal) ∧ first) ↔ wrong)) :
    ((filters = [] ∨ (decided ∧ equal) ∧ first) ↔ all) ↔
      ¬(decided ∧ equal ∧ first ∧ fails) ∧ ¬(filters ≠ [] ∧ all ∧ wrong) := by
  by_cases hboth : decided ∧ equal
  · by_cases h : all
    · by_cases hfirst : first <;> simp_all
    · by_cases hfirst : first <;> simp_all
  · by_cases h : all <;> simp_all

section QueryRow

variable [BEq R] [LT R] [LE R] [DecidableLT R] [DecidableLE R] {table : Table R} {row : Row R}
  {filter : FilterQuery R}

def verdict (table : Table R) (row : Row R) (filter : FilterQuery R) : Verdict :=
  match table.filterRound row filter true, table.filterRound row filter false with
  | some true, some false => .kept
  | some pass, _ => .answer pass
  | none, _ => .skipped

theorem filterPass_spec {columnType : ColumnType} {operation : FilterQueryType}
    {cell value : Cell R} (hcell : cell.HasType columnType) (hnonempty : cell ≠ .empty)
    (hstring : cell ≠ .string none) (hvalue : value.HasType columnType) (hvalue' : value ≠ .empty)
    (hvalueString : value ≠ .string none)
    (hbinary : ∀ c, cell = .binary c → operation.isOrder = false ∧ operation ≠ .notEqual)
    (pass : Bool) :
    filterPass columnType operation cell value pass = true ↔ operation.Compares cell value := by
  cases cell with
  | empty => exact absurd rfl hnonempty
  | number a =>
    obtain rfl : columnType = .numeric := hcell
    cases value with
    | number b => cases operation <;> simp [filterPass, FilterQueryType.Compares]
    | empty => exact absurd rfl hvalue'
    | string c => simp [Cell.HasType] at hvalue
    | binary c => simp [Cell.HasType] at hvalue
    | pointer ptr => simp [Cell.HasType] at hvalue
  | string c =>
    obtain rfl : columnType = .string := hcell
    cases c with
    | none => exact absurd rfl hstring
    | some a =>
      cases value with
      | string c =>
        cases c with
        | none => exact absurd rfl hvalueString
        | some b =>
          obtain ⟨hlt, heq, hgt⟩ := strcmp_spec a b
          cases operation <;>
            simp [filterPass, FilterQueryType.Compares, hlt, heq, hgt, List.not_lt]
      | empty => exact absurd rfl hvalue'
      | number i => simp [Cell.HasType] at hvalue
      | binary c => simp [Cell.HasType] at hvalue
      | pointer ptr => simp [Cell.HasType] at hvalue
  | binary a =>
    obtain rfl : columnType = .binary := hcell
    obtain ⟨horder, hne⟩ := hbinary a rfl
    cases value with
    | binary b =>
      cases operation <;> simp [filterPass, FilterQueryType.Compares, FilterQueryType.isOrder] at *
    | empty => exact absurd rfl hvalue'
    | number i => simp [Cell.HasType] at hvalue
    | string c => simp [Cell.HasType] at hvalue
    | pointer ptr => simp [Cell.HasType] at hvalue
  | pointer a =>
    obtain rfl : columnType = .pointer := hcell
    cases value with
    | pointer b => cases operation <;> simp [filterPass, FilterQueryType.Compares]
    | empty => exact absurd rfl hvalue'
    | number i => simp [Cell.HasType] at hvalue
    | string c => simp [Cell.HasType] at hvalue
    | binary c => simp [Cell.HasType] at hvalue

theorem filterRound_of_empty (h : table.filterCell row filter = .empty) (pass : Bool) :
    table.filterRound row filter pass = some (decide (filter.operation = .isEmpty)) := by
  rw [filterRound]
  rw [filterCell] at h
  cases hcolumn : table.filterColumn filter with
  | none => rfl
  | some columnIndex =>
    rw [hcolumn] at h
    have hcell : row.getD columnIndex .empty = .empty := h
    simp only [hcell, Cell.isEmpty, if_true]

theorem filterRound_of_nonempty {columnIndex : ℕ} (h : table.filterCell row filter ≠ .empty)
    (hcolumnIndex : table.filterColumn filter = some columnIndex) (pass : Bool) :
    table.filterRound row filter pass =
      if table.getColumnType columnIndex = .string ∧
          ((table.filterCell row filter).isNull ∨ filter.cellValue.isNull) then none
      else some (filterPass (table.getColumnType columnIndex) filter.operation
        (table.filterCell row filter) filter.cellValue pass) := by
  have hcell : table.filterCell row filter = row.getD columnIndex .empty := by
    rw [filterCell, hcolumnIndex]
  rw [hcell] at h ⊢
  have hempty : (row.getD columnIndex .empty).isEmpty = false := by
    cases hget : row.getD columnIndex .empty with
    | empty => exact absurd hget h
    | _ => rfl
  rw [filterRound, hcolumnIndex]
  simp only [hempty, Bool.false_eq_true, if_false]

theorem filterRound_of_value (hrow : table.TypedRow row) (hfilter : table.TypedFilter filter)
    (hnonempty : table.filterCell row filter ≠ .empty)
    (hstring : table.filterCell row filter ≠ .string none) :
    ∃ columnType, (table.filterCell row filter).HasType columnType ∧
      filter.cellValue.HasType columnType ∧
      ∀ pass, table.filterRound row filter pass = some (filterPass columnType filter.operation
        (table.filterCell row filter) filter.cellValue pass) := by
  obtain ⟨hvalue, hvalueString, htyped⟩ := hfilter
  cases hcolumn : table.filterColumn filter with
  | none => exact absurd (by rw [filterCell, hcolumn]) hnonempty
  | some columnIndex =>
    have hcell := typed_filterCell hrow hcolumn
    refine ⟨table.getColumnType columnIndex, hcell, htyped columnIndex hcolumn, fun pass => ?_⟩
    rw [filterRound_of_nonempty hnonempty hcolumn,
      if_neg (not_null_string hcell hnonempty hstring (htyped columnIndex hcolumn) hvalue
        hvalueString)]

def HasVerdict (table : Table R) (row : Row R) (filter : FilterQuery R) (v : Verdict) : Prop :=
  ∀ pass, table.filterRound row filter pass = v.round pass

theorem HasVerdict.verdict_eq {v : Verdict} (h : table.HasVerdict row filter v) :
    table.verdict row filter = v := by
  rw [verdict, h, h]
  cases v with
  | skipped => rfl
  | kept => rfl
  | answer pass =>
    cases pass with
    | true => rfl
    | false => rfl

theorem hasVerdict_of_null (hrow : table.TypedRow row)
    (h : table.LooksAtNull row filter) : table.HasVerdict row filter .skipped := by
  rw [looksAtNull_iff] at h
  intro pass
  cases hcolumn : table.filterColumn filter with
  | none =>
    rw [filterCell, hcolumn] at h
    simp at h
  | some columnIndex =>
    have hcell := typed_filterCell hrow hcolumn
    rw [h] at hcell
    have hstring : table.getColumnType columnIndex = .string := hcell
    rw [filterRound_of_nonempty (by rw [h]; simp) hcolumn, hstring, h]
    simp [Cell.isNull, Verdict.round]

theorem hasVerdict_of_orders (hrow : table.TypedRow row) (hfilter : table.TypedFilter filter)
    (h : table.OrdersBinary row filter) : table.HasVerdict row filter .kept := by
  obtain ⟨⟨c, hcell⟩, horder⟩ := h
  obtain ⟨columnType, htype, -, hround⟩ := filterRound_of_value hrow hfilter
    (by rw [hcell]; simp) (by rw [hcell]; simp)
  rw [hcell] at htype hround
  obtain rfl : columnType = .binary := htype
  intro pass
  rw [hround]
  cases hoperation : filter.operation <;>
    simp [hoperation, FilterQueryType.isOrder] at horder <;> simp [filterPass, Verdict.round]

theorem hasVerdict_of_distinguishes (hrow : table.TypedRow row) (hfilter : table.TypedFilter filter)
    (h : table.DistinguishesBinary row filter) :
    ∃ pass, table.HasVerdict row filter (.answer pass) ∧
      (pass = true ↔ ¬table.Holds row filter) := by
  obtain ⟨⟨a, hcell⟩, hoperation⟩ := h
  obtain ⟨columnType, htype, hvalue, hround⟩ := filterRound_of_value hrow hfilter
    (by rw [hcell]; simp) (by rw [hcell]; simp)
  rw [hcell] at htype hround
  obtain rfl : columnType = .binary := htype
  rw [Holds, hcell, hoperation]
  rw [hoperation] at hround
  cases hb : filter.cellValue with
  | binary b =>
    refine ⟨decide (a = b), fun pass => ?_, ?_⟩
    · rw [hround, hb]
      rfl
    · simp [FilterQueryType.Compares]
  | empty => exact absurd hb hfilter.1
  | number i => simp [hb, Cell.HasType] at hvalue
  | string c => simp [hb, Cell.HasType] at hvalue
  | pointer ptr => simp [hb, Cell.HasType] at hvalue

theorem hasVerdict_of_decided (hrow : table.TypedRow row) (hfilter : table.TypedFilter filter)
    (h : table.Decided row filter) :
    ∃ pass, table.HasVerdict row filter (.answer pass) ∧
      (pass = true ↔ table.Holds row filter) := by
  by_cases hempty : table.filterCell row filter = .empty
  · refine ⟨_, filterRound_of_empty hempty, ?_⟩
    rw [Holds, hempty]
    cases filter.operation <;> simp [FilterQueryType.Compares]
  · obtain ⟨hnull, horders, hne⟩ := h
    have hstring : table.filterCell row filter ≠ .string none :=
      fun h => hnull (looksAtNull_iff.mpr h)
    have hbinary : ∀ c, table.filterCell row filter = .binary c →
        filter.operation.isOrder = false ∧ filter.operation ≠ .notEqual := by
      intro c hc
      refine ⟨?_, fun hoperation => hne ⟨⟨c, hc⟩, hoperation⟩⟩
      rw [← Bool.not_eq_true]
      exact fun horder => horders ⟨⟨c, hc⟩, horder⟩
    obtain ⟨columnType, htype, hvalue, hround⟩ := filterRound_of_value hrow hfilter hempty hstring
    have hspec := filterPass_spec htype hempty hstring hvalue hfilter.1 hfilter.2.1 hbinary
    refine ⟨filterPass columnType filter.operation (table.filterCell row filter) filter.cellValue
      true, fun pass => ?_, hspec true⟩
    rw [hround, Verdict.round, Option.some.injEq, Bool.eq_iff_iff, hspec, hspec]

theorem hasVerdict (hrow : table.TypedRow row) (hfilter : table.TypedFilter filter) :
    table.HasVerdict row filter (table.verdict row filter) := by
  rcases filter_kinds table row filter with h | h | h | h
  · have hverdict := hasVerdict_of_null hrow h
    rwa [hverdict.verdict_eq]
  · have hverdict := hasVerdict_of_orders hrow hfilter h
    rwa [hverdict.verdict_eq]
  · obtain ⟨pass, hverdict, -⟩ := hasVerdict_of_distinguishes hrow hfilter h
    rwa [hverdict.verdict_eq]
  · obtain ⟨pass, hverdict, -⟩ := hasVerdict_of_decided hrow hfilter h
    rwa [hverdict.verdict_eq]

theorem queryFilters_eq (hrow : table.TypedRow row) (filters : List (FilterQuery R))
    (hfilters : ∀ f ∈ filters, table.TypedFilter f) (pass : Bool) :
    table.queryFilters row filters pass = decideAll (filters.map (table.verdict row)) pass := by
  induction filters generalizing pass with
  | nil => rfl
  | cons filter filters ih =>
    have hround := hasVerdict hrow (hfilters filter (List.mem_cons_self ..)) pass
    have ih := ih fun f hf => hfilters f (List.mem_cons_of_mem _ hf)
    rw [queryFilters, hround, List.map_cons]
    cases table.verdict row filter with
    | skipped => exact ih pass
    | kept =>
      cases pass with
      | true => exact ih true
      | false => rfl
    | answer answer =>
      cases answer with
      | true => exact ih true
      | false => rfl

/-- The row is in the result although one of the filters does not hold. -/
def WronglyIncluded (table : Table R) (row : Row R) (filters : List (FilterQuery R)) : Prop :=
  (∀ f ∈ filters, table.Decided row f → table.Holds row f) ∧
  (∀ f ∈ filters, table.DistinguishesBinary row f → ¬table.Holds row f) ∧
  (∃ f, filters.find? (fun f => !(table.filterCell row f).isNullString) = some f ∧
    ¬table.OrdersBinary row f) ∧
  ∃ f ∈ filters, table.DistinguishesBinary row f ∨ table.OrdersBinary row f ∨
    (table.LooksAtNull row f ∧ f.operation ≠ .notEmpty)

/-- The row is not in the result although all of the filters hold. -/
def WronglyExcluded (table : Table R) (row : Row R) (filters : List (FilterQuery R)) : Prop :=
  filters ≠ [] ∧ (∀ f ∈ filters, table.Holds row f) ∧
    ((∃ f ∈ filters, table.DistinguishesBinary row f) ∨ ∀ f ∈ filters, table.LooksAtNull row f)

theorem verdict_ne_false_iff (hrow : table.TypedRow row) (hfilter : table.TypedFilter filter) :
    table.verdict row filter ≠ .answer false ↔
      (table.Decided row filter → table.Holds row filter) ∧
        (table.DistinguishesBinary row filter → ¬table.Holds row filter) := by
  rcases filter_kinds table row filter with h | h | h | h
  · rw [(hasVerdict_of_null hrow h).verdict_eq]
    simp only [ne_eq, reduceCtorEq, not_false_iff, true_iff]
    exact ⟨fun hdecided => absurd h hdecided.1, fun hne => absurd h (not_null_of_distinguishes hne)⟩
  · rw [(hasVerdict_of_orders hrow hfilter h).verdict_eq]
    simp only [ne_eq, reduceCtorEq, not_false_iff, true_iff]
    exact ⟨fun hdecided => absurd h hdecided.2.1, fun _ => not_holds_of_orders h⟩
  · obtain ⟨pass, hverdict, hpass⟩ := hasVerdict_of_distinguishes hrow hfilter h
    rw [hverdict.verdict_eq]
    have hne : Verdict.answer pass ≠ .answer false ↔ pass = true := by simp
    rw [hne, hpass]
    exact ⟨fun hnot => ⟨fun hdecided => absurd h hdecided.2.2, fun _ => hnot⟩, fun hboth => hboth.2 h⟩
  · obtain ⟨pass, hverdict, hpass⟩ := hasVerdict_of_decided hrow hfilter h
    rw [hverdict.verdict_eq]
    have hne : Verdict.answer pass ≠ .answer false ↔ pass = true := by simp
    rw [hne, hpass]
    exact ⟨fun hholds => ⟨fun _ => hholds, fun hne => absurd hne h.2.2⟩, fun hboth => hboth.1 h⟩

theorem verdict_eq_skipped_iff (hrow : table.TypedRow row) (hfilter : table.TypedFilter filter) :
    table.verdict row filter = .skipped ↔ table.LooksAtNull row filter := by
  rcases filter_kinds table row filter with h | h | h | h
  · rw [(hasVerdict_of_null hrow h).verdict_eq]
    simp [h]
  · rw [(hasVerdict_of_orders hrow hfilter h).verdict_eq]
    simp [not_null_of_orders h]
  · obtain ⟨pass, hverdict, -⟩ := hasVerdict_of_distinguishes hrow hfilter h
    rw [hverdict.verdict_eq]
    simp [not_null_of_distinguishes h]
  · obtain ⟨pass, hverdict, -⟩ := hasVerdict_of_decided hrow hfilter h
    rw [hverdict.verdict_eq]
    simp [h.1]

theorem verdict_eq_answer_iff (hrow : table.TypedRow row) (hfilter : table.TypedFilter filter) :
    (∃ pass, table.verdict row filter = .answer pass) ↔
      ¬table.LooksAtNull row filter ∧ ¬table.OrdersBinary row filter := by
  rcases filter_kinds table row filter with h | h | h | h
  · rw [(hasVerdict_of_null hrow h).verdict_eq]
    simp [h]
  · rw [(hasVerdict_of_orders hrow hfilter h).verdict_eq]
    simp [h]
  · obtain ⟨pass, hverdict, -⟩ := hasVerdict_of_distinguishes hrow hfilter h
    rw [hverdict.verdict_eq]
    simp [not_null_of_distinguishes h, not_orders_of_distinguishes h]
  · obtain ⟨pass, hverdict, -⟩ := hasVerdict_of_decided hrow hfilter h
    rw [hverdict.verdict_eq]
    simp [h.1, h.2.1]

theorem firstAnswers_iff (hrow : table.TypedRow row) {filters : List (FilterQuery R)}
    (hfilters : ∀ f ∈ filters, table.TypedFilter f) :
    FirstAnswers (filters.map (table.verdict row)) ↔
      ∃ f, filters.find? (fun f => !(table.filterCell row f).isNullString) = some f ∧
        ¬table.OrdersBinary row f := by
  induction filters with
  | nil => simp [FirstAnswers]
  | cons filter filters ih =>
    have hfilter := hfilters filter (List.mem_cons_self ..)
    have ih := ih fun f hf => hfilters f (List.mem_cons_of_mem _ hf)
    by_cases hnull : table.LooksAtNull row filter
    · have hskipped := (verdict_eq_skipped_iff hrow hfilter).mpr hnull
      rw [LooksAtNull] at hnull
      rw [FirstAnswers] at ih ⊢
      simp only [List.map_cons, hskipped, List.find?_cons, hnull]
      simpa using ih
    · have hanswer := verdict_eq_answer_iff hrow hfilter
      have hskipped : table.verdict row filter ≠ .skipped :=
        fun h => hnull ((verdict_eq_skipped_iff hrow hfilter).mp h)
      have hcell : (table.filterCell row filter).isNullString = false := by
        rwa [LooksAtNull, Bool.not_eq_true] at hnull
      rw [FirstAnswers]
      simp only [List.map_cons, List.find?_cons, hcell]
      simpa [hskipped, hnull] using hanswer

theorem answers_iff (hrow : table.TypedRow row) {filters : List (FilterQuery R)}
    (hfilters : ∀ f ∈ filters, table.TypedFilter f) :
    .answer false ∉ filters.map (table.verdict row) ↔
      (∀ f ∈ filters, table.Decided row f → table.Holds row f) ∧
        ∀ f ∈ filters, table.DistinguishesBinary row f → ¬table.Holds row f := by
  constructor
  · intro h
    have hverdict : ∀ f ∈ filters, table.verdict row f ≠ .answer false :=
      fun f hf heq => h (List.mem_map.mpr ⟨f, hf, heq⟩)
    exact ⟨fun f hf => ((verdict_ne_false_iff hrow (hfilters f hf)).mp (hverdict f hf)).1,
      fun f hf => ((verdict_ne_false_iff hrow (hfilters f hf)).mp (hverdict f hf)).2⟩
  · rintro ⟨hdecided, hne⟩ h
    obtain ⟨f, hf, heq⟩ := List.mem_map.mp h
    exact (verdict_ne_false_iff hrow (hfilters f hf)).mpr ⟨hdecided f hf, hne f hf⟩ heq

theorem queryFilters_iff (hrow : table.TypedRow row) (filters : List (FilterQuery R))
    (hfilters : ∀ f ∈ filters, table.TypedFilter f) :
    ((filters = [] ∨ table.queryFilters row filters false = true) ↔
        ∀ f ∈ filters, table.Holds row f) ↔
      ¬table.WronglyIncluded row filters ∧ ¬table.WronglyExcluded row filters := by
  rw [queryFilters_eq hrow filters hfilters, decideAll_false, answers_iff hrow hfilters,
    firstAnswers_iff hrow hfilters, WronglyIncluded, WronglyExcluded]
  by_cases hnil : filters = []
  · rw [hnil]
    simp
  · refine wrong_iff hnil (fun hboth => not_all_hold_iff hboth.1 hboth.2) fun h => ?_
    have hdecided : ∀ f ∈ filters, table.Decided row f → table.Holds row f := fun f hf _ => h f hf
    rw [first_iff_of_all_hold h, distinguishes_iff_of_all_hold h, not_and_or, not_not, not_and_or,
      not_not]
    exact or_congr_left (or_iff_right fun hnot => hnot hdecided)

end QueryRow

end Table

end SLikeNet
