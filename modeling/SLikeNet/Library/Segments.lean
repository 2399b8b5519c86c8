import Mathlib.Data.List.Basic

/-! A list cut into segments at a growing list of boundaries. -/

namespace Segments

variable {α : Type*}

/-- Where the segment with index `i` starts: at the boundary before it. -/
def segmentStart (boundaries : List Nat) (i : Nat) : Nat :=
  if i = 0 then 0 else boundaries.getD (i - 1) 0

/-- The elements between the boundary before `i` and the one with index `i`. -/
def segment (xs : List α) (boundaries : List Nat) (i : Nat) : List α :=
  (xs.take (boundaries.getD i 0)).drop (segmentStart boundaries i)

def segments (xs : List α) (boundaries : List Nat) : List (List α) :=
  (List.range boundaries.length).map (segment xs boundaries)

/-- The elements after the last boundary. -/
def openSegment (xs : List α) (boundaries : List Nat) : List α :=
  xs.drop (segmentStart boundaries boundaries.length)

theorem segments_append {xs : List α} {boundaries : List Nat}
    (h : ∀ b ∈ boundaries, b ≤ xs.length) (ys : List α) :
    segments (xs ++ ys) boundaries = segments xs boundaries := by
  apply List.map_congr_left
  intro i hi
  have hb : boundaries.getD i 0 ≤ xs.length := by
    rw [List.getD_eq_getElem?_getD]
    cases hget : boundaries[i]? with
    | none => exact Nat.zero_le _
    | some b => exact h b (List.mem_of_getElem? hget)
  rw [segment, segment, List.take_append_of_le_length hb]

theorem segmentStart_le {xs : List α} {boundaries : List Nat}
    (h : ∀ b ∈ boundaries, b ≤ xs.length) : segmentStart boundaries boundaries.length ≤ xs.length := by
  unfold segmentStart
  split
  · exact Nat.zero_le _
  · rw [List.getD_eq_getElem?_getD]
    cases hget : boundaries[boundaries.length - 1]? with
    | none => exact Nat.zero_le _
    | some b => exact h b (List.mem_of_getElem? hget)

theorem openSegment_append {xs : List α} {boundaries : List Nat}
    (h : ∀ b ∈ boundaries, b ≤ xs.length) (ys : List α) :
    openSegment (xs ++ ys) boundaries = openSegment xs boundaries ++ ys := by
  rw [openSegment, List.drop_append_of_le_length (segmentStart_le h)]
  rfl

theorem segment_concat {xs : List α} {boundaries : List Nat} {b i : Nat}
    (hi : i < boundaries.length) : segment xs (boundaries ++ [b]) i = segment xs boundaries i := by
  have hget : ∀ j < boundaries.length, (boundaries ++ [b]).getD j 0 = boundaries.getD j 0 := by
    intro j hj
    simp only [List.getD_eq_getElem?_getD, List.getElem?_append_left hj]
  rw [segment, segment, hget i hi, segmentStart, segmentStart]
  split
  · rfl
  · rw [hget (i - 1) (by omega)]

/-- Closing the open segment appends it to the segments. -/
theorem segments_close (xs : List α) (boundaries : List Nat) :
    segments xs (boundaries ++ [xs.length]) =
      segments xs boundaries ++ [openSegment xs boundaries] := by
  rw [segments, List.length_append, List.length_singleton, List.range_succ, List.map_append]
  congr 1
  · apply List.map_congr_left
    intro i hi
    exact segment_concat (List.mem_range.mp hi)
  · have hstart : segmentStart (boundaries ++ [xs.length]) boundaries.length =
        segmentStart boundaries boundaries.length := by
      unfold segmentStart
      split
      · rfl
      · rw [List.getD_eq_getElem?_getD, List.getElem?_append_left (by omega),
          ← List.getD_eq_getElem?_getD]
    simp [segment, openSegment, hstart]

theorem openSegment_close (xs : List α) (boundaries : List Nat) :
    openSegment xs (boundaries ++ [xs.length]) = [] := by
  simp [openSegment, segmentStart]

theorem getElem?_segments {xs : List α} {boundaries : List Nat} {i : Nat}
    (h : i < boundaries.length) :
    (segments xs boundaries)[i]? = some (segment xs boundaries i) := by
  simp [segments, h]

end Segments
