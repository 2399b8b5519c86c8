import SLikeNet.ChangedVariables

/-! Variables with their types: what a receiver makes of a stream in which each variable stands
behind its flag. -/

namespace SLikeNet

open VariableListDeltaTracker

/-- A type with its `BitStream` operators, where reading undoes writing. The operators may align
to the bytes of the stream, so they know the offset. -/
structure VariableType where
  Value : Type
  write : Value → ℕ → List Bool
  read : ℕ → List Bool → Option (Value × List Bool)
  read_write : ∀ value offset rest, read offset (write value offset ++ rest) = some (value, rest)

namespace VariableType

def serialization (t : VariableType) (value : t.Value) : Serialization := ⟨t.write value⟩

end VariableType

/-- The values of a list of variables of these types. -/
def Values : List VariableType → Type
  | [] => Unit
  | t :: ts => t.Value × Values ts

namespace Values

def serializations : {ts : List VariableType} → Values ts → List Serialization
  | [], _ => []
  | t :: _, (value, values) => t.serialization value :: serializations values

@[simp] theorem length_serializations {ts : List VariableType} (values : Values ts) :
    values.serializations.length = ts.length := by
  induction ts with
  | nil => rfl
  | cons t ts ih => exact congrArg Nat.succ (ih values.2)

/-- One `DeserializeVariable` for each variable. -/
def deserialize : {ts : List VariableType} → Values ts → ℕ → List Bool → Values ts
  | [], _, _, _ => ()
  | t :: _, (value, values), readOffset, unread =>
    let (value', readOffset', unread') := readVarFromBitstream t.read value readOffset unread
    (value', deserialize values readOffset' unread')

/-- The new values where the flags are set, and the old ones elsewhere. -/
def merge : {ts : List VariableType} → List Bool → Values ts → Values ts → Values ts
  | [], _, _, _ => ()
  | _ :: _, [], _, old => old
  | _ :: _, flag :: flags, (value, values), (old, olds) =>
    (if flag then value else old, merge flags values olds)

theorem deserialize_layout {ts : List VariableType} (flags bitStream : List Bool)
    (hflags : flags.length = ts.length) (values old : Values ts) :
    ∃ written, layout bitStream flags values.serializations = bitStream ++ written ∧
      ∀ rest, old.deserialize bitStream.length (written ++ rest) = merge flags values old := by
  induction ts generalizing flags bitStream with
  | nil =>
    refine ⟨[], ?_, fun rest => rfl⟩
    obtain rfl := List.length_eq_zero_iff.mp hflags
    simp [layout]
  | cons t ts ih =>
    obtain ⟨value, values⟩ := values
    obtain ⟨oldValue, olds⟩ := old
    cases flags with
    | nil => simp at hflags
    | cons flag flags =>
      have hlen : flags.length = ts.length := Nat.succ.inj hflags
      cases flag with
      | false =>
        obtain ⟨written, hlayout, hread⟩ := ih flags (bitStream ++ [false]) hlen values olds
        refine ⟨false :: written, ?_, fun rest => ?_⟩
        · show layout (bitStream ++ [false]) flags values.serializations = _
          simp [hlayout]
        · have hrest := hread rest
          rw [List.length_append, List.length_singleton] at hrest
          exact congrArg (Prod.mk oldValue) hrest
      | true =>
        obtain ⟨written, hlayout, hread⟩ := ih flags
          ((bitStream ++ [true]) ++ t.write value (bitStream.length + 1)) hlen values olds
        refine ⟨true :: (t.write value (bitStream.length + 1) ++ written), ?_, fun rest => ?_⟩
        · show layout (writeFlagged bitStream true (t.serialization value)) flags
            values.serializations = _
          rw [writeFlagged, if_pos rfl, VariableType.serialization, List.length_append,
            List.length_singleton, hlayout]
          simp
        · have hrest := hread rest
          have hoffset : bitStream.length + 1 + ((t.write value (bitStream.length + 1) ++
              (written ++ rest)).length - (written ++ rest).length) =
              ((bitStream ++ [true]) ++ t.write value (bitStream.length + 1)).length := by
            simp only [List.length_append, List.length_singleton]
            omega
          rw [← hoffset] at hrest
          simp only [List.cons_append, List.append_assoc, deserialize, readVarFromBitstream,
            t.read_write]
          exact congrArg (Prod.mk value) hrest

theorem merge_all {ts : List VariableType} (values old : Values ts) :
    merge (List.replicate ts.length true) values old = values := by
  induction ts with
  | nil => rfl
  | cons t ts ih => exact Prod.ext rfl (ih values.2 old.2)

theorem merge_none {ts : List VariableType} {flags : List Bool} (h : flags.any id = false)
    (values old : Values ts) : merge flags values old = old := by
  induction ts generalizing flags with
  | nil => rfl
  | cons t ts ih =>
    cases flags with
    | nil => rfl
    | cons flag flags =>
      simp at h
      obtain ⟨rfl, hrest⟩ := h
      exact Prod.ext rfl (ih (by simpa using hrest) values.2 old.2)

end Values

end SLikeNet
