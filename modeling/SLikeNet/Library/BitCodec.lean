import Mathlib.Control.Basic
import SLikeNet.Library.BitCursor

/-! Writes that append to a stream of bits, and reads that give back what was written, wherever it
stands in the stream and whatever stands around it. -/

namespace BitCodec

open BitCursor

/-- Appends to the bits of a stream, or has no result. -/
abbrev Write := List Bool → Option (List Bool)

def append (bits : List Bool) : Write := fun out => some (out ++ bits)

/-- The read gives the value back from where it was written, and ends where the write did. -/
def ReadsBack {α : Type} (write : Write) (read : Access α) (a : α) : Prop :=
  ∀ before, ∃ written, write before = some (before ++ written) ∧
    ∀ c : Cursor, c.readOffset = before.length → c.Ahead written →
      read c = some (a, c.advance written.length)

variable {α β : Type} {write write' : Write}

theorem append_assoc (write₁ write₂ write₃ : Write) :
    (write₁ >=> write₂) >=> write₃ = write₁ >=> (write₂ >=> write₃) :=
  funext fun out => Option.bind_assoc (write₁ out) write₂ write₃

theorem exists_of_then {before out : List Bool} (h : (write >=> write') before = some out) :
    ∃ middle, write before = some middle ∧ write' middle = some out :=
  Option.bind_eq_some_iff.mp h

theorem readsBack_pure (a : α) : ReadsBack some (pure a) a := by
  intro before
  refine ⟨[], by rw [List.append_nil], fun c _ _ => ?_⟩
  rfl

theorem readsBack_append {bits : List Bool} {read : Access α} {a : α}
    (h : ∀ c : Cursor, c.Ahead bits → read c = some (a, c.advance bits.length)) :
    ReadsBack (append bits) read a :=
  fun _ => ⟨bits, rfl, fun c _ hahead => h c hahead⟩

/-- Whoever writes two values in a row reads them in a row. -/
theorem ReadsBack.bind {read : Access α} {read' : α → Access β} {a : α} {b : β}
    (h : ReadsBack write read a) (h' : ReadsBack write' (read' a) b) :
    ReadsBack (write >=> write') (read >>= read') b := by
  intro before
  obtain ⟨written, hwrite, hread⟩ := h before
  obtain ⟨written', hwrite', hread'⟩ := h' (before ++ written)
  refine ⟨written ++ written', ?_, fun c hoffset hahead => ?_⟩
  · show (write before).bind write' = _
    rw [hwrite, ← List.append_assoc]
    exact hwrite'
  · have hoffset' : (c.advance written.length).readOffset = (before ++ written).length := by
      rw [List.length_append, ← hoffset]
      rfl
    rw [bind_of_run (hread c hoffset hahead.left), hread' _ hoffset' hahead.right,
      Cursor.advance_advance, List.length_append]

theorem ReadsBack.map {read : Access α} {a : α} (h : ReadsBack write read a) (f : α → β) :
    ReadsBack write (f <$> read) (f a) := by
  intro before
  obtain ⟨written, hwrite, hread⟩ := h before
  exact ⟨written, hwrite, fun c hoffset hahead => map_of_run f (hread c hoffset hahead)⟩

/-- As `ReadsBack`, for what is written from one offset up to another. -/
def ReadsBackAt {α : Type} (offset next : ℕ) (write : Write) (read : Access α) (a : α) : Prop :=
  ∀ before, before.length = offset → ∃ written, write before = some (before ++ written) ∧
    (before ++ written).length = next ∧
    ∀ c : Cursor, c.readOffset = before.length → c.Ahead written →
      read c = some (a, c.advance written.length)

theorem readsBackAt_pure (offset : ℕ) (a : α) : ReadsBackAt offset offset some (pure a) a := by
  intro before hbefore
  refine ⟨[], by rw [List.append_nil], by rw [List.append_nil, hbefore], fun c _ _ => ?_⟩
  rfl

theorem readsBackAt_append {bits : List Bool} {read : Access α} {a : α} (offset : ℕ)
    (h : ∀ c : Cursor, c.Ahead bits → read c = some (a, c.advance bits.length)) :
    ReadsBackAt offset (offset + bits.length) (append bits) read a := by
  intro before hbefore
  exact ⟨bits, rfl, by rw [List.length_append, hbefore], fun c _ hahead => h c hahead⟩

theorem ReadsBackAt.bind {offset middle next : ℕ} {read : Access α} {read' : α → Access β}
    {a : α} {b : β} (h : ReadsBackAt offset middle write read a)
    (h' : ReadsBackAt middle next write' (read' a) b) :
    ReadsBackAt offset next (write >=> write') (read >>= read') b := by
  intro before hbefore
  obtain ⟨written, hwrite, hmiddle, hread⟩ := h before hbefore
  obtain ⟨written', hwrite', hnext, hread'⟩ := h' (before ++ written) hmiddle
  refine ⟨written ++ written', ?_, by rw [← List.append_assoc, hnext],
    fun c hoffset hahead => ?_⟩
  · show (write before).bind write' = _
    rw [hwrite, ← List.append_assoc]
    exact hwrite'
  · have hoffset' : (c.advance written.length).readOffset = (before ++ written).length := by
      rw [List.length_append, ← hoffset]
      rfl
    rw [bind_of_run (hread c hoffset hahead.left), hread' _ hoffset' hahead.right,
      Cursor.advance_advance, List.length_append]

theorem ReadsBackAt.map {offset next : ℕ} {read : Access α} {a : α}
    (h : ReadsBackAt offset next write read a) (f : α → β) :
    ReadsBackAt offset next write (f <$> read) (f a) := by
  intro before hbefore
  obtain ⟨written, hwrite, hnext, hread⟩ := h before hbefore
  exact ⟨written, hwrite, hnext, fun c hoffset hahead => map_of_run f (hread c hoffset hahead)⟩

/-- The value that is read is returned in another form. -/
theorem ReadsBackAt.bind_pure {offset next : ℕ} {read : Access α} {a : α}
    (h : ReadsBackAt offset next write read a) (f : α → β) :
    ReadsBackAt offset next write (read >>= fun a => pure (f a)) (f a) := by
  intro before hbefore
  obtain ⟨written, hwrite, hnext, hread⟩ := h before hbefore
  exact ⟨written, hwrite, hnext, fun c hoffset hahead => bind_of_run (hread c hoffset hahead)⟩

/-- The read gives the value from where it was written, wherever it ends. -/
def Yields {α : Type} (write : Write) (read : Access α) (a : α) : Prop :=
  ∀ before, ∃ written, write before = some (before ++ written) ∧
    ∀ c : Cursor, c.readOffset = before.length → c.Ahead written → ∃ c', read c = some (a, c')

theorem ReadsBack.yields {read : Access α} {a : α} (h : ReadsBack write read a) :
    Yields write read a := by
  intro before
  obtain ⟨written, hwrite, hread⟩ := h before
  exact ⟨written, hwrite, fun c hoffset hahead => ⟨_, hread c hoffset hahead⟩⟩

theorem ReadsBack.bind_yields {read : Access α} {read' : α → Access β} {a : α} {b : β}
    (h : ReadsBack write read a) (h' : Yields write' (read' a) b) :
    Yields (write >=> write') (read >>= read') b := by
  intro before
  obtain ⟨written, hwrite, hread⟩ := h before
  obtain ⟨written', hwrite', hread'⟩ := h' (before ++ written)
  refine ⟨written ++ written', ?_, fun c hoffset hahead => ?_⟩
  · show (write before).bind write' = _
    rw [hwrite, ← List.append_assoc]
    exact hwrite'
  · have hoffset' : (c.advance written.length).readOffset = (before ++ written).length := by
      rw [List.length_append, ← hoffset]
      rfl
    rw [bind_of_run (hread c hoffset hahead.left)]
    exact hread' _ hoffset' hahead.right

/-- A read that is over after the first value does not look at what is written behind it. -/
theorem Yields.bind_pure {γ : Type} {read : Access α} {read' : α → Access β} {read'' : Access γ}
    {a : α} {b : β} {d : γ} (h : Yields write read a) (hpure : read' a = pure b)
    (h' : Yields write' read'' d) : Yields (write >=> write') (read >>= read') b := by
  intro before
  obtain ⟨written, hwrite, hread⟩ := h before
  obtain ⟨written', hwrite', -⟩ := h' (before ++ written)
  refine ⟨written ++ written', ?_, fun c hoffset hahead => ?_⟩
  · show (write before).bind write' = _
    rw [hwrite, ← List.append_assoc]
    exact hwrite'
  · obtain ⟨c', hc'⟩ := hread c hoffset hahead.left
    refine ⟨c', ?_⟩
    rw [bind_of_run hc', hpure]
    rfl

theorem Yields.map {read : Access α} {a : α} (h : Yields write read a) (f : α → β) :
    Yields write (f <$> read) (f a) := by
  intro before
  obtain ⟨written, hwrite, hread⟩ := h before
  refine ⟨written, hwrite, fun c hoffset hahead => ?_⟩
  obtain ⟨c', hc'⟩ := hread c hoffset hahead
  exact ⟨c', map_of_run f hc'⟩

/-- What was written to an empty stream yields the value from any memory that begins with it. -/
theorem Yields.from_empty {read : Access α} {a : α} (h : Yields write read a) {out : List Bool}
    (hout : write [] = some out) {memory : List UInt8} {numberOfBits : ℕ}
    (hmemory : out <+: bitsOf memory) (hbits : out.length ≤ numberOfBits)
    (hinside : numberOfBits ≤ memory.length * 8) :
    ∃ c, read ⟨memory, numberOfBits, 0⟩ = some (a, c) := by
  obtain ⟨written, hwrite, hread⟩ := h []
  obtain rfl : written = out := Option.some.inj (hwrite.symm.trans hout)
  exact hread _ rfl ⟨hmemory, by rw [Nat.zero_add]; exact hbits, hinside⟩

theorem Yields.exists_out {read : Access α} {a : α} (h : Yields write read a) :
    ∃ out, write [] = some out :=
  (h []).imp fun _ hwritten => hwritten.1

/-- So many bits at most are appended. -/
def Takes (write : Write) (n : ℕ) : Prop :=
  ∀ before out, write before = some out → out.length ≤ before.length + n

theorem takes_some : Takes some 0 := by
  rintro before out ⟨⟩
  exact Nat.le_refl _

theorem takes_append (bits : List Bool) : Takes (append bits) bits.length := by
  rintro before out ⟨⟩
  rw [List.length_append]

theorem Takes.bind {n n' : ℕ} (h : Takes write n) (h' : Takes write' n') :
    Takes (write >=> write') (n + n') := by
  intro before out hout
  obtain ⟨middle, hmiddle, hout⟩ := Option.bind_eq_some_iff.mp hout
  have hfirst := h before middle hmiddle
  have hsecond := h' middle out hout
  omega

/-- What is appended depends on the length of the stream alone. -/
def Uniform (write : Write) : Prop :=
  ∀ before before' : List Bool, before.length = before'.length → ∀ out, write before = some out →
    ∃ written, out = before ++ written ∧ write before' = some (before' ++ written)

theorem uniform_some : Uniform some := by
  rintro before before' - out ⟨⟩
  exact ⟨[], (List.append_nil _).symm, congrArg some (List.append_nil _).symm⟩

theorem uniform_append (bits : List Bool) : Uniform (append bits) := by
  rintro before before' - out ⟨⟩
  exact ⟨bits, rfl, rfl⟩

theorem Uniform.bind (h : Uniform write) (h' : Uniform write') : Uniform (write >=> write') := by
  intro before before' hlength out hout
  obtain ⟨middle, hmiddle, hout⟩ := exists_of_then hout
  obtain ⟨written, rfl, hwritten⟩ := h before before' hlength middle hmiddle
  obtain ⟨written', rfl, hwritten'⟩ := h' _ (before' ++ written)
    (by rw [List.length_append, List.length_append, hlength]) out hout
  refine ⟨written ++ written', List.append_assoc _ _ _, ?_⟩
  show (write before').bind write' = _
  rw [hwritten, ← List.append_assoc]
  exact hwritten'

end BitCodec
