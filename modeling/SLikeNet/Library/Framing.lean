import Mathlib.Data.List.Basic

/-! Messages in a stream, each behind a header of fixed size with its length. -/

/-- How lengths below a bound are written. -/
structure Framing (β : Type*) where
  headerSize : ℕ
  encode : ℕ → List β
  decode : List β → ℕ
  bound : ℕ
  headerSize_pos : 0 < headerSize
  length_encode : ∀ n, (encode n).length = headerSize
  decode_encode : ∀ n, n < bound → decode (encode n) = n

namespace Framing

variable {β : Type*} (f : Framing β)

def frame (message : List β) : List β := f.encode message.length ++ message

def stream (messages : List (List β)) : List β := messages.flatMap f.frame

/-- A whole frame is at the head, as its header says. -/
def Complete (bytes : List β) : Prop :=
  f.headerSize + f.decode (bytes.take f.headerSize) ≤ bytes.length

instance (bytes : List β) : Decidable (f.Complete bytes) := inferInstanceAs (Decidable (_ ≤ _))

def first (bytes : List β) : List β :=
  (bytes.drop f.headerSize).take (f.decode (bytes.take f.headerSize))

def behind (bytes : List β) : List β :=
  (bytes.drop f.headerSize).drop (f.decode (bytes.take f.headerSize))

/-- The messages at the head, and what is behind them. -/
def extract : ℕ → List β → List (List β) × List β
  | 0, bytes => ([], bytes)
  | fuel + 1, bytes =>
    if f.Complete bytes then
      (f.first bytes :: (extract fuel (f.behind bytes)).1, (extract fuel (f.behind bytes)).2)
    else ([], bytes)

variable {f}

theorem stream_cons (message : List β) (messages : List (List β)) :
    f.stream (message :: messages) = f.frame message ++ f.stream messages := List.flatMap_cons

theorem stream_concat (messages : List (List β)) (message : List β) :
    f.stream (messages ++ [message]) = f.stream messages ++ f.frame message := by
  rw [stream, List.flatMap_append]
  exact congrArg (_ ++ ·) (List.flatMap_singleton _ _)

theorem length_frame (message : List β) :
    (f.frame message).length = f.headerSize + message.length := by
  rw [frame, List.length_append, f.length_encode]

theorem take_frame (message tail : List β) :
    (f.frame message ++ tail).take f.headerSize = f.encode message.length := by
  rw [frame, List.append_assoc, List.take_left' (f.length_encode _)]

theorem drop_frame (message tail : List β) :
    (f.frame message ++ tail).drop f.headerSize = message ++ tail := by
  rw [frame, List.append_assoc, List.drop_left' (f.length_encode _)]

theorem not_complete_nil : ¬f.Complete [] := by
  intro h
  have hpos := f.headerSize_pos
  rw [Complete, List.length_nil] at h
  omega

/-- The first bytes of a stream: they have its first message whole exactly where a whole frame is at
their head. -/
theorem complete_iff {bytes tail message : List β} {messages : List (List β)}
    (hbytes : bytes ++ tail = f.stream (message :: messages)) (hbound : message.length < f.bound) :
    f.Complete bytes ↔ f.headerSize + message.length ≤ bytes.length := by
  rw [stream_cons] at hbytes
  by_cases hheader : f.headerSize ≤ bytes.length
  · have htake : bytes.take f.headerSize = f.encode message.length := by
      rw [← List.take_append_of_le_length hheader, hbytes, take_frame]
    rw [Complete, htake, f.decode_encode _ hbound]
  · rw [Complete]
    omega

/-- Where all of a stream is there and no whole frame is at the head nothing is left of it. -/
theorem eq_nil_of_not_complete {messages : List (List β)}
    (hbound : ∀ message ∈ messages, message.length < f.bound)
    (h : ¬f.Complete (f.stream messages)) : messages = [] := by
  cases messages with
  | nil => rfl
  | cons message messages =>
    have hiff := complete_iff (List.append_nil (f.stream (message :: messages)))
      (hbound message List.mem_cons_self)
    rw [stream_cons, List.length_append, length_frame] at hiff
    exact (h (by rw [stream_cons]; exact hiff.mpr (Nat.le_add_right _ _))).elim

/-- The messages that are extracted are the next ones of the stream. -/
theorem extract_stream {messages : List (List β)}
    (hbound : ∀ message ∈ messages, message.length < f.bound) {bytes tail : List β} {fuel : ℕ}
    (hfuel : bytes.length ≤ fuel) (hbytes : bytes ++ tail = f.stream messages) :
    ∃ rest, messages = (f.extract fuel bytes).1 ++ rest ∧
      (f.extract fuel bytes).2 ++ tail = f.stream rest ∧ ¬f.Complete (f.extract fuel bytes).2 := by
  induction messages generalizing bytes fuel with
  | nil =>
    obtain ⟨rfl, rfl⟩ := List.append_eq_nil_iff.mp hbytes
    have hnil : f.extract fuel [] = ([], []) := by
      cases fuel with
      | zero => rfl
      | succ fuel => rw [extract, if_neg not_complete_nil]
    rw [hnil]
    exact ⟨[], rfl, rfl, not_complete_nil⟩
  | cons message messages ih =>
    have hiff := complete_iff hbytes (hbound message List.mem_cons_self)
    by_cases hcomplete : f.Complete bytes
    · have hlength := hiff.mp hcomplete
      have hpos := f.headerSize_pos
      cases fuel with
      | zero => omega
      | succ fuel =>
        rw [stream_cons] at hbytes
        have htake : bytes.take f.headerSize = f.encode message.length := by
          rw [← List.take_append_of_le_length (by omega), hbytes, take_frame]
        have hdrop : bytes.drop f.headerSize ++ tail = message ++ f.stream messages := by
          rw [← List.drop_append_of_le_length (by omega), hbytes, drop_frame]
        have hmessage : message.length ≤ (bytes.drop f.headerSize).length := by
          rw [List.length_drop]
          omega
        have hfirst : f.first bytes = message := by
          rw [first, htake, f.decode_encode _ (hbound message List.mem_cons_self),
            ← List.take_append_of_le_length hmessage, hdrop, List.take_left]
        have hbehind : f.behind bytes = (bytes.drop f.headerSize).drop message.length := by
          rw [behind, htake, f.decode_encode _ (hbound message List.mem_cons_self)]
        have hrest : f.behind bytes ++ tail = f.stream messages := by
          rw [hbehind, ← List.drop_append_of_le_length hmessage, hdrop, List.drop_left]
        have hlength' : (f.behind bytes).length ≤ fuel := by
          rw [hbehind, List.length_drop, List.length_drop]
          omega
        obtain ⟨rest, hmessages, hbytes', hnot⟩ :=
          ih (fun m hm => hbound m (List.mem_cons_of_mem _ hm)) hlength' hrest
        rw [extract, if_pos hcomplete, hfirst]
        exact ⟨rest, congrArg (message :: ·) hmessages, hbytes', hnot⟩
    · have hnone : f.extract fuel bytes = ([], bytes) := by
        cases fuel with
        | zero => rfl
        | succ fuel => rw [extract, if_neg hcomplete]
      rw [hnone]
      exact ⟨message :: messages, rfl, hbytes, hcomplete⟩

end Framing
