import Mathlib.Data.List.Basic

/-! Queues of messages some of which report a value. A receiver that takes them in order holds the
value that was reported last. -/

namespace LastReport

variable {N M A : Type*}

/-- The messages of a call that go to one node. -/
def sentTo [DecidableEq N] (n : N) (sent : List (N × M)) : List M :=
  sent.filterMap fun m => if m.1 = n then some m.2 else none

section SentTo

variable [DecidableEq N] {n : N}

theorem mem_sentTo {sent : List (N × M)} {m : M} : m ∈ sentTo n sent ↔ (n, m) ∈ sent := by
  rw [sentTo, List.mem_filterMap]
  constructor
  · rintro ⟨⟨n', m'⟩, hmem, hm⟩
    by_cases heq : n' = n
    · rw [if_pos heq] at hm
      rwa [← heq, ← Option.some.inj hm]
    · rw [if_neg heq] at hm
      cases hm
  · exact fun hmem => ⟨_, hmem, if_pos rfl⟩

theorem sentTo_append (n : N) (sent sent' : List (N × M)) :
    sentTo n (sent ++ sent') = sentTo n sent ++ sentTo n sent' := List.filterMap_append

end SentTo

section Last

variable {report : M → Option A}

def last (report : M → Option A) (messages : List M) : Option A :=
  (messages.filterMap report).getLast?

theorem last_append (xs ys : List M) :
    last report (xs ++ ys) = (last report ys).or (last report xs) := by
  rw [last, List.filterMap_append, List.getLast?_append]
  rfl

theorem last_cons (m : M) (messages : List M) :
    last report (m :: messages) = (last report messages).or (report m) := by
  have hone : last report [m] = report m := by
    rw [last]
    cases hm : report m with
    | none => simp [hm]
    | some a => simp [hm]
  rw [← hone]
  exact last_append [m] messages

/-- Where all messages report the same, the last one does. -/
theorem last_same {messages : List M} {a : A} (hall : ∀ m ∈ messages, report m = some a)
    (hne : messages ≠ []) : last report messages = some a := by
  induction messages with
  | nil => exact (hne rfl).elim
  | cons m messages ih =>
    rw [last_cons, hall m List.mem_cons_self]
    by_cases hnil : messages = []
    · rw [hnil]
      rfl
    · rw [ih (fun m' hm' => hall m' (List.mem_cons_of_mem _ hm')) hnil]
      rfl

theorem last_none {messages : List M} (hall : ∀ m ∈ messages, report m = none) :
    last report messages = none := by
  induction messages with
  | nil => rfl
  | cons m messages ih =>
    rw [last_cons, hall m List.mem_cons_self,
      ih fun m' hm' => hall m' (List.mem_cons_of_mem _ hm')]
    rfl

end Last

end LastReport
