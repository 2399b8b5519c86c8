import SLikeNet.RakString

/-! In every run of `RakString` operations that write only blocks of their own the copies are
independent values, and the references of every block are counted. -/

namespace SLikeNet

namespace RakStrings

/-! ### References -/

variable {s s' s'' : RakStrings} {v : ℕ}

/-- How many variables have the block. -/
def references (s : RakStrings) (b : ℕ) : ℕ := s.sharedString.count (some b)

theorem blockOf_eq_some {b : ℕ} : s.blockOf v = some b ↔ s.sharedString[v]? = some (some b) := by
  rw [blockOf, Option.join_eq_some_iff]

theorem lt_of_blockOf {b : ℕ} (h : s.blockOf v = some b) : v < s.sharedString.length :=
  (List.getElem?_eq_some_iff.mp (blockOf_eq_some.mp h)).1

theorem references_pos {b : ℕ} (h : s.blockOf v = some b) : 0 < s.references b :=
  List.count_pos_iff.mpr (List.mem_of_getElem? (blockOf_eq_some.mp h))

theorem blockOf_setShared (hv : v < s.sharedString.length) (r : Option ℕ) (w : ℕ) :
    (s.setShared v r).blockOf w = if w = v then r else s.blockOf w := by
  unfold blockOf setShared
  by_cases hw : w = v
  · rw [if_pos hw, hw, List.getElem?_set_self hv]
    rfl
  · rw [if_neg hw, List.getElem?_set_ne (Ne.symm hw)]

theorem references_setShared (hv : v < s.sharedString.length) (r : Option ℕ) (b : ℕ) :
    (s.setShared v r).references b + (if s.blockOf v = some b then 1 else 0) =
      s.references b + if r = some b then 1 else 0 := by
  have hget : s.blockOf v = s.sharedString[v] := by
    rw [blockOf, List.getElem?_eq_getElem hv]
    rfl
  have hcount := List.count_set (b := some b) (a := r) hv
  have hpos : s.blockOf v = some b → 0 < s.references b := references_pos
  unfold references at *
  rw [setShared, hcount, hget]
  rw [hget] at hpos
  by_cases hold : s.sharedString[v] = some b
  · have hone := hpos hold
    by_cases hnew : r = some b
    · simp only [hold, hnew, BEq.rfl, if_true]
      omega
    · simp only [hold, hnew, BEq.rfl, if_true, beq_iff_eq, if_false]
      omega
  · by_cases hnew : r = some b
    · simp [hold, hnew]
    · simp [hold, hnew]

/-! ### What every operation keeps -/

structure Sound (s : RakStrings) : Prop where
  counts : ∀ b, 0 < s.references b → (s.block b).refCount = s.references b
  known : ∀ b, 0 < s.references b → b < s.nextBlock
  free : ∀ b, b ∈ s.freeList ↔ b < s.nextBlock ∧ s.references b = 0
  nodup : s.freeList.Nodup
  empty : s.emptyString = []

/-- The variables that satisfy `p` have the blocks and the values that they had. -/
structure Keeps (p : ℕ → Prop) (s s' : RakStrings) : Prop where
  sound : s'.Sound
  blockOf : ∀ w, p w → s'.blockOf w = s.blockOf w
  text : ∀ w, p w → s'.text w = s.text w

variable {p q : ℕ → Prop}

theorem Keeps.refl (h : s.Sound) : Keeps p s s := ⟨h, fun _ _ => rfl, fun _ _ => rfl⟩

theorem Keeps.trans (h : Keeps p s s') (h' : Keeps p s' s'') : Keeps p s s'' where
  sound := h'.sound
  blockOf := fun w hw => (h'.blockOf w hw).trans (h.blockOf w hw)
  text := fun w hw => (h'.text w hw).trans (h.text w hw)

theorem Keeps.mono (h : Keeps p s s') (hp : ∀ w, q w → p w) : Keeps q s s' :=
  ⟨h.sound, fun w hw => h.blockOf w (hp w hw), fun w hw => h.text w (hp w hw)⟩

theorem text_eq_of (hblock : s'.blockOf v = s.blockOf v) (hempty : s'.emptyString = s.emptyString)
    (htext : ∀ b, s.blockOf v = some b → (s'.block b).text = (s.block b).text) :
    s'.text v = s.text v := by
  unfold text
  rw [hblock]
  cases hb : s.blockOf v with
  | none => exact hempty
  | some b => exact htext b hb

theorem references_le (s : RakStrings) (b : ℕ) : s.references b ≤ s.sharedString.length :=
  List.count_le_length

theorem decrement_eq {n : ℕ} (hpos : 0 < n) (hlt : n < 4294967296) : decrement n = n - 1 := by
  unfold decrement
  omega

theorem Sound.free_spec (h : s.Sound) (hlength : s.sharedString.length < 4294967296) (v : ℕ) :
    Keeps (· ≠ v) s (s.free v) ∧ (s.free v).blockOf v = none ∧
      (s.free v).sharedString.length = s.sharedString.length := by
  cases hb : s.blockOf v with
  | none =>
    have heq : s.free v = s := by rw [RakStrings.free, hb]
    rw [heq]
    exact ⟨.refl h, hb, rfl⟩
  | some b =>
    have hv := lt_of_blockOf hb
    have hpos := references_pos hb
    have hle := references_le s b
    have hcount : decrement (s.block b).refCount = s.references b - 1 := by
      rw [h.counts b hpos, decrement_eq hpos (by omega)]
    have heq : s.free v = { s.setShared v none with
        block := Function.update s.block b { s.block b with refCount := s.references b - 1 }
        freeList := if s.references b - 1 = 0 then s.freeList ++ [b] else s.freeList } := by
      rw [RakStrings.free, hb, ← hcount]
      rfl
    have href : ∀ x, (s.free v).references x + (if b = x then 1 else 0) = s.references x := by
      intro x
      have hset := references_setShared hv none x
      simp only [hb, Option.some.injEq, reduceCtorEq, if_false, Nat.add_zero] at hset
      rw [heq]
      exact hset
    have hblock : ∀ w, (s.free v).blockOf w = if w = v then none else s.blockOf w := by
      intro w
      rw [heq]
      exact blockOf_setShared hv none w
    refine ⟨⟨⟨fun x hx => ?_, fun x hx => ?_, fun x => ?_, ?_, ?_⟩, fun w hw => ?_, fun w hw => ?_⟩,
      ?_, ?_⟩
    · have hrefx := href x
      rw [heq]
      by_cases hbx : b = x
      · subst hbx
        rw [if_pos rfl] at hrefx
        show (Function.update s.block b _ b).refCount = _
        rw [Function.update_self]
        show s.references b - 1 = (s.setShared v none).references b
        have hsame : (s.free v).references b = (s.setShared v none).references b := by
          rw [heq]
          rfl
        omega
      · rw [if_neg hbx] at hrefx
        show (Function.update s.block b _ x).refCount = _
        rw [Function.update_of_ne (Ne.symm hbx), h.counts x (by omega)]
        rw [heq] at hrefx
        exact hrefx.symm
    · have hrefx := href x
      have hlt := h.known x (by omega)
      rw [heq]
      exact hlt
    · have hrefx := href x
      have hold := h.free x
      have hnext : (s.free v).nextBlock = s.nextBlock := by
        rw [heq]
        rfl
      have hlist : (s.free v).freeList =
          if s.references b - 1 = 0 then s.freeList ++ [b] else s.freeList := by
        rw [heq]
      rw [hnext, hlist]
      have hknown := h.known b hpos
      by_cases hbx : b = x
      · subst hbx
        rw [if_pos rfl] at hrefx
        split
        · simp only [List.mem_append, List.mem_singleton, or_true, true_iff]
          omega
        · rw [hold]
          omega
      · rw [if_neg hbx] at hrefx
        split
        · rw [List.mem_append, List.mem_singleton, hold]
          have hne : x ≠ b := Ne.symm hbx
          simp only [hne, or_false]
          omega
        · rw [hold]
          omega
    · have hlist : (s.free v).freeList =
          if s.references b - 1 = 0 then s.freeList ++ [b] else s.freeList := by
        rw [heq]
      rw [hlist]
      split
      · rw [List.nodup_append]
        refine ⟨h.nodup, by simp, fun x hx y hy => ?_⟩
        rw [List.mem_singleton.mp hy]
        intro hxb
        rw [hxb, h.free b] at hx
        omega
      · exact h.nodup
    · rw [heq]
      exact h.empty
    · rw [hblock, if_neg hw]
    · refine text_eq_of (by rw [hblock, if_neg hw]) (by rw [heq]; rfl) fun x _ => ?_
      rw [heq]
      show (Function.update s.block b _ x).text = _
      by_cases hxb : x = b
      · rw [hxb, Function.update_self]
      · rw [Function.update_of_ne hxb]
    · rw [hblock, if_pos rfl]
    · rw [heq]
      exact List.length_set

theorem Sole.references (hsole : s.Sole v) {b : ℕ} (hb : s.blockOf v = some b) :
    s.references b = 1 := hsole b hb

theorem Sole.blockOf_ne (hsole : s.Sole v) {b w : ℕ} (hb : s.blockOf v = some b) (hw : w ≠ v) :
    s.blockOf w ≠ some b := by
  intro hbw
  have hv := lt_of_blockOf hb
  have hone := hsole.references hb
  have hset := references_setShared hv none b
  have hpos : 0 < (s.setShared v none).references b := by
    refine references_pos (v := w) ?_
    rw [blockOf_setShared hv, if_neg hw]
    exact hbw
  simp only [hb, if_true, reduceCtorEq, if_false] at hset
  omega

theorem refill_ne_nil (s : RakStrings) : s.refill.freeList ≠ [] := by
  unfold refill
  split
  · simp
  · assumption

theorem exists_last (s : RakStrings) : ∃ b, s.refill.freeList.getLast? = some b :=
  ⟨_, List.getLast?_eq_some_getLast (refill_ne_nil s)⟩

theorem allocate_eq {b : ℕ} {text : List UInt8} (hlast : s.refill.freeList.getLast? = some b) :
    s.allocate v text = { s.refill.setBlock b ⟨1, text⟩ with
      sharedString := s.sharedString.set v (some b)
      freeList := s.refill.freeList.dropLast } := by
  rw [allocate, hlast]

theorem Sound.refill (h : s.Sound) : s.refill.Sound ∧ s.refill.freeList ≠ [] ∧
    s.refill.sharedString = s.sharedString ∧ s.refill.block = s.block := by
  by_cases hfree : s.freeList = []
  · have heq : s.refill = { s with
        freeList := List.range' s.nextBlock 128
        nextBlock := s.nextBlock + 128 } := by
      rw [RakStrings.refill, if_pos hfree]
    rw [heq]
    refine ⟨⟨h.counts, fun b hb => ?_, fun b => ?_, List.nodup_range', h.empty⟩, by simp, rfl, rfl⟩
    · exact Nat.lt_add_right 128 (h.known b hb)
    · have hold := h.free b
      have hknown := h.known b
      rw [hfree] at hold
      show b ∈ List.range' s.nextBlock 128 ↔ b < s.nextBlock + 128 ∧ s.references b = 0
      rw [List.mem_range'_1]
      simp only [List.not_mem_nil, false_iff] at hold
      omega
  · have heq : s.refill = s := by rw [RakStrings.refill, if_neg hfree]
    rw [heq]
    exact ⟨h, hfree, rfl, rfl⟩

theorem Sound.allocate_spec (h : s.Sound) (hv : v < s.sharedString.length)
    (hnone : s.blockOf v = none) (text : List UInt8) :
    Keeps (· ≠ v) s (s.allocate v text) ∧ (s.allocate v text).Sole v ∧
      (s.allocate v text).text v = text ∧ (s.allocate v text).blockOf v ≠ none ∧
      (s.allocate v text).sharedString.length = s.sharedString.length := by
  obtain ⟨hrefill, hne, hshared, hblocks⟩ := h.refill
  obtain ⟨free, b, hlist⟩ := (List.eq_nil_or_concat s.refill.freeList).resolve_left hne
  rw [List.concat_eq_append] at hlist
  have heq : s.allocate v text = { s.refill with
      sharedString := s.sharedString.set v (some b)
      block := Function.update s.refill.block b ⟨1, text⟩
      freeList := free } := by
    rw [RakStrings.allocate, hlist, List.getLast?_concat, List.dropLast_concat]
    rfl
  have hsame : ∀ x, s.refill.references x = s.references x := by
    intro x
    rw [references, hshared]
    rfl
  have hfree : ∀ x, x ∈ free ∨ x = b ↔ x < s.refill.nextBlock ∧ s.references x = 0 := by
    intro x
    have hmem := hrefill.free x
    rw [hlist, List.mem_append, List.mem_singleton, hsame] at hmem
    exact hmem
  have hnodup := hrefill.nodup
  rw [hlist, List.nodup_append] at hnodup
  have hnotMem : b ∉ free := fun hb => hnodup.2.2 b hb b (List.mem_singleton_self b) rfl
  have href : ∀ x, (s.allocate v text).references x =
      s.references x + if b = x then 1 else 0 := by
    intro x
    have hset := references_setShared hv (some b) x
    simp only [hnone, reduceCtorEq, if_false, Nat.add_zero, Option.some.injEq] at hset
    rw [heq]
    exact hset
  have hblock : ∀ w, (s.allocate v text).blockOf w = if w = v then some b else s.blockOf w := by
    intro w
    rw [heq]
    exact blockOf_setShared hv (some b) w
  have hnext : (s.allocate v text).nextBlock = s.refill.nextBlock := by
    rw [heq]
  have hvalue : ∀ x, (s.allocate v text).block x = if x = b then ⟨1, text⟩ else s.block x := by
    intro x
    rw [heq]
    show Function.update s.refill.block b _ x = _
    rw [hblocks, Function.update_apply]
  have hzero : s.references b = 0 := ((hfree b).mp (Or.inr rfl)).2
  refine ⟨⟨⟨fun x hx => ?_, fun x hx => ?_, fun x => ?_, ?_, ?_⟩, fun w hw => ?_, fun w hw => ?_⟩,
    fun x hx => ?_, ?_, ?_, ?_⟩
  · have hrefx := href x
    rw [hvalue]
    by_cases hxb : x = b
    · rw [if_pos hxb]
      rw [if_pos hxb.symm, hxb, hzero] at hrefx
      rw [hxb]
      exact hrefx.symm
    · rw [if_neg hxb]
      rw [if_neg (Ne.symm hxb)] at hrefx
      rw [h.counts x (by omega)]
      exact hrefx.symm
  · have hrefx := href x
    rw [hnext]
    by_cases hxb : x = b
    · rw [hxb]
      exact ((hfree b).mp (Or.inr rfl)).1
    · rw [if_neg (Ne.symm hxb)] at hrefx
      exact hrefill.known x (by rw [hsame]; omega)
  · have hrefx := href x
    have hold := hfree x
    have hfreeList : (s.allocate v text).freeList = free := by rw [heq]
    rw [hfreeList, hnext]
    by_cases hxb : x = b
    · rw [if_pos hxb.symm] at hrefx
      subst hxb
      simp only [hnotMem, false_iff]
      omega
    · rw [if_neg (Ne.symm hxb), Nat.add_zero] at hrefx
      simp only [hxb, or_false] at hold
      rw [hold, hrefx]
  · rw [heq]
    exact hnodup.1
  · rw [heq]
    exact hrefill.empty
  · rw [hblock, if_neg hw]
  · refine text_eq_of (by rw [hblock, if_neg hw]) ?_ fun x hx => ?_
    · rw [heq]
      exact hrefill.empty.trans h.empty.symm
    · have hpos := references_pos hx
      rw [hvalue, if_neg]
      intro hxb
      rw [hxb] at hpos
      omega
  · rw [hblock, if_pos rfl] at hx
    cases hx
    have hrefb := href b
    rw [if_pos rfl, hzero] at hrefb
    exact hrefb
  · unfold RakStrings.text
    rw [hblock, if_pos rfl]
    show ((s.allocate v text).block b).text = text
    rw [hvalue, if_pos rfl]
  · rw [hblock, if_pos rfl]
    simp
  · rw [heq]
    exact List.length_set

theorem Sound.assignText_spec (h : s.Sound) (hv : v < s.sharedString.length)
    (hnone : s.blockOf v = none) (text : List UInt8) :
    Keeps (· ≠ v) s (s.assignText v text) ∧ (s.assignText v text).text v = text ∧
      (s.assignText v text).sharedString.length = s.sharedString.length ∧
      (text ≠ [] → (s.assignText v text).Sole v ∧ (s.assignText v text).blockOf v ≠ none) := by
  by_cases htext : text = []
  · have hsame : s.sharedString.set v none = s.sharedString := by
      have hget : s.sharedString[v] = none := by
        rw [blockOf, List.getElem?_eq_getElem hv] at hnone
        exact hnone
      rw [← hget, List.set_getElem_self]
    have heq : s.assignText v text = s := by
      rw [assignText, if_pos htext, setShared, hsame]
    rw [heq, htext]
    refine ⟨.refl h, ?_, rfl, fun hne => absurd rfl hne⟩
    unfold RakStrings.text
    rw [hnone]
    exact h.empty
  · have heq : s.assignText v text = s.allocate v text := by rw [assignText, if_neg htext]
    obtain ⟨hkeeps, hsole, hvalue, hblock, hlength⟩ := h.allocate_spec hv hnone text
    rw [heq]
    exact ⟨hkeeps, hvalue, hlength, fun _ => ⟨hsole, hblock⟩⟩

theorem Sound.writeText_spec (h : s.Sound) (hblock : s.blockOf v ≠ none) (hsole : s.Sole v)
    (text : List UInt8) :
    Keeps (· ≠ v) s (s.writeText v text) ∧ (s.writeText v text).Sole v ∧
      (s.writeText v text).blockOf v ≠ none ∧ (s.writeText v text).text v = text ∧
      (s.writeText v text).sharedString.length = s.sharedString.length := by
  obtain ⟨b, hb⟩ := Option.ne_none_iff_exists'.mp hblock
  have heq : s.writeText v text = s.setBlock b { s.block b with text := text } := by
    rw [writeText, hb]
  have hvalue : ∀ x, (s.writeText v text).block x =
      if x = b then { s.block b with text := text } else s.block x := by
    intro x
    rw [heq]
    exact Function.update_apply _ _ _ _
  have hcount : ∀ x, ((s.writeText v text).block x).refCount = (s.block x).refCount := by
    intro x
    rw [hvalue]
    split
    · rename_i hxb
      rw [hxb]
    · rfl
  have hblocks : ∀ w, (s.writeText v text).blockOf w = s.blockOf w := by
    intro w
    rw [heq]
    rfl
  have href : ∀ x, (s.writeText v text).references x = s.references x := by
    intro x
    rw [heq]
    rfl
  refine ⟨⟨⟨fun x hx => ?_, fun x hx => ?_, fun x => ?_, ?_, ?_⟩, fun w _ => hblocks w,
    fun w hw => ?_⟩, fun x hx => ?_, ?_, ?_, ?_⟩
  · rw [hcount, href]
    exact h.counts x (by rw [← href]; exact hx)
  · rw [heq]
    exact h.known x (by rw [← href]; exact hx)
  · rw [href, heq]
    exact h.free x
  · rw [heq]
    exact h.nodup
  · rw [heq]
    exact h.empty
  · refine text_eq_of (hblocks w) (by rw [heq]; rfl) fun x hx => ?_
    rw [hvalue, if_neg]
    intro hxb
    rw [hxb] at hx
    exact hsole.blockOf_ne hb hw hx
  · rw [hblocks] at hx
    rw [← hsole x hx]
    exact href x
  · rw [hblocks]
    exact hblock
  · unfold RakStrings.text
    rw [hblocks, hb]
    show ((s.writeText v text).block b).text = text
    rw [hvalue, if_pos rfl]
  · rw [heq]
    rfl

theorem clone_eq {b : ℕ} (hb : s.blockOf v = some b) (hcount : (s.block b).refCount ≠ 1)
    (hzero : decrement (s.block b).refCount ≠ 0) :
    s.clone v = (s.free v).assignText v (s.text v) := by
  have htext : s.text v = (s.block b).text := by
    rw [text, hb]
  have hfree : s.free v = (s.setBlock b { s.block b with
      refCount := decrement (s.block b).refCount }).setShared v none := by
    rw [free, hb]
    show RakStrings.mk _ _ _ _ _ = _
    rw [if_neg hzero]
    rfl
  rw [clone, hb, htext, hfree]
  show (if (s.block b).refCount = 1 then s else _) = _
  rw [if_neg hcount, assignText, assignText]
  split
  · unfold setShared
    rw [List.set_set]
  · have hrefill : ∀ t : RakStrings, (t.setShared v none).refill = t.refill.setShared v none := by
      intro t
      unfold refill
      by_cases hfree : t.freeList = []
      · rw [if_pos hfree, if_pos (show (t.setShared v none).freeList = [] from hfree)]
        rfl
      · rw [if_neg hfree, if_neg (show (t.setShared v none).freeList ≠ [] from hfree)]
    obtain ⟨c, hlast⟩ := exists_last (s.setBlock b { s.block b with
      refCount := decrement (s.block b).refCount })
    have hlast' := hlast
    rw [show List.getLast? _ = List.getLast? (refill ((s.setBlock b { s.block b with
      refCount := decrement (s.block b).refCount }).setShared v none)).freeList by
        rw [hrefill]; rfl] at hlast'
    rw [allocate_eq hlast, allocate_eq hlast', hrefill]
    unfold setShared
    rw [List.set_set]
    rfl

theorem Sound.clone_spec (h : s.Sound) (hlength : s.sharedString.length < 4294967296)
    (hblock : s.blockOf v ≠ none) (hcopy : s.text v ≠ [] ∨ s.Sole v) :
    Keeps (· ≠ v) s (s.clone v) ∧ (s.clone v).Sole v ∧ (s.clone v).blockOf v ≠ none ∧
      (s.clone v).text v = s.text v ∧
      (s.clone v).sharedString.length = s.sharedString.length := by
  obtain ⟨b, hb⟩ := Option.ne_none_iff_exists'.mp hblock
  have hv := lt_of_blockOf hb
  have hpos := references_pos hb
  have hle := references_le s b
  have hcounts := h.counts b hpos
  by_cases hone : s.references b = 1
  · have heq : s.clone v = s := by
      rw [clone, hb]
      exact if_pos (hcounts.trans hone)
    rw [heq]
    refine ⟨.refl h, fun x hx => ?_, hblock, rfl, rfl⟩
    rw [hb] at hx
    cases hx
    exact hone
  · have hdecrement : decrement (s.block b).refCount ≠ 0 := by
      rw [hcounts, decrement_eq hpos (by omega)]
      omega
    have htext : s.text v ≠ [] := by
      rcases hcopy with htext | hsole
      · exact htext
      · exact absurd (hsole.references hb) hone
    obtain ⟨hfree, hnone, hlengthFree⟩ := h.free_spec hlength v
    obtain ⟨hassign, hvalue, hlengthAssign, hown⟩ :=
      hfree.sound.assignText_spec (by rw [hlengthFree]; exact hv) hnone (s.text v)
    rw [clone_eq hb (by rw [hcounts]; exact hone) hdecrement]
    exact ⟨hfree.trans hassign, (hown htext).1, (hown htext).2, hvalue,
      hlengthAssign.trans hlengthFree⟩

theorem Sound.share_spec (h : s.Sound) (hlength : s.sharedString.length < 4294967296)
    (hv : v < s.sharedString.length) (hnone : s.blockOf v = none) (rhs : ℕ) :
    Keeps (· ≠ v) s (s.share v rhs) ∧ (s.share v rhs).blockOf v = s.blockOf rhs ∧
      (s.share v rhs).text v = s.text rhs ∧
      (s.share v rhs).sharedString.length = s.sharedString.length := by
  cases hb : s.blockOf rhs with
  | none =>
    have heq : s.share v rhs = s := by rw [share, hb]
    rw [heq]
    refine ⟨.refl h, hnone, ?_, rfl⟩
    rw [text, text, hnone, hb]
  | some b =>
    have hpos := references_pos hb
    have hcounts := h.counts b hpos
    have href : ∀ x, (s.setShared v (some b)).references x =
        s.references x + if b = x then 1 else 0 := by
      intro x
      have hset := references_setShared hv (some b) x
      simp only [hnone, reduceCtorEq, if_false, Nat.add_zero, Option.some.injEq] at hset
      exact hset
    have hroom : s.references b + 1 < 4294967296 := by
      have hle := references_le (s.setShared v (some b)) b
      have hsize : (s.setShared v (some b)).sharedString.length = s.sharedString.length :=
        List.length_set
      rw [href, if_pos rfl, hsize] at hle
      omega
    have heq : s.share v rhs = (s.setBlock b { s.block b with
        refCount := s.references b + 1 }).setShared v (some b) := by
      rw [share, hb]
      show (if (s.block b).refCount = 0 then _ else _) = _
      have hmod : (s.references b + 1) % 4294967296 = s.references b + 1 := Nat.mod_eq_of_lt hroom
      rw [if_neg (by omega), hcounts, hmod]
    have hvalue : ∀ x, (s.share v rhs).block x =
        if x = b then { s.block b with refCount := s.references b + 1 } else s.block x := by
      intro x
      rw [heq]
      exact Function.update_apply _ _ _ _
    have hblock : ∀ w, (s.share v rhs).blockOf w = if w = v then some b else s.blockOf w := by
      intro w
      rw [heq]
      exact blockOf_setShared hv (some b) w
    have hrefs : ∀ x, (s.share v rhs).references x =
        s.references x + if b = x then 1 else 0 := by
      intro x
      rw [heq]
      exact href x
    have htext : ∀ x, ((s.share v rhs).block x).text = (s.block x).text := by
      intro x
      rw [hvalue]
      split
      · rename_i hxb
        rw [hxb]
      · rfl
    refine ⟨⟨⟨fun x hx => ?_, fun x hx => ?_, fun x => ?_, ?_, ?_⟩, fun w hw => ?_,
      fun w hw => ?_⟩, ?_, ?_, ?_⟩
    · have hrefx := hrefs x
      rw [hvalue]
      by_cases hxb : x = b
      · rw [if_pos hxb, hrefx, if_pos hxb.symm, hxb]
      · rw [if_neg hxb, hrefx, if_neg (Ne.symm hxb)]
        rw [hrefx, if_neg (Ne.symm hxb)] at hx
        exact h.counts x hx
    · have hrefx := hrefs x
      have hlt : x < s.nextBlock := by
        by_cases hxb : x = b
        · rw [hxb]
          exact h.known b hpos
        · rw [if_neg (Ne.symm hxb)] at hrefx
          exact h.known x (by omega)
      rw [heq]
      exact hlt
    · have hrefx := hrefs x
      have hold := h.free x
      have hlists : x ∈ (s.share v rhs).freeList ↔ x ∈ s.freeList := by rw [heq]; rfl
      have hnext : (s.share v rhs).nextBlock = s.nextBlock := by rw [heq]; rfl
      rw [hlists, hold, hnext, hrefx]
      by_cases hxb : b = x
      · subst hxb
        rw [if_pos rfl]
        omega
      · rw [if_neg hxb, Nat.add_zero]
    · rw [heq]
      exact h.nodup
    · rw [heq]
      exact h.empty
    · rw [hblock, if_neg hw]
    · exact text_eq_of (by rw [hblock, if_neg hw]) (by rw [heq]; rfl) fun x _ => htext x
    · rw [hblock, if_pos rfl]
    · unfold RakStrings.text
      rw [hblock, if_pos rfl, hb]
      exact htext b
    · rw [heq]
      exact List.length_set

/-! ### Variables that come and go -/

theorem blockOf_length (s : RakStrings) {n : ℕ} (hn : s.sharedString.length ≤ n) :
    s.blockOf n = none := by
  rw [blockOf, List.getElem?_eq_none hn]
  rfl

theorem blockOf_construct (s : RakStrings) (w : ℕ) : s.construct.blockOf w = s.blockOf w := by
  unfold blockOf construct
  rcases Nat.lt_trichotomy w s.sharedString.length with hlt | heq | hgt
  · rw [List.getElem?_append_left hlt]
  · rw [heq, List.getElem?_concat_length, List.getElem?_eq_none (Nat.le_refl _)]
    rfl
  · rw [List.getElem?_eq_none (by simp; omega), List.getElem?_eq_none (by omega)]

theorem references_construct (s : RakStrings) (b : ℕ) :
    s.construct.references b = s.references b := by
  unfold references construct
  rw [List.count_append]
  simp

theorem Sound.construct_spec (h : s.Sound) : Keeps (fun _ => True) s s.construct ∧
    s.construct.sharedString.length = s.sharedString.length + 1 := by
  refine ⟨⟨⟨fun b hb => ?_, fun b hb => ?_, fun b => ?_, h.nodup, h.empty⟩,
    fun w _ => blockOf_construct s w, fun w _ => ?_⟩, by simp [construct]⟩
  · rw [references_construct] at hb ⊢
    exact h.counts b hb
  · rw [references_construct] at hb
    exact h.known b hb
  · rw [references_construct]
    exact h.free b
  · exact text_eq_of (blockOf_construct s w) rfl fun b _ => rfl

theorem Sound.destroyLast_spec (h : s.Sound) {n : ℕ} (hn : s.sharedString.length = n + 1)
    (hlength : n + 1 < 4294967296) : Keeps (· ≠ n) s s.destroyLast ∧
      s.destroyLast.sharedString.length = n := by
  obtain ⟨hfree, hnone, hsize⟩ := h.free_spec (by omega) n
  have heq : s.destroyLast =
      { s.free n with sharedString := (s.free n).sharedString.dropLast } := by
    rw [destroyLast, hn, Nat.add_sub_cancel]
  have hlast : (s.free n).sharedString = s.destroyLast.sharedString ++ [none] := by
    have hlt : n < (s.free n).sharedString.length := by omega
    have hget : (s.free n).sharedString[n]? = some none := by
      rw [List.getElem?_eq_getElem hlt]
      rw [blockOf, List.getElem?_eq_getElem hlt] at hnone
      exact congrArg some hnone
    have hdrop : (s.free n).sharedString.getLast? = some none := by
      rw [List.getLast?_eq_getElem?, hsize, hn, Nat.add_sub_cancel]
      exact hget
    obtain ⟨rest, hrest⟩ := List.getLast?_eq_some_iff.mp hdrop
    rw [heq, hrest, List.dropLast_concat]
  have hcon : s.free n = s.destroyLast.construct := by
    rw [construct, ← hlast, heq]
  have hblock : ∀ w, s.destroyLast.blockOf w = (s.free n).blockOf w := by
    intro w
    rw [hcon, blockOf_construct]
  have href : ∀ b, s.destroyLast.references b = (s.free n).references b := by
    intro b
    rw [hcon, references_construct]
  have hkeeps : Keeps (· ≠ n) (s.free n) s.destroyLast := by
    have hsound := hfree.sound
    refine ⟨⟨fun b hb => ?_, fun b hb => ?_, fun b => ?_, ?_, ?_⟩, fun w _ => hblock w,
      fun w _ => text_eq_of (hblock w) (by rw [heq]) fun b _ => by rw [heq]⟩
    · rw [href] at hb ⊢
      rw [heq]
      exact hsound.counts b hb
    · rw [href] at hb
      rw [heq]
      exact hsound.known b hb
    · rw [href, heq]
      exact hsound.free b
    · rw [heq]
      exact hsound.nodup
    · rw [heq]
      exact hsound.empty
  refine ⟨hfree.trans hkeeps, ?_⟩
  have hsizes := congrArg List.length hlast
  rw [List.length_append, List.length_singleton] at hsizes
  omega

/-! ### Operations -/

theorem Sound.copy_spec (h : s.Sound) {n : ℕ} (hn : s.sharedString.length = n)
    (hlength : n + 1 < 4294967296) (rhs : ℕ) : Keeps (· ≠ n) s (s.copy rhs) ∧
      (s.copy rhs).blockOf n = s.blockOf rhs ∧ (s.copy rhs).text n = s.text rhs ∧
      (s.copy rhs).sharedString.length = n + 1 := by
  obtain ⟨hnew, hsize⟩ := h.construct_spec
  have hnone : s.construct.blockOf n = none := by
    rw [blockOf_construct, blockOf_length s (by omega)]
  obtain ⟨hshare, hblock, htext, hlast⟩ :=
    hnew.sound.share_spec (by omega) (by omega : n < s.construct.sharedString.length) hnone rhs
  rw [copy, hn]
  refine ⟨(hnew.mono fun _ _ => trivial).trans hshare, ?_, ?_, by omega⟩
  · rw [hblock, hnew.blockOf rhs trivial]
  · rw [htext, hnew.text rhs trivial]

theorem Sound.assignCopy_spec (h : s.Sound) (hlength : s.sharedString.length < 4294967296)
    (hv : v < s.sharedString.length) (rhs : ℕ) : Keeps (· ≠ v) s (s.assignCopy v rhs) ∧
      (s.assignCopy v rhs).sharedString.length = s.sharedString.length ∧
      (rhs ≠ v → (s.assignCopy v rhs).blockOf v = s.blockOf rhs ∧
        (s.assignCopy v rhs).text v = s.text rhs) := by
  obtain ⟨hfree, hnone, hsize⟩ := h.free_spec hlength v
  obtain ⟨hshare, hblock, htext, hlast⟩ :=
    hfree.sound.share_spec (by omega) (by omega : v < (s.free v).sharedString.length) hnone rhs
  rw [assignCopy]
  refine ⟨hfree.trans hshare, by omega, fun hne => ⟨?_, ?_⟩⟩
  · rw [hblock, hfree.blockOf rhs hne]
  · rw [htext, hfree.text rhs hne]

theorem Sound.assignString_spec (h : s.Sound) (hlength : s.sharedString.length < 4294967296)
    (hv : v < s.sharedString.length) (str : List UInt8) :
    Keeps (· ≠ v) s (s.assignString v str) := by
  obtain ⟨hfree, hnone, hsize⟩ := h.free_spec hlength v
  exact hfree.trans (hfree.sound.assignText_spec (by omega) hnone (upToNul str)).1

theorem Sound.cloneWrite_spec (h : s.Sound) (hlength : s.sharedString.length < 4294967296)
    (hblock : s.blockOf v ≠ none) (hcopy : s.text v ≠ [] ∨ s.Sole v) (text : List UInt8) :
    Keeps (· ≠ v) s ((s.clone v).writeText v text) ∧ ((s.clone v).writeText v text).Sole v ∧
      ((s.clone v).writeText v text).sharedString.length = s.sharedString.length := by
  obtain ⟨hclone, hsole, hown, -, hsize⟩ := h.clone_spec hlength hblock hcopy
  obtain ⟨hwrite, hsole', -, -, hsize'⟩ := hclone.sound.writeText_spec hown hsole text
  exact ⟨hclone.trans hwrite, hsole', hsize'.trans hsize⟩

theorem Sound.blockOf_ne_none (h : s.Sound) (htext : s.text v ≠ []) : s.blockOf v ≠ none := by
  intro hnone
  rw [text, hnone] at htext
  exact htext h.empty

theorem isEmpty_iff : s.isEmpty v = true ↔ s.blockOf v = none := Option.isNone_iff_eq_none

theorem Writable.resolve (hwritable : s.Writable v) (hblock : s.blockOf v ≠ none) :
    s.text v ≠ [] ∨ s.Sole v := hwritable.resolve_left hblock

theorem Sound.append_spec (h : s.Sound) (hlength : s.sharedString.length < 4294967296)
    (hv : v < s.sharedString.length) {rhs : ℕ}
    (hhandled : s.blockOf rhs = none ∨ v ≠ rhs ∧ s.Writable v) :
    Keeps (· ≠ v) s (s.append v rhs) ∧
      (s.append v rhs).sharedString.length = s.sharedString.length ∧
      (s.Writable v → s.blockOf v ≠ none ∨ s.text rhs ≠ [] ∨ s.blockOf rhs = none →
        (s.append v rhs).Writable v) := by
  by_cases hrhs : s.blockOf rhs = none
  · have heq : s.append v rhs = s := by rw [append, if_pos (isEmpty_iff.mpr hrhs)]
    rw [heq]
    exact ⟨.refl h, rfl, fun hwritable _ => hwritable⟩
  obtain ⟨hne, hwritable⟩ := hhandled.resolve_left hrhs
  have hrhsEmpty : ¬ s.isEmpty rhs = true := fun he => hrhs (isEmpty_iff.mp he)
  by_cases hblock : s.blockOf v = none
  · have heq : s.append v rhs = s.assignCopy v rhs := by
      rw [append, if_neg hrhsEmpty, if_pos (isEmpty_iff.mpr hblock)]
    obtain ⟨hkeeps, hsize, hvalue⟩ := h.assignCopy_spec hlength hv rhs
    rw [heq]
    refine ⟨hkeeps, hsize, fun _ hcases => ?_⟩
    have htext := (hvalue hne.symm).2
    rcases hcases with hsome | htextRhs | hnone
    · exact absurd hblock hsome
    · exact Or.inr (Or.inl (by rw [htext]; exact htextRhs))
    · exact absurd hnone hrhs
  · have heq : s.append v rhs =
        (s.clone v).writeText v ((s.clone v).text v ++ (s.clone v).text rhs) := by
      rw [append, if_neg hrhsEmpty, if_neg fun he => hblock (isEmpty_iff.mp he)]
    obtain ⟨hkeeps, hsole, hsize⟩ := h.cloneWrite_spec hlength hblock (hwritable.resolve hblock)
      ((s.clone v).text v ++ (s.clone v).text rhs)
    rw [heq]
    exact ⟨hkeeps, hsize, fun _ _ => Or.inr (Or.inr hsole)⟩

theorem Sound.appendString_keeps (h : s.Sound) (hlength : s.sharedString.length < 4294967296)
    (hv : v < s.sharedString.length) {str : List UInt8}
    (hhandled : upToNul str = [] ∨ s.Writable v) : Keeps (· ≠ v) s (s.appendString v str) := by
  rw [appendString]
  split
  · exact .refl h
  · rename_i hstr
    have hwritable := hhandled.resolve_left hstr
    split
    · rename_i hempty
      exact (h.assignText_spec hv (isEmpty_iff.mp hempty) (upToNul str)).1
    · rename_i hempty
      have hblock : s.blockOf v ≠ none := fun hnone => hempty (isEmpty_iff.mpr hnone)
      exact (h.cloneWrite_spec hlength hblock (hwritable.resolve hblock) _).1

theorem Sound.appendBytes_keeps (h : s.Sound) (hlength : s.sharedString.length < 4294967296)
    (hv : v < s.sharedString.length) {bytes : List UInt8} (hhandled : s.Writable v) :
    Keeps (· ≠ v) s (s.appendBytes v bytes) := by
  rw [appendBytes]
  split
  · rename_i hempty
    exact (h.allocate_spec hv (isEmpty_iff.mp hempty) (upToNul bytes)).1
  · rename_i hempty
    have hblock : s.blockOf v ≠ none := fun hnone => hempty (isEmpty_iff.mpr hnone)
    exact (h.cloneWrite_spec hlength hblock (hhandled.resolve hblock) _).1

theorem Sound.subStr_spec (h : s.Sound) {n : ℕ} (hn : s.sharedString.length = n)
    (v index count : ℕ) : Keeps (· ≠ n) s (s.subStr v index count) ∧
      (s.subStr v index count).sharedString.length = n + 1 ∧
      (s.subStr v index count).text n = ((s.text v).drop index).take count ∧
      ((s.text v).length ≤ index ∨ count = 0 → (s.subStr v index count).blockOf n = none) := by
  obtain ⟨hnew, hsize⟩ := h.construct_spec
  have hnone : s.construct.blockOf n = none := by
    rw [blockOf_construct, blockOf_length s (by omega)]
  by_cases hempty : (s.text v).length ≤ index ∨ count = 0
  · have heq : s.subStr v index count = s.construct := by rw [subStr, if_pos hempty]
    rw [heq]
    refine ⟨hnew.mono fun _ _ => trivial, by omega, ?_, fun _ => hnone⟩
    rw [text, hnone]
    rcases hempty with hle | hzero
    · rw [List.drop_eq_nil_of_le hle, List.take_nil]
      exact hnew.sound.empty
    · rw [hzero, List.take_zero]
      exact hnew.sound.empty
  · have heq : s.subStr v index count =
        s.construct.allocate n (((s.text v).drop index).take count) := by
      rw [subStr, if_neg hempty, hn]
    obtain ⟨hkeeps, -, htext, -, hlast⟩ := hnew.sound.allocate_spec
      (by omega : n < s.construct.sharedString.length) hnone (((s.text v).drop index).take count)
    rw [heq]
    exact ⟨(hnew.mono fun _ _ => trivial).trans hkeeps, by omega, htext,
      fun hcases => absurd hcases hempty⟩

theorem Sound.assignSubStr_keeps (h : s.Sound) {n : ℕ} (hn : s.sharedString.length = n)
    (hlength : n + 1 < 4294967296) (hv : v < n) (index count : ℕ) :
    Keeps (fun w => w < n ∧ w ≠ v) s (s.assignSubStr v index count) := by
  obtain ⟨hsub, hsize, -, -⟩ := h.subStr_spec hn v index count
  obtain ⟨hassign, hsize', -⟩ := hsub.sound.assignCopy_spec (by omega)
    (by omega : v < (s.subStr v index count).sharedString.length) n
  obtain ⟨hdestroy, -⟩ := hassign.sound.destroyLast_spec (hsize'.trans hsize) hlength
  rw [assignSubStr, hn]
  exact ((hsub.mono fun w hw => by omega).trans (hassign.mono fun w hw => hw.2)).trans
    (hdestroy.mono fun w hw => by omega)

theorem Sound.startAfter_keeps (h : s.Sound) {n : ℕ} (hn : s.sharedString.length = n)
    (hlength : n + 1 < 4294967296) (hv : v < n) (place : Option ℕ) :
    Keeps (fun w => w < n ∧ w ≠ v) s (s.startAfter v place) := by
  cases place with
  | none => exact .refl h
  | some i =>
    rw [startAfter]
    split
    · exact h.assignSubStr_keeps hn hlength hv _ _
    · exact .refl h

theorem Sound.assignAt_keeps (h : s.Sound) {n : ℕ} (hn : s.sharedString.length = n)
    (hlength : n + 1 < 4294967296) (hv : v < n) (hblock : s.blockOf v = none) (str : List UInt8)
    (pos count : ℕ) : Keeps (fun w => w < n ∧ w ≠ v) s (s.assignAt v str pos count) := by
  have hclone : s.clone v = s := by rw [clone, hblock]
  have hassign : ∃ s', (if upToNul str = [] ∨ (upToNul str).length ≤ pos then s.setShared v none
      else s.allocate v (((upToNul str).drop pos).take count)) = s' ∧ Keeps (· ≠ v) s s' ∧
      s'.sharedString.length = n := by
    refine ⟨_, rfl, ?_⟩
    split
    · have hnil := h.assignText_spec (by omega : v < s.sharedString.length) hblock []
      rw [assignText, if_pos rfl] at hnil
      exact ⟨hnil.1, hnil.2.2.1.trans hn⟩
    · have hnew := h.allocate_spec (by omega : v < s.sharedString.length) hblock
        (((upToNul str).drop pos).take count)
      exact ⟨hnew.1, hnew.2.2.2.2.trans hn⟩
  obtain ⟨s', heq, hkeeps, hsize⟩ := hassign
  obtain ⟨hcopy, -, -, hsize'⟩ := hkeeps.sound.copy_spec hsize hlength v
  obtain ⟨hdestroy, -⟩ := hcopy.sound.destroyLast_spec hsize' hlength
  rw [assignAt, hclone, heq]
  exact ((hkeeps.mono fun w hw => hw.2).trans (hcopy.mono fun w hw => by omega)).trans
    (hdestroy.mono fun w hw => by omega)

/-! ### Writing over parts -/

/-- The parameter and the two halves of `SetChar` as new variables. -/
def halves (s : RakStrings) (v index rhs : ℕ) : RakStrings :=
  (((s.copy rhs).clone v).subStr v 0 index).subStr v (index + 1) 4294967295

/-- What is known of the new variables. -/
structure Halved (s s' : RakStrings) (v index rhs n : ℕ) : Prop where
  keeps : Keeps (fun w => w < n ∧ w ≠ v) s s'
  size : s'.sharedString.length = n + 3
  copied : s'.blockOf n = s.blockOf rhs ∧ s'.text n = s.text rhs
  first : s'.blockOf (n + 1) = none ∨ s'.text (n + 1) ≠ []
  firstEmpty : 0 < index → s'.text (n + 1) ≠ []
  second : index + 1 = (s.text v).length → s'.blockOf (n + 2) = none

theorem Sound.halves_spec (h : s.Sound) {n : ℕ} (hn : s.sharedString.length = n)
    (hlength : n + 4 < 4294967296) {index rhs : ℕ} (hv : v < n) (hblock : s.blockOf v ≠ none)
    (hindex : index < (s.text v).length) :
    Halved s (s.halves v index rhs) v index rhs n := by
  have htextne : s.text v ≠ [] := fun hnil => by simp [hnil] at hindex
  obtain ⟨k₁, hblock₁, htext₁, hsize₁⟩ := h.copy_spec hn (by omega) rhs
  have hv₁ : (s.copy rhs).blockOf v ≠ none := by
    rw [k₁.blockOf v (by omega)]
    exact hblock
  have hvt₁ : (s.copy rhs).text v = s.text v := k₁.text v (by omega)
  obtain ⟨k₂, -, -, hvt₂, hsize₂⟩ := k₁.sound.clone_spec (by omega) hv₁ (Or.inl (hvt₁ ▸ htextne))
  obtain ⟨k₃, hsize₃, htext₃, hnone₃⟩ := k₂.sound.subStr_spec (hsize₂.trans hsize₁) v 0 index
  obtain ⟨k₄, hsize₄, htext₄, hnone₄⟩ := k₃.sound.subStr_spec hsize₃ v (index + 1) 4294967295
  have hvt₃ : (((s.copy rhs).clone v).subStr v 0 index).text v = s.text v := by
    rw [k₃.text v (by omega), hvt₂, hvt₁]
  have hfirst : (s.halves v index rhs).text (n + 1) = (s.text v).take index := by
    rw [halves, k₄.text (n + 1) (by omega), htext₃, hvt₂, hvt₁, List.drop_zero]
  refine ⟨?_, hsize₄, ⟨?_, ?_⟩, ?_, fun hpos => ?_, fun hend => ?_⟩
  · exact (((k₁.mono fun w hw => by omega).trans (k₂.mono fun w hw => hw.2)).trans
      (k₃.mono fun w hw => by omega)).trans (k₄.mono fun w hw => by omega)
  · rw [halves, k₄.blockOf n (by omega), k₃.blockOf n (by omega), k₂.blockOf n (by omega), hblock₁]
  · rw [halves, k₄.text n (by omega), k₃.text n (by omega), k₂.text n (by omega), htext₁]
  · by_cases hzero : index = 0
    · left
      rw [halves, k₄.blockOf (n + 1) (by omega)]
      exact hnone₃ (Or.inr hzero)
    · right
      rw [hfirst]
      exact fun hnil => by
        have hlen := congrArg List.length hnil
        rw [List.length_take, List.length_nil] at hlen
        omega
  · rw [hfirst]
    intro hnil
    have hlen := congrArg List.length hnil
    rw [List.length_take, List.length_nil] at hlen
    omega
  · exact hnone₄ (Or.inl (by rw [hvt₃]; omega))

theorem Sound.setString_keeps (h : s.Sound) {n : ℕ} (hn : s.sharedString.length = n)
    (hlength : n + 4 < 4294967296) {index rhs : ℕ} (hindex : index < (s.text v).length)
    (hhandled : 0 < index ∨ s.blockOf rhs = none ∨ s.text rhs ≠ [] ∨
      index + 1 = (s.text v).length) :
    Keeps (fun w => w < n ∧ w ≠ v) s (s.setString v index rhs) := by
  have hblock := h.blockOf_ne_none (fun hnil => by simp [hnil] at hindex : s.text v ≠ [])
  obtain ⟨b, hb⟩ := Option.ne_none_iff_exists'.mp hblock
  have hv : v < n := hn ▸ lt_of_blockOf hb
  have hhalved := @Sound.halves_spec s v h n hn hlength index rhs hv hblock hindex
  have hdef : s.setString v index rhs =
      (((((s.halves v index rhs).assignCopy v (n + 1)).append v n).append v
        (n + 2)).destroyLast.destroyLast).destroyLast := by
    rw [setString, hn]
    rfl
  rw [hdef]
  generalize s.halves v index rhs = s₁ at hhalved
  obtain ⟨k₁, hsize₁, ⟨hcopied, hcopiedText⟩, hfirst, hfirstPos, hsecond⟩ := hhalved
  obtain ⟨k₂, hsize₂, hvalue₂⟩ := k₁.sound.assignCopy_spec (by omega)
    (by omega : v < s₁.sharedString.length) (n + 1)
  obtain ⟨hblock₂, htext₂⟩ := hvalue₂ (by omega)
  generalize s₁.assignCopy v (n + 1) = s₂ at *
  have hwritable₂ : s₂.Writable v := by
    rcases hfirst with hnone | htext
    · exact Or.inl (hblock₂.trans hnone)
    · exact Or.inr (Or.inl (by rw [htext₂]; exact htext))
  have hcopied₂ : s₂.blockOf n = s.blockOf rhs := (k₂.blockOf n (by omega)).trans hcopied
  have hcopiedText₂ : s₂.text n = s.text rhs := (k₂.text n (by omega)).trans hcopiedText
  obtain ⟨k₃, hsize₃, hwritable₃⟩ := k₂.sound.append_spec (by omega)
    (by omega : v < s₂.sharedString.length)
    (Or.inr ⟨by omega, hwritable₂⟩ : s₂.blockOf n = none ∨ v ≠ n ∧ s₂.Writable v)
  generalize s₂.append v n = s₃ at *
  have hsecond₃ : s₃.blockOf (n + 2) = none ∨ v ≠ n + 2 ∧ s₃.Writable v := by
    by_cases hend : index + 1 = (s.text v).length
    · left
      rw [k₃.blockOf (n + 2) (by omega), k₂.blockOf (n + 2) (by omega)]
      exact hsecond hend
    · right
      refine ⟨by omega, hwritable₃ hwritable₂ ?_⟩
      rcases hhandled with hpos | hnone | htext | hlast
      · left
        refine k₂.sound.blockOf_ne_none ?_
        rw [htext₂]
        exact hfirstPos hpos
      · exact Or.inr (Or.inr (hcopied₂.trans hnone))
      · exact Or.inr (Or.inl (by rw [hcopiedText₂]; exact htext))
      · exact absurd hlast hend
  obtain ⟨k₄, hsize₄, -⟩ := k₃.sound.append_spec (by omega)
    (by omega : v < s₃.sharedString.length) hsecond₃
  generalize s₃.append v (n + 2) = s₄ at *
  obtain ⟨k₅, hsize₅⟩ := k₄.sound.destroyLast_spec (by omega : s₄.sharedString.length = n + 2 + 1)
    (by omega)
  obtain ⟨k₆, hsize₆⟩ := k₅.sound.destroyLast_spec hsize₅ (by omega)
  obtain ⟨k₇, -⟩ := k₆.sound.destroyLast_spec hsize₆ (by omega)
  have kv : Keeps (fun w => w < n ∧ w ≠ v) s s₄ :=
    ((k₁.trans (k₂.mono fun w hw => hw.2)).trans (k₃.mono fun w hw => hw.2)).trans
      (k₄.mono fun w hw => hw.2)
  exact ((kv.trans (k₅.mono fun w hw => by omega)).trans (k₆.mono fun w hw => by omega)).trans
    (k₇.mono fun w hw => by omega)

/-! ### `RemoveCharacter` -/

theorem writeText_self (hblock : s.blockOf v ≠ none) : s.writeText v (s.text v) = s := by
  obtain ⟨b, hb⟩ := Option.ne_none_iff_exists'.mp hblock
  have htext : s.text v = (s.block b).text := by rw [text, hb]
  rw [writeText, hb, htext]
  show { s with block := Function.update s.block b (s.block b) } = s
  rw [Function.update_eq_self]

/-- Until the character is found the loop writes the bytes that are there, and from then on the
variable has a block for itself. -/
theorem Sound.removeLoop_spec {length : ℕ} (c : UInt8) (n : ℕ) :
    ∀ (readIndex writeIndex : ℕ) {s : RakStrings}, s.Sound → s.sharedString.length < 4294967296 →
      s.blockOf v ≠ none → (s.text v).length = length → readIndex + n = length → 0 < length →
      (s.Sole v ∨ writeIndex = readIndex) →
      Keeps (· ≠ v) s (removeLoop v c n readIndex writeIndex s).2 ∧
        (removeLoop v c n readIndex writeIndex s).2.blockOf v ≠ none ∧
        ((removeLoop v c n readIndex writeIndex s).2.Sole v ∨
          (removeLoop v c n readIndex writeIndex s).2 = s ∧
            (removeLoop v c n readIndex writeIndex s).1 = length) ∧
        (removeLoop v c n readIndex writeIndex s).2.sharedString.length =
          s.sharedString.length := by
  induction n with
  | zero =>
    intro readIndex writeIndex s h _ hblock _ hend _ hcases
    refine ⟨.refl h, hblock, ?_, rfl⟩
    rcases hcases with hsole | heq
    · exact Or.inl hsole
    · exact Or.inr ⟨rfl, by show writeIndex = length; omega⟩
  | succ n ih =>
    intro readIndex writeIndex s h hlength hblock htext hend hpos hcases
    rw [removeLoop]
    split
    · rcases hcases with hsole | heq
      · obtain ⟨k, hsole', hblock', htext', hsize⟩ := h.writeText_spec hblock hsole
          ((s.text v).set writeIndex ((s.text v).getD readIndex 0))
        obtain ⟨k', hblock'', hresult, hsize'⟩ := ih (readIndex + 1) (writeIndex + 1)
          k.sound (by omega) hblock'
          (by rw [htext', List.length_set]; exact htext) (by omega) hpos (Or.inl hsole')
        refine ⟨k.trans k', hblock'', ?_, hsize'.trans hsize⟩
        rcases hresult with hsole'' | ⟨hsame, -⟩
        · exact Or.inl hsole''
        · rw [hsame]
          exact Or.inl hsole'
      · have hsame : s.writeText v ((s.text v).set writeIndex ((s.text v).getD readIndex 0)) = s := by
          have hlt : readIndex < (s.text v).length := by omega
          rw [heq, List.getD_eq_getElem?_getD, List.getElem?_eq_getElem hlt, Option.getD_some,
            List.set_getElem_self]
          exact writeText_self hblock
        rw [hsame]
        exact ih (readIndex + 1) (writeIndex + 1) h hlength hblock htext (by omega) hpos
          (Or.inr (by omega))
    · have htextne : s.text v ≠ [] := fun hnil => by
        rw [hnil, List.length_nil] at htext
        omega
      obtain ⟨k, hsole, hblock', htext', hsize⟩ := h.clone_spec hlength hblock (Or.inl htextne)
      obtain ⟨k', hblock'', hresult, hsize'⟩ := ih (readIndex + 1) writeIndex k.sound
        (by omega) hblock' (by rw [htext']; exact htext)
        (by omega) hpos (Or.inl hsole)
      refine ⟨k.trans k', hblock'', ?_, hsize'.trans hsize⟩
      rcases hresult with hsole'' | ⟨hsame, -⟩
      · exact Or.inl hsole''
      · rw [hsame]
        exact Or.inl hsole

theorem Sound.removeCharacter_keeps (h : s.Sound) (hlength : s.sharedString.length < 4294967296)
    (htext : s.text v ≠ []) (c : UInt8) : Keeps (· ≠ v) s (s.removeCharacter v c) := by
  by_cases hc : c = 0
  · rw [removeCharacter, if_pos hc]
    exact .refl h
  have hblock := h.blockOf_ne_none htext
  have hpos : 0 < (s.text v).length := List.length_pos_iff.mpr htext
  obtain ⟨k, hblock', hcases, hsize⟩ := Sound.removeLoop_spec c (s.text v).length 0 0 h hlength
    hblock rfl (Nat.zero_add _) hpos (Or.inr rfl)
  have hdef : s.removeCharacter v c =
      if (removeLoop v c (s.text v).length 0 0 s).1 = 0 then
        ((removeLoop v c (s.text v).length 0 0 s).2.writeText v
          (((removeLoop v c (s.text v).length 0 0 s).2.text v).take
            (removeLoop v c (s.text v).length 0 0 s).1)).free v
      else (removeLoop v c (s.text v).length 0 0 s).2.writeText v
        (((removeLoop v c (s.text v).length 0 0 s).2.text v).take
          (removeLoop v c (s.text v).length 0 0 s).1) := by
    rw [removeCharacter, if_neg hc]
  rw [hdef]
  generalize removeLoop v c (s.text v).length 0 0 s = r at *
  have hwrite : Keeps (· ≠ v) s (r.2.writeText v ((r.2.text v).take r.1)) ∧
      (r.2.writeText v ((r.2.text v).take r.1)).sharedString.length = s.sharedString.length := by
    rcases hcases with hsole | ⟨hsame, hend⟩
    · obtain ⟨k', -, -, -, hsize'⟩ := k.sound.writeText_spec hblock' hsole ((r.2.text v).take r.1)
      exact ⟨k.trans k', hsize'.trans hsize⟩
    · rw [hsame, hend, List.take_length, writeText_self hblock]
      exact ⟨.refl h, rfl⟩
  split
  · exact hwrite.1.trans (hwrite.1.sound.free_spec (by omega) v).1
  · exact hwrite.1

/-! ### The other changes -/

theorem Sound.setChar_keeps (h : s.Sound) (hlength : s.sharedString.length < 4294967296)
    (htext : s.text v ≠ []) (index : ℕ) (c : UInt8) : Keeps (· ≠ v) s (s.setChar v index c) :=
  (h.cloneWrite_spec hlength (h.blockOf_ne_none htext) (Or.inl htext) _).1

theorem Sound.truncate_keeps (h : s.Sound) (hlength : s.sharedString.length < 4294967296)
    (htext : s.text v ≠ []) (length : ℕ) : Keeps (· ≠ v) s (s.truncate v length) := by
  rw [truncate]
  split
  · exact h.setChar_keeps hlength htext length 0
  · exact .refl h

theorem Sound.truncateUTF8_keeps (h : s.Sound) (htext : s.text v ≠ []) {length : ℕ}
    (hhandled : truncateIndex (s.text v) length (s.text v).length 0 0 = none ∨ s.Sole v) :
    Keeps (· ≠ v) s (s.truncateUTF8 v length) := by
  rw [truncateUTF8]
  cases hindex : truncateIndex (s.text v) length (s.text v).length 0 0 with
  | none => exact .refl h
  | some i =>
    have hsole : s.Sole v := hhandled.resolve_left (by rw [hindex]; simp)
    exact (h.writeText_spec (h.blockOf_ne_none htext) hsole _).1

theorem Sound.terminate_keeps (h : s.Sound) (hlength : s.sharedString.length < 4294967296)
    (htext : s.text v ≠ []) (place : Option ℕ) : Keeps (· ≠ v) s
      (match place with
        | none => s
        | some i => (s.clone v).writeText v (((s.clone v).text v).take i)) := by
  cases place with
  | none => exact .refl h
  | some i => exact (h.cloneWrite_spec hlength (h.blockOf_ne_none htext) (Or.inl htext) _).1

theorem Sound.perform_keeps (h : s.Sound) {op : Operation} (hop : s.Allowed op) :
    Keeps (fun w => w < s.sharedString.length ∧ w ≠ s.target op) s (s.perform op) := by
  obtain ⟨hpossible, hhandled, hroom⟩ := hop
  have hlength : s.sharedString.length < 4294967296 := by omega
  have hlength' : s.sharedString.length + 1 < 4294967296 := by omega
  have lt_of_text : ∀ {v}, s.text v ≠ [] → v < s.sharedString.length := fun htext => by
    obtain ⟨b, hb⟩ := Option.ne_none_iff_exists'.mp (h.blockOf_ne_none htext)
    exact lt_of_blockOf hb
  have ne_nil_of_lt : ∀ {v index}, index < (s.text v).length → s.text v ≠ [] :=
    fun hindex hnil => by simp [hnil] at hindex
  cases op with
  | construct => exact h.construct_spec.1.mono fun _ _ => trivial
  | constructString str =>
    obtain ⟨hnew, hsize⟩ := h.construct_spec
    have hnone : s.construct.blockOf s.sharedString.length = none := by
      rw [blockOf_construct, blockOf_length s (Nat.le_refl _)]
    have hassign := (hnew.sound.assignText_spec
      (by omega : s.sharedString.length < s.construct.sharedString.length) hnone (upToNul str)).1
    exact (hnew.mono fun _ _ => trivial).trans (hassign.mono fun w hw => hw.2)
  | copy rhs => exact (h.copy_spec rfl hlength' rhs).1.mono fun w hw => hw.2
  | assignCopy v rhs => exact (h.assignCopy_spec hlength hpossible rhs).1.mono fun w hw => hw.2
  | assignString v str => exact (h.assignString_spec hlength hpossible str).mono fun w hw => hw.2
  | append v rhs => exact (h.append_spec hlength hpossible hhandled).1.mono fun w hw => hw.2
  | appendString v str =>
    exact (h.appendString_keeps hlength hpossible hhandled).mono fun w hw => hw.2
  | setChar v index c =>
    exact (h.setChar_keeps hlength (ne_nil_of_lt hpossible) index c).mono fun w hw => hw.2
  | setString v index rhs => exact h.setString_keeps rfl hroom hpossible hhandled
  | truncate v length => exact (h.truncate_keeps hlength hpossible length).mono fun w hw => hw.2
  | truncateUTF8 v length =>
    exact (h.truncateUTF8_keeps hpossible.1 hhandled).mono fun w hw => hw.2
  | erase v index count =>
    exact (h.cloneWrite_spec hlength (h.blockOf_ne_none hpossible.1) (Or.inl hpossible.1) _).1.mono
      fun w hw => hw.2
  | removeCharacter v c =>
    exact (h.removeCharacter_keeps hlength hpossible c).mono fun w hw => hw.2
  | terminateAtFirstCharacter v c =>
    exact (h.terminate_keeps hlength hpossible (firstPlace c (s.text v))).mono fun w hw => hw.2
  | terminateAtLastCharacter v c =>
    exact (h.terminate_keeps hlength hpossible (lastPlace c (s.text v))).mono fun w hw => hw.2
  | startAfterFirstCharacter v c => exact h.startAfter_keeps rfl hlength' (lt_of_text hpossible) _
  | startAfterLastCharacter v c => exact h.startAfter_keeps rfl hlength' (lt_of_text hpossible) _
  | assignAt v str pos n => exact h.assignAt_keeps rfl hlength' hpossible hhandled str pos n
  | appendBytes v bytes =>
    exact (h.appendBytes_keeps hlength hpossible hhandled).mono fun w hw => hw.2
  | clear v => exact (h.free_spec hlength v).1.mono fun w hw => hw.2
  | destruct v => exact (h.free_spec hlength v).1.mono fun w hw => hw.2

theorem Sound.start : start.Sound :=
  ⟨fun b hb => absurd hb (by simp [references, RakStrings.start]),
    fun b hb => absurd hb (by simp [references, RakStrings.start]),
    fun b => by simp [references, RakStrings.start], by simp [RakStrings.start], rfl⟩

theorem Reachable.sound (h : Reachable s) : s.Sound :=
  GuardedRun.Reachable.invariant h .start fun _ _ hs hop => (hs.perform_keeps hop).sound

theorem Sound.counted (h : s.Sound) : s.Counted := by
  intro b hb
  refine ⟨fun hmem => h.counts b (List.count_pos_iff.mpr hmem), ?_⟩
  rw [h.free b, references, List.count_eq_zero]
  exact ⟨fun hfree => hfree.2, fun hmem => ⟨hb, hmem⟩⟩

/-- In every run of operations that are allowed the blocks are counted, and the next one that is
allowed changes the value of nothing but its target. -/
theorem copies_independent (h : Reachable s) :
    s.Counted ∧ ∀ op, s.Allowed op → s.Apart op :=
  ⟨h.sound.counted, fun _ hop v hv hne => (h.sound.perform_keeps hop).text v ⟨hv, hne⟩⟩

/-- A string of two characters and its copy. -/
def copyRun : List Operation := [.constructString [97, 98], .copy 0]

theorem reachable_copyRun : Reachable (copyRun.foldl perform start) :=
  GuardedRun.Reachable.run .start
    ⟨⟨trivial, trivial, by decide⟩, ⟨trivial, trivial, by decide⟩, trivial⟩

theorem copies_independent_copyRun : (copyRun.foldl perform start).Counted ∧
    ∀ op, (copyRun.foldl perform start).Allowed op → (copyRun.foldl perform start).Apart op :=
  copies_independent reachable_copyRun

/-- The copy is cut too. -/
theorem truncateUTF8_changes_copy :
    ¬ ∀ (operations : List Operation) (op : Operation),
      GuardedRun.EachAllowed perform Possible start (operations ++ [op]) →
        (operations.foldl perform start).Apart op := by
  intro h
  have hpossible : GuardedRun.EachAllowed perform Possible start
      (copyRun ++ [.truncateUTF8 0 1]) :=
    ⟨trivial, trivial, ⟨by decide +kernel, by decide +kernel⟩, trivial⟩
  have hapart := h copyRun (.truncateUTF8 0 1) hpossible 1 (by decide +kernel) (by decide +kernel)
  exact absurd hapart (by decide +kernel)

end RakStrings

end SLikeNet
