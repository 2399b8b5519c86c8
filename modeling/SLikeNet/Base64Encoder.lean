import Mathlib.Data.List.Basic
import Mathlib.Data.Nat.Bitwise

/-! `Base64Encoding` of `Base64Encoder.cpp`, and the encoding of RFC 2045 that it writes in
lines. -/

namespace SLikeNet

namespace Base64

/-! ### The encoder -/

def base64Map : List Char :=
  ['A', 'B', 'C', 'D', 'E', 'F', 'G', 'H', 'I', 'J', 'K', 'L', 'M', 'N', 'O', 'P', 'Q', 'R', 'S',
   'T', 'U', 'V', 'W', 'X', 'Y', 'Z', 'a', 'b', 'c', 'd', 'e', 'f', 'g', 'h', 'i', 'j', 'k', 'l',
   'm', 'n', 'o', 'p', 'q', 'r', 's', 't', 'u', 'v', 'w', 'x', 'y', 'z', '0', '1', '2', '3', '4',
   '5', '6', '7', '8', '9', '+', '/']

/-- The characters that are written, and the places of the input that are read. -/
structure Output where
  outputData : List Char
  charCount : ℕ
  placesRead : List ℕ
deriving DecidableEq

namespace Output

def read (o : Output) (places : List ℕ) : Output := { o with placesRead := o.placesRead ++ places }

def write (o : Output) (chars : List Char) : Output :=
  { o with outputData := o.outputData ++ chars }

/-- A character of the map, and a line break behind every 76th one. -/
def put (o : Output) (index : ℕ) : Output :=
  let o' := o.write [base64Map.getD index ' ']
  if (o.charCount + 1) % 76 = 0 then { o'.write ['\r', '\n'] with charCount := 0 }
  else { o' with charCount := o.charCount + 1 }

end Output

def firstBits (a : UInt8) : ℕ := a.toNat >>> 2

def secondBits (a b : UInt8) : ℕ := (a.toNat <<< 4 ||| b.toNat >>> 4) &&& 63

def thirdBits (b c : UInt8) : ℕ := (b.toNat <<< 2 ||| c.toNat >>> 6) &&& 63

def fourthBits (c : UInt8) : ℕ := c.toNat &&& 63

/-- The body of the loop. -/
def write3 (inputData : ℕ → UInt8) (o : Output) (j : ℕ) : Output :=
  let a := inputData (j * 3 + 0)
  let b := inputData (j * 3 + 1)
  let c := inputData (j * 3 + 2)
  ((((o.read [j * 3 + 0, j * 3 + 1, j * 3 + 2]).put (firstBits a)).put (secondBits a b)).put
    (thirdBits b c)).put (fourthBits c)

/-- The bytes that remain, with their padding. Where one remains, the byte behind it is read. -/
def writeRest (inputData : ℕ → UInt8) (dataLength : ℕ) (o : Output) (j : ℕ) : Output :=
  let a := inputData (j * 3 + 0)
  let b := inputData (j * 3 + 1)
  if dataLength % 3 = 1 then
    (((o.read [j * 3 + 0, j * 3 + 1]).put (firstBits a)).put (secondBits a b)).write ['=', '=']
  else if dataLength % 3 = 2 then
    ((((o.read [j * 3 + 0, j * 3 + 1]).put (firstBits a)).put (secondBits a b)).put
      (b.toNat <<< 2 &&& 63)).write ['=']
  else o

/-- The NUL behind the characters is left out. -/
def base64Encoding (inputData : ℕ → UInt8) (dataLength : ℕ) : Output :=
  let write3Count := dataLength / 3
  let o := (List.range write3Count).foldl (write3 inputData) ⟨[], 0, []⟩
  (writeRest inputData dataLength o write3Count).write ['\r', '\n']

/-- The memory from the first byte of the data on. -/
def memory (data : List UInt8) (behind : ℕ → UInt8) (i : ℕ) : UInt8 := data.getD i (behind i)

/-! ### RFC 2045 -/

def alphabet (value : ℕ) : Char :=
  if value < 26 then .ofNat (65 + value)
  else if value < 52 then .ofNat (97 + (value - 26))
  else if value < 62 then .ofNat (48 + (value - 52))
  else if value = 62 then '+'
  else '/'

/-- A group of 24 bits as four of 6. -/
def groups (a b c : UInt8) : List ℕ :=
  let bits := a.toNat * 65536 + b.toNat * 256 + c.toNat
  [bits / 2 ^ 18, bits / 2 ^ 12 % 64, bits / 2 ^ 6 % 64, bits % 64]

/-- Zero bits are added on the right of the last group, and padding for what has no bits at all. -/
def rfc2045 : List UInt8 → List Char
  | [] => []
  | [a] => ((groups a 0 0).take 2).map alphabet ++ ['=', '=']
  | [a, b] => ((groups a b 0).take 3).map alphabet ++ ['=']
  | a :: b :: c :: rest => (groups a b c).map alphabet ++ rfc2045 rest

/-- The text between the line breaks. -/
def lines : List Char → List (List Char)
  | [] => [[]]
  | '\r' :: '\n' :: rest => [] :: lines rest
  | c :: rest =>
    match lines rest with
    | [] => [[c]]
    | line :: others => (c :: line) :: others

/-- The bytes that are read, the characters without the line breaks, the lengths of the lines, and
the room that the overload without a buffer allocates. -/
structure EncodesRight (data : List UInt8) (behind : ℕ → UInt8) : Prop where
  inside : ∀ place ∈ (base64Encoding (memory data behind) data.length).placesRead,
    place < data.length
  characters : (lines (base64Encoding (memory data behind) data.length).outputData).flatten =
    rfc2045 data
  short : ∀ line ∈ lines (base64Encoding (memory data behind) data.length).outputData,
    line.length ≤ 76
  fits : (base64Encoding (memory data behind) data.length).outputData.length + 1 ≤
    data.length * 2 + 6

/-! ### Groups of bits -/

theorem base64Map_eq : ∀ value < 64, base64Map.getD value ' ' = alphabet value ∧
    alphabet value ≠ '\r' := by
  decide

theorem or_shift {a b i : ℕ} (h : b < 2 ^ i) : a <<< i ||| b = a * 2 ^ i + b := by
  rw [← Nat.shiftLeft_add_eq_or_of_lt h, Nat.shiftLeft_eq]

theorem and_63 (n : ℕ) : n &&& 63 = n % 64 := Nat.and_two_pow_sub_one_eq_mod n 6

theorem groups_eq (a b c : UInt8) :
    groups a b c = [firstBits a, secondBits a b, thirdBits b c, fourthBits c] := by
  have ha := a.toNat_lt
  have hb := b.toNat_lt
  have hc := c.toNat_lt
  have hb' : b.toNat >>> 4 < 2 ^ 4 := by rw [Nat.shiftRight_eq_div_pow]; omega
  have hc' : c.toNat >>> 6 < 2 ^ 2 := by rw [Nat.shiftRight_eq_div_pow]; omega
  rw [groups, firstBits, secondBits, thirdBits, fourthBits, or_shift hb', or_shift hc', and_63,
    and_63, and_63]
  simp only [Nat.shiftRight_eq_div_pow, List.cons.injEq, and_true]
  omega

theorem lt_of_mem_groups {a b c : UInt8} {value : ℕ} (h : value ∈ groups a b c) : value < 64 := by
  have ha := a.toNat_lt
  have hb := b.toNat_lt
  have hc := c.toNat_lt
  simp only [groups, List.mem_cons, List.not_mem_nil, or_false] at h
  omega

theorem mem_rfc2045 {data : List UInt8} {c : Char} (h : c ∈ rfc2045 data) : c ≠ '\r' := by
  have hmap : ∀ {values : List ℕ}, (∀ value ∈ values, value < 64) → c ∈ values.map alphabet →
      c ≠ '\r' := by
    intro values hvalues hc
    obtain ⟨value, hvalue, rfl⟩ := List.mem_map.mp hc
    exact (base64Map_eq value (hvalues value hvalue)).2
  induction data using rfc2045.induct with
  | case1 => cases h
  | case2 a =>
    obtain h | h := List.mem_append.mp h
    · exact hmap (fun value hvalue => lt_of_mem_groups (List.mem_of_mem_take hvalue)) h
    · rintro rfl
      exact absurd h (by decide)
  | case3 a b =>
    obtain h | h := List.mem_append.mp h
    · exact hmap (fun value hvalue => lt_of_mem_groups (List.mem_of_mem_take hvalue)) h
    · rintro rfl
      exact absurd h (by decide)
  | case4 a b c rest ih =>
    obtain h | h := List.mem_append.mp h
    · exact hmap (fun value hvalue => lt_of_mem_groups hvalue) h
    · exact ih h

theorem length_rfc2045 (data : List UInt8) :
    (rfc2045 data).length = (data.length + 2) / 3 * 4 := by
  induction data using rfc2045.induct with
  | case1 => rfl
  | case2 a => simp [rfc2045, groups]
  | case3 a b => simp [rfc2045, groups]
  | case4 a b c rest ih =>
    rw [rfc2045, List.length_append, ih]
    simp only [groups, List.map_cons, List.map_nil, List.length_cons, List.length_nil]
    omega

theorem rfc2045_append {xs : List UInt8} (h : xs.length % 3 = 0) (ys : List UInt8) :
    rfc2045 (xs ++ ys) = rfc2045 xs ++ rfc2045 ys := by
  induction xs using rfc2045.induct with
  | case1 => rfl
  | case2 a => cases h
  | case3 a b => cases h
  | case4 a b c rest ih =>
    have hrest : rest.length % 3 = 0 := by
      simp only [List.length_cons] at h
      omega
    rw [List.cons_append, List.cons_append, List.cons_append, rfc2045, rfc2045, ih hrest,
      List.append_assoc]

/-! ### Lines -/

theorem lines_append {line : List Char} (h : '\r' ∉ line) (rest : List Char) :
    lines (line ++ '\r' :: '\n' :: rest) = line :: lines rest := by
  induction line with
  | nil => rfl
  | cons c line ih =>
    rw [List.mem_cons, not_or] at h
    rw [List.cons_append, lines, ih h.2]
    intro others hc
    exact absurd hc.symm h.1

theorem lines_flatMap {full : List (List Char)} (h : ∀ line ∈ full, '\r' ∉ line) :
    lines (full.flatMap (· ++ ['\r', '\n'])) = full ++ [[]] := by
  induction full with
  | nil => rfl
  | cons line full ih =>
    rw [List.forall_mem_cons] at h
    rw [List.flatMap_cons, List.append_assoc]
    exact (lines_append h.1 _).trans (congrArg (line :: ·) (ih h.2))

/-- The characters are in lines of 76, the last of which has `charCount`. -/
structure Layout (o : Output) (written : List Char) (full : List (List Char))
    (current : List Char) : Prop where
  outputData : o.outputData = full.flatMap (· ++ ['\r', '\n']) ++ current
  written : full.flatten ++ current = written
  full : ∀ line ∈ full, line.length = 76
  current : current.length = o.charCount
  charCount : o.charCount < 76

variable {o : Output} {written : List Char} {full : List (List Char)} {current : List Char}

theorem Layout.put (h : Layout o written full current) {value : ℕ} (hvalue : value < 64) :
    ∃ full' current', Layout (o.put value) (written ++ [alphabet value]) full' current' ∧
      (o.put value).charCount = (o.charCount + 1) % 76 ∧
        (o.put value).placesRead = o.placesRead := by
  have hcount := h.charCount
  rw [Output.put, (base64Map_eq value hvalue).1]
  split
  · next hbreak =>
    have hlast : o.charCount + 1 = 76 := by omega
    refine ⟨full ++ [current ++ [alphabet value]], [], ⟨?_, ?_, ?_, rfl, Nat.zero_lt_succ 75⟩,
      hbreak.symm, rfl⟩
    · simp [Output.write, h.outputData]
    · simp [← h.written]
    · intro line hline
      obtain hline | hline := List.mem_append.mp hline
      · exact h.full line hline
      · rw [List.mem_singleton.mp hline, List.length_append, h.current]
        exact hlast
  · next hmore =>
    have hless : o.charCount + 1 < 76 := by omega
    refine ⟨full, current ++ [alphabet value], ⟨?_, ?_, h.full, ?_, hless⟩,
      (Nat.mod_eq_of_lt hless).symm, rfl⟩
    · simp [Output.write, h.outputData]
    · rw [← List.append_assoc, h.written]
    · rw [List.length_append, h.current]
      rfl

theorem Layout.puts (h : Layout o written full current) {values : List ℕ}
    (hvalues : ∀ value ∈ values, value < 64) :
    ∃ full' current', Layout (values.foldl Output.put o) (written ++ values.map alphabet)
        full' current' ∧
      (values.foldl Output.put o).charCount = (o.charCount + values.length) % 76 ∧
        (values.foldl Output.put o).placesRead = o.placesRead := by
  induction values generalizing o written full current with
  | nil =>
    refine ⟨full, current, ?_, (Nat.mod_eq_of_lt h.charCount).symm, rfl⟩
    rw [List.map_nil, List.append_nil]
    exact h
  | cons value values ih =>
    rw [List.forall_mem_cons] at hvalues
    obtain ⟨full₁, current₁, h₁, hcount₁, hread₁⟩ := h.put hvalues.1
    obtain ⟨full₂, current₂, h₂, hcount₂, hread₂⟩ := ih h₁ hvalues.2
    refine ⟨full₂, current₂, ?_, ?_, hread₂.trans hread₁⟩
    · rw [List.map_cons]
      rw [List.append_assoc] at h₂
      exact h₂
    · rw [List.foldl_cons, hcount₂, hcount₁, List.length_cons]
      omega

/-! ### The loop and the rest -/

theorem memory_eq {data : List UInt8} {i : ℕ} (h : i < data.length) (behind : ℕ → UInt8) :
    memory data behind i = data[i] := by
  rw [memory, List.getD_eq_getElem?_getD, List.getElem?_eq_getElem h]
  rfl

theorem write3_eq (inputData : ℕ → UInt8) (o : Output) (j : ℕ) :
    write3 inputData o j =
      (groups (inputData (j * 3 + 0)) (inputData (j * 3 + 1)) (inputData (j * 3 + 2))).foldl
        Output.put (o.read [j * 3 + 0, j * 3 + 1, j * 3 + 2]) := by
  rw [groups_eq, write3]
  simp only [List.foldl_cons, List.foldl_nil]

theorem Layout.read (h : Layout o written full current) (places : List ℕ) :
    Layout (o.read places) written full current :=
  ⟨h.outputData, h.written, h.full, h.current, h.charCount⟩

/-- After so many groups of three bytes. -/
structure Encoded (data : List UInt8) (count : ℕ) (o : Output) : Prop where
  layout : ∃ full current, Layout o (rfc2045 (data.take (count * 3))) full current
  charCount : o.charCount % 4 = 0
  placesRead : ∀ place ∈ o.placesRead, place < count * 3

theorem Encoded.write3 {data : List UInt8} {count : ℕ} (h : Encoded data count o)
    (hcount : count * 3 + 3 ≤ data.length) (behind : ℕ → UInt8) :
    Encoded data (count + 1) (write3 (memory data behind) o count) := by
  obtain ⟨full, current, hlayout⟩ := h.layout
  have hsplit : data.take ((count + 1) * 3) = data.take (count * 3) ++
      [data[count * 3 + 0], data[count * 3 + 1], data[count * 3 + 2]] := by
    have hfirst : data[count * 3]? = some data[count * 3 + 0] := List.getElem?_eq_getElem _
    have hsecond : data[count * 3 + 1]? = some data[count * 3 + 1] := List.getElem?_eq_getElem _
    have hthird : data[count * 3 + 1 + 1]? = some data[count * 3 + 2] :=
      List.getElem?_eq_getElem _
    rw [show (count + 1) * 3 = count * 3 + 1 + 1 + 1 by omega, List.take_add_one,
      List.take_add_one, List.take_add_one, hfirst, hsecond, hthird, List.append_assoc,
      List.append_assoc]
    rfl
  have hmod : (data.take (count * 3)).length % 3 = 0 := by
    rw [List.length_take]
    omega
  rw [write3_eq, memory_eq (by omega), memory_eq (by omega), memory_eq (by omega)]
  obtain ⟨full', current', hlayout', hcount', hread⟩ :=
    (hlayout.read [count * 3 + 0, count * 3 + 1, count * 3 + 2]).puts fun value hvalue =>
      @lt_of_mem_groups data[count * 3 + 0] data[count * 3 + 1] data[count * 3 + 2] value hvalue
  refine ⟨⟨full', current', ?_⟩, ?_, ?_⟩
  · rw [hsplit, rfc2045_append hmod, rfc2045, rfc2045, List.append_nil]
    exact hlayout'
  · have hold := h.charCount
    rw [hcount']
    simp only [Output.read, groups, List.length_cons, List.length_nil]
    omega
  · intro place hplace
    rw [hread, Output.read, List.mem_append] at hplace
    obtain hplace | hplace := hplace
    · have := h.placesRead place hplace
      omega
    · simp only [List.mem_cons, List.not_mem_nil, or_false] at hplace
      omega

theorem encoded_loop (data : List UInt8) (behind : ℕ → UInt8) {count : ℕ}
    (hcount : count * 3 ≤ data.length) :
    Encoded data count ((List.range count).foldl (write3 (memory data behind)) ⟨[], 0, []⟩) := by
  induction count with
  | zero =>
    refine ⟨⟨[], [], rfl, ?_, fun line hline => ?_, rfl, Nat.zero_lt_succ 75⟩, rfl,
      fun place hplace => ?_⟩
    · rw [Nat.zero_mul, List.take_zero]
      rfl
    · cases hline
    · cases hplace
  | succ count ih =>
    have hbefore := ih (by omega)
    rw [List.range_succ, List.foldl_append, List.foldl_cons, List.foldl_nil]
    exact hbefore.write3 (by omega) behind

theorem groups_take (a b : UInt8) :
    (groups a b 0).take 3 = [firstBits a, secondBits a b, b.toNat <<< 2 &&& 63] := by
  rw [groups_eq, thirdBits]
  simp

theorem take_append_two {data : List UInt8} (htwo : data.length % 3 = 2) :
    data.take (data.length / 3 * 3) ++
      [data[data.length / 3 * 3 + 0], data[data.length / 3 * 3 + 1]] = data := by
  have hfirst : data[data.length / 3 * 3]? = some data[data.length / 3 * 3 + 0] :=
    List.getElem?_eq_getElem _
  have hsecond : data[data.length / 3 * 3 + 1]? = some data[data.length / 3 * 3 + 1] :=
    List.getElem?_eq_getElem _
  have hall := List.take_of_length_le (l := data) (i := data.length / 3 * 3 + 1 + 1) (by omega)
  rw [List.take_add_one, List.take_add_one, hfirst, hsecond, List.append_assoc] at hall
  exact hall

theorem encoded_rest (data : List UInt8) (behind : ℕ → UInt8) (hmod : data.length % 3 ≠ 1)
    {o : Output} (h : Encoded data (data.length / 3) o) :
    ∃ full current pads o', writeRest (memory data behind) data.length o (data.length / 3) =
        o'.write pads ∧
      (∃ written, Layout o' written full current ∧ written ++ pads = rfc2045 data) ∧
        current.length + pads.length ≤ 76 ∧ ∀ place ∈ o'.placesRead, place < data.length := by
  obtain ⟨full, current, hlayout⟩ := h.layout
  have hold := h.charCount
  have hlast := hlayout.charCount
  rw [writeRest, if_neg hmod]
  split
  · next htwo =>
    have hsplit := take_append_two htwo
    have hmod' : (data.take (data.length / 3 * 3)).length % 3 = 0 := by
      rw [List.length_take]
      omega
    generalize hfirst : data[data.length / 3 * 3 + 0] = a at hsplit
    generalize hsecond : data[data.length / 3 * 3 + 1] = b at hsplit
    obtain ⟨full', current', hlayout', hcount', hread⟩ :=
      (hlayout.read [data.length / 3 * 3 + 0, data.length / 3 * 3 + 1]).puts fun value hvalue =>
        @lt_of_mem_groups a b 0 value (List.mem_of_mem_take (i := 3) hvalue)
    rw [memory_eq (by omega), memory_eq (by omega), hfirst, hsecond]
    refine ⟨full', current', ['='], _, ?_, ⟨_, hlayout', ?_⟩, ?_, fun place hplace => ?_⟩
    · rw [groups_take]
      rfl
    · have hall := congrArg rfc2045 hsplit
      rw [rfc2045_append hmod', rfc2045, ← List.append_assoc] at hall
      exact hall
    · rw [hlayout'.current, hcount', groups_take]
      simp only [Output.read, List.length_cons, List.length_nil]
      omega
    · rw [hread, Output.read, List.mem_append] at hplace
      obtain hplace | hplace := hplace
      · have := h.placesRead place hplace
        omega
      · simp only [List.mem_cons, List.not_mem_nil, or_false] at hplace
        omega
  · next hzero =>
    refine ⟨full, current, [], o, ?_, ⟨_, hlayout, ?_⟩, ?_, fun place hplace => ?_⟩
    · simp [Output.write]
    · rw [List.append_nil, List.take_of_length_le (by omega)]
    · rw [hlayout.current, List.length_nil]
      omega
    · have := h.placesRead place hplace
      omega

theorem outputData_eq {pads written : List Char} (h : Layout o written full current) :
    ((o.write pads).write ['\r', '\n']).outputData =
      (full ++ [current ++ pads]).flatMap (· ++ ['\r', '\n']) := by
  simp [Output.write, h.outputData]

theorem length_flatMap_lines (full : List (List Char)) :
    (full.flatMap (· ++ ['\r', '\n'])).length = full.flatten.length + full.length * 2 := by
  induction full with
  | nil => rfl
  | cons line full ih =>
    rw [List.flatMap_cons, List.length_append, ih, List.flatten_cons]
    simp only [List.length_append, List.length_cons, List.length_nil]
    omega

theorem length_flatten_lines {full : List (List Char)} (h : ∀ line ∈ full, line.length = 76) :
    full.flatten.length = full.length * 76 := by
  induction full with
  | nil => rfl
  | cons line full ih =>
    rw [List.forall_mem_cons] at h
    rw [List.flatten_cons, List.length_append, ih h.2, h.1, List.length_cons]
    omega

theorem encodesRight_of_mod {data : List UInt8} (behind : ℕ → UInt8)
    (hmod : data.length % 3 ≠ 1) : EncodesRight data behind := by
  obtain ⟨full, current, pads, o, heq, ⟨written, hlayout, hwritten⟩, hshort, hread⟩ :=
    encoded_rest data behind hmod (encoded_loop data behind (by omega))
  have hencoding : base64Encoding (memory data behind) data.length =
      (o.write pads).write ['\r', '\n'] := by
    rw [base64Encoding]
    exact congrArg (Output.write · ['\r', '\n']) heq
  have hflatten : (full ++ [current ++ pads]).flatten = rfc2045 data := by
    rw [← hwritten, ← hlayout.written]
    simp
  have hplain : ∀ line ∈ full ++ [current ++ pads], '\r' ∉ line := by
    intro line hline hmem
    have hin : '\r' ∈ rfc2045 data := hflatten ▸ List.mem_flatten.mpr ⟨line, hline, hmem⟩
    exact mem_rfc2045 hin rfl
  have hlines := lines_flatMap hplain
  rw [← outputData_eq hlayout, ← hencoding] at hlines
  constructor
  · intro place hplace
    rw [hencoding] at hplace
    exact hread place hplace
  · rw [hlines, List.flatten_append, hflatten]
    simp
  · intro line hline
    rw [hlines, List.mem_append, List.mem_append, List.mem_singleton, List.mem_singleton] at hline
    obtain (hline | rfl) | rfl := hline
    · exact (hlayout.full line hline).le
    · rw [List.length_append]
      exact hshort
    · exact Nat.zero_le 76
  · have hall := congrArg List.length hflatten
    have hfull := length_flatten_lines hlayout.full
    have htotal := length_rfc2045 data
    rw [List.flatten_append, List.length_append] at hall
    rw [hencoding, outputData_eq hlayout, length_flatMap_lines, hflatten, List.length_append,
      List.length_singleton]
    omega

theorem not_encodesRight_of_mod {data : List UInt8} (behind : ℕ → UInt8)
    (hmod : data.length % 3 = 1) : ¬EncodesRight data behind := by
  intro h
  have hread : ∀ (o : Output) (index : ℕ), (o.put index).placesRead = o.placesRead := by
    intro o index
    rw [Output.put]
    split <;> rfl
  have hmem : data.length / 3 * 3 + 1 ∈
      (base64Encoding (memory data behind) data.length).placesRead := by
    rw [base64Encoding, writeRest, if_pos hmod]
    simp [Output.write, Output.read, hread]
  have hlt := h.inside _ hmem
  omega

/-- The encoding is right, whatever is behind the data, exactly if not one byte remains. -/
theorem base64Encoding_iff (data : List UInt8) (behind : ℕ → UInt8) :
    EncodesRight data behind ↔ data.length % 3 ≠ 1 :=
  ⟨fun h hmod => not_encodesRight_of_mod behind hmod h, encodesRight_of_mod behind⟩

/-- "a" with another letter behind it. -/
theorem byte_behind_encoded : ¬EncodesRight [97] fun _ => 98 := by
  intro h
  exact absurd (h.inside 1 (by decide)) (by decide)

end Base64

end SLikeNet
