import SLikeNet.RakString
import Mathlib.Data.List.TakeWhile

/-! `RakString::URLEncode` and `URLDecode`, with what the decoder reads of the memory behind the
string. -/

namespace SLikeNet

namespace RakString

/-! ### Encoding -/

/-- A digit of `Itoa`. -/
def digit (value : UInt8) : UInt8 := if value < 10 then 48 + value else 87 + value

/-- `Itoa(c, buff, 16)`, with its NUL. -/
def itoa16 (c : UInt8) : List UInt8 :=
  (if c < 16 then [digit c] else [digit (c / 16), digit (c % 16)]) ++ [0]

def isEscaped (c : UInt8) : Bool :=
  decide (c ≤ 47) || (decide (58 ≤ c) && decide (c ≤ 64)) || (decide (91 ≤ c) && decide (c ≤ 96)) ||
    decide (123 ≤ c)

/-- The first two characters of the buffer are copied. -/
def encodeChar (c : UInt8) : List UInt8 := if isEscaped c then 37 :: (itoa16 c).take 2 else [c]

/-- The output is read as a C string afterwards. -/
def urlEncode (str : List UInt8) : List UInt8 := upToNul (str.flatMap encodeChar)

/-! ### Decoding -/

/-- What is set for a blank and for 'A' to 'F' is overwritten by the `else` of the last test. -/
def hexValue (hexDigit : UInt8) : UInt8 :=
  if 97 ≤ hexDigit ∧ hexDigit ≤ 102 then hexDigit - 97 + 10 else hexDigit - 48

def hexByte (first second : UInt8) : UInt8 := hexValue first * 16 + hexValue second

/-- The memory from the start of the string on. -/
def memory (str : List UInt8) (behind : ℕ → UInt8) (i : ℕ) : UInt8 :=
  if i < str.length then str.getD i 0 else if i = str.length then 0 else behind i

/-- The loop of `URLDecode`: the characters that it writes, and the places that it reads. -/
def decodeLoop (c_str : ℕ → UInt8) (strLen : ℕ) : ℕ → ℕ → List UInt8 × List ℕ
  | 0, _ => ([], [])
  | fuel + 1, i =>
    if i < strLen then
      if c_str i = 37 then
        let rest := decodeLoop c_str strLen fuel (i + 3)
        (hexByte (c_str (i + 1)) (c_str (i + 2)) :: rest.1, i :: (i + 1) :: (i + 2) :: rest.2)
      else
        let rest := decodeLoop c_str strLen fuel (i + 1)
        (c_str i :: rest.1, i :: rest.2)
    else ([], [])

def decoded (str : List UInt8) (behind : ℕ → UInt8) : List UInt8 :=
  (decodeLoop (memory str behind) str.length str.length 0).1

def placesRead (str : List UInt8) (behind : ℕ → UInt8) : List ℕ :=
  (decodeLoop (memory str behind) str.length str.length 0).2

def urlDecode (str : List UInt8) (behind : ℕ → UInt8) : List UInt8 := upToNul (decoded str behind)

/-! ### Escapes -/

/-- `cut` is an escape that the end of the string cuts off. -/
inductive Token
  | plain (c : UInt8)
  | escape (first second : UInt8)
  | cut (first : Option UInt8)

/-- The string as the decoder takes it apart. -/
def tokens : List UInt8 → List Token
  | [] => []
  | [c] => if c = 37 then [.cut none] else [.plain c]
  | [c, a] => if c = 37 then [.cut (some a)] else .plain c :: tokens [a]
  | c :: a :: b :: rest =>
    if c = 37 then .escape a b :: tokens rest else .plain c :: tokens (a :: b :: rest)

def Token.value (behind : UInt8) : Token → UInt8
  | plain c => c
  | escape first second => hexByte first second
  | cut (some first) => hexByte first 0
  | cut none => hexByte 0 behind

def Token.digits : Token → List UInt8
  | plain _ => []
  | escape first second => [first, second]
  | cut first => first.toList

def lower (hexDigit : UInt8) : UInt8 :=
  if 65 ≤ hexDigit ∧ hexDigit ≤ 70 then hexDigit + 32 else hexDigit

def Token.lower : Token → Token
  | plain c => plain c
  | escape first second => escape (RakString.lower first) (RakString.lower second)
  | cut first => cut (first.map RakString.lower)

/-- The string with lower case digits in its escapes. -/
def lowered : List UInt8 → List UInt8
  | [] => []
  | [c] => [c]
  | [c, a] => if c = 37 then [c, lower a] else c :: lowered [a]
  | c :: a :: b :: rest =>
    if c = 37 then c :: lower a :: lower b :: lowered rest else c :: lowered (a :: b :: rest)

def isHexDigit (c : UInt8) : Bool :=
  (decide (48 ≤ c) && decide (c ≤ 57)) || (decide (65 ≤ c) && decide (c ≤ 70)) ||
    (decide (97 ≤ c) && decide (c ≤ 102))

/-- Letters, digits, and '%' with two hexadecimal digits. -/
def Token.WellEncoded : Token → Prop
  | plain c => isEscaped c = false
  | escape first second => isHexDigit first = true ∧ isHexDigit second = true
  | cut _ => False

def WellEncoded (str : List UInt8) : Prop := ∀ token ∈ tokens str, token.WellEncoded

/-! ### The decoder and the escapes -/

variable {str : List UInt8} {behind : ℕ → UInt8}

theorem tokens_plain {c : UInt8} (h : c ≠ 37) (rest : List UInt8) :
    tokens (c :: rest) = .plain c :: tokens rest := by
  match rest with
  | [] => simp only [tokens, if_neg h]
  | [a] => simp only [tokens, if_neg h]
  | a :: b :: rest => simp only [tokens, if_neg h]

theorem tokens_escape (a b : UInt8) (rest : List UInt8) :
    tokens (37 :: a :: b :: rest) = .escape a b :: tokens rest := by
  rw [tokens, if_pos rfl]

theorem memory_eq (behind : ℕ → UInt8) {i : ℕ} {c : UInt8} {rest : List UInt8}
    (h : str.drop i = c :: rest) :
    memory str behind i = c ∧ i < str.length ∧ str.drop (i + 1) = rest := by
  have hlt : i < str.length := by
    by_contra hge
    rw [List.drop_eq_nil_of_le (by omega)] at h
    cases h
  rw [List.drop_eq_getElem_cons hlt, List.cons.injEq] at h
  refine ⟨?_, hlt, h.2⟩
  rw [memory, if_pos hlt, List.getD_eq_getElem?_getD, List.getElem?_eq_getElem hlt, h.1]
  rfl

theorem memory_end (behind : ℕ → UInt8) {i : ℕ} (h : str.drop i = []) (hle : i ≤ str.length) :
    i = str.length ∧ memory str behind i = 0 := by
  have heq : i = str.length := Nat.le_antisymm hle (List.drop_eq_nil_iff.mp h)
  refine ⟨heq, ?_⟩
  rw [memory, heq, if_neg (Nat.lt_irrefl _), if_pos rfl]

theorem decodeLoop_end {c_str : ℕ → UInt8} {strLen fuel i : ℕ} (h : strLen ≤ i) :
    decodeLoop c_str strLen fuel i = ([], []) := by
  cases fuel with
  | zero => rfl
  | succ fuel => rw [decodeLoop, if_neg (by omega)]

/-- From every place on, the decoder writes the values of the tokens, and it reads behind the
terminator only for a '%' at the end. -/
theorem decodeLoop_spec {fuel i : ℕ} (hfuel : str.length ≤ fuel + i) (hle : i ≤ str.length) :
    (decodeLoop (memory str behind) str.length fuel i).1 =
        (tokens (str.drop i)).map (Token.value (behind (str.length + 1))) ∧
      ((∀ place ∈ (decodeLoop (memory str behind) str.length fuel i).2, place ≤ str.length) ↔
        Token.cut none ∉ tokens (str.drop i)) := by
  induction fuel generalizing i with
  | zero =>
    rw [List.drop_eq_nil_of_le (by omega)]
    simp [decodeLoop, tokens]
  | succ fuel ih =>
    rw [decodeLoop]
    cases hrest : str.drop i with
    | nil =>
      obtain ⟨rfl, -⟩ := memory_end behind hrest hle
      simp [tokens]
    | cons c rest =>
      obtain ⟨hc, hlt, htail⟩ := memory_eq behind hrest
      rw [if_pos hlt, hc]
      by_cases hescape : c = 37
      · subst hescape
        rw [if_pos rfl]
        dsimp only
        cases rest with
        | nil =>
          obtain ⟨hlast, hnul⟩ := memory_end behind htail hlt
          have hbehind : memory str behind (i + 2) = behind (str.length + 1) := by
            rw [memory, if_neg (by omega), if_neg (by omega), ← hlast]
          rw [decodeLoop_end (by omega), hnul, hbehind]
          refine ⟨rfl, ?_⟩
          simp [tokens]
          omega
        | cons a rest =>
          obtain ⟨ha, hlt', htail'⟩ := memory_eq behind htail
          rw [ha]
          cases rest with
          | nil =>
            obtain ⟨hlast, hnul⟩ := memory_end behind htail' hlt'
            rw [decodeLoop_end (by omega), hnul]
            refine ⟨rfl, ?_⟩
            simp [tokens]
            omega
          | cons b rest =>
            obtain ⟨hb, hlt'', htail''⟩ := memory_eq behind htail'
            obtain ⟨hwritten, hread⟩ := ih (i := i + 3) (by omega) hlt''
            rw [htail''] at hwritten hread
            rw [hb, tokens_escape, hwritten]
            refine ⟨rfl, ?_⟩
            rw [List.forall_mem_cons, List.forall_mem_cons, List.forall_mem_cons, hread]
            simp [hle, Nat.succ_le_iff.mpr hlt, show i + 2 ≤ str.length from hlt']
      · rw [if_neg hescape, tokens_plain hescape]
        dsimp only
        obtain ⟨hwritten, hread⟩ := ih (i := i + 1) (by omega) hlt
        rw [htail] at hwritten hread
        refine ⟨by rw [hwritten]; rfl, ?_⟩
        rw [List.forall_mem_cons, hread]
        simp [hle]

theorem decoded_eq (str : List UInt8) (behind : ℕ → UInt8) :
    decoded str behind = (tokens str).map (Token.value (behind (str.length + 1))) :=
  (decodeLoop_spec (i := 0) (Nat.le_refl _) (Nat.zero_le _)).1

theorem placesRead_inside_iff (str : List UInt8) (behind : ℕ → UInt8) :
    (∀ place ∈ placesRead str behind, place ≤ str.length) ↔ Token.cut none ∉ tokens str :=
  (decodeLoop_spec (i := 0) (Nat.le_refl _) (Nat.zero_le _)).2

/-! ### Upper and lower case -/

def IsUpper (hexDigit : UInt8) : Prop := 65 ≤ hexDigit ∧ hexDigit ≤ 70

theorem length_lowered (str : List UInt8) : (lowered str).length = str.length := by
  induction str using lowered.induct with
  | case1 => rfl
  | case2 => rfl
  | case3 a => simp [lowered]
  | case4 c a hne ih => simp [lowered, hne]
  | case5 a b rest ih => simp [lowered, ih]
  | case6 c a b rest hne ih => simpa [lowered, hne] using ih

theorem tokens_lowered (str : List UInt8) :
    tokens (lowered str) = (tokens str).map Token.lower := by
  induction str using lowered.induct with
  | case1 => rfl
  | case2 c =>
    by_cases hc : c = 37 <;> simp [lowered, tokens, hc, Token.lower]
  | case3 a => simp [lowered, tokens, Token.lower]
  | case4 c a hne ih => rw [lowered, if_neg hne, tokens_plain hne, tokens_plain hne, ih]; rfl
  | case5 a b rest ih => rw [lowered, if_pos rfl, tokens_escape, tokens_escape, ih]; rfl
  | case6 c a b rest hne ih => rw [lowered, if_neg hne, tokens_plain hne, tokens_plain hne, ih]; rfl

instance (hexDigit : UInt8) : Decidable (IsUpper hexDigit) := inferInstanceAs (Decidable (_ ∧ _))

theorem forall_uint8 {P : UInt8 → Prop} (h : ∀ n < 256, P (.ofNat n)) (c : UInt8) : P c := by
  have hc := h c.toNat c.toNat_lt
  rwa [UInt8.ofNat_toNat] at hc

theorem hexValue_upper : ∀ hexDigit : UInt8, hexValue hexDigit =
    hexValue (lower hexDigit) + if IsUpper hexDigit then 7 else 0 := by
  apply forall_uint8
  decide +kernel

theorem hexByte_lower_iff (first second : UInt8) :
    hexByte first second = hexByte (lower first) (lower second) ↔
      ¬IsUpper first ∧ ¬IsUpper second := by
  rw [hexByte, hexByte, hexValue_upper first, hexValue_upper second]
  generalize hexValue (lower first) = x
  generalize hexValue (lower second) = y
  rw [← UInt8.toNat_inj]
  by_cases hfirst : IsUpper first <;> by_cases hsecond : IsUpper second <;>
    simp [hfirst, hsecond] <;> omega

theorem value_lower_iff (behind : UInt8) (token : Token) :
    token.value behind = token.lower.value behind ↔ ∀ d ∈ token.digits, ¬IsUpper d := by
  have hzero : ¬IsUpper 0 := by decide
  cases token with
  | plain c => simp [Token.value, Token.lower, Token.digits]
  | escape first second => simp [Token.value, Token.lower, Token.digits, hexByte_lower_iff]
  | cut first =>
    cases first with
    | none => simp [Token.value, Token.lower, Token.digits]
    | some first =>
      have hiff := hexByte_lower_iff first 0
      rw [show lower 0 = 0 from rfl] at hiff
      simp [Token.value, Token.lower, Token.digits, hiff, hzero]

theorem decoded_lowered_iff (str : List UInt8) (behind : ℕ → UInt8) :
    decoded str behind = decoded (lowered str) behind ↔
      ∀ token ∈ tokens str, ∀ d ∈ token.digits, ¬IsUpper d := by
  rw [decoded_eq, decoded_eq, tokens_lowered, length_lowered, List.map_map, List.map_inj_left]
  exact forall₂_congr fun token _ => value_lower_iff _ token

/-! ### The round trip -/

theorem encodeChar_spec : ∀ c : UInt8,
    if c < 16 then encodeChar c = [37, digit c, 0]
    else if isEscaped c then encodeChar c = [37, digit (c / 16), digit (c % 16)] ∧
      isHexDigit (digit (c / 16)) = true ∧ isHexDigit (digit (c % 16)) = true ∧
        hexByte (digit (c / 16)) (digit (c % 16)) = c ∧ digit (c / 16) ≠ 0 ∧ digit (c % 16) ≠ 0
    else encodeChar c = [c] ∧ c ≠ 37 ∧ c ≠ 0 := by
  apply forall_uint8
  decide +kernel

theorem digit_ne_zero : ∀ c : UInt8, c < 16 → digit c ≠ 0 := by
  apply forall_uint8
  decide +kernel

/-- The tokens of an encoded character. -/
def tokenOf (c : UInt8) : Token :=
  if isEscaped c then .escape (digit (c / 16)) (digit (c % 16)) else .plain c

theorem upToNul_append {before : List UInt8} (h : ∀ c ∈ before, c ≠ 0) (rest : List UInt8) :
    upToNul (before ++ rest) = before ++ upToNul rest :=
  List.takeWhile_append_of_pos fun c hc => decide_eq_true (h c hc)

theorem tokens_urlEncode_cons {c : UInt8} (h : 16 ≤ c) (rest : List UInt8) :
    tokens (urlEncode (c :: rest)) = tokenOf c :: tokens (urlEncode rest) := by
  have hspec := encodeChar_spec c
  rw [if_neg (UInt8.not_lt.mpr h)] at hspec
  rw [tokenOf, urlEncode, List.flatMap_cons]
  split at hspec
  · next hescaped =>
    obtain ⟨hencoded, -, -, -, hfirst, hsecond⟩ := hspec
    rw [hencoded, if_pos hescaped, upToNul_append (by simp [hfirst, hsecond])]
    exact tokens_escape _ _ _
  · next hplain =>
    obtain ⟨hencoded, hne, hzero⟩ := hspec
    rw [hencoded, if_neg hplain, upToNul_append (by simp [hzero])]
    exact tokens_plain hne _

theorem tokens_urlEncode {str : List UInt8} (h : ∀ c ∈ str, 16 ≤ c) :
    tokens (urlEncode str) = str.map tokenOf := by
  induction str with
  | nil => rfl
  | cons c rest ih =>
    rw [List.forall_mem_cons] at h
    rw [tokens_urlEncode_cons h.1, ih h.2, List.map_cons]

theorem tokenOf_spec {c : UInt8} (h : 16 ≤ c) (behind : UInt8) :
    (tokenOf c).value behind = c ∧ (tokenOf c).WellEncoded := by
  have hspec := encodeChar_spec c
  rw [if_neg (UInt8.not_lt.mpr h)] at hspec
  rw [tokenOf]
  split at hspec
  · next hescaped =>
    rw [if_pos hescaped]
    exact ⟨hspec.2.2.2.1, hspec.2.1, hspec.2.2.1⟩
  · next hplain =>
    rw [if_neg hplain]
    exact ⟨rfl, Bool.eq_false_iff.mpr hplain⟩

theorem not_wellEncoded_of_lt {str : List UInt8} {c : UInt8} (hc : c ∈ str) (hlt : c < 16) :
    ¬WellEncoded (urlEncode str) := by
  induction str with
  | nil => cases hc
  | cons d rest ih =>
    intro hwell
    by_cases hd : d < 16
    · have hspec := encodeChar_spec d
      rw [if_pos hd] at hspec
      have hcut : urlEncode (d :: rest) = [37, digit d] := by
        rw [urlEncode, List.flatMap_cons, hspec]
        simp [upToNul, digit_ne_zero d hd]
      rw [WellEncoded, hcut] at hwell
      exact hwell (.cut (some (digit d))) (by simp [tokens])
    · have hrest := (List.mem_cons.mp hc).resolve_left fun heq => hd (heq ▸ hlt)
      rw [WellEncoded, tokens_urlEncode_cons (UInt8.not_lt.mp hd), List.forall_mem_cons] at hwell
      exact ih hrest hwell.2

structure EncodesRight (str : List UInt8) : Prop where
  decodes : ∀ behind, urlDecode (urlEncode str) behind = str
  wellEncoded : WellEncoded (urlEncode str)

structure DecodesRight (str : List UInt8) : Prop where
  inside : ∀ behind, ∀ place ∈ placesRead str behind, place ≤ str.length
  lowered : ∀ behind, decoded str behind = decoded (lowered str) behind

theorem encodesRight_iff (str : List UInt8) : EncodesRight str ↔ ∀ c ∈ str, 16 ≤ c := by
  constructor
  · intro h c hc
    by_contra hlt
    exact not_wellEncoded_of_lt hc (UInt8.not_le.mp hlt) h.wellEncoded
  · intro h
    have htokens := tokens_urlEncode h
    constructor
    · intro behind
      have hvalues : (str.map tokenOf).map
          (Token.value (behind ((urlEncode str).length + 1))) = str := by
        rw [List.map_map]
        exact (List.map_congr_left fun c hc => (tokenOf_spec (h c hc) _).1).trans (List.map_id str)
      rw [urlDecode, decoded_eq, htokens, hvalues]
      refine List.takeWhile_eq_self_iff.mpr fun c hc => decide_eq_true ?_
      rintro rfl
      exact absurd (h 0 hc) (by decide)
    · intro token htoken
      rw [htokens] at htoken
      obtain ⟨c, hc, rfl⟩ := List.mem_map.mp htoken
      exact (tokenOf_spec (h c hc) 0).2

theorem decodesRight_iff (str : List UInt8) :
    DecodesRight str ↔
      Token.cut none ∉ tokens str ∧ ∀ token ∈ tokens str, ∀ d ∈ token.digits, ¬IsUpper d := by
  constructor
  · intro h
    exact ⟨(placesRead_inside_iff str fun _ => 0).mp (h.inside _),
      (decoded_lowered_iff str fun _ => 0).mp (h.lowered _)⟩
  · rintro ⟨hcut, hdigits⟩
    exact ⟨fun behind => (placesRead_inside_iff str behind).mpr hcut,
      fun behind => (decoded_lowered_iff str behind).mpr hdigits⟩

/-- Exactly the strings without control characters below 16 make the round trip, and exactly the
strings without a '%' at the end and without upper case digits in an escape are decoded right. -/
theorem url_encoding_iff (str encoded : List UInt8) :
    (EncodesRight str ↔ ∀ c ∈ str, 16 ≤ c) ∧
      (DecodesRight encoded ↔ Token.cut none ∉ tokens encoded ∧
        ∀ token ∈ tokens encoded, ∀ d ∈ token.digits, ¬IsUpper d) :=
  ⟨encodesRight_iff str, decodesRight_iff encoded⟩

/-- A line feed; "%4A"; and a '%' alone. -/
theorem line_feed_not_encoded :
    ¬EncodesRight [10] ∧ ¬DecodesRight [37, 52, 65] ∧ ¬DecodesRight [37] := by
  refine ⟨fun h => ?_, fun h => ?_, fun h => ?_⟩
  · exact absurd (h.decodes fun _ => 0) (by decide)
  · exact absurd (h.lowered fun _ => 0) (by decide)
  · exact absurd (h.inside fun _ => 0) (by decide)

end RakString

end SLikeNet
