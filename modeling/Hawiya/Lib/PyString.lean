import Mathlib.Data.List.DropRight
import Mathlib.Data.List.TakeWhile
import Mathlib.Tactic

/-!
# Python strings as lists of code points

The string operations that text-processing code takes from the Python standard library, on
`List Char`: slicing, stripping, splitting and the Unicode digit and whitespace classes of
Python 3.11 (Unicode 14). The lemmas below describe each operation on the words a fixed-width
encoding produces: a value followed by filler, or words joined by single separators.
-/

namespace PyString

abbrev Str := List Char

/-- `str.isspace` on one character; the class `\s` of a `str` pattern is the same set. -/
def isspace (c : Char) : Bool :=
  let n := c.toNat
  (9 ≤ n && n ≤ 13) || (28 ≤ n && n ≤ 32) || n == 0x85 || n == 0xa0 || n == 0x1680 ||
    (0x2000 ≤ n && n ≤ 0x200a) || n == 0x2028 || n == 0x2029 || n == 0x202f || n == 0x205f ||
    n == 0x3000

/-- The zeros of the runs of ten decimal digits (category Nd). -/
def decimalZeros : List ℕ :=
  [0x30, 0x660, 0x6f0, 0x7c0, 0x966, 0x9e6, 0xa66, 0xae6, 0xb66, 0xbe6, 0xc66, 0xce6, 0xd66,
    0xde6, 0xe50, 0xed0, 0xf20, 0x1040, 0x1090, 0x17e0, 0x1810, 0x1946, 0x19d0, 0x1a80, 0x1a90,
    0x1b50, 0x1bb0, 0x1c40, 0x1c50, 0xa620, 0xa8d0, 0xa900, 0xa9d0, 0xa9f0, 0xaa50, 0xabf0,
    0xff10, 0x104a0, 0x10d30, 0x11066, 0x110f0, 0x11136, 0x111d0, 0x112f0, 0x11450, 0x114d0,
    0x11650, 0x116c0, 0x11730, 0x118e0, 0x11950, 0x11c50, 0x11d50, 0x11da0, 0x16a60, 0x16ac0,
    0x16b50, 0x1d7ce, 0x1d7d8, 0x1d7e2, 0x1d7ec, 0x1d7f6, 0x1e140, 0x1e2f0, 0x1e950, 0x1fbf0]

/-- Digits that are not decimal (superscripts, circled digits and the like), as closed ranges:
`str.isdigit` accepts them and `int` does not. -/
def otherDigits : List (ℕ × ℕ) :=
  [(0xb2, 0xb3), (0xb9, 0xb9), (0x1369, 0x1371), (0x19da, 0x19da), (0x2070, 0x2070),
    (0x2074, 0x2079), (0x2080, 0x2089), (0x2460, 0x2468), (0x2474, 0x247c), (0x2488, 0x2490),
    (0x24ea, 0x24ea), (0x24f5, 0x24fd), (0x24ff, 0x24ff), (0x2776, 0x277e), (0x2780, 0x2788),
    (0x278a, 0x2792), (0x10a40, 0x10a43), (0x10e60, 0x10e68), (0x11052, 0x1105a),
    (0x1f100, 0x1f10a)]

/-- The value `int` gives to one decimal digit. -/
def decimalValue? (c : Char) : Option ℕ :=
  (decimalZeros.find? (fun z => z ≤ c.toNat && c.toNat ≤ z + 9)).map (c.toNat - ·)

def isdigitChar (c : Char) : Bool :=
  (decimalValue? c).isSome || otherDigits.any (fun r => r.1 ≤ c.toNat && c.toNat ≤ r.2)

/-- `str.isdigit`: nonempty and digits throughout. -/
def isdigit (s : Str) : Bool := !s.isEmpty && s.all isdigitChar

/-- `int(s)` on a string of digits; `none` stands for its `ValueError`. -/
def int? (s : Str) : Option ℕ :=
  if s = [] then none
  else s.foldl (fun acc c => acc.bind (fun n => (decimalValue? c).map (10 * n + ·))) (some 0)

/-- `s[a:b]`. -/
def slice (a b : ℕ) (s : Str) : Str := (s.take b).drop a

/-- `s.rstrip(c)` for a single character. -/
def rstripChar (c : Char) (s : Str) : Str := s.rdropWhile (· == c)

/-- `s.strip()`. -/
def strip (s : Str) : Str := (s.dropWhile isspace).rdropWhile isspace

/-- `s.replace(a, b)` for single characters. -/
def replaceChar (a b : Char) (s : Str) : Str := s.map (fun c => if c = a then b else c)

/-- The table of `str.maketrans`, at one character. -/
def translateChar (table : List (Char × Char)) (c : Char) : Char := (table.lookup c).getD c

/-- `s.translate(table)`. -/
def translate (table : List (Char × Char)) (s : Str) : Str := s.map (translateChar table)

/-- `l[a:b] = new`, on a list that reaches to `b`. -/
def setSlice (a b : ℕ) (l new : Str) : Str := l.take a ++ new ++ l.drop b

/-- `s.split(sep, 1)` for a nonempty separator: what precedes its first occurrence, and what
follows it if there is one. -/
@[grind =] def splitOnce (sep : Str) : Str → Str × Option Str
  | [] => ([], none)
  | c :: cs =>
      if sep.isPrefixOf (c :: cs) then ([], some ((c :: cs).drop sep.length))
      else ((c :: (splitOnce sep cs).1), (splitOnce sep cs).2)

/-- `re.split(r"\s{2,}", s)[0]`: the text before the first run of two whitespace characters. -/
@[grind =] def beforeSpaceRun : Str → Str
  | [] => []
  | [c] => [c]
  | c :: d :: cs => if isspace c && isspace d then [] else c :: beforeSpaceRun (d :: cs)

/-- `s.split()` with the word `cur` already begun. -/
@[grind =] def splitWordsFrom (cur : Str) : Str → List Str
  | [] => if cur = [] then [] else [cur]
  | c :: cs =>
      if isspace c then
        if cur = [] then splitWordsFrom [] cs else cur :: splitWordsFrom [] cs
      else splitWordsFrom (cur ++ [c]) cs

/-- `s.split()`. -/
def splitWords (s : Str) : List Str := splitWordsFrom [] s

/-- The line boundaries of `str.splitlines`. -/
def isLineBreak (c : Char) : Bool :=
  let n := c.toNat
  (10 ≤ n && n ≤ 13) || (28 ≤ n && n ≤ 30) || n == 0x85 || n == 0x2028 || n == 0x2029

/-- `s.splitlines()` with the line `cur` already begun, just after a carriage return or not. -/
@[grind =] def splitlinesFrom (cur : Str) (cr : Bool) : Str → List Str
  | [] => if cur = [] then [] else [cur]
  | c :: cs =>
      if cr && c == '\n' then splitlinesFrom cur false cs
      else if isLineBreak c then cur :: splitlinesFrom [] (c == '\r') cs
      else splitlinesFrom (cur ++ [c]) false cs

/-- `s.splitlines()`. -/
def splitlines (s : Str) : List Str := splitlinesFrom [] false s

/-- `s.ljust(n, c)`. -/
def ljust (n : ℕ) (c : Char) (s : Str) : Str := s ++ List.replicate (n - s.length) c

/-- `sep.join(words)` for a one-character separator. -/
@[grind =] def joinWith (sep : Char) : List Str → Str
  | [] => []
  | [w] => w
  | w :: v :: ws => w ++ sep :: joinWith sep (v :: ws)

/-- A nonempty word that avoids the characters of `avoid`. -/
def IsWord (avoid : Char → Bool) (w : Str) : Prop := w ≠ [] ∧ ∀ c ∈ w, avoid c = false

/-- The decimal digits of a number below 100, zero-padded to two places. -/
def digits2 (n : ℕ) : Str := [Nat.digitChar (n / 10), Nat.digitChar (n % 10)]

def digits4 (n : ℕ) : Str := digits2 (n / 100) ++ digits2 (n % 100)

/-- `str(n)`. -/
def natStr (n : ℕ) : Str := Nat.toDigits 10 n

def hexDigit (n : ℕ) : Char :=
  if n < 10 then Char.ofNat (48 + n) else Char.ofNat (87 + n)

/-- `n` in hexadecimal, the given number of digits. -/
def hexDigits : ℕ → ℕ → Str
  | 0, _ => []
  | width + 1, n => hexDigits width (n / 16) ++ [hexDigit (n % 16)]

/-- `repr(s)` of a string, given `str.isprintable` beyond ASCII. -/
def strRepr (isprintable : Char → Bool) (s : Str) : Str :=
  let quote := if '\'' ∈ s ∧ '"' ∉ s then '"' else '\''
  [quote] ++ s.flatMap escape ++ [quote]
where
  escape (c : Char) : Str :=
    if c = '\\' ∨ (c = '\'' ∧ '"' ∈ s) then ['\\', c]
    else if c = '\t' then ['\\', 't']
    else if c = '\n' then ['\\', 'n']
    else if c = '\r' then ['\\', 'r']
    else if c.toNat < 0x20 ∨ c.toNat = 0x7f then ['\\', 'x'] ++ hexDigits 2 c.toNat
    else if c.toNat < 0x7f ∨ isprintable c then [c]
    else if c.toNat < 0x100 then ['\\', 'x'] ++ hexDigits 2 c.toNat
    else if c.toNat < 0x10000 then ['\\', 'u'] ++ hexDigits 4 c.toNat
    else ['\\', 'U'] ++ hexDigits 8 c.toNat

theorem forall_of_all {p : Char → Prop} [DecidablePred p] {s : Str} (h : s.all (fun c => p c)) :
    ∀ c ∈ s, p c :=
  fun c hc => of_decide_eq_true (List.all_eq_true.mp h c hc)

theorem length_slice {a b : ℕ} {s : Str} (h : b ≤ s.length) : (slice a b s).length = b - a := by
  rw [slice, List.length_drop, List.length_take, Nat.min_eq_left h]

/-- Two slices that meet are one. -/
theorem slice_append_slice {a b c : ℕ} (hab : a ≤ b) (hbc : b ≤ c) (s : Str) :
    slice a b s ++ slice b c s = slice a c s := by
  have htake : s.take b = (s.take c).take b := by rw [List.take_take, Nat.min_eq_left hbc]
  unfold slice
  rw [htake, List.drop_take]
  conv_rhs => rw [← List.take_append_drop (b - a) ((s.take c).drop a)]
  rw [List.drop_drop, Nat.add_sub_cancel' hab]

theorem slice_all {b : ℕ} {s : Str} (h : s.length = b) : slice 0 b s = s := by
  rw [slice, List.drop_zero, ← h, List.take_length]

theorem slice_one {i : ℕ} {s : Str} (h : i < s.length) (d : Char) :
    slice i (i + 1) s = [s.getD i d] := by
  have hget : s.getD i d = s[i] := by simp [h]
  rw [slice, List.drop_take, Nat.add_sub_cancel_left, List.take_one_drop_eq_of_lt_length h, hget]
  rfl

theorem getElem?_slice (a b i : ℕ) (s : Str) :
    (slice a b s)[i]? = if a + i < b then s[a + i]? else none := by
  rw [slice, List.getElem?_drop, List.getElem?_take]

theorem mem_slice {a b : ℕ} {s : Str} {c : Char} :
    c ∈ slice a b s ↔ ∃ i, a ≤ i ∧ i < b ∧ s[i]? = some c := by
  rw [List.mem_iff_getElem?]
  constructor
  · rintro ⟨i, hi⟩
    rw [getElem?_slice] at hi
    split_ifs at hi with h
    exact ⟨a + i, by omega, h, hi⟩
  · rintro ⟨i, ha, hb, hi⟩
    refine ⟨i - a, ?_⟩
    rw [getElem?_slice, Nat.add_sub_cancel' ha, if_pos hb]
    exact hi

theorem slice_set {a i : ℕ} (ha : a ≤ i) (b : ℕ) (s : Str) (c : Char) :
    slice a b (s.set i c) = (slice a b s).set (i - a) c := by
  rw [slice, slice, List.take_set, List.drop_set, if_neg (by omega)]

theorem getElem?_setSlice {a b : ℕ} {l new : Str} (hab : a ≤ b) (hb : b ≤ l.length)
    (hnew : new.length = b - a) (i : ℕ) :
    (setSlice a b l new)[i]? = if a ≤ i ∧ i < b then new[i - a]? else l[i]? := by
  have htake : (l.take a).length = a := by
    rw [List.length_take]
    omega
  rw [setSlice, List.append_assoc]
  by_cases hlo : i < a
  · rw [if_neg (by omega), List.getElem?_append_left (by omega), List.getElem?_take, if_pos hlo]
  · rw [List.getElem?_append_right (by omega), htake]
    by_cases hhi : i < b
    · rw [if_pos (by omega), List.getElem?_append_left (by omega)]
    · rw [if_neg (by omega), List.getElem?_append_right (by omega), List.getElem?_drop, hnew]
      congr 1
      omega

theorem length_setSlice {a b : ℕ} {l new : Str} (hab : a ≤ b) (hb : b ≤ l.length)
    (hnew : new.length = b - a) : (setSlice a b l new).length = l.length := by
  rw [setSlice, List.length_append, List.length_append, List.length_take, List.length_drop, hnew]
  omega

theorem slice_set_of_not_mem {a b i : ℕ} (h : i < a ∨ b ≤ i) (s : Str) (c : Char) :
    slice a b (s.set i c) = slice a b s := by
  refine List.ext_getElem? (fun k => ?_)
  rw [getElem?_slice, getElem?_slice]
  by_cases hk : a + k < b
  · rw [if_pos hk, if_pos hk, List.getElem?_set_ne (by omega)]
  · rw [if_neg hk, if_neg hk]

theorem digitChar_isdigit (d : ℕ) (hd : d < 10) : isdigitChar (Nat.digitChar d) = true := by
  interval_cases d <;> rfl

theorem decimalValue?_digitChar (d : ℕ) (hd : d < 10) : decimalValue? (Nat.digitChar d) = some d := by
  interval_cases d <;> rfl

theorem natStr_of_lt_ten (d : ℕ) (hd : d < 10) : natStr d = [Nat.digitChar d] := by
  interval_cases d <;> rfl

theorem digits2_isdigit {n : ℕ} (hn : n < 100) : ∀ c ∈ digits2 n, isdigitChar c = true := by
  intro c hc
  simp only [digits2, List.mem_cons, List.not_mem_nil, or_false] at hc
  rcases hc with rfl | rfl
  · exact digitChar_isdigit _ (by omega)
  · exact digitChar_isdigit _ (by omega)

theorem int?_digits2 {n : ℕ} (hn : n < 100) : int? (digits2 n) = some n := by
  simp only [int?, digits2, if_neg (List.cons_ne_nil _ _), List.foldl_cons, List.foldl_nil,
    Option.bind_some,
    decimalValue?_digitChar _ (show n / 10 < 10 by omega),
    decimalValue?_digitChar _ (show n % 10 < 10 by omega), Option.map_some]
  congr 1
  omega

/-- What holds of the characters with numbers from `lo` to `hi` holds of one between them. -/
theorem of_between {P : Char → Prop} {lo hi : ℕ} (h : ∀ n, lo ≤ n → n ≤ hi → P (Char.ofNat n))
    {c : Char} (hlo : lo ≤ c.toNat) (hhi : c.toNat ≤ hi) : P c := by
  rw [← Char.ofNat_toNat c]
  exact h c.toNat hlo hhi

theorem digitChar_toNat_sub {c : Char} (h₀ : '0' ≤ c) (h₉ : c ≤ '9') :
    ∃ d < 10, Nat.digitChar d = c := by
  have hlo : 48 ≤ c.toNat := h₀
  have hhi : c.toNat ≤ 57 := h₉
  refine ⟨c.toNat - 48, by omega, ?_⟩
  apply Char.toNat_inj.mp
  rw [Nat.toNat_digitChar_of_lt_ten (by omega)]
  omega

/-- Two ASCII digits are the digits of a number below 100. -/
theorem exists_digits2 {a b : Char} (ha : '0' ≤ a ∧ a ≤ '9') (hb : '0' ≤ b ∧ b ≤ '9') :
    ∃ n < 100, digits2 n = [a, b] := by
  obtain ⟨x, hx, rfl⟩ := digitChar_toNat_sub ha.1 ha.2
  obtain ⟨y, hy, rfl⟩ := digitChar_toNat_sub hb.1 hb.2
  refine ⟨10 * x + y, by omega, ?_⟩
  have h₁ : (10 * x + y) / 10 = x := by omega
  have h₂ : (10 * x + y) % 10 = y := by omega
  simp only [digits2, h₁, h₂]

theorem digitChar_inj {a b : ℕ} (ha : a < 10) (hb : b < 10)
    (h : Nat.digitChar a = Nat.digitChar b) : a = b := by
  have ht := congrArg Char.toNat h
  rw [Nat.toNat_digitChar_of_lt_ten ha, Nat.toNat_digitChar_of_lt_ten hb] at ht
  omega

theorem digits2_inj {m n : ℕ} (hm : m < 100) (hn : n < 100) (h : digits2 m = digits2 n) :
    m = n := by
  simp only [digits2, List.cons.injEq, and_true] at h
  have h₁ := digitChar_inj (by omega) (by omega) h.1
  have h₂ := digitChar_inj (by omega) (by omega) h.2
  omega

/-! ### Lines -/

theorem strip_eq_nil_iff {s : Str} : strip s = [] ↔ ∀ c ∈ s, isspace c = true := by
  rw [strip, List.rdropWhile_eq_nil_iff]
  constructor
  · intro h
    by_contra hnot
    have hne : s.dropWhile isspace ≠ [] := fun hnil => hnot (List.dropWhile_eq_nil_iff.mp hnil)
    have hhead := List.head_dropWhile_not isspace hne
    rw [h _ (List.head_mem hne)] at hhead
    cases hhead
  · intro h c hc
    rw [List.dropWhile_eq_nil_iff.mpr h] at hc
    exact absurd hc List.not_mem_nil

theorem isspace_of_isLineBreak {c : Char} (h : isLineBreak c = true) : isspace c = true := by
  simp only [isLineBreak, isspace, Bool.or_eq_true, Bool.and_eq_true, decide_eq_true_eq,
    beq_iff_eq] at h ⊢
  omega

/-- A line that goes on. -/
theorem splitlinesFrom_append {w : Str} (hw : ∀ c ∈ w, isLineBreak c = false) (hne : w ≠ [])
    (cur : Str) (cr : Bool) (s : Str) :
    splitlinesFrom cur cr (w ++ s) = splitlinesFrom (cur ++ w) false s := by
  induction w generalizing cur cr with
  | nil => exact absurd rfl hne
  | cons c w ih =>
    have hc := hw c (List.mem_cons_self ..)
    have hnewline : (cr && c == '\n') = false := by
      rw [Bool.and_eq_false_iff]
      refine .inr (beq_false_of_ne ?_)
      rintro rfl
      exact absurd hc (by decide)
    rw [List.cons_append, splitlinesFrom, if_neg (by simp [hnewline]), if_neg (by simp [hc])]
    by_cases hrest : w = []
    · subst hrest
      rfl
    · rw [ih (fun d hd => hw d (List.mem_cons_of_mem _ hd)) hrest, List.append_assoc]
      rfl

theorem splitlinesFrom_append_false {w : Str} (hw : ∀ c ∈ w, isLineBreak c = false) (cur s : Str) :
    splitlinesFrom cur false (w ++ s) = splitlinesFrom (cur ++ w) false s := by
  by_cases hne : w = []
  · rw [hne, List.nil_append, List.append_nil]
  · exact splitlinesFrom_append hw hne cur false s

/-- The line that a text leaves begun, after the line `cur`. -/
@[grind =] def begun (cur : Str) : Str → Str
  | [] => cur
  | c :: cs => if isLineBreak c then begun [] cs else begun (cur ++ [c]) cs

theorem mem_begun {cur s : Str} {c : Char} (h : c ∈ begun cur s) : c ∈ cur ∨ c ∈ s := by
  induction s generalizing cur with
  | nil => exact .inl h
  | cons d s ih =>
    rw [begun] at h
    split_ifs at h with hd
    · exact .inr (List.mem_cons_of_mem _ ((ih h).resolve_left List.not_mem_nil))
    · rcases ih h with h | h
      · rcases List.mem_append.mp h with h | h
        · exact .inl h
        · exact .inr (List.mem_singleton.mp h ▸ List.mem_cons_self ..)
      · exact .inr (List.mem_cons_of_mem _ h)

theorem begun_snoc (cur s : Str) (c : Char) :
    begun cur (s ++ [c]) = if isLineBreak c then [] else begun cur s ++ [c] := by
  induction s generalizing cur with
  | nil => rfl
  | cons d s ih =>
    rw [List.cons_append, begun, begun]
    split_ifs with hd hc hc
    · rw [ih, if_pos hc]
    · rw [ih, if_neg hc]
    · rw [ih, if_pos hc]
    · rw [ih, if_neg hc]

theorem begun_of_noBreak {s : Str} (h : ∀ c ∈ s, isLineBreak c = false) (cur t : Str) :
    begun cur (s ++ t) = begun (cur ++ s) t := by
  induction s generalizing cur with
  | nil => rw [List.nil_append, List.append_nil]
  | cons c s ih =>
    rw [List.cons_append, begun, if_neg (by simp [h c (List.mem_cons_self ..)]),
      ih (fun d hd => h d (List.mem_cons_of_mem _ hd)), List.append_assoc]
    rfl

/-- No line is begun exactly when the text is empty or ends in a line break. -/
theorem begun_nil_eq_nil_iff {s : Str} :
    begun [] s = [] ↔ ∀ c, s.getLast? = some c → isLineBreak c = true := by
  induction s using List.reverseRecOn with
  | nil => simp [begun]
  | append_singleton s c _ =>
    rw [begun_snoc, List.getLast?_concat]
    by_cases hc : isLineBreak c = true
    · simp [hc]
    · simp [hc]

/-! ### Words joined by single separators -/

theorem map_joinWith (f : Char → Char) (sep : Char) (ws : List Str) :
    (joinWith sep ws).map f = joinWith (f sep) (ws.map (List.map f)) := by
  induction ws with
  | nil => rfl
  | cons w ws ih =>
      cases ws with
      | nil => rfl
      | cons v vs =>
          simp only [joinWith, List.map_append, List.map_cons] at ih ⊢
          rw [ih]

theorem replaceChar_eq_self {a b : Char} {s : Str} (hs : ∀ c ∈ s, c ≠ a) :
    replaceChar a b s = s := by
  induction s with
  | nil => rfl
  | cons c s ih =>
      have htail := ih (fun d hd => hs d (by simp [hd]))
      simp only [replaceChar, List.map_cons, if_neg (hs c (by simp))] at htail ⊢
      rw [htail]

theorem replaceChar_append (a b : Char) (s t : Str) :
    replaceChar a b (s ++ t) = replaceChar a b s ++ replaceChar a b t := List.map_append

theorem replaceChar_replicate (a b : Char) (k : ℕ) :
    replaceChar a b (List.replicate k a) = List.replicate k b := by
  simp [replaceChar]

theorem replaceChar_joinWith {a b : Char} {ws : List Str} (hws : ∀ w ∈ ws, ∀ c ∈ w, c ≠ a) :
    replaceChar a b (joinWith a ws) = joinWith b ws := by
  induction ws with
  | nil => rfl
  | cons w ws ih =>
      have hw : replaceChar a b w = w := replaceChar_eq_self (hws w (by simp))
      cases ws with
      | nil => exact hw
      | cons v vs =>
          have htail := ih (fun u hu => hws u (by simp [hu]))
          rw [joinWith, joinWith, replaceChar_append, hw]
          simp only [replaceChar, List.map_cons, if_pos] at htail ⊢
          rw [htail]

theorem joinWith_append {sep : Char} {ws vs : List Str} (hws : ws ≠ []) (hvs : vs ≠ []) :
    joinWith sep (ws ++ vs) = joinWith sep ws ++ sep :: joinWith sep vs := by
  induction ws with
  | nil => exact absurd rfl hws
  | cons w ws ih =>
    cases ws with
    | nil =>
      obtain ⟨v, rest, rfl⟩ := List.exists_cons_of_ne_nil hvs
      rfl
    | cons w' ws =>
      have hrest := ih (List.cons_ne_nil w' ws)
      rw [List.cons_append, List.cons_append, joinWith, ← List.cons_append, hrest, joinWith,
        List.append_assoc, List.cons_append]

theorem any_joinWith {sep : Char} {p : Char → Bool} (hsep : p sep = false) (ws : List Str) :
    (joinWith sep ws).any p = ws.any (fun w => w.any p) := by
  induction ws using joinWith.induct with
  | case1 => rfl
  | case2 w => simp [joinWith]
  | case3 w v ws ih =>
    rw [joinWith, List.any_append, List.any_cons, hsep, Bool.false_or, ih]
    rfl

theorem joinWith_ne_nil {sep : Char} {avoid : Char → Bool} {ws : List Str} (hne : ws ≠ [])
    (hws : ∀ w ∈ ws, IsWord avoid w) : joinWith sep ws ≠ [] := by
  cases ws with
  | nil => exact absurd rfl hne
  | cons w vs =>
      have hw := (hws w (by simp)).1
      cases vs with
      | nil => exact hw
      | cons v vs => simp [joinWith]

/-- The last character of joined words belongs to the last word. -/
theorem getLast_joinWith {sep : Char} {avoid : Char → Bool} {ws : List Str}
    (hws : ∀ w ∈ ws, IsWord avoid w) (hne : joinWith sep ws ≠ []) :
    avoid ((joinWith sep ws).getLast hne) = false := by
  induction ws with
  | nil => exact absurd rfl hne
  | cons w vs ih =>
      cases vs with
      | nil => exact (hws w (by simp)).2 _ (List.getLast_mem hne)
      | cons v vs =>
          have htail : joinWith sep (v :: vs) ≠ [] :=
            joinWith_ne_nil (by simp) (fun u hu => hws u (by simp [hu]))
          have hlast := ih (fun u hu => hws u (by simp [hu])) htail
          have hcons : sep :: joinWith sep (v :: vs) ≠ [] := by simp
          simp only [joinWith]
          rw [List.getLast_append_of_ne_nil _ hcons, List.getLast_cons htail]
          exact hlast

/-- Splitting at a doubled separator finds the end of the joined words. -/
theorem splitOnce_cons_ne {sep c : Char} (hc : c ≠ sep) (cs : Str) :
    splitOnce [sep, sep] (c :: cs) =
      (c :: (splitOnce [sep, sep] cs).1, (splitOnce [sep, sep] cs).2) := by
  have hp : [sep, sep].isPrefixOf (c :: cs) = false := by
    simp [List.isPrefixOf, hc.symm]
  simp only [splitOnce, hp, Bool.false_eq_true, if_false]

/-- A separator that no second one follows is not a split point. -/
theorem splitOnce_sep_cons_ne {sep c : Char} (hc : c ≠ sep) (cs : Str) :
    splitOnce [sep, sep] (sep :: c :: cs) =
      (sep :: (splitOnce [sep, sep] (c :: cs)).1, (splitOnce [sep, sep] (c :: cs)).2) := by
  have hp : [sep, sep].isPrefixOf (sep :: c :: cs) = false := by
    simp [List.isPrefixOf, hc.symm]
  rw [splitOnce, if_neg (by simp [hp])]

theorem splitOnce_append_of_ne {sep : Char} {w : Str} (hw : ∀ c ∈ w, c ≠ sep) (t : Str) :
    splitOnce [sep, sep] (w ++ t) = (w ++ (splitOnce [sep, sep] t).1, (splitOnce [sep, sep] t).2) := by
  induction w with
  | nil => rfl
  | cons c w ih =>
      rw [List.cons_append, splitOnce_cons_ne (hw c (by simp)), ih (fun d hd => hw d (by simp [hd]))]
      rfl

theorem splitOnce_double (sep : Char) (rest : Str) :
    splitOnce [sep, sep] (sep :: sep :: rest) = ([], some rest) := by
  have hp : [sep, sep].isPrefixOf (sep :: sep :: rest) = true := by simp [List.isPrefixOf]
  rw [splitOnce, if_pos hp]
  rfl

theorem ne_of_isWord_beq {sep : Char} {w : Str} (hw : IsWord (· == sep) w) : ∀ c ∈ w, c ≠ sep := by
  intro c hc
  simpa using hw.2 c hc

/-- Splitting at a doubled separator finds the end of the joined words. -/
theorem splitOnce_joinWith {sep : Char} {ws : List Str}
    (hws : ∀ w ∈ ws, IsWord (· == sep) w) (rest : Str) :
    splitOnce [sep, sep] (joinWith sep ws ++ sep :: sep :: rest) = (joinWith sep ws, some rest) := by
  induction ws with
  | nil => exact splitOnce_double sep rest
  | cons w ws ih =>
      have hw := ne_of_isWord_beq (hws w (by simp))
      cases ws with
      | nil =>
          rw [joinWith, splitOnce_append_of_ne hw, splitOnce_double, List.append_nil]
      | cons v vs =>
          have htail := ih (fun u hu => hws u (by simp [hu]))
          obtain ⟨c, cs, hjoin⟩ : ∃ c cs, joinWith sep (v :: vs) = c :: cs := by
            exact List.exists_cons_of_ne_nil (joinWith_ne_nil (by simp)
              (fun u hu => hws u (by simp [hu])))
          have hc : c ≠ sep := by
            obtain ⟨d, ds, rfl⟩ := List.exists_cons_of_ne_nil (hws v (by simp)).1
            have hd := ne_of_isWord_beq (hws (d :: ds) (by simp)) d (by simp)
            cases vs with
            | nil => simp only [joinWith, List.cons.injEq] at hjoin; exact hjoin.1 ▸ hd
            | cons u us =>
                simp only [joinWith, List.cons_append, List.cons.injEq] at hjoin
                exact hjoin.1 ▸ hd
          rw [joinWith, List.append_assoc, splitOnce_append_of_ne hw, List.cons_append, hjoin,
            List.cons_append, splitOnce_sep_cons_ne hc, ← List.cons_append, ← hjoin, htail]

theorem rdropWhile_append_of_all {p : Char → Bool} {s t : Str} (ht : ∀ c ∈ t, p c = true) :
    (s ++ t).rdropWhile p = s.rdropWhile p := by
  induction t using List.reverseRecOn with
  | nil => rw [List.append_nil]
  | append_singleton t c ih =>
      rw [← List.append_assoc, List.rdropWhile_concat_pos _ _ _ (ht c (by simp))]
      exact ih (fun d hd => ht d (by simp [hd]))

theorem rdropWhile_append_of_last {p : Char → Bool} {s : Str} (hne : s ≠ [])
    (hlast : p (s.getLast hne) = false) (t : Str) :
    (s ++ t).rdropWhile p = s ++ t.rdropWhile p := by
  induction t using List.reverseRecOn with
  | nil =>
      rw [List.append_nil, List.rdropWhile_nil, List.append_nil, List.rdropWhile_eq_self_iff]
      intro _
      simp [hlast]
  | append_singleton t c ih =>
      rw [← List.append_assoc]
      by_cases hc : p c = true
      · rw [List.rdropWhile_concat_pos _ _ _ hc, List.rdropWhile_concat_pos _ _ _ hc, ih]
      · rw [List.rdropWhile_concat_neg _ _ _ hc, List.rdropWhile_concat_neg _ _ _ hc,
          List.append_assoc]

/-- Stripping takes nothing from joined words. -/
theorem strip_joinWith_append {ws : List Str} (hne : ws ≠ []) (hws : ∀ w ∈ ws, IsWord isspace w)
    (t : Str) : strip (joinWith ' ' ws ++ t) = joinWith ' ' ws ++ t.rdropWhile isspace := by
  have hjoin : joinWith ' ' ws ≠ [] := joinWith_ne_nil hne hws
  have hfront : (joinWith ' ' ws ++ t).dropWhile isspace = joinWith ' ' ws ++ t := by
    obtain ⟨w, vs, rfl⟩ := List.exists_cons_of_ne_nil hne
    obtain ⟨d, ds, rfl⟩ := List.exists_cons_of_ne_nil (hws w (by simp)).1
    have hd := (hws (d :: ds) (by simp)).2 d (by simp)
    cases vs <;> simp [joinWith, hd]
  rw [strip, hfront, rdropWhile_append_of_last hjoin (getLast_joinWith hws hjoin)]

/-- Joined words neither begin nor end with whitespace. -/
theorem strip_joinWith {ws : List Str} (hws : ∀ w ∈ ws, IsWord isspace w) (k : ℕ) :
    strip (joinWith ' ' ws ++ List.replicate k ' ') = joinWith ' ' ws := by
  have hpad : ∀ c ∈ List.replicate k ' ', isspace c = true := by
    intro c hc
    rw [List.eq_of_mem_replicate hc]
    rfl
  by_cases hne : ws = []
  · rw [hne, joinWith, List.nil_append, strip_eq_nil_iff]
    exact hpad
  · have hnone : (List.replicate k ' ').rdropWhile isspace = [] := List.rdropWhile_eq_nil_iff.mpr hpad
    rw [strip_joinWith_append hne hws, hnone, List.append_nil]

theorem strip_eq_cons {c : Char} {s cs : Str} (h : strip s = c :: cs) : isspace c = false := by
  have hprefix : c :: cs <+: s.dropWhile isspace := h ▸ List.rdropWhile_prefix ..
  obtain ⟨t, ht⟩ := hprefix
  have hne : s.dropWhile isspace ≠ [] := by simp [← ht]
  have hhead := List.head_dropWhile_not isspace hne
  simpa [← ht] using hhead

theorem mem_of_mem_strip {s : Str} {c : Char} (h : c ∈ strip s) : c ∈ s :=
  (List.dropWhile_suffix _).subset ((List.rdropWhile_prefix ..).subset h)

/-- What `strip` takes off is whitespace at both ends. -/
theorem strip_split (s : Str) : ∃ w v, s = w ++ strip s ++ v ∧ (∀ c ∈ w, isspace c = true) ∧
    ∀ c ∈ v, isspace c = true := by
  refine ⟨s.takeWhile isspace, (s.dropWhile isspace).rtakeWhile isspace, ?_,
    fun c hc => List.mem_takeWhile_imp hc, fun c hc => List.mem_rtakeWhile_imp hc⟩
  rw [strip, List.append_assoc, List.rdropWhile_append_rtakeWhile, List.takeWhile_append_dropWhile]

theorem strip_append_spaces {w v : Str} (hw : ∀ c ∈ w, isspace c = true)
    (hv : ∀ c ∈ v, isspace c = true) (s : Str) : strip (w ++ s ++ v) = strip s := by
  rw [List.append_assoc, strip, List.dropWhile_append_of_pos hw, strip, List.dropWhile_append]
  by_cases h : (s.dropWhile isspace).isEmpty = true
  · rw [if_pos h, List.isEmpty_iff.mp h, List.dropWhile_eq_nil_iff.mpr hv]
  · rw [if_neg h, rdropWhile_append_of_all hv]

theorem strip_strip (s : Str) : strip (strip s) = strip s := by
  obtain ⟨w, v, hs, hw, hv⟩ := strip_split s
  have h := strip_append_spaces hw hv (strip s)
  rw [← hs] at h
  exact h.symm

theorem splitWordsFrom_spaces {v : Str} (hv : ∀ c ∈ v, isspace c = true) (cur : Str) :
    splitWordsFrom cur v = splitWordsFrom cur [] := by
  induction v generalizing cur with
  | nil => rfl
  | cons c v ih =>
    have hrest := fun d hd => hv d (List.mem_cons_of_mem c hd)
    simp only [splitWordsFrom, hv c List.mem_cons_self, if_true, ih hrest]

theorem splitWordsFrom_append_spaces {v : Str} (hv : ∀ c ∈ v, isspace c = true) (cur s : Str) :
    splitWordsFrom cur (s ++ v) = splitWordsFrom cur s := by
  induction s generalizing cur with
  | nil => exact splitWordsFrom_spaces hv cur
  | cons c s ih =>
    rw [List.cons_append, splitWordsFrom, splitWordsFrom]
    split_ifs
    · exact ih []
    · rw [ih]
    · exact ih _

/-- Whitespace around the words makes no difference. -/
theorem splitWords_append_spaces {w v : Str} (hw : ∀ c ∈ w, isspace c = true)
    (hv : ∀ c ∈ v, isspace c = true) (s : Str) : splitWords (w ++ s ++ v) = splitWords s := by
  unfold splitWords
  rw [splitWordsFrom_append_spaces hv]
  induction w with
  | nil => rfl
  | cons c w ih =>
    rw [List.cons_append, splitWordsFrom, if_pos (hw c List.mem_cons_self), if_pos rfl]
    exact ih (fun d hd => hw d (List.mem_cons_of_mem c hd))

theorem mem_of_mem_beforeSpaceRun {s : Str} {c : Char} (h : c ∈ beforeSpaceRun s) : c ∈ s := by
  induction s using beforeSpaceRun.induct with
  | case1 => exact h
  | case2 d => exact h
  | case3 d e s hrun =>
      rw [beforeSpaceRun, if_pos hrun] at h
      exact absurd h List.not_mem_nil
  | case4 d e s hrun ih =>
      rw [beforeSpaceRun, if_neg hrun] at h
      rcases List.mem_cons.mp h with rfl | h
      · exact List.mem_cons_self ..
      · exact List.mem_cons_of_mem _ (ih h)

theorem not_mem_replaceChar {a b : Char} (hab : b ≠ a) (s : Str) : a ∉ replaceChar a b s := by
  intro h
  obtain ⟨c, -, hc⟩ := List.mem_map.mp h
  split_ifs at hc with hca
  · exact hab hc
  · exact hca hc

theorem getLast?_rstripChar (c : Char) (s : Str) : (rstripChar c s).getLast? ≠ some c := by
  intro h
  obtain ⟨hne, hlast⟩ := List.mem_getLast?_eq_getLast h
  have hnot := List.rdropWhile_last_not (fun d => d == c) s hne
  exact hnot (beq_iff_eq.mpr hlast.symm)

theorem beforeSpaceRun_cons_of_not_space {c : Char} (hc : isspace c = false) (s : Str) :
    beforeSpaceRun (c :: s) = c :: beforeSpaceRun s := by
  cases s with
  | nil => rfl
  | cons d s => simp [beforeSpaceRun, hc]

theorem beforeSpaceRun_append_of_not_space {w : Str} (hw : ∀ c ∈ w, isspace c = false) (t : Str) :
    beforeSpaceRun (w ++ t) = w ++ beforeSpaceRun t := by
  induction w with
  | nil => rfl
  | cons c w ih =>
      rw [List.cons_append, beforeSpaceRun_cons_of_not_space (hw c (by simp)),
        ih (fun d hd => hw d (by simp [hd])), List.cons_append]

theorem beforeSpaceRun_joinWith_append {ws : List Str} (hne : ws ≠ [])
    (hws : ∀ w ∈ ws, IsWord isspace w) (t : Str) :
    beforeSpaceRun (joinWith ' ' ws ++ t) = joinWith ' ' ws ++ beforeSpaceRun t := by
  induction ws with
  | nil => exact absurd rfl hne
  | cons w ws ih =>
      have hw := (hws w (by simp)).2
      cases ws with
      | nil => exact beforeSpaceRun_append_of_not_space hw t
      | cons v vs =>
          have htail := ih (by simp) (fun u hu => hws u (by simp [hu]))
          rw [joinWith, List.append_assoc, beforeSpaceRun_append_of_not_space hw, List.append_assoc,
            List.cons_append]
          obtain ⟨d, ds, rfl⟩ := List.exists_cons_of_ne_nil (hws v (by simp)).1
          have hd := (hws (d :: ds) (by simp)).2 d (by simp)
          cases vs with
          | nil =>
              simp only [joinWith, List.cons_append] at htail ⊢
              simp only [beforeSpaceRun, hd, Bool.and_false, Bool.false_eq_true, if_false, htail]
          | cons u us =>
              simp only [joinWith, List.cons_append] at htail ⊢
              simp only [beforeSpaceRun, hd, Bool.and_false, Bool.false_eq_true, if_false, htail]

/-- Joined words hold no run of two whitespace characters. -/
theorem beforeSpaceRun_joinWith {ws : List Str} (hws : ∀ w ∈ ws, IsWord isspace w) :
    beforeSpaceRun (joinWith ' ' ws) = joinWith ' ' ws := by
  by_cases hne : ws = []
  · rw [hne]
    rfl
  · have h := beforeSpaceRun_joinWith_append hne hws []
    simpa only [List.append_nil, beforeSpaceRun] using h

theorem length_strip_le (s : Str) : (strip s).length ≤ s.length :=
  (List.rdropWhile_prefix _ _).length_le.trans (List.dropWhile_suffix _).length_le

theorem length_beforeSpaceRun_le (s : Str) : (beforeSpaceRun s).length ≤ s.length := by
  induction s using beforeSpaceRun.induct with
  | case1 | case2 d => exact le_rfl
  | case3 d e s hrun =>
    rw [beforeSpaceRun, if_pos hrun]
    exact Nat.zero_le _
  | case4 d e s hrun ih =>
    rw [beforeSpaceRun, if_neg hrun]
    exact Nat.succ_le_succ ih

theorem length_splitOnce_le (sep s : Str) : (splitOnce sep s).1.length ≤ s.length ∧
    ∀ rest ∈ (splitOnce sep s).2, rest.length ≤ s.length := by
  induction s with
  | nil => exact ⟨le_rfl, fun _ h => nomatch h⟩
  | cons c cs ih =>
    rw [splitOnce]
    split_ifs
    · refine ⟨Nat.zero_le _, fun rest h => ?_⟩
      rw [← Option.some.inj h, List.length_drop]
      exact Nat.sub_le _ _
    · exact ⟨Nat.succ_le_succ ih.1, fun rest h => (ih.2 rest h).trans (Nat.le_succ _)⟩

/-- The words of a text, not counting one that `inside` it has begun. -/
def wordsFrom (inside : Bool) : Str → ℕ
  | [] => 0
  | c :: cs =>
      if isspace c then wordsFrom false cs
      else if inside then wordsFrom true cs
      else wordsFrom true cs + 1

/-- The characters that are not whitespace, and one for each gap between two words. -/
def collapsedLength (s : Str) : ℕ := s.countP (fun c => !isspace c) + (wordsFrom false s - 1)

theorem length_splitWordsFrom (s cur : Str) :
    (splitWordsFrom cur s).length = wordsFrom (!cur.isEmpty) s + (if cur = [] then 0 else 1) := by
  induction s generalizing cur with
  | nil =>
    rw [splitWordsFrom, wordsFrom]
    split_ifs
    · rfl
    · rfl
  | cons c s ih =>
    rw [splitWordsFrom, wordsFrom]
    by_cases hspace : isspace c = true
    · rw [if_pos hspace, if_pos hspace]
      split_ifs
      · exact ih []
      · exact congrArg Nat.succ (ih [])
    · rw [if_neg hspace, if_neg hspace, ih]
      cases cur with
      | nil => rfl
      | cons d cur => rfl

theorem sum_splitWordsFrom (s cur : Str) :
    ((splitWordsFrom cur s).map List.length).sum =
      cur.length + s.countP (fun c => !isspace c) := by
  induction s generalizing cur with
  | nil =>
    rw [splitWordsFrom]
    split_ifs with hcur
    · rw [hcur]
      rfl
    · simp
  | cons c s ih =>
    rw [splitWordsFrom]
    by_cases hspace : isspace c = true
    · rw [if_pos hspace, List.countP_cons_of_neg (by simp [hspace])]
      split_ifs with hcur
      · rw [ih, hcur]
      · rw [List.map_cons, List.sum_cons, ih, List.length_nil, Nat.zero_add]
    · rw [if_neg hspace, List.countP_cons_of_pos (by simp [hspace]), ih, List.length_append]
      simp only [List.length_singleton]
      omega

theorem length_joinWith (sep : Char) (ws : List Str) :
    (joinWith sep ws).length = (ws.map List.length).sum + (ws.length - 1) := by
  induction ws using joinWith.induct with
  | case1 => rfl
  | case2 w => simp [joinWith]
  | case3 w v ws ih =>
    rw [joinWith, List.length_append, List.length_cons, ih]
    simp only [List.map_cons, List.sum_cons, List.length_cons]
    omega

/-- The length of a text whose runs of whitespace are collapsed. -/
theorem length_joinWith_splitWords (s : Str) :
    (joinWith ' ' (splitWords s)).length = collapsedLength s := by
  rw [length_joinWith, splitWords, sum_splitWordsFrom, length_splitWordsFrom, collapsedLength]
  simp

/-- Characters may be replaced, if whitespace is left alone. -/
theorem collapsedLength_map {f : Char → Char} (hf : ∀ c, isspace (f c) = isspace c) (s : Str) :
    collapsedLength (s.map f) = collapsedLength s := by
  have hwords : ∀ inside, wordsFrom inside (s.map f) = wordsFrom inside s := by
    induction s with
    | nil => exact fun inside => rfl
    | cons c s ih =>
      intro inside
      simp only [List.map_cons, wordsFrom, hf, ih]
  unfold collapsedLength
  rw [hwords, List.countP_map]
  simp only [Function.comp_def, hf]

theorem isWord_splitWordsFrom (s : Str) {cur : Str} (hcur : ∀ c ∈ cur, isspace c = false) :
    ∀ w ∈ splitWordsFrom cur s, IsWord isspace w := by
  induction s generalizing cur with
  | nil =>
    intro w hw
    rw [splitWordsFrom] at hw
    split_ifs at hw with hnil
    · cases hw
    · rw [List.mem_singleton.mp hw]
      exact ⟨hnil, hcur⟩
  | cons c s ih =>
    have hrest := ih (List.forall_mem_nil _)
    rw [splitWordsFrom]
    split_ifs with hspace hnil
    · exact hrest
    · exact List.forall_mem_cons.mpr ⟨⟨hnil, hcur⟩, hrest⟩
    · have hc : isspace c = false := by simpa using hspace
      exact ih (List.forall_mem_append.mpr ⟨hcur, List.forall_mem_singleton.mpr hc⟩)

theorem mem_of_mem_splitWordsFrom {s cur w : Str} (hw : w ∈ splitWordsFrom cur s) :
    ∀ c ∈ w, c ∈ cur ∨ c ∈ s := by
  induction s generalizing cur with
  | nil =>
    rw [splitWordsFrom] at hw
    split_ifs at hw
    · cases hw
    · rw [List.mem_singleton.mp hw]
      exact fun c hc => .inl hc
  | cons a s ih =>
    intro c hc
    have hrest : w ∈ splitWordsFrom [] s → c ∈ cur ∨ c ∈ a :: s := by
      intro hw
      rcases ih hw c hc with hnil | hs
      · cases hnil
      · exact .inr (List.mem_cons_of_mem a hs)
    rw [splitWordsFrom] at hw
    split_ifs at hw
    · exact hrest hw
    · rcases List.mem_cons.mp hw with rfl | hw
      · exact .inl hc
      · exact hrest hw
    · rcases ih hw c hc with hcur | hs
      · rcases List.mem_append.mp hcur with hcur | ha
        · exact .inl hcur
        · rw [List.mem_singleton.mp ha]
          exact .inr List.mem_cons_self
      · exact .inr (List.mem_cons_of_mem a hs)

theorem mem_of_mem_splitWords {s w : Str} (hw : w ∈ splitWords s) : ∀ c ∈ w, c ∈ s := by
  intro c hc
  rcases mem_of_mem_splitWordsFrom hw c hc with hnil | hs
  · cases hnil
  · exact hs

theorem isWord_splitWords (s : Str) : ∀ w ∈ splitWords s, IsWord isspace w :=
  isWord_splitWordsFrom s (List.forall_mem_nil _)

theorem splitWordsFrom_append {w : Str} (hw : ∀ c ∈ w, isspace c = false) (cur s : Str) :
    splitWordsFrom cur (w ++ s) = splitWordsFrom (cur ++ w) s := by
  induction w generalizing cur with
  | nil => rw [List.nil_append, List.append_nil]
  | cons c w ih =>
    have hrest := ih (fun d hd => hw d (List.mem_cons_of_mem c hd)) (cur ++ [c])
    rw [List.append_assoc, List.singleton_append] at hrest
    rw [List.cons_append, splitWordsFrom, if_neg (by simp [hw c List.mem_cons_self]), hrest]

/-- Joined words are split where they were joined. -/
theorem splitWords_joinWith {ws : List Str} (hws : ∀ w ∈ ws, IsWord isspace w) :
    splitWords (joinWith ' ' ws) = ws := by
  unfold splitWords
  induction ws using joinWith.induct with
  | case1 => rfl
  | case2 w =>
    obtain ⟨hne, hw⟩ := hws w List.mem_cons_self
    have hsplit := splitWordsFrom_append hw [] []
    rw [List.append_nil, List.nil_append] at hsplit
    rw [joinWith, hsplit, splitWordsFrom, if_neg hne]
  | case3 w v ws ih =>
    obtain ⟨hne, hw⟩ := hws w List.mem_cons_self
    have hblank : isspace ' ' = true := rfl
    rw [joinWith, splitWordsFrom_append hw, List.nil_append, splitWordsFrom, if_pos hblank,
      if_neg hne, ih (fun u hu => hws u (List.mem_cons_of_mem w hu))]

theorem forall_mem_joinWith {P : Char → Prop} {sep : Char} (hsep : P sep) {ws : List Str}
    (hws : ∀ w ∈ ws, ∀ c ∈ w, P c) : ∀ c ∈ joinWith sep ws, P c := by
  induction ws using joinWith.induct with
  | case1 => exact List.forall_mem_nil _
  | case2 w => exact hws w List.mem_cons_self
  | case3 w v ws ih =>
    have hrest := ih (fun u hu => hws u (List.mem_cons_of_mem w hu))
    rw [joinWith]
    exact List.forall_mem_append.mpr
      ⟨hws w List.mem_cons_self, List.forall_mem_cons.mpr ⟨hsep, hrest⟩⟩

end PyString
