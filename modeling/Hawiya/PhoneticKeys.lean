import Mathlib.Data.List.Destutter
import Hawiya.LatinPrefixes
import Hawiya.Repositories

/-!
# What a phonetic key depends on

The key of a Latin name is the first six of its sounds: the classes of its letters, without vowels
and without repetitions. Whitespace, separators and case have no sound. The prefix is taken off only
at the very beginning of the name, so whitespace before it, or after a name that is nothing but a
prefix, can change the key.
-/

namespace Hawiya.ArabicNames
open PyString

/-- What the functions rest on of the character database. -/
structure Unicode.Lawful (u : Unicode) : Prop where
  upper_append : ∀ s t, u.upper (s ++ t) = u.upper s ++ u.upper t
  upper_ascii : ∀ c : Char, c.toNat < 128 → u.upper [c] = [c.toUpper]
  /-- The capital `I` with a dot. -/
  upper_dotted : u.upper ['\u0130'] = ['\u0130']
  /-- The small `i` without a dot. -/
  upper_dotless : u.upper ['\u0131'] = ['I']
  upper_space : ∀ c, isspace c = true → u.upper [c] = [c]
  isalpha_ascii : ∀ c : Char, c.toNat < 128 → u.isalpha c = c.isAlpha
  isalpha_space : ∀ c, isspace c = true → u.isalpha c = false
  /-- Whitespace around a string composes with nothing in it. -/
  nfc_spaces : ∀ w s v, (∀ c ∈ w, isspace c = true) → (∀ c ∈ v, isspace c = true) →
    ∃ w' v', (∀ c ∈ w', isspace c = true) ∧ (∀ c ∈ v', isspace c = true) ∧
      u.nfc (w ++ s ++ v) = w' ++ u.nfc s ++ v'

/-- The class of each letter that has one. -/
def classes (u : Unicode) (text : Str) : Str :=
  ((u.upper text).filter u.isalpha).flatMap (codeOf latinPhoneticMap)

/-- The classes without adjacent repetitions. -/
def sounds (u : Unicode) (text : Str) : Str := (classes u text).destutter (· ≠ ·)

theorem length_codeOf_le (c : Char) : (codeOf latinPhoneticMap c).length ≤ 1 := by
  unfold codeOf
  cases h : latinPhoneticMap.find? (fun e => c ∈ e.1) with
  | none => simp
  | some e =>
    have hall : ∀ e ∈ latinPhoneticMap, e.2.length ≤ 1 := by
      simp [latinPhoneticMap]
    exact hall e (List.mem_of_find?_eq_some h)

/-- One round of `compress`. -/
def pushCode (out : List Str) (c : Str) : List Str :=
  if c = [] then out else if out.getLast? = some c then out else out ++ [c]

theorem foldl_pushCode {codes : List Str} (h : ∀ c ∈ codes, c.length ≤ 1) (out : List Str)
    (a : Char) :
    codes.foldl pushCode (out ++ [[a]]) =
      out ++ (codes.flatten.destutter' (· ≠ ·) a).map (fun c => [c]) := by
  induction codes generalizing out a with
  | nil => rfl
  | cons c codes ih =>
    have hrest := fun d hd => h d (List.mem_cons_of_mem c hd)
    rw [List.foldl_cons, List.flatten_cons]
    match c, h c List.mem_cons_self with
    | [], _ => exact ih hrest out a
    | [b], _ =>
      unfold pushCode
      rw [if_neg (by simp), List.getLast?_concat, List.singleton_append]
      by_cases hab : a = b
      · subst hab
        rw [if_pos rfl, List.destutter'_cons_neg _ (by simp)]
        exact ih hrest out a
      · rw [if_neg (by simpa using hab), List.destutter'_cons_pos _ hab]
        refine (ih hrest (out ++ [[a]]) b).trans ?_
        simp

theorem compress_eq_destutter {codes : List Str} (h : ∀ c ∈ codes, c.length ≤ 1) :
    compress codes = codes.flatten.destutter (· ≠ ·) := by
  have hfold : codes.foldl pushCode [] =
      (codes.flatten.destutter (· ≠ ·)).map (fun c => [c]) := by
    induction codes with
    | nil => rfl
    | cons c codes ih =>
      have hrest := fun d hd => h d (List.mem_cons_of_mem c hd)
      match c, h c List.mem_cons_self with
      | [], _ => exact ih hrest
      | [b], _ => exact foldl_pushCode hrest [] b
  change (codes.foldl pushCode []).flatten = _
  rw [hfold, ← List.flatMap_def, List.flatMap_singleton']

variable {u : Unicode}

theorem latinPhonetic_eq (n : Str) :
    latinPhonetic u n = (sounds u (stripPrefixes n)).take phoneticKeyLength := by
  have hshort : ∀ c ∈ ((u.upper (stripPrefixes n)).filter u.isalpha).map (codeOf latinPhoneticMap),
      c.length ≤ 1 := by
    intro c hc
    obtain ⟨ch, -, rfl⟩ := List.mem_map.mp hc
    exact length_codeOf_le ch
  unfold latinPhonetic sounds classes
  dsimp only
  rw [compress_eq_destutter hshort, List.flatMap_def]

namespace Unicode.Lawful
variable (h : u.Lawful)
include h

theorem upper_nil : u.upper [] = [] := by
  have hlength := congrArg List.length (h.upper_append [] [])
  rw [List.append_nil, List.length_append] at hlength
  exact List.length_eq_zero_iff.mp (by omega)

theorem classes_append (s t : Str) : classes u (s ++ t) = classes u s ++ classes u t := by
  unfold classes
  rw [h.upper_append, List.filter_append, List.flatMap_append]

theorem classes_nil : classes u [] = [] := by
  unfold classes
  rw [h.upper_nil]
  rfl

theorem classes_cons (c : Char) (s : Str) : classes u (c :: s) = classes u [c] ++ classes u s :=
  h.classes_append [c] s

/-- What holds of each character holds of the string. -/
theorem classes_eq_nil {s : Str} (hs : ∀ c ∈ s, classes u [c] = []) : classes u s = [] := by
  induction s with
  | nil => exact h.classes_nil
  | cons c s ih =>
    rw [h.classes_cons, hs c List.mem_cons_self, ih (fun d hd => hs d (List.mem_cons_of_mem c hd))]
    rfl

theorem classes_separator {c : Char} (hc : isSeparator c = true) : classes u [c] = [] := by
  unfold isSeparator at hc
  unfold classes
  by_cases hspace : isspace c = true
  · rw [h.upper_space c hspace, List.filter_cons_of_neg (by simp [h.isalpha_space c hspace])]
    rfl
  · have hhyphen : c = '-' := by simpa [hspace] using hc
    subst hhyphen
    rw [h.upper_ascii '-' (by decide)]
    have hnot : u.isalpha '-' = false := h.isalpha_ascii '-' (by decide)
    have hsame : '-'.toUpper = '-' := rfl
    rw [hsame, List.filter_cons_of_neg (by simp [hnot])]
    rfl

theorem classes_spaces {w : Str} (hw : ∀ c ∈ w, isspace c = true) : classes u w = [] :=
  h.classes_eq_nil (fun c hc => h.classes_separator (by simp [isSeparator, hw c hc]))

theorem classes_separators {w : Str} (hw : ∀ c ∈ w, isSeparator c = true) : classes u w = [] :=
  h.classes_eq_nil (fun c hc => h.classes_separator (hw c hc))

theorem classes_dropWhile (x : Str) : classes u (x.dropWhile isSeparator) = classes u x := by
  have hsplit := h.classes_append (x.takeWhile isSeparator) (x.dropWhile isSeparator)
  rw [List.takeWhile_append_dropWhile,
    h.classes_separators (fun c hc => List.mem_takeWhile_imp hc)] at hsplit
  exact hsplit.symm

theorem classes_strip (s : Str) : classes u (strip s) = classes u s := by
  obtain ⟨w, v, hs, hw, hv⟩ := strip_split s
  have hsplit : classes u s = classes u w ++ classes u (strip s) ++ classes u v := by
    rw [← h.classes_append, ← h.classes_append, ← hs]
  rw [hsplit, h.classes_spaces hw, h.classes_spaces hv, List.append_nil, List.nil_append]

theorem classes_ascii {c : Char} (hc : c.toNat < 128) (hupper : c.toUpper.toNat < 128)
    (halpha : c.toUpper.isAlpha = true) : classes u [c] = codeOf latinPhoneticMap c.toUpper := by
  unfold classes
  rw [h.upper_ascii c hc,
    List.filter_cons_of_pos (by rw [h.isalpha_ascii _ hupper, halpha])]
  simp

/-- A letter has the class of its capital. -/
theorem classes_lower {c : Char} (hc : IsLower c) :
    classes u [c] = codeOf latinPhoneticMap c.toUpper := by
  have hall : ∀ n, 97 ≤ n → n ≤ 122 →
      (Char.ofNat n).toUpper.toNat < 128 ∧ (Char.ofNat n).toUpper.isAlpha = true :=
    fun n h₁ h₂ => by interval_cases n <;> decide
  obtain ⟨hupper, halpha⟩ := of_between
    (P := fun c => c.toUpper.toNat < 128 ∧ c.toUpper.isAlpha = true) hall hc.1 hc.2
  have hascii : c.toNat < 128 := by
    unfold IsLower at hc
    omega
  exact h.classes_ascii hascii hupper halpha

/-- Case makes no difference. -/
theorem classes_fold_char (c : Char) : classes u [fold c] = classes u [c] := by
  unfold fold
  by_cases hdotted : c = '\u0130' ∨ c = '\u0131'
  · rw [if_pos hdotted, h.classes_lower (by decide)]
    unfold classes
    rcases hdotted with rfl | rfl
    · rw [h.upper_dotted]
      by_cases halpha : u.isalpha '\u0130' = true
      · rw [List.filter_cons_of_pos halpha]
        rfl
      · rw [List.filter_cons_of_neg halpha]
        rfl
    · have halpha : u.isalpha 'I' = true := h.isalpha_ascii 'I' (by decide)
      rw [h.upper_dotless, List.filter_cons_of_pos halpha]
      rfl
  · rw [if_neg hdotted]
    by_cases hupper : 65 ≤ c.toNat ∧ c.toNat ≤ 90
    · have hall : ∀ n, 65 ≤ n → n ≤ 90 → (Char.ofNat n).toUpper.toNat < 128 ∧
          (Char.ofNat n).toUpper.isAlpha = true ∧
          (Char.ofNat n).toLower.toUpper = (Char.ofNat n).toUpper :=
        fun n h₁ h₂ => by interval_cases n <;> decide
      obtain ⟨hascii, halpha, hsame⟩ := of_between (P := fun c => c.toUpper.toNat < 128 ∧
        c.toUpper.isAlpha = true ∧ c.toLower.toUpper = c.toUpper) hall hupper.1 hupper.2
      have hlower := toNat_toLower hupper.1 hupper.2
      rw [h.classes_lower ⟨by omega, by omega⟩, hsame, h.classes_ascii (by omega) hascii halpha]
    · rw [toLower_of_not_upper hupper]

theorem classes_fold (s : Str) : classes u (s.map fold) = classes u s := by
  induction s with
  | nil => rfl
  | cons c s ih => rw [List.map_cons, h.classes_cons, h.classes_cons c, h.classes_fold_char, ih]

end Unicode.Lawful

theorem not_arabic_of_lt {c : Char} (h : c.toNat < 0x600) : inRange 0x600 0x6ff c = false := by
  unfold inRange
  simp only [Bool.and_eq_false_iff, decide_eq_false_iff_not]
  omega

theorem not_arabic_of_isspace {c : Char} (h : isspace c = true) : inRange 0x600 0x6ff c = false := by
  unfold inRange
  simp only [isspace, Bool.or_eq_true, Bool.and_eq_true, decide_eq_true_eq, beq_iff_eq] at h
  simp only [Bool.and_eq_false_iff, decide_eq_false_iff_not]
  omega

theorem inRange_fold (c : Char) : inRange 0x600 0x6ff (fold c) = inRange 0x600 0x6ff c := by
  rcases fold_cases c with h | ⟨hlower, -, hlt⟩
  · rw [h]
  · have hlt' : (fold c).toNat < 0x600 := by
      unfold IsLower at hlower
      omega
    rw [not_arabic_of_lt hlt, not_arabic_of_lt hlt']

theorem isArabicScript_fold (s : Str) : isArabicScript (s.map fold) = isArabicScript s := by
  unfold isArabicScript
  rw [List.any_map]
  exact congrArg s.any (funext inRange_fold)

theorem isArabicScript_append (s t : Str) :
    isArabicScript (s ++ t) = (isArabicScript s || isArabicScript t) := List.any_append

theorem isArabicScript_spaces {w : Str} (hw : ∀ c ∈ w, isspace c = true) :
    isArabicScript w = false :=
  List.any_eq_false.mpr (fun c hc => by simp [not_arabic_of_isspace (hw c hc)])

theorem isArabicScript_strip (s : Str) : isArabicScript (strip s) = isArabicScript s := by
  obtain ⟨w, v, hs, hw, hv⟩ := strip_split s
  have hsplit : isArabicScript s = (isArabicScript w || isArabicScript (strip s) ||
      isArabicScript v) := by
    rw [← isArabicScript_append, ← isArabicScript_append, ← hs]
  rw [hsplit, isArabicScript_spaces hw, isArabicScript_spaces hv, Bool.or_false, Bool.false_or]

/-- The Arabic article is not taken off a Latin name. -/
theorem stripPrefixes_latin {n : Str} (hn : isArabicScript n = false) :
    stripPrefixes n = strip ((afterLatinPrefix n).getD n) := by
  unfold stripPrefixes
  by_cases hnil : n = []
  · subst hnil
    rfl
  · rw [if_neg hnil]
    by_cases hsame : strip ((afterLatinPrefix n).getD n) ≠ n
    · rw [if_pos hsame]
    · have hnone : arabicPrefixes.find? (fun p => p.isPrefixOf n && p.length < n.length) = none := by
        refine List.find?_eq_none.mpr (fun p hp => ?_)
        obtain rfl : p = ['\u0627', '\u0644'] := by simpa [arabicPrefixes] using hp
        intro hfound
        obtain ⟨t, rfl⟩ := List.isPrefixOf_iff_prefix.mp (Bool.and_eq_true_iff.mp hfound).1
        exact absurd hn (by simp [isArabicScript, inRange])
      rw [not_not] at hsame
      simp only [hsame, ne_eq, not_true_eq_false, if_false, hnone]

/-- A recognised prefix begins and ends with a letter. -/
theorem recognised_ends {f : Str} (h : Recognised f) :
    ∃ c g d k, f = c :: g ∧ f = k ++ [d] ∧ IsLower c ∧ IsLower d := by
  cases h with
  | word hw =>
    simp only [prefixWords, List.mem_cons, List.not_mem_nil, or_false] at hw
    rcases hw with rfl | rfl | rfl | rfl | rfl | rfl
    · exact ⟨'a', ['l'], 'l', ['a'], rfl, rfl, by decide, by decide⟩
    · exact ⟨'e', ['l'], 'l', ['e'], rfl, rfl, by decide, by decide⟩
    · exact ⟨'b', ['i', 'n'], 'n', ['b', 'i'], rfl, rfl, by decide, by decide⟩
    · exact ⟨'b', ['i', 'n', 't'], 't', ['b', 'i', 'n'], rfl, rfl, by decide, by decide⟩
    · exact ⟨'i', ['b', 'n'], 'n', ['i', 'b'], rfl, rfl, by decide, by decide⟩
    · exact ⟨'a', ['b', 'd', 'u', 'l'], 'l', ['a', 'b', 'd', 'u'], rfl, rfl, by decide, by decide⟩
  | @abd w hne hspaces v hv =>
    rcases hv with rfl | rfl
    · exact ⟨'a', ['b', 'd'] ++ w ++ ['a', 'l'], 'l', ['a', 'b', 'd'] ++ w ++ ['a'], rfl, by simp,
        by decide, by decide⟩
    · exact ⟨'a', ['b', 'd'] ++ w ++ ['e', 'l'], 'l', ['a', 'b', 'd'] ++ w ++ ['e'], rfl, by simp,
        by decide, by decide⟩

theorem IsPrefix.head {p : Str} (h : IsPrefix p) : ∃ c t, p = c :: t ∧ isspace c = false := by
  obtain ⟨c, g, -, -, hf, -, hc, -⟩ := recognised_ends h
  obtain ⟨d, t, rfl, rfl, -⟩ := List.map_eq_cons_iff.mp hf
  exact ⟨d, t, rfl, by rw [← isspace_fold, not_isspace_of_isLower hc]⟩

theorem IsPrefix.last {p : Str} (h : IsPrefix p) : ∃ t c, p = t ++ [c] ∧ isspace c = false := by
  obtain ⟨-, -, d, k, -, hf, -, hd⟩ := recognised_ends h
  obtain ⟨t, l, rfl, -, hl⟩ := List.map_eq_append_iff.mp hf
  obtain ⟨c, l', rfl, rfl, hl'⟩ := List.map_eq_cons_iff.mp hl
  rw [List.map_eq_nil_iff] at hl'
  subst hl'
  exact ⟨t, c, rfl, by rw [← isspace_fold, not_isspace_of_isLower hd]⟩

/-- No prefix is found behind whitespace. -/
theorem afterLatinPrefix_space {c : Char} (hc : isspace c = true) (s : Str) :
    afterLatinPrefix (c :: s) = none := by
  refine afterLatinPrefix_eq_none_iff.mpr (fun p w x hp hw heq => ?_)
  obtain ⟨d, t, rfl, hd⟩ := hp.head
  obtain ⟨rfl, -⟩ := List.cons.inj heq
  rw [hc] at hd
  cases hd

theorem isArabicScript_prefix {p : Str} (h : IsPrefix p) : isArabicScript p = false := by
  have hlower : ∀ {f : Str}, (∀ c ∈ f, IsLower c) → isArabicScript f = false := by
    intro f hf
    refine List.any_eq_false.mpr (fun c hc => ?_)
    have hc' := hf c hc
    unfold IsLower at hc'
    simp [not_arabic_of_lt (show c.toNat < 0x600 by omega)]
  rw [← isArabicScript_fold]
  unfold IsPrefix at h
  generalize p.map fold = f at h ⊢
  cases h with
  | word hw => exact hlower (isLower_of_mem_prefixWords _ hw)
  | @abd w hne hspaces v hv =>
    rw [isArabicScript_append, isArabicScript_append, isArabicScript_spaces hspaces,
      hlower (isLower_article hv).1]
    rfl

theorem isArabicScript_separators {w : Str} (hw : Separators w) : isArabicScript w = false := by
  refine List.any_eq_false.mpr (fun c hc => ?_)
  have hsep := hw.2 c hc
  unfold isSeparator at hsep
  by_cases hspace : isspace c = true
  · simp [not_arabic_of_isspace hspace]
  · have hhyphen : c = '-' := by simpa [hspace] using hsep
    subst hhyphen
    decide

namespace Unicode.Lawful
variable (h : u.Lawful)
include h

/-- The key of a Latin name: the first sounds of what follows its prefix. -/
theorem phoneticKey_latin {n : Str} (hn : isArabicScript n = false) :
    phoneticKey u n = (sounds u ((afterLatinPrefix n).getD n)).take phoneticKeyLength := by
  unfold phoneticKey
  by_cases hblank : n = [] ∨ strip n = []
  · have hspaces : ∀ c ∈ n, isspace c = true := by
      rcases hblank with rfl | hstrip
      · simp
      · exact strip_eq_nil_iff.mp hstrip
    have hnone : afterLatinPrefix n = none := by
      cases n with
      | nil => rfl
      | cons c s => exact afterLatinPrefix_space (hspaces c List.mem_cons_self) s
    rw [if_pos hblank, hnone, Option.getD_none]
    unfold sounds
    rw [h.classes_spaces hspaces]
    rfl
  · rw [if_neg hblank, if_neg (by simp [hn]), latinPhonetic_eq, stripPrefixes_latin hn]
    unfold sounds
    rw [h.classes_strip]

theorem phoneticKey_none {n : Str} (hn : isArabicScript n = false)
    (hnone : afterLatinPrefix n = none) :
    phoneticKey u n = (sounds u n).take phoneticKeyLength := by
  rw [h.phoneticKey_latin hn, hnone, Option.getD_none]

theorem phoneticKey_prefixed {p w : Str} (hp : IsPrefix p) (hw : Separators w) {x : Str}
    (hx : isArabicScript x = false) :
    phoneticKey u (p ++ (w ++ x)) = (sounds u x).take phoneticKeyLength := by
  have hn : isArabicScript (p ++ (w ++ x)) = false := by
    rw [isArabicScript_append, isArabicScript_append, isArabicScript_prefix hp,
      isArabicScript_separators hw, hx]
    rfl
  rw [h.phoneticKey_latin hn, afterLatinPrefix_append hp hw, Option.getD_some]
  unfold sounds
  rw [h.classes_dropWhile]

/-- Case makes no difference to the key. -/
theorem phoneticKey_of_fold {m n : Str} (hn : isArabicScript n = false)
    (hmn : m.map fold = n.map fold) : phoneticKey u m = phoneticKey u n := by
  have hm : isArabicScript m = false := by
    rw [← isArabicScript_fold, hmn, isArabicScript_fold, hn]
  have hsounds : ∀ {x y : Str}, x.map fold = y.map fold → sounds u x = sounds u y := by
    intro x y hxy
    unfold sounds
    rw [← h.classes_fold x, hxy, h.classes_fold]
  have hsplit : ∀ {m p w x : Str}, m.map fold = (p ++ (w ++ x)).map fold → IsPrefix p →
      Separators w → ∃ p' w' x', m = p' ++ (w' ++ x') ∧ IsPrefix p' ∧ Separators w' ∧
        x'.map fold = x.map fold := by
    intro m p w x hm hp hw
    rw [List.map_append, List.map_append] at hm
    obtain ⟨p', y, rfl, hp', hy⟩ := List.map_eq_append_iff.mp hm
    obtain ⟨w', x', rfl, hw', hx'⟩ := List.map_eq_append_iff.mp hy
    refine ⟨p', w', x', rfl, by unfold IsPrefix; rw [hp']; exact hp, ⟨?_, fun c hc => ?_⟩, hx'⟩
    · rintro rfl
      exact hw.1 (List.map_eq_nil_iff.mp hw'.symm)
    · obtain ⟨d, hd, hfold⟩ := List.mem_map.mp (hw' ▸ List.mem_map_of_mem (f := fold) hc)
      rw [← isSeparator_fold c, ← hfold, isSeparator_fold]
      exact hw.2 d hd
  cases hfound : afterLatinPrefix n with
  | none =>
    have hnone : afterLatinPrefix m = none := by
      refine afterLatinPrefix_eq_none_iff.mpr ?_
      rintro p w x hp hw rfl
      obtain ⟨p', w', x', hn', hp', hw', -⟩ := hsplit hmn.symm hp hw
      exact afterLatinPrefix_eq_none_iff.mp hfound p' w' x' hp' hw' hn'
    rw [h.phoneticKey_none hm hnone, h.phoneticKey_none hn hfound, hsounds hmn]
  | some r =>
    obtain ⟨p, w, hp, hw, rfl⟩ := afterLatinPrefix_eq_some hfound
    obtain ⟨p', w', x', rfl, hp', hw', hx'⟩ := hsplit hmn hp hw
    have hr : isArabicScript r = false := by
      rw [isArabicScript_append, isArabicScript_append] at hn
      exact (Bool.or_eq_false_iff.mp (Bool.or_eq_false_iff.mp hn).2).2
    have hx : isArabicScript x' = false := by
      rw [← isArabicScript_fold, hx', isArabicScript_fold, hr]
    rw [h.phoneticKey_prefixed hp' hw' hx, h.phoneticKey_prefixed hp hw hr, hsounds hx']

end Unicode.Lawful

/-- The sounds of the recognised prefixes. -/
def prefixSounds : List Str := [['L'], ['B', 'N'], ['B', 'N', 'T'], ['B', 'T', 'L']]

/-- What the sounds of a name begin with that has the same key with this before it: the `L` of `al`
and `el` disappears in a following one, and the others are repeated to the end of the key. -/
def echo (l : Str) : Str := if l = ['L'] then l else (l ++ l ++ l).take phoneticKeyLength

theorem destutter_cons_eq (a : Char) (l : Str) :
    (a :: l).destutter (· ≠ ·) =
      if (l.destutter (· ≠ ·)).head? = some a then l.destutter (· ≠ ·)
      else a :: l.destutter (· ≠ ·) := by
  have hhead : ∀ (b : Char) (l : Str), (l.destutter' (· ≠ ·) b).head? = some b := by
    intro b l
    induction l generalizing b with
    | nil => rfl
    | cons c l ih =>
      by_cases hbc : b = c
      · subst hbc
        rw [List.destutter'_cons_neg _ (by simp), ih]
      · rw [List.destutter'_cons_pos _ hbc]
        rfl
  cases l with
  | nil => rfl
  | cons b l =>
    rw [List.destutter_cons', List.destutter_cons', hhead]
    by_cases hab : a = b
    · subst hab
      rw [List.destutter'_cons_neg _ (by simp), if_pos rfl]
    · rw [List.destutter'_cons_pos _ hab, if_neg (by simpa using Ne.symm hab)]

theorem take_six_two {α : Type} (a b : α) (l : List α) :
    (a :: b :: l).take 6 = l.take 6 ↔ [a, b, a, b, a, b] <+: l := by
  rcases l with _ | ⟨x₁, _ | ⟨x₂, _ | ⟨x₃, _ | ⟨x₄, _ | ⟨x₅, _ | ⟨x₆, l⟩⟩⟩⟩⟩⟩
  all_goals simp [List.cons_prefix_cons]
  all_goals grind

theorem take_six_three {α : Type} (a b c : α) (l : List α) :
    (a :: b :: c :: l).take 6 = l.take 6 ↔ [a, b, c, a, b, c] <+: l := by
  rcases l with _ | ⟨x₁, _ | ⟨x₂, _ | ⟨x₃, _ | ⟨x₄, _ | ⟨x₅, _ | ⟨x₆, l⟩⟩⟩⟩⟩⟩
  all_goals simp [List.cons_prefix_cons]
  all_goals grind

theorem destutter_cons_ne {a b : Char} (hab : a ≠ b) (l : Str) :
    (a :: b :: l).destutter (· ≠ ·) = a :: (b :: l).destutter (· ≠ ·) := by
  rw [List.destutter_cons_cons, if_pos hab, List.destutter_cons']

/-- Lists with different first letters. -/
theorem take_prefix_of_head_ne {a b : Char} {k k' m : Str} (hab : a ≠ b) (hm : m.head? = some b) :
    (a :: k).take 6 = m.take 6 ↔ a :: k' <+: m := by
  obtain ⟨m, rfl⟩ := List.head?_eq_some_iff.mp hm
  simp [List.cons_prefix_cons, hab]

/-- With its sounds before the others, a prefix leaves the first six as they are exactly when the
others begin with its echo. -/
theorem take_destutter_iff {p : Str} (hp : p ∈ prefixSounds) (l : Str) :
    ((p ++ l).destutter (· ≠ ·)).take 6 = (l.destutter (· ≠ ·)).take 6 ↔
      echo p <+: l.destutter (· ≠ ·) := by
  simp only [prefixSounds, List.mem_cons, List.not_mem_nil, or_false] at hp
  rcases hp with rfl | rfl | rfl | rfl
  · rw [List.cons_append, List.nil_append, destutter_cons_eq]
    generalize l.destutter (· ≠ ·) = m
    split_ifs with hm
    · obtain ⟨m, rfl⟩ := List.head?_eq_some_iff.mp hm
      simp [echo, List.cons_prefix_cons]
    · cases m with
      | nil => simp [echo]
      | cons b m =>
        have hb : b ≠ 'L' := by simpa using hm
        simp [echo, List.cons_prefix_cons, hb.symm]
  · change (('B' :: 'N' :: l).destutter (· ≠ ·)).take 6 = _ ↔ ['B', 'N', 'B', 'N', 'B', 'N'] <+: _
    rw [destutter_cons_ne (by decide), destutter_cons_eq]
    generalize l.destutter (· ≠ ·) = m
    split_ifs with hm
    · exact take_prefix_of_head_ne (by decide) hm
    · exact take_six_two 'B' 'N' m
  · change (('B' :: 'N' :: 'T' :: l).destutter (· ≠ ·)).take 6 = _ ↔
      ['B', 'N', 'T', 'B', 'N', 'T'] <+: _
    rw [destutter_cons_ne (by decide), destutter_cons_ne (by decide), destutter_cons_eq]
    generalize l.destutter (· ≠ ·) = m
    split_ifs with hm
    · exact take_prefix_of_head_ne (by decide) hm
    · exact take_six_three 'B' 'N' 'T' m
  · change (('B' :: 'T' :: 'L' :: l).destutter (· ≠ ·)).take 6 = _ ↔
      ['B', 'T', 'L', 'B', 'T', 'L'] <+: _
    rw [destutter_cons_ne (by decide), destutter_cons_ne (by decide), destutter_cons_eq]
    generalize l.destutter (· ≠ ·) = m
    split_ifs with hm
    · exact take_prefix_of_head_ne (by decide) hm
    · exact take_six_three 'B' 'T' 'L' m

/-- A name, without whitespace around it, whose key does not depend on what is around it: it is not
itself a prefix, and if it begins with one, the sounds of the rest begin with the prefix's echo. -/
structure PrefixSafe (u : Unicode) (s : Str) : Prop where
  not_bare : ¬ IsPrefix s
  echoed : ∀ p w x, s = p ++ (w ++ x) → IsPrefix p → Separators w → echo (classes u p) <+: sounds u x

namespace Unicode.Lawful
variable (h : u.Lawful)
include h

theorem classes_prefix {p : Str} (hp : IsPrefix p) : classes u p ∈ prefixSounds := by
  rw [← h.classes_fold]
  unfold IsPrefix at hp
  generalize p.map fold = f at hp ⊢
  have hword : ∀ {c : Char} {s : Str}, IsLower c →
      classes u (c :: s) = codeOf latinPhoneticMap c.toUpper ++ classes u s := by
    intro c s hc
    rw [h.classes_cons, h.classes_lower hc]
  have hnil := h.classes_nil
  cases hp with
  | word hw =>
    simp only [prefixWords, List.mem_cons, List.not_mem_nil, or_false] at hw
    rcases hw with rfl | rfl | rfl | rfl | rfl | rfl
    · rw [hword (by decide), hword (by decide), hnil]
      decide
    · rw [hword (by decide), hword (by decide), hnil]
      decide
    · rw [hword (by decide), hword (by decide), hword (by decide), hnil]
      decide
    · rw [hword (by decide), hword (by decide), hword (by decide), hword (by decide), hnil]
      decide
    · rw [hword (by decide), hword (by decide), hword (by decide), hnil]
      decide
    · rw [hword (by decide), hword (by decide), hword (by decide), hword (by decide),
        hword (by decide), hnil]
      decide
  | @abd w hne hspaces v hv =>
    rw [h.classes_append, h.classes_append, h.classes_spaces hspaces, hword (by decide),
      hword (by decide), hword (by decide), hnil]
    rcases hv with rfl | rfl
    · rw [hword (by decide), hword (by decide), hnil]
      decide
    · rw [hword (by decide), hword (by decide), hnil]
      decide

/-- The key with the prefix and without. -/
theorem key_echo_iff {p w : Str} (hp : IsPrefix p) (hw : Separators w) (x : Str) :
    (sounds u (p ++ (w ++ x))).take phoneticKeyLength = (sounds u x).take phoneticKeyLength ↔
      echo (classes u p) <+: sounds u x := by
  unfold sounds
  rw [h.classes_append, h.classes_append, h.classes_separators hw.2, List.nil_append]
  exact take_destutter_iff (h.classes_prefix hp) (classes u x)

omit h in
/-- A recognised prefix of a safe name with whitespace behind it is one of the name, which goes on:
it would otherwise end in whitespace, or be the whole name. -/
theorem prefix_of_safe {s v p t : Str} (hsafe : PrefixSafe u s) (hv : ∀ c ∈ v, isspace c = true)
    (hp : IsPrefix p) (heq : s ++ v = p ++ t) : ∃ a, a ≠ [] ∧ s = p ++ a ∧ t = a ++ v := by
  rcases List.append_eq_append_iff.mp heq with ⟨a, rfl, ha⟩ | ⟨a, hsa, ha⟩
  · obtain ⟨t, c, ht, hc⟩ := hp.last
    rcases List.eq_nil_or_concat' a with rfl | ⟨a, d, rfl⟩
    · rw [List.append_nil] at hp
      exact absurd hp hsafe.not_bare
    · rw [← List.append_assoc] at ht
      obtain ⟨-, hd⟩ := List.append_inj' ht rfl
      have hdc : d = c := by simpa using hd
      rw [← hdc, hv d (by rw [ha]; simp)] at hc
      cases hc
  · refine ⟨a, ?_, hsa, ha⟩
    rintro rfl
    rw [List.append_nil] at hsa
    rw [hsa] at hsafe
    exact hsafe.not_bare hp

omit h in
theorem afterLatinPrefix_spaces {w t r : Str} (hw : ∀ c ∈ w, isspace c = true)
    (hfound : afterLatinPrefix (w ++ t) = some r) : w = [] := by
  cases w with
  | nil => rfl
  | cons c w =>
    rw [List.cons_append, afterLatinPrefix_space (hw c List.mem_cons_self)] at hfound
    cases hfound

/-- Whatever whitespace is around a safe name, it has the same key. -/
theorem phoneticKey_of_safe {s w v : Str} (hs : isArabicScript s = false) (hsafe : PrefixSafe u s)
    (hw : ∀ c ∈ w, isspace c = true) (hv : ∀ c ∈ v, isspace c = true) :
    phoneticKey u (w ++ s ++ v) = (sounds u s).take phoneticKeyLength := by
  have hm : isArabicScript (w ++ s ++ v) = false := by
    rw [isArabicScript_append, isArabicScript_append, isArabicScript_spaces hw,
      isArabicScript_spaces hv, hs]
    rfl
  have hsounds : sounds u (w ++ s ++ v) = sounds u s := by
    unfold sounds
    rw [h.classes_append, h.classes_append, h.classes_spaces hw, h.classes_spaces hv,
      List.append_nil, List.nil_append]
  cases hfound : afterLatinPrefix (w ++ s ++ v) with
  | none => rw [h.phoneticKey_none hm hfound, hsounds]
  | some r =>
    obtain ⟨p, g, hp, hg, heq⟩ := afterLatinPrefix_eq_some hfound
    rw [List.append_assoc] at hfound
    obtain rfl := afterLatinPrefix_spaces hw hfound
    rw [List.nil_append] at heq hm ⊢
    obtain ⟨a, hne, rfl, ha⟩ := prefix_of_safe hsafe hv hp heq
    obtain ⟨d, g', rfl⟩ := List.exists_cons_of_ne_nil hg.1
    obtain ⟨e, a, rfl⟩ := List.exists_cons_of_ne_nil hne
    obtain ⟨rfl, hrest⟩ := List.cons.inj ha
    have hsep : Separators [d] := ⟨by simp, by simpa using hg.2 d List.mem_cons_self⟩
    have hecho := hsafe.echoed p [d] a rfl hp hsep
    have hsame : classes u r = classes u a := by
      have hclasses : classes u (g' ++ r) = classes u (a ++ v) := congrArg (classes u) hrest
      rw [h.classes_append, h.classes_append, h.classes_spaces hv, List.append_nil,
        h.classes_separators (fun c hc => hg.2 c (List.mem_cons_of_mem d hc)),
        List.nil_append] at hclasses
      exact hclasses
    have hr : isArabicScript r = false := by
      rw [heq, isArabicScript_append, isArabicScript_append] at hm
      exact (Bool.or_eq_false_iff.mp (Bool.or_eq_false_iff.mp hm).2).2
    have hkey : (sounds u (p ++ d :: a)).take phoneticKeyLength =
        (sounds u a).take phoneticKeyLength := (h.key_echo_iff hp hsep a).mpr hecho
    rw [heq, h.phoneticKey_prefixed hp hg hr, hkey]
    unfold sounds
    rw [hsame]

/-- A name whose key does not depend on the whitespace around it is safe. -/
theorem safe_of_phoneticKey {s : Str} (hs : isArabicScript s = false) (hstrip : strip s = s)
    (hkeys : ∀ m, strip m = s → phoneticKey u m = phoneticKey u s) : PrefixSafe u s := by
  have hspace : ∀ c ∈ [' '], isspace c = true := by simp [isspace]
  have hbefore : phoneticKey u (' ' :: s) = (sounds u s).take phoneticKeyLength := by
    have hm : isArabicScript (' ' :: s) = false := by
      rw [← List.singleton_append, isArabicScript_append, isArabicScript_spaces hspace, hs]
      rfl
    rw [h.phoneticKey_none hm (afterLatinPrefix_space (hspace ' ' List.mem_cons_self) s)]
    unfold sounds
    rw [h.classes_cons, h.classes_spaces hspace, List.nil_append]
  have hkey : phoneticKey u s = (sounds u s).take phoneticKeyLength := by
    rw [← hbefore]
    refine (hkeys (' ' :: s) ?_).symm
    have hsame := strip_append_spaces hspace (List.forall_mem_nil _) s
    rwa [List.append_nil, hstrip] at hsame
  constructor
  · intro hp
    have hafter : phoneticKey u (s ++ ([' '] ++ [])) = [] := by
      have hsep : Separators [' '] := ⟨by simp, by simp [isSeparator, isspace]⟩
      rw [h.phoneticKey_prefixed hp hsep rfl]
      unfold sounds
      rw [h.classes_nil]
      rfl
    have hsame := strip_append_spaces (List.forall_mem_nil _) hspace s
    rw [hstrip] at hsame
    rw [List.append_nil, hkeys (s ++ [' ']) hsame, hkey, List.take_eq_nil_iff] at hafter
    have hne : classes u s ≠ [] := by
      have hmem := h.classes_prefix hp
      intro hnil
      rw [hnil] at hmem
      simp [prefixSounds] at hmem
    rcases hafter with hafter | hafter
    · cases hafter
    · exact hne ((List.destutter_eq_nil _).mp hafter)
  · rintro p w x rfl hp hw
    have hx : isArabicScript x = false := by
      rw [isArabicScript_append, isArabicScript_append] at hs
      exact (Bool.or_eq_false_iff.mp (Bool.or_eq_false_iff.mp hs).2).2
    rw [h.phoneticKey_prefixed hp hw hx] at hkey
    exact (h.key_echo_iff hp hw x).mp hkey.symm

end Unicode.Lawful

/-- What `to_canonical` makes of a composed character. -/
def canonicalChar (c : Char) : Char := hamzaTrans (yaaTrans (alefTrans c))

theorem canonicalChar_of_not_mem {c : Char}
    (h : c ∉ ['\u0623', '\u0625', '\u0622', '\u0671', '\u0649', '\u0626', '\u0624']) :
    canonicalChar c = c := by
  simp only [List.mem_cons, List.not_mem_nil, or_false, not_or] at h
  unfold canonicalChar alefTrans yaaTrans hamzaTrans
  simp [h]

theorem canonical_of_isspace {c : Char} (h : isspace c = true) :
    isDiacritic c = false ∧ canonicalChar c = c := by
  have hnot := not_arabic_of_isspace h
  unfold inRange at hnot
  simp only [Bool.and_eq_false_iff, decide_eq_false_iff_not] at hnot
  constructor
  · unfold isDiacritic inRange
    simp only [Bool.or_eq_false_iff, Bool.and_eq_false_iff, decide_eq_false_iff_not,
      beq_eq_false_iff_ne]
    omega
  · have hletters : ∀ d ∈ ['\u0623', '\u0625', '\u0622', '\u0671', '\u0649', '\u0626', '\u0624'],
        0x600 ≤ d.toNat ∧ d.toNat ≤ 0x6ff := forall_of_all rfl
    refine canonicalChar_of_not_mem (fun hmem => ?_)
    have hrange := hletters c hmem
    omega

/-- `to_canonical` before the whitespace is collapsed. -/
def canonicalLetters (name : Str) : Str :=
  normalizeHamza (normalizeYaa (normalizeAlef (stripDiacritics name)))

theorem canonicalLetters_eq (name : Str) :
    canonicalLetters name = (name.filter (fun c => !isDiacritic c)).map canonicalChar := by
  simp [canonicalLetters, normalizeHamza, normalizeYaa, normalizeAlef, stripDiacritics,
    canonicalChar, Function.comp_def]

theorem canonicalLetters_append (s t : Str) :
    canonicalLetters (s ++ t) = canonicalLetters s ++ canonicalLetters t := by
  simp only [canonicalLetters_eq, List.filter_append, List.map_append]

theorem canonicalLetters_spaces {w : Str} (hw : ∀ c ∈ w, isspace c = true) :
    canonicalLetters w = w := by
  have hkept : ∀ c ∈ w, (!isDiacritic c) = true := fun c hc => by
    rw [(canonical_of_isspace (hw c hc)).1, Bool.not_false]
  rw [canonicalLetters_eq, List.filter_eq_self.mpr hkept]
  refine (List.map_congr_left (fun c hc => (canonical_of_isspace (hw c hc)).2)).trans ?_
  exact List.map_id' w

/-- The key of an Arabic name is that of the name without the whitespace around it. -/
theorem Unicode.Lawful.phoneticKey_arabic (h : u.Lawful) {n : Str} (hn : isArabicScript n = true) :
    phoneticKey u n = phoneticKey u (strip n) := by
  have hstrip : isArabicScript (strip n) = true := by rwa [isArabicScript_strip]
  have hne : n ≠ [] := by
    rintro rfl
    cases hn
  have hne' : strip n ≠ [] := by
    intro hnil
    rw [hnil] at hstrip
    cases hstrip
  obtain ⟨w, v, hsplit, hw, hv⟩ := strip_split n
  obtain ⟨w', v', hw', hv', hnfc⟩ := h.nfc_spaces w (strip n) v hw hv
  have hwords : splitWords (canonicalLetters (u.nfc n)) =
      splitWords (canonicalLetters (u.nfc (strip n))) := by
    rw [← hsplit] at hnfc
    rw [hnfc, canonicalLetters_append, canonicalLetters_append, canonicalLetters_spaces hw',
      canonicalLetters_spaces hv', splitWords_append_spaces hw' hv']
  have hcanonical : toCanonical u n = toCanonical u (strip n) := by
    unfold toCanonical
    rw [if_neg hne, if_neg hne']
    exact congrArg (joinWith ' ') hwords
  unfold phoneticKey
  rw [strip_strip, if_neg (not_or.mpr ⟨hne, hne'⟩), if_pos hn, if_neg (not_or.mpr ⟨hne', hne'⟩),
    if_pos hstrip]
  unfold arabicPhonetic toMatchingForm
  rw [hcanonical, if_neg hne, if_neg hne']

/-- What presentation is to leave alone: the key of a Latin name under whitespace, case and a further
prefix, and the key that is stored with any name. -/
structure IgnoresPresentation (lib : Libraries) (n : Str) : Prop where
  spaces : isArabicScript n = false → ∀ m, strip m = strip n →
    phoneticKey lib.unicode m = phoneticKey lib.unicode n
  case : isArabicScript n = false → ∀ m, m.map Char.toLower = n.map Char.toLower →
    phoneticKey lib.unicode m = phoneticKey lib.unicode n
  prefixes : isArabicScript n = false → afterLatinPrefix n = none →
    ∀ p w, IsPrefix p → Separators w →
      phoneticKey lib.unicode (p ++ (w ++ n)) = phoneticKey lib.unicode n
  rows : ∀ tenant_id person_uuid, ∀ spec : PersonRepository.VariantSpec, spec.name_value = n →
    (spec.row lib tenant_id person_uuid).phonetic_key =
      orNone (some (phoneticKey lib.unicode (spec.row lib tenant_id person_uuid).name_value))

theorem fold_toLower (c : Char) : fold c.toLower = fold c := by
  by_cases h : 65 ≤ c.toNat ∧ c.toNat ≤ 90
  · have hall : ∀ n, 65 ≤ n → n ≤ 90 → fold (Char.ofNat n).toLower = fold (Char.ofNat n) :=
      fun n h₁ h₂ => by interval_cases n <;> decide
    exact of_between (P := fun c => fold c.toLower = fold c) hall h.1 h.2
  · rw [toLower_of_not_upper h]

theorem map_fold_of_map_toLower {m n : Str} (h : m.map Char.toLower = n.map Char.toLower) :
    m.map fold = n.map fold := by
  have hmap : ∀ s : Str, (s.map Char.toLower).map fold = s.map fold := by
    intro s
    rw [List.map_map]
    exact List.map_congr_left (fun c _ => fold_toLower c)
  rw [← hmap m, h, hmap]

/-- A name's presentation makes no difference exactly when the name is Arabic, or safe without the
whitespace around it. -/
theorem ignores_presentation_iff (lib : Libraries) (h : lib.unicode.Lawful) (n : Str) :
    IgnoresPresentation lib n ↔
      isArabicScript n = true ∨ PrefixSafe lib.unicode (strip n) := by
  constructor
  · intro hkeys
    by_cases hn : isArabicScript n = true
    · exact .inl hn
    · have hn' : isArabicScript n = false := by simpa using hn
      refine .inr (h.safe_of_phoneticKey (by rwa [isArabicScript_strip]) (strip_strip n) ?_)
      intro m hm
      rw [hkeys.spaces hn' m hm, hkeys.spaces hn' (strip n) (strip_strip n)]
  · intro hsafe
    have hspaces : isArabicScript n = false → ∀ m, strip m = strip n →
        phoneticKey lib.unicode m = (sounds lib.unicode (strip n)).take phoneticKeyLength := by
      intro hn m hm
      rcases hsafe with harabic | hsafe
      · rw [hn] at harabic
        cases harabic
      · obtain ⟨w, v, hsplit, hw, hv⟩ := strip_split m
        rw [hsplit, hm]
        exact h.phoneticKey_of_safe (by rwa [isArabicScript_strip]) hsafe hw hv
    refine ⟨fun hn m hm => ?_, fun hn m hm => ?_, fun hn hnone p w hp hw => ?_,
      fun tenant_id person_uuid spec hspec => ?_⟩
    · rw [hspaces hn m hm, hspaces hn n rfl]
    · exact h.phoneticKey_of_fold hn (map_fold_of_map_toLower hm)
    · rw [h.phoneticKey_prefixed hp hw hn, h.phoneticKey_none hn hnone]
    · subst hspec
      unfold PersonRepository.VariantSpec.row
      by_cases hn : isArabicScript spec.name_value = true
      · exact congrArg (fun key => orNone (some key)) (h.phoneticKey_arabic hn)
      · have hn' : isArabicScript spec.name_value = false := by simpa using hn
        have hsame := (hspaces hn' _ rfl).trans (hspaces hn' _ (strip_strip _)).symm
        exact congrArg (fun key => orNone (some key)) hsame

/-! A character database that is right about ASCII, for closed instances. -/

namespace Specimen

def unicode : Unicode where
  nfc := id
  casefold := List.map Char.toLower
  upper := List.map (fun c => if c = '\u0131' then 'I' else c.toUpper)
  isalpha := Char.isAlpha
  isprintable := fun _ => true

def lib : Libraries where
  sha256 _ := []
  unicode := unicode

theorem unicode_lawful : unicode.Lawful where
  upper_append _ _ := List.map_append
  upper_ascii c hc := by
    have hne : c ≠ '\u0131' := by
      rintro rfl
      exact absurd hc (by decide)
    change [if c = '\u0131' then 'I' else c.toUpper] = [c.toUpper]
    rw [if_neg hne]
  upper_dotted := by decide
  upper_dotless := by decide
  upper_space c hc := by
    have hne : c ≠ '\u0131' := by
      rintro rfl
      exact absurd hc (by decide)
    have hlower : ¬ ('a'.val ≤ c.val ∧ c.val ≤ 'z'.val) := by
      intro hletter
      rw [not_isspace_of_isLower hletter] at hc
      cases hc
    change [if c = '\u0131' then 'I' else c.toUpper] = [c]
    rw [if_neg hne]
    exact congrArg List.singleton (dif_neg hlower)
  isalpha_ascii _ _ := rfl
  isalpha_space c hc := by
    simp only [isspace, Bool.or_eq_true, Bool.and_eq_true, decide_eq_true_eq, beq_iff_eq] at hc
    have hrange : ∀ lo hi : Char, 65 ≤ lo.toNat → hi.toNat ≤ 122 →
        ¬ (lo.val ≤ c.val ∧ c.val ≤ hi.val) := by
      rintro lo hi hlo hhi ⟨h₁, h₂⟩
      have h₁' : lo.toNat ≤ c.toNat := h₁
      have h₂' : c.toNat ≤ hi.toNat := h₂
      omega
    refine Bool.or_eq_false_iff.mpr ⟨?_, ?_⟩
    · exact decide_eq_false (hrange 'A' 'Z' (by decide) (by decide))
    · have hletter : c.isLower = decide ('a'.val ≤ c.val ∧ c.val ≤ 'z'.val) :=
        (Bool.decide_and _ _).symm
      rw [hletter]
      exact decide_eq_false (hrange 'a' 'z' (by decide) (by decide))
  nfc_spaces w s v hw hv := ⟨w, v, hw, hv, rfl⟩

/-- A name with whitespace before its article. -/
def spaced : PersonRepository.VariantSpec where
  name_value := " Al-Mansoori".toList

end Specimen

theorem ignores_presentation_specimen : IgnoresPresentation Specimen.lib "Mohamed".toList := by
  have hsafe : PrefixSafe Specimen.lib.unicode (strip "Mohamed".toList) := by
    have hstrip : strip "Mohamed".toList = "Mohamed".toList := by decide +kernel
    have hnone : afterLatinPrefix "Mohamed".toList = none := by decide +kernel
    rw [hstrip]
    constructor
    · intro hp
      have hspace : Separators [' '] := ⟨by simp, by simp [isSeparator, isspace]⟩
      have hfound := afterLatinPrefix_append hp hspace []
      rw [show afterLatinPrefix ("Mohamed".toList ++ ([' '] ++ [])) = none by decide +kernel] at hfound
      cases hfound
    · intro p w x hsplit hp hw
      exact absurd hsplit (afterLatinPrefix_eq_none_iff.mp hnone p w x hp hw)
  exact (ignores_presentation_iff Specimen.lib Specimen.unicode_lawful "Mohamed".toList).mpr
    (.inr hsafe)

/-- The stored name is `Al-Mansoori`, and the key stored with it is not its key. -/
theorem key_of_another_name :
    (Specimen.spaced.row Specimen.lib 1 2).name_value = "Al-Mansoori".toList ∧
    (Specimen.spaced.row Specimen.lib 1 2).phonetic_key = some "LNSR".toList ∧
    phoneticKey Specimen.unicode "Al-Mansoori".toList = "NSR".toList ∧
    ¬ IgnoresPresentation Specimen.lib " Al-Mansoori".toList := by
  have hname : (Specimen.spaced.row Specimen.lib 1 2).name_value = "Al-Mansoori".toList := by
    decide +kernel
  have hstored : (Specimen.spaced.row Specimen.lib 1 2).phonetic_key = some "LNSR".toList := by
    decide +kernel
  have hkey : phoneticKey Specimen.unicode "Al-Mansoori".toList = "NSR".toList := by
    decide +kernel
  refine ⟨hname, hstored, hkey, fun h => ?_⟩
  have hrow := h.rows 1 2 Specimen.spaced rfl
  have hkey' : phoneticKey Specimen.lib.unicode "Al-Mansoori".toList = "NSR".toList := hkey
  rw [hstored, hname, hkey'] at hrow
  exact absurd hrow (by decide)

end Hawiya.ArabicNames
