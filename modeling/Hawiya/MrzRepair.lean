import Hawiya.MrzChecks

/-!
# Repair of misread character classes

`repair_mrz_chars` translates the columns whose character class is known, digits to letters or
letters to digits. On lines that are long enough it is a translation of each column by its class.
-/

namespace Hawiya.Mrz
open PyString Validators

/-- `_DIGIT_TO_ALPHA`. -/
def digitToAlpha : List (Char × Char) :=
  [('0', 'O'), ('1', 'I'), ('2', 'Z'), ('5', 'S'), ('8', 'B')]

/-- `_ALPHA_TO_DIGIT`. -/
def alphaToDigit : List (Char × Char) :=
  [('O', '0'), ('Q', '0'), ('I', '1'), ('L', '1'), ('Z', '2'), ('S', '5'), ('B', '8')]

def line1RepairMin : ℕ := 5

/-- `l[a:b] = line[a:b].translate(table)`. -/
def repairSlice (table : List (Char × Char)) (a b : ℕ) (line l : Str) : Str :=
  setSlice a b l (PyString.translate table (slice a b line))

def repairLine1 (line1 : Str) : Str :=
  if line1RepairMin ≤ line1.length then repairSlice digitToAlpha 2 5 line1 line1 else line1

def repairLine2 (line2 : Str) : Str :=
  if td3LineLength ≤ line2.length then
    let l2 := line2
    let l2 := repairSlice alphaToDigit 9 10 line2 l2
    let l2 := repairSlice digitToAlpha 10 13 line2 l2
    let l2 := repairSlice alphaToDigit 13 20 line2 l2
    let l2 := repairSlice alphaToDigit 21 28 line2 l2
    let l2 := repairSlice alphaToDigit 42 43 line2 l2
    repairSlice alphaToDigit 43 44 line2 l2
  else line2

def repairMrzChars (line1 line2 : Str) : Str × Str := (repairLine1 line1, repairLine2 line2)

inductive ColumnClass where
  | alpha
  | digit
  deriving DecidableEq

/-- The translation of a class. -/
def ColumnClass.table : ColumnClass → List (Char × Char)
  | .alpha => digitToAlpha
  | .digit => alphaToDigit

/-- The class of a column of line 1, where it is repaired. -/
def classOf1 (i : ℕ) : Option ColumnClass := if 2 ≤ i ∧ i ≤ 4 then some .alpha else none

def classOf2 (i : ℕ) : Option ColumnClass :=
  if 10 ≤ i ∧ i ≤ 12 then some .alpha
  else if i = 9 ∨ (13 ≤ i ∧ i ≤ 19) ∨ (21 ≤ i ∧ i ≤ 27) ∨ i = 42 ∨ i = 43 then some .digit
  else none

def fixChar (k : Option ColumnClass) (c : Char) : Char :=
  k.elim c (fun k => translateChar k.table c)

theorem length_repairSlice {table : List (Char × Char)} {a b : ℕ} {s l : Str} (hab : a ≤ b)
    (hb : b ≤ s.length) (hl : l.length = s.length) :
    (repairSlice table a b s l).length = s.length := by
  have hnew : (PyString.translate table (slice a b s)).length = b - a := by
    rw [PyString.translate, List.length_map, length_slice hb]
  rw [repairSlice, length_setSlice hab (by omega) hnew, hl]

theorem getElem?_repairSlice {table : List (Char × Char)} {a b : ℕ} {s l : Str} (hab : a ≤ b)
    (hb : b ≤ s.length) (hl : l.length = s.length) (i : ℕ) :
    (repairSlice table a b s l)[i]? =
      if a ≤ i ∧ i < b then (s[i]?).map (translateChar table) else l[i]? := by
  have hnew : (PyString.translate table (slice a b s)).length = b - a := by
    rw [PyString.translate, List.length_map, length_slice hb]
  rw [repairSlice, getElem?_setSlice hab (by omega) hnew]
  by_cases h : a ≤ i ∧ i < b
  · rw [if_pos h, if_pos h, PyString.translate, List.getElem?_map, getElem?_slice,
      Nat.add_sub_cancel' h.1, if_pos h.2]
  · rw [if_neg h, if_neg h]

theorem repairLine1_eq {line1 : Str} (h : line1RepairMin ≤ line1.length) :
    repairLine1 line1 = line1.mapIdx (fun i => fixChar (classOf1 i)) := by
  have hlong : 5 ≤ line1.length := h
  refine List.ext_getElem? (fun i => ?_)
  rw [repairLine1, if_pos h, getElem?_repairSlice (by omega) hlong rfl, List.getElem?_mapIdx]
  by_cases hi : 2 ≤ i ∧ i < 5
  · have hclass : classOf1 i = some .alpha := if_pos (by omega)
    rw [if_pos hi, hclass]
    rfl
  · have hclass : classOf1 i = none := if_neg (by omega)
    rw [if_neg hi, hclass]
    exact (Option.map_id' ..).symm

theorem repairLine2_eq {line2 : Str} (h : td3LineLength ≤ line2.length) :
    repairLine2 line2 = line2.mapIdx (fun i => fixChar (classOf2 i)) := by
  have hlength : ∀ (table : List (Char × Char)) (a b : ℕ) {l : Str}, a ≤ b → b ≤ 44 →
      l.length = line2.length → (repairSlice table a b line2 l).length = line2.length :=
    fun table a b _ hab hb hl => length_repairSlice hab (hb.trans h) hl
  have hget : ∀ (table : List (Char × Char)) (a b i : ℕ) {l : Str}, a ≤ b → b ≤ 44 →
      l.length = line2.length → (repairSlice table a b line2 l)[i]? =
        if a ≤ i ∧ i < b then (line2[i]?).map (translateChar table) else l[i]? :=
    fun table a b i _ hab hb hl => getElem?_repairSlice hab (hb.trans h) hl i
  have h10 := hlength alphaToDigit 9 10 (by omega) (by omega) rfl
  have h13 := hlength digitToAlpha 10 13 (by omega) (by omega) h10
  have h20 := hlength alphaToDigit 13 20 (by omega) (by omega) h13
  have h28 := hlength alphaToDigit 21 28 (by omega) (by omega) h20
  have h43 := hlength alphaToDigit 42 43 (by omega) (by omega) h28
  refine List.ext_getElem? (fun i => ?_)
  rw [repairLine2, if_pos h, List.getElem?_mapIdx, hget _ 43 44 i (by omega) (by omega) h43,
    hget _ 42 43 i (by omega) (by omega) h28, hget _ 21 28 i (by omega) (by omega) h20,
    hget _ 13 20 i (by omega) (by omega) h13, hget _ 10 13 i (by omega) (by omega) h10,
    hget _ 9 10 i (by omega) (by omega) rfl]
  by_cases halpha : 10 ≤ i ∧ i ≤ 12
  · have hclass : classOf2 i = some .alpha := if_pos halpha
    rw [hclass, if_neg (by omega), if_neg (by omega), if_neg (by omega), if_neg (by omega),
      if_pos (by omega)]
    rfl
  · by_cases hdigit : i = 9 ∨ (13 ≤ i ∧ i ≤ 19) ∨ (21 ≤ i ∧ i ≤ 27) ∨ i = 42 ∨ i = 43
    · have hclass : classOf2 i = some .digit := by
        rw [classOf2, if_neg halpha, if_pos hdigit]
      rw [hclass, if_neg (show ¬ (10 ≤ i ∧ i < 13) by omega)]
      split_ifs with h₁ h₂ h₃ h₄ h₅
      · rfl
      · rfl
      · rfl
      · rfl
      · rfl
      · omega
    · have hclass : classOf2 i = none := by
        rw [classOf2, if_neg halpha, if_neg hdigit]
      rw [hclass, if_neg (by omega), if_neg (by omega), if_neg (by omega), if_neg (by omega),
        if_neg (by omega), if_neg (by omega)]
      exact (Option.map_id' ..).symm

/-- `d` can have been read for `c` in a column of the class: the table maps it back. -/
def Confusable (k : ColumnClass) (c d : Char) : Prop :=
  d ∈ k.table.map Prod.fst ∧ translateChar k.table d = c

/-- No column holds a character its class would translate. -/
def ClassCorrect (classOf : ℕ → Option ColumnClass) (s : Str) : Prop :=
  s.length = 44 ∧ ∀ i k c, classOf i = some k → s[i]? = some c → c ∉ k.table.map Prod.fst

/-- In any of the columns with a class, a confusable may have been read. -/
def Confused (classOf : ℕ → Option ColumnClass) (s s' : Str) : Prop :=
  s'.length = s.length ∧ ∀ i c d, s[i]? = some c → s'[i]? = some d →
    d = c ∨ ∃ k, classOf i = some k ∧ Confusable k c d

theorem translateChar_of_not_mem {table : List (Char × Char)} {c : Char}
    (h : c ∉ table.map Prod.fst) : translateChar table c = c := by
  have hnone : table.lookup c = none := by
    rw [List.lookup_eq_none_iff]
    intro p hp
    have hne : c ≠ p.1 := fun he => h (he ▸ List.mem_map_of_mem hp)
    simpa using hne
  rw [translateChar, hnone]
  rfl

/-- What a table maps to, it leaves alone. -/
theorem translateChar_idem (k : ColumnClass) (c : Char) :
    translateChar k.table (translateChar k.table c) = translateChar k.table c := by
  by_cases h : c ∈ k.table.map Prod.fst
  · cases k with
    | alpha =>
      simp only [ColumnClass.table, digitToAlpha, List.map_cons, List.map_nil, List.mem_cons,
        List.not_mem_nil, or_false] at h
      rcases h with rfl | rfl | rfl | rfl | rfl <;> rfl
    | digit =>
      simp only [ColumnClass.table, alphaToDigit, List.map_cons, List.map_nil, List.mem_cons,
        List.not_mem_nil, or_false] at h
      rcases h with rfl | rfl | rfl | rfl | rfl | rfl | rfl <;> rfl
  · rw [translateChar_of_not_mem h, translateChar_of_not_mem h]

theorem fixChar_idem (k : Option ColumnClass) (c : Char) : fixChar k (fixChar k c) = fixChar k c := by
  cases k with
  | none => rfl
  | some k => exact translateChar_idem k c

section Columns
variable {classOf : ℕ → Option ColumnClass}

theorem mapIdx_fixChar_idem (s : Str) :
    (s.mapIdx (fun i => fixChar (classOf i))).mapIdx (fun i => fixChar (classOf i)) =
      s.mapIdx (fun i => fixChar (classOf i)) := by
  refine List.ext_getElem? (fun i => ?_)
  rw [List.getElem?_mapIdx, List.getElem?_mapIdx, Option.map_map]
  congr 1
  exact funext (fixChar_idem (classOf i))

theorem mapIdx_fixChar_confused {s s' : Str} (hs : ClassCorrect classOf s)
    (h : Confused classOf s s') : s'.mapIdx (fun i => fixChar (classOf i)) = s := by
  refine List.ext_getElem (by rw [List.length_mapIdx, h.1]) (fun i hi hi' => ?_)
  rw [List.length_mapIdx] at hi
  rw [List.getElem_mapIdx]
  have hcorrect : fixChar (classOf i) s[i] = s[i] := by
    cases hk : classOf i with
    | none => rfl
    | some k =>
      exact translateChar_of_not_mem (hs.2 i k _ hk (List.getElem?_eq_getElem hi'))
  rcases h.2 i _ _ (List.getElem?_eq_getElem hi') (List.getElem?_eq_getElem hi) with
    hsame | ⟨k, hk, -, hback⟩
  · rw [hsame, hcorrect]
  · rw [hk]
    exact hback

end Columns

/-- A repair of one line: nothing, or each column by its class. -/
def RepairsBy (classOf : ℕ → Option ColumnClass) (long : Str → Prop) (repair : Str → Str) : Prop :=
  ∀ s, (long s → repair s = s.mapIdx (fun i => fixChar (classOf i))) ∧ (¬ long s → repair s = s)

theorem repairLine1_repairs :
    RepairsBy classOf1 (fun s => line1RepairMin ≤ s.length) repairLine1 :=
  fun _ => ⟨repairLine1_eq, fun h => if_neg h⟩

theorem repairLine2_repairs :
    RepairsBy classOf2 (fun s => td3LineLength ≤ s.length) repairLine2 :=
  fun _ => ⟨repairLine2_eq, fun h => if_neg h⟩

section Repairs
variable {classOf : ℕ → Option ColumnClass} {repair : Str → Str} {n : ℕ}

theorem RepairsBy.length (h : RepairsBy classOf (fun s => n ≤ s.length) repair) (s : Str) :
    (repair s).length = s.length := by
  by_cases hlong : n ≤ s.length
  · rw [(h s).1 hlong, List.length_mapIdx]
  · rw [(h s).2 hlong]

theorem RepairsBy.other (h : RepairsBy classOf (fun s => n ≤ s.length) repair) (s : Str) {i : ℕ}
    (hi : classOf i = none) : (repair s)[i]? = s[i]? := by
  by_cases hlong : n ≤ s.length
  · rw [(h s).1 hlong, List.getElem?_mapIdx, hi]
    exact Option.map_id' ..
  · rw [(h s).2 hlong]

theorem RepairsBy.idem (h : RepairsBy classOf (fun s => n ≤ s.length) repair) (s : Str) :
    repair (repair s) = repair s := by
  by_cases hlong : n ≤ s.length
  · have hagain : n ≤ (s.mapIdx (fun i => fixChar (classOf i))).length := by
      rwa [List.length_mapIdx]
    rw [(h s).1 hlong, (h _).1 hagain, mapIdx_fixChar_idem]
  · rw [(h s).2 hlong, (h s).2 hlong]

theorem RepairsBy.undoes (h : RepairsBy classOf (fun s => n ≤ s.length) repair) (hn : n ≤ 44)
    {s s' : Str} (hs : ClassCorrect classOf s) (hconfused : Confused classOf s s') :
    repair s' = s := by
  have hlong : n ≤ s'.length := by
    rw [hconfused.1, hs.1]
    exact hn
  rw [(h s').1 hlong, mapIdx_fixChar_confused hs hconfused]

end Repairs

/-- Repair undoes every confusion of a class, and on any strings it keeps the lengths and the
columns without a class, and has nothing to repair afterwards. -/
theorem repair_undoes_confusions :
    (∀ line1 line2 line1' line2', ClassCorrect classOf1 line1 → ClassCorrect classOf2 line2 →
      Confused classOf1 line1 line1' → Confused classOf2 line2 line2' →
        repairMrzChars line1' line2' = (line1, line2)) ∧
    (∀ line1 line2, (repairMrzChars line1 line2).1.length = line1.length ∧
      (repairMrzChars line1 line2).2.length = line2.length ∧
      (∀ i, classOf1 i = none → (repairMrzChars line1 line2).1[i]? = line1[i]?) ∧
      (∀ i, classOf2 i = none → (repairMrzChars line1 line2).2[i]? = line2[i]?) ∧
      repairMrzChars (repairMrzChars line1 line2).1 (repairMrzChars line1 line2).2 =
        repairMrzChars line1 line2) := by
  have h₁ := repairLine1_repairs
  have h₂ := repairLine2_repairs
  constructor
  · intro line1 line2 line1' line2' hs₁ hs₂ hc₁ hc₂
    exact Prod.ext (h₁.undoes (by decide) hs₁ hc₁) (h₂.undoes (by decide) hs₂ hc₂)
  · intro line1 line2
    exact ⟨h₁.length line1, h₂.length line2, fun _ => h₁.other line1, fun _ => h₂.other line2,
      Prod.ext (h₁.idem line1) (h₂.idem line2)⟩

/-! One character of each line read in the wrong class. -/

namespace Misread

theorem confused_set {classOf : ℕ → Option ColumnClass} {s : Str} {i : ℕ} {k : ColumnClass}
    {c d : Char} (hk : classOf i = some k) (hc : s[i]? = some c) (h : Confusable k c d) :
    Confused classOf s (s.set i d) := by
  refine ⟨List.length_set, fun j c' d' hc' hd' => ?_⟩
  by_cases hij : i = j
  · subst hij
    obtain ⟨hlt, -⟩ := List.getElem?_eq_some_iff.mp hc
    rw [List.getElem?_set_self hlt] at hd'
    cases hd'
    rw [hc] at hc'
    cases hc'
    exact .inr ⟨k, hk, h⟩
  · rw [List.getElem?_set_ne hij, hc'] at hd'
    cases hd'
    exact .inl rfl

/-- No table maps a character of its own to itself. -/
theorem translateChar_ne (k : ColumnClass) :
    ∀ c ∈ k.table.map Prod.fst, translateChar k.table c ≠ c := by
  cases k with
  | alpha =>
    intro c hc
    simp only [ColumnClass.table, digitToAlpha, List.map_cons, List.map_nil, List.mem_cons,
      List.not_mem_nil, or_false] at hc
    rcases hc with rfl | rfl | rfl | rfl | rfl <;> decide
  | digit =>
    intro c hc
    simp only [ColumnClass.table, alphaToDigit, List.map_cons, List.map_nil, List.mem_cons,
      List.not_mem_nil, or_false] at hc
    rcases hc with rfl | rfl | rfl | rfl | rfl | rfl | rfl <;> decide

theorem classCorrect_of_fixed {classOf : ℕ → Option ColumnClass} {s : Str} (hlength : s.length = 44)
    (h : s.mapIdx (fun i => fixChar (classOf i)) = s) : ClassCorrect classOf s := by
  refine ⟨hlength, fun i k c hk hc hmem => ?_⟩
  have hfixed : (s.mapIdx (fun i => fixChar (classOf i)))[i]? = s[i]? := by rw [h]
  rw [List.getElem?_mapIdx, hc, hk] at hfixed
  exact translateChar_ne k c hmem (Option.some.inj hfixed)

def indian : Str := "P<INDALMANSOORI<<MOHAMED<<<<<<<<<<<<<<<<<<<<".toList

def indian2 : Str := "P1234567<1IND9001125M3001019<<<<<<<<<<<<<<04".toList

/-- The country read as `1ND`, and a zero of the date of birth as a letter. -/
theorem repair_indian :
    repairMrzChars (indian.set 2 '1') (indian2.set 14 'O') = (indian, indian2) := by
  have hline1 : ClassCorrect classOf1 indian := classCorrect_of_fixed rfl (by decide +kernel)
  have hline2 : ClassCorrect classOf2 indian2 := classCorrect_of_fixed rfl (by decide +kernel)
  have hcountry : Confused classOf1 indian (indian.set 2 '1') :=
    confused_set (c := 'I') rfl rfl ⟨by decide, rfl⟩
  have hdate : Confused classOf2 indian2 (indian2.set 14 'O') :=
    confused_set (c := '0') rfl rfl ⟨by decide, rfl⟩
  exact repair_undoes_confusions.1 _ _ _ _ hline1 hline2 hcountry hdate

end Misread
end Hawiya.Mrz
