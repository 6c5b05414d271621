import Hawiya.Lib.Composition
import Hawiya.PhoneticKeys

/-!
# Canonical forms of canonical forms

`to_canonical` composes a name and then deletes signs from it, so what a deleted sign kept apart can
stand together in the stored name. A second pass composes it: the canonical form of a canonical name
is its Normalization Form C (`toCanonical_toCanonical`). That is the canonical name again exactly
when what is left of the composed name is in Normalization Form C. The mappings of letters and the
collapsing of whitespace that follow the deletion make no difference to this.
-/

namespace Hawiya.ArabicNames
open PyString

/-- A character of the Arabic block that is no mark. -/
def isArabicLetter (c : Char) : Bool :=
  inRange 0x600 0x6ff c && !inRange 0x610 0x61a c && !isDiacritic c

/-- Neither whitespace, nor an Arabic letter, nor deleted. -/
def isPlain (c : Char) : Bool := !isspace c && !isArabicLetter c && !isDiacritic c

/-- What the character database says of whitespace and of the Arabic block: both are starters that
compose with nothing before them, and with nothing but deleted signs after them. -/
structure IsCharacterDatabase (d : CharacterData Char) : Prop where
  decomposition_ne_nil : ∀ c, d.decomposition c ≠ []
  /-- Decompositions are full. -/
  decomposition_full : ∀ c, ∀ b ∈ d.decomposition c, d.decomposition b = [b]
  decomposition_blank : d.decomposition ' ' = [' ']
  decomposition_letter : ∀ c, isArabicLetter c = true → d.decomposition c = [c] ∨
    ∃ b m, isArabicLetter b = true ∧ d.decomposition c = [b, m] ∧ d.primaryComposite b m = some c
  decomposition_plain : ∀ c, isPlain c = true → ∀ b ∈ d.decomposition c, isPlain b = true
  starter : ∀ c, isspace c = true ∨ isArabicLetter c = true → d.combiningClass c = 0
  composite_before : ∀ b c, isspace c = true ∨ isArabicLetter c = true →
    d.primaryComposite b c = none
  composite_after : ∀ c b p, isspace c = true ∨ isArabicLetter c = true →
    d.primaryComposite c b = some p → isDiacritic b = true
  composite_plain : ∀ b c p, isPlain b = true → isPlain c = true → d.primaryComposite b c = some p →
    isPlain p = true
  composite_not_space : ∀ b c p, d.primaryComposite b c = some p → isspace p = false

/-- `unicodedata.normalize("NFC", ·)` is canonical composition, and the empty string has nothing to
fold. -/
structure Unicode.ComposesBy (u : Unicode) (d : CharacterData Char) : Prop where
  data : IsCharacterDatabase d
  nfc_eq : ∀ s, u.nfc s = d.nfc s
  casefold_nil : u.casefold [] = []

/-- Letters of the Arabic block, and whitespace as it is in composed text. -/
def IsCut (d : CharacterData Char) (c : Char) : Prop :=
  isArabicLetter c = true ∨ (isspace c = true ∧ d.decomposition c = [c])

/-- Composed text without the deleted signs. -/
def IsBare (d : CharacterData Char) (s : Str) : Prop := ∀ c ∈ s, isPlain c = true ∨ IsCut d c

theorem isPlain_eq_true_iff {c : Char} : isPlain c = true ↔
    isspace c = false ∧ isArabicLetter c = false ∧ isDiacritic c = false := by
  simp [isPlain, and_assoc]

theorem not_isDiacritic_of_isArabicLetter {c : Char} (h : isArabicLetter c = true) :
    isDiacritic c = false := by
  simp only [isArabicLetter, Bool.and_eq_true, Bool.not_eq_true'] at h
  exact h.2

variable {d : CharacterData Char}

theorem IsCut.space_or_letter {c : Char} (h : IsCut d c) :
    isspace c = true ∨ isArabicLetter c = true := by
  rcases h with h | h
  · exact .inr h
  · exact .inl h.1

theorem IsBare.not_isDiacritic {s : Str} (hs : IsBare d s) : ∀ c ∈ s, isDiacritic c = false := by
  intro c hc
  rcases hs c hc with hplain | hcut
  · exact (isPlain_eq_true_iff.mp hplain).2.2
  · rcases hcut.space_or_letter with hspace | hletter
    · exact (canonical_of_isspace hspace).1
    · exact not_isDiacritic_of_isArabicLetter hletter

namespace IsCharacterDatabase
variable (h : IsCharacterDatabase d)
include h

theorem decompose_plain {y : Str} (hy : ∀ c ∈ y, isPlain c = true) :
    ∀ b ∈ d.decompose y, isPlain b = true := by
  intro b hb
  obtain ⟨c, hc, hbc⟩ := List.mem_flatMap.mp hb
  exact h.decomposition_plain c (hy c hc) b hbc

theorem primaryComposite_plain {c b : Char} (hc : isspace c = true ∨ isArabicLetter c = true)
    (hb : isPlain b = true) : d.primaryComposite c b = none := by
  cases hcomposite : d.primaryComposite c b with
  | none => rfl
  | some p =>
    have hdeleted := h.composite_after c b p hc hcomposite
    rw [(isPlain_eq_true_iff.mp hb).2.2] at hdeleted
    cases hdeleted

/-- Text can be cut at Arabic letters and whitespace, once the deleted signs are gone. -/
theorem anchored : d.Anchored (fun c => isPlain c = true) (IsCut d) where
  disjoint := by
    intro c hplain hcut
    obtain ⟨hspace, hletter, -⟩ := isPlain_eq_true_iff.mp hplain
    rcases hcut.space_or_letter with hc | hc
    · rw [hspace] at hc
      cases hc
    · rw [hletter] at hc
      cases hc
  plain := by
    intro y hy
    exact CharacterData.forall_nfc h.composite_plain
      (fun c hc b hb => h.decomposition_plain c (hy c hc) b hb)
  cut := by
    intro x c y hcut hy
    have hplain := h.decompose_plain hy
    have hnone : ∀ {e}, isspace e = true ∨ isArabicLetter e = true →
        ∀ q ∈ d.decompose y, d.primaryComposite e q = none :=
      fun he q hq => h.primaryComposite_plain he (hplain q hq)
    have hc := hcut.space_or_letter
    have hself : d.decomposition c = [c] → d.nfc (x ++ c :: y) = d.nfc x ++ c :: d.nfc y :=
      fun hself => CharacterData.nfc_append (h.starter c hc) (fun b => h.composite_before b c hc)
        hself (hnone hc) x
    rcases hcut with hletter | ⟨-, hspace⟩
    · rcases h.decomposition_letter c hletter with hletter | ⟨b, m, hb, hparts, hcomposite⟩
      · exact hself hletter
      · exact CharacterData.nfc_append_composite (h.starter b (.inr hb))
          (fun p => h.composite_before p b (.inr hb)) hparts hcomposite (hnone (.inr hb)) (hnone hc)
          x
    · exact hself hspace

theorem isCut_blank : IsCut d ' ' := .inr ⟨rfl, h.decomposition_blank⟩

/-- Composed whitespace does not decompose. -/
theorem space_nfc (s : Str) : ∀ c ∈ d.nfc s, isspace c = true → d.decomposition c = [c] := by
  refine CharacterData.forall_nfc (fun b c p _ _ hcomposite hspace => ?_)
    (fun c _ b hb _ => h.decomposition_full c b hb)
  rw [h.composite_not_space b c p hcomposite] at hspace
  cases hspace

theorem isBare_strip (s : Str) : IsBare d (stripDiacritics (d.nfc s)) := by
  intro c hc
  obtain ⟨hmem, hkept⟩ := List.mem_filter.mp hc
  have hkept' : isDiacritic c = false := by simpa using hkept
  by_cases hspace : isspace c = true
  · exact .inr (.inr ⟨hspace, h.space_nfc s c hmem hspace⟩)
  · by_cases hletter : isArabicLetter c = true
    · exact .inr (.inl hletter)
    · exact .inl (isPlain_eq_true_iff.mpr ⟨by simpa using hspace, by simpa using hletter, hkept'⟩)

end IsCharacterDatabase

/-- A character is left alone, or it is a letter and one of three others. -/
theorem canonicalChar_cases (c : Char) : canonicalChar c = c ∨
    (isArabicLetter c = true ∧ canonicalChar c ∈ ['\u0627', '\u064a', '\u0648']) := by
  have hletters : ∀ c ∈ ['\u0623', '\u0625', '\u0622', '\u0671', '\u0649', '\u0626', '\u0624'],
      isArabicLetter c = true ∧ canonicalChar c ∈ ['\u0627', '\u064a', '\u0648'] :=
    forall_of_all rfl
  by_cases hc : c ∈ ['\u0623', '\u0625', '\u0622', '\u0671', '\u0649', '\u0626', '\u0624']
  · exact .inr (hletters c hc)
  · exact .inl (canonicalChar_of_not_mem hc)

theorem canonicalChar_canonicalChar (c : Char) :
    canonicalChar (canonicalChar c) = canonicalChar c := by
  have hfixed : ∀ c ∈ ['\u0627', '\u064a', '\u0648'], canonicalChar c = c := forall_of_all rfl
  rcases canonicalChar_cases c with hc | ⟨-, hc⟩
  · rw [hc, hc]
  · exact hfixed _ hc

theorem canonicalChar_of_isPlain {c : Char} (hc : isPlain c = true) : canonicalChar c = c := by
  rcases canonicalChar_cases c with h | ⟨hletter, -⟩
  · exact h
  · rw [(isPlain_eq_true_iff.mp hc).2.1] at hletter
    cases hletter

theorem IsCut.canonicalChar {c : Char} (hc : IsCut d c) : IsCut d (canonicalChar c) := by
  have hletters : ∀ c ∈ ['\u0627', '\u064a', '\u0648'], isArabicLetter c = true :=
    forall_of_all rfl
  rcases canonicalChar_cases c with h | ⟨-, h⟩
  · rwa [h]
  · exact .inl (hletters _ h)

theorem map_canonicalChar_plain {y : Str} (hy : ∀ c ∈ y, isPlain c = true) :
    y.map canonicalChar = y :=
  (List.map_congr_left (fun c hc => canonicalChar_of_isPlain (hy c hc))).trans (List.map_id' y)

theorem IsBare.map {s : Str} (hs : IsBare d s) : IsBare d (s.map canonicalChar) := by
  intro c hc
  obtain ⟨a, ha, rfl⟩ := List.mem_map.mp hc
  rcases hs a ha with hplain | hcut
  · rw [canonicalChar_of_isPlain hplain]
    exact .inl hplain
  · exact .inr hcut.canonicalChar

namespace IsCharacterDatabase
variable (h : IsCharacterDatabase d)
include h

theorem isNFC_cut {c : Char} (hc : IsCut d c) {y : Str} (hy : IsBare d y) (x : Str) :
    d.IsNFC (x ++ c :: y) ↔ d.IsNFC x ∧ d.IsNFC y := h.anchored.isNFC_anchor hc hy x

/-- The mappings of letters change nothing about the normal form. -/
theorem isNFC_map {s : Str} (hs : IsBare d s) : d.IsNFC (s.map canonicalChar) ↔ d.IsNFC s := by
  refine CharacterData.anchored_induction
    (P := fun s => d.IsNFC (s.map canonicalChar) ↔ d.IsNFC s) (fun y hy => ?_)
    (fun x c y _ hc hy ih => ?_) hs
  · rw [map_canonicalChar_plain hy]
  · have hbare : IsBare d y := fun q hq => .inl (hy q hq)
    rw [List.map_append, List.map_cons, map_canonicalChar_plain hy,
      h.isNFC_cut hc.canonicalChar hbare, h.isNFC_cut hc hbare, ih]

theorem isNFC_splitWordsFrom {s : Str} (hs : IsBare d s) (cur : Str) :
    d.IsNFC (cur ++ s) ↔ ∀ w ∈ splitWordsFrom cur s, d.IsNFC w := by
  induction s generalizing cur with
  | nil =>
    rw [List.append_nil, splitWordsFrom]
    split_ifs with hnil
    · rw [hnil]
      exact iff_of_true rfl (List.forall_mem_nil _)
    · exact List.forall_mem_singleton.symm
  | cons c s ih =>
    obtain ⟨hc, hrest⟩ := List.forall_mem_cons.mp hs
    rw [splitWordsFrom]
    by_cases hspace : isspace c = true
    · have hcut : IsCut d c := by
        refine hc.resolve_left (fun hplain => ?_)
        rw [(isPlain_eq_true_iff.mp hplain).1] at hspace
        cases hspace
      have hwords := ih hrest []
      rw [List.nil_append] at hwords
      rw [if_pos hspace, h.isNFC_cut hcut hrest, hwords]
      split_ifs with hnil
      · rw [hnil]
        exact and_iff_right rfl
      · exact List.forall_mem_cons.symm
    · have hnext := ih hrest (cur ++ [c])
      rw [List.append_assoc, List.singleton_append] at hnext
      rw [if_neg hspace, hnext]

theorem isNFC_joinWith {ws : List Str} (hws : ∀ w ∈ ws, IsBare d w) :
    d.IsNFC (joinWith ' ' ws) ↔ ∀ w ∈ ws, d.IsNFC w := by
  induction ws using joinWith.induct with
  | case1 => exact iff_of_true rfl (List.forall_mem_nil _)
  | case2 w => exact List.forall_mem_singleton.symm
  | case3 w v ws ih =>
    have hrest := fun u hu => hws u (List.mem_cons_of_mem w hu)
    have hbare : IsBare d (joinWith ' ' (v :: ws)) :=
      forall_mem_joinWith (.inr h.isCut_blank) hrest
    rw [joinWith, h.isNFC_cut h.isCut_blank hbare, ih hrest, List.forall_mem_cons (l := v :: ws)]

/-- Nor does the collapsing of whitespace. -/
theorem isNFC_collapse {s : Str} (hs : IsBare d s) :
    d.IsNFC (joinWith ' ' (splitWords s)) ↔ d.IsNFC s := by
  have hws : ∀ w ∈ splitWords s, IsBare d w :=
    fun w hw c hc => hs c (mem_of_mem_splitWords hw c hc)
  rw [h.isNFC_joinWith hws]
  exact (h.isNFC_splitWordsFrom hs []).symm

theorem nfc_joinWith {ws : List Str} (hws : ∀ w ∈ ws, IsBare d w) :
    d.nfc (joinWith ' ' ws) = joinWith ' ' (ws.map d.nfc) := by
  induction ws using joinWith.induct with
  | case1 => rfl
  | case2 w => rfl
  | case3 w v ws ih =>
    have hrest := fun u hu => hws u (List.mem_cons_of_mem w hu)
    have hbare : IsBare d (joinWith ' ' (v :: ws)) :=
      forall_mem_joinWith (.inr h.isCut_blank) hrest
    rw [joinWith, h.anchored.nfc_anchor h.isCut_blank hbare, ih hrest]
    rfl

theorem isWord_nfc {w : Str} (hbare : IsBare d w) (hw : IsWord isspace w) :
    IsWord isspace (d.nfc w) := by
  refine ⟨CharacterData.nfc_ne_nil h.decomposition_ne_nil hw.1, fun c hc => ?_⟩
  rcases h.anchored.mem_nfc hbare c hc with hplain | hmem
  · exact (isPlain_eq_true_iff.mp hplain).1
  · exact hw.2 c hmem

end IsCharacterDatabase

/-- Words of letters that `to_canonical` leaves alone, single spaces between them. -/
def IsCanonical (d : CharacterData Char) (s : Str) : Prop :=
  ∃ ws, s = joinWith ' ' ws ∧
    ∀ w ∈ ws, IsWord isspace w ∧ IsBare d w ∧ ∀ c ∈ w, canonicalChar c = c

variable {u : Unicode}

namespace Unicode.ComposesBy
variable (h : u.ComposesBy d)
include h

theorem toCanonical_eq (s : Str) : toCanonical u s =
    joinWith ' ' (splitWords ((stripDiacritics (d.nfc s)).map canonicalChar)) := by
  have hletters : toCanonical u s =
      if s = [] then s else joinWith ' ' (splitWords (canonicalLetters (u.nfc s))) := rfl
  rw [hletters, canonicalLetters_eq, h.nfc_eq]
  split_ifs with hnil
  · rw [hnil]
    rfl
  · rfl

theorem isCanonical_toCanonical (s : Str) : IsCanonical d (toCanonical u s) := by
  have hbare := (h.data.isBare_strip s).map
  refine ⟨_, h.toCanonical_eq s, fun w hw => ?_⟩
  have hmem := mem_of_mem_splitWords hw
  refine ⟨isWord_splitWords _ w hw, fun c hc => hbare c (hmem c hc), fun c hc => ?_⟩
  obtain ⟨a, -, rfl⟩ := List.mem_map.mp (hmem c hc)
  exact canonicalChar_canonicalChar a

/-- Of a canonical name only the composition is left. -/
theorem toCanonical_of_isCanonical {s : Str} (hs : IsCanonical d s) :
    toCanonical u s = d.nfc s := by
  obtain ⟨ws, rfl, hws⟩ := hs
  have hbare : IsBare d (joinWith ' ' ws) :=
    forall_mem_joinWith (.inr h.data.isCut_blank) (fun w hw => (hws w hw).2.1)
  have hfixed : ∀ c ∈ joinWith ' ' ws, canonicalChar c = c :=
    forall_mem_joinWith (P := fun c => canonicalChar c = c) rfl (fun w hw => (hws w hw).2.2)
  have hnew := h.data.anchored.mem_nfc hbare
  have hkept : stripDiacritics (d.nfc (joinWith ' ' ws)) = d.nfc (joinWith ' ' ws) := by
    refine List.filter_eq_self.mpr (fun c hc => ?_)
    rw [Bool.not_eq_true']
    rcases hnew c hc with hplain | hmem
    · exact (isPlain_eq_true_iff.mp hplain).2.2
    · exact hbare.not_isDiacritic c hmem
  have hmap : (d.nfc (joinWith ' ' ws)).map canonicalChar = d.nfc (joinWith ' ' ws) := by
    refine (List.map_congr_left (fun c hc => ?_)).trans (List.map_id' _)
    rcases hnew c hc with hplain | hmem
    · exact canonicalChar_of_isPlain hplain
    · exact hfixed c hmem
  have hwords : ∀ w ∈ ws.map d.nfc, IsWord isspace w := by
    intro w hw
    obtain ⟨v, hv, rfl⟩ := List.mem_map.mp hw
    exact h.data.isWord_nfc (hws v hv).2.1 (hws v hv).1
  rw [h.toCanonical_eq, hkept, hmap, h.data.nfc_joinWith (fun w hw => (hws w hw).2.1),
    splitWords_joinWith hwords]

theorem toCanonical_toCanonical (s : Str) :
    toCanonical u (toCanonical u s) = d.nfc (toCanonical u s) :=
  h.toCanonical_of_isCanonical (h.isCanonical_toCanonical s)

/-- A second pass changes nothing exactly when the deletion left composed text. -/
theorem toCanonical_fixed_iff (s : Str) : toCanonical u (toCanonical u s) = toCanonical u s ↔
    d.IsNFC (stripDiacritics (d.nfc s)) := by
  have hbare := h.data.isBare_strip s
  rw [h.toCanonical_toCanonical, ← h.data.isNFC_map hbare, ← h.data.isNFC_collapse hbare.map,
    ← h.toCanonical_eq]
  exact Iff.rfl

theorem toMatchingForm_toCanonical {s : Str}
    (hs : toCanonical u (toCanonical u s) = toCanonical u s) :
    toMatchingForm u (toCanonical u s) = toMatchingForm u s := by
  by_cases hnil : s = []
  · rw [hnil]
    rfl
  · unfold toMatchingForm
    rw [if_neg hnil, hs]
    split_ifs with hempty
    · rw [hempty]
      exact h.casefold_nil.symm
    · rfl

end Unicode.ComposesBy

/-- What a stored name is to be: its own canonical form, with the matching form of the name it was
made from. -/
structure CanonicalOnce (lib : Libraries) (name : Str) : Prop where
  canonical : toCanonical lib.unicode (toCanonical lib.unicode name) = toCanonical lib.unicode name
  matching : toMatchingForm lib.unicode (toCanonical lib.unicode name) =
    toMatchingForm lib.unicode name
  stored : ∀ tenant_id person_uuid, ∀ args : PersonRepository.Args,
    args.canonical_name_ar = some name →
      ∀ stored ∈ (args.row lib tenant_id person_uuid).canonical_name_ar,
        toMatchingForm lib.unicode stored = toMatchingForm lib.unicode name

theorem canonicalOnce_of_fixed {lib : Libraries} (h : lib.unicode.ComposesBy d) {name : Str}
    (hname : toCanonical lib.unicode (toCanonical lib.unicode name) =
      toCanonical lib.unicode name) : CanonicalOnce lib name where
  canonical := hname
  matching := h.toMatchingForm_toCanonical hname
  stored := by
    intro tenant_id person_uuid args hargs stored hstored
    change stored ∈ (orNone args.canonical_name_ar).map (toCanonical lib.unicode) at hstored
    obtain ⟨given, hgiven, rfl⟩ := Option.mem_map.mp hstored
    obtain ⟨hgiven, -⟩ := orNone_eq_some_iff.mp hgiven
    rw [hargs] at hgiven
    obtain rfl := Option.some.inj hgiven
    exact h.toMatchingForm_toCanonical hname

/-- A name that is Arabic letters, deleted signs and whitespace when it is composed is canonical
once and for all. -/
theorem canonicalOnce_of_arabic {lib : Libraries} (h : lib.unicode.ComposesBy d) {name : Str}
    (hname : ∀ c ∈ d.nfc name,
      isspace c = true ∨ isArabicLetter c = true ∨ isDiacritic c = true) :
    CanonicalOnce lib name := by
  have hcut : ∀ c ∈ stripDiacritics (d.nfc name), IsCut d c := by
    intro c hc
    obtain ⟨hmem, hkept⟩ := List.mem_filter.mp hc
    rcases hname c hmem with hspace | hletter | hdeleted
    · exact .inr ⟨hspace, h.data.space_nfc name c hmem hspace⟩
    · exact .inl hletter
    · rw [hdeleted] at hkept
      cases hkept
  have hcomposed : ∀ {s : Str}, (∀ c ∈ s, IsCut d c) → d.IsNFC s := by
    intro s hs
    induction s with
    | nil => rfl
    | cons c s ih =>
      obtain ⟨hc, hrest⟩ := List.forall_mem_cons.mp hs
      exact (h.data.isNFC_cut hc (fun a ha => .inr (hrest a ha)) []).mpr ⟨rfl, ih hrest⟩
  exact canonicalOnce_of_fixed h ((h.toCanonical_fixed_iff name).mpr (hcomposed hcut))

/-- A name is canonical once and for all exactly when the signs that are deleted from the composed
name leave text in Normalization Form C. -/
theorem canonicalOnce_iff (lib : Libraries) (d : CharacterData Char)
    (h : lib.unicode.ComposesBy d) (name : Str) :
    CanonicalOnce lib name ↔ d.IsNFC ((d.nfc name).filter (fun c => !isDiacritic c)) := by
  constructor
  · intro hname
    exact (h.toCanonical_fixed_iff name).mp hname.canonical
  · intro hname
    exact canonicalOnce_of_fixed h ((h.toCanonical_fixed_iff name).mpr hname)

/-! Composition over the letters with hamza and madda and one Latin letter, for closed instances. -/

namespace Specimen

/-- A composite, and what it is made of. -/
def composites : List (Char × Char × Char) :=
  [('\u00e1', 'a', '\u0301'), ('\u0622', '\u0627', '\u0653'), ('\u0623', '\u0627', '\u0654'),
    ('\u0624', '\u0648', '\u0654'), ('\u0625', '\u0627', '\u0655'),
    ('\u0626', '\u064a', '\u0654'), ('\u06c0', '\u06d5', '\u0654'),
    ('\u06c2', '\u06c1', '\u0654'), ('\u06d3', '\u06d2', '\u0654')]

def classes : List (Char × ℕ) :=
  [('\u0301', 230), ('\u064b', 27), ('\u064c', 28), ('\u064d', 29), ('\u064e', 30),
    ('\u064f', 31), ('\u0650', 32), ('\u0651', 33), ('\u0652', 34), ('\u0653', 230),
    ('\u0654', 230), ('\u0655', 220), ('\u0670', 35)]

def database : CharacterData Char where
  combiningClass c := (classes.lookup c).getD 0
  decomposition c := (composites.lookup c).elim [c] (fun parts => [parts.1, parts.2])
  primaryComposite b c := (composites.find? (fun e => e.2 = (b, c))).map Prod.fst

def composing : Libraries where
  sha256 _ := []
  unicode := { unicode with nfc := database.nfc }

theorem mem_composites {b c p : Char} (h : database.primaryComposite b c = some p) :
    (p, b, c) ∈ composites := by
  obtain ⟨e, he, rfl⟩ := Option.map_eq_some_iff.mp h
  have hparts : e.2 = (b, c) := by simpa using List.find?_some he
  rw [← hparts]
  exact List.mem_of_find?_eq_some he

theorem mem_of_lookup {β : Type} {table : List (Char × β)} {c : Char} {b : β}
    (h : table.lookup c = some b) : (c, b) ∈ table := by
  obtain ⟨l, l', hsplit, -⟩ := List.lookup_eq_some_iff.mp h
  rw [hsplit]
  exact List.mem_append_right l List.mem_cons_self

/-- A character that is not composed is its own decomposition. -/
theorem decomposition_cases (c : Char) : database.decomposition c = [c] ∨
    ∃ b m, (c, b, m) ∈ composites ∧ database.decomposition c = [b, m] := by
  unfold database
  dsimp only
  cases hlookup : composites.lookup c with
  | none => exact .inl rfl
  | some parts => exact .inr ⟨parts.1, parts.2, mem_of_lookup hlookup, rfl⟩

theorem forall_decomposition {P : Char → Prop} {c : Char}
    (hself : database.decomposition c = [c] → P c)
    (hparts : ∀ b m, (c, b, m) ∈ composites → P b ∧ P m) :
    ∀ b ∈ database.decomposition c, P b := by
  rcases decomposition_cases c with hc | ⟨b, m, hmem, hc⟩
  · rw [hc]
    exact List.forall_mem_singleton.mpr (hself hc)
  · obtain ⟨hb, hm⟩ := hparts b m hmem
    rw [hc]
    exact List.forall_mem_cons.mpr ⟨hb, List.forall_mem_singleton.mpr hm⟩

theorem combiningClass_eq_zero {c : Char} (h : ∀ k, (c, k) ∉ classes) :
    database.combiningClass c = 0 := by
  unfold database
  dsimp only
  cases hlookup : classes.lookup c with
  | none => rfl
  | some k => exact absurd (mem_of_lookup hlookup) (h k)

/-- The table: composites are of the kind of their first part, and composed of a deleted sign unless
they are plain. -/
theorem composites_spec : ∀ e ∈ composites,
    database.decomposition e.2.1 = [e.2.1] ∧ database.decomposition e.2.2 = [e.2.2] ∧
    database.primaryComposite e.2.1 e.2.2 = some e.1 ∧
    isArabicLetter e.1 = isArabicLetter e.2.1 ∧ isPlain e.1 = isPlain e.2.1 ∧
    isspace e.1 = false ∧ isspace e.2.1 = false ∧
    ¬ (isspace e.2.2 = true ∨ isArabicLetter e.2.2 = true) ∧
    (isArabicLetter e.2.1 = true → isDiacritic e.2.2 = true) ∧
    (isPlain e.2.1 = true → isPlain e.2.2 = true) := by
  decide +kernel

theorem classes_spec : ∀ e ∈ classes, ¬ (isspace e.1 = true ∨ isArabicLetter e.1 = true) := by
  decide +kernel

theorem isCharacterDatabase : IsCharacterDatabase database where
  decomposition_ne_nil := by
    intro c
    rcases decomposition_cases c with hc | ⟨b, m, -, hc⟩
    · rw [hc]
      exact List.cons_ne_nil c []
    · rw [hc]
      exact List.cons_ne_nil b [m]
  decomposition_full := by
    intro c
    refine forall_decomposition id (fun b m hmem => ?_)
    obtain ⟨hb, hm, -⟩ := composites_spec _ hmem
    exact ⟨hb, hm⟩
  decomposition_blank := rfl
  decomposition_letter := by
    intro c hletter
    rcases decomposition_cases c with hc | ⟨b, m, hmem, hc⟩
    · exact .inl hc
    · obtain ⟨-, -, hcomposite, hsame, -⟩ := composites_spec _ hmem
      exact .inr ⟨b, m, hsame ▸ hletter, hc, hcomposite⟩
  decomposition_plain := by
    intro c hplain
    refine forall_decomposition (fun _ => hplain) (fun b m hmem => ?_)
    obtain ⟨-, -, -, -, hsame, -, -, -, -, hmark⟩ := composites_spec _ hmem
    have hb : isPlain b = true := hsame ▸ hplain
    exact ⟨hb, hmark hb⟩
  starter c hc := combiningClass_eq_zero (fun k hmem => classes_spec _ hmem hc)
  composite_before := by
    intro b c hc
    cases hcomposite : database.primaryComposite b c with
    | none => rfl
    | some p =>
      obtain ⟨-, -, -, -, -, -, -, hnot, -⟩ := composites_spec _ (mem_composites hcomposite)
      exact absurd hc hnot
  composite_after := by
    intro c b p hc hcomposite
    obtain ⟨-, -, -, -, -, -, hspace, -, hmark, -⟩ := composites_spec _ (mem_composites hcomposite)
    refine hmark (hc.resolve_left (fun hblank => ?_))
    rw [hspace] at hblank
    cases hblank
  composite_plain := by
    intro b c p hb _ hcomposite
    obtain ⟨-, -, -, -, hsame, -⟩ := composites_spec _ (mem_composites hcomposite)
    exact hsame.trans hb
  composite_not_space := by
    intro b c p hcomposite
    obtain ⟨-, -, -, -, -, hspace, -⟩ := composites_spec _ (mem_composites hcomposite)
    exact hspace

theorem composesBy : composing.unicode.ComposesBy database where
  data := isCharacterDatabase
  nfc_eq _ := rfl
  casefold_nil := rfl

/-- A name with its tashkeel. -/
def vowelled : Str :=
  ['\u0645', '\u064f', '\u062d', '\u064e', '\u0645', '\u0651', '\u064e', '\u062f']

end Specimen

theorem canonicalOnce_vowelled : CanonicalOnce Specimen.composing Specimen.vowelled := by
  have hcomposed : Specimen.database.IsNFC
      ((Specimen.database.nfc Specimen.vowelled).filter (fun c => !isDiacritic c)) := by
    decide +kernel
  exact (canonicalOnce_iff Specimen.composing Specimen.database Specimen.composesBy
    Specimen.vowelled).mpr hcomposed

/-- The end-of-ayah sign keeps the accent from the letter until it is deleted. The stored name is
composed by the next pass, and its matching form is not that of the name as supplied. -/
theorem canonical_twice :
    Specimen.composing.unicode.ComposesBy Specimen.database ∧
    toCanonical Specimen.composing.unicode ['a', '\u06dd', '\u0301'] = ['a', '\u0301'] ∧
    toCanonical Specimen.composing.unicode ['a', '\u0301'] = ['\u00e1'] ∧
    toMatchingForm Specimen.composing.unicode ['a', '\u06dd', '\u0301'] = ['a', '\u0301'] ∧
    toMatchingForm Specimen.composing.unicode ['a', '\u0301'] = ['\u00e1'] ∧
    ¬ CanonicalOnce Specimen.composing ['a', '\u06dd', '\u0301'] := by
  have hfirst : toCanonical Specimen.composing.unicode ['a', '\u06dd', '\u0301'] =
      ['a', '\u0301'] := by
    decide +kernel
  have hsecond : toCanonical Specimen.composing.unicode ['a', '\u0301'] = ['\u00e1'] := by
    decide +kernel
  refine ⟨Specimen.composesBy, hfirst, hsecond, by decide +kernel, by decide +kernel, fun h => ?_⟩
  have hsame := h.canonical
  rw [hfirst, hsecond] at hsame
  exact absurd hsame (by decide)

end Hawiya.ArabicNames
