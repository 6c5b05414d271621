import Hawiya.MrzCorruption

/-!
# Cleaning of the text fields

Every field of a passport is cut from its columns and cleaned by a rule of its own. Junk after the
name padding is dropped at the first run of two spaces, which the name's own strip removes when
there are no given names. The filler is taken off every text field but the two country codes.
-/

namespace Hawiya.Mrz
open PyString Calendar Validators MrzRoundTrip

theorem result_of_ok {today : Date} {line1 line2 : Str} {p : ParsedMRZ}
    (h : parseTd3 today line1 line2 = .ok p) :
    line1.length = 44 ∧ line2.length = 44 ∧ p = describedResult today line1 line2 := by
  obtain ⟨h₁, h₂, hreadable, -⟩ := checksums_of_ok h
  rw [parseTd3_of_readable today h₁ h₂ hreadable] at h
  exact ⟨h₁, h₂, (Except.ok.inj h).symm⟩

/-- The name field of a passport whose padding is misread from some column on. -/
structure NameField where
  surname : List Str
  given : List Str
  fillers : ℕ
  junk : Str
  surname_ne : surname ≠ []
  surname_words : ∀ w ∈ surname, w ≠ [] ∧ ∀ c ∈ w, IsUpperLetter c
  given_words : ∀ w ∈ given, w ≠ [] ∧ ∀ c ∈ w, IsUpperLetter c
  two_fillers : 2 ≤ fillers
  junk_mrz : ∀ c ∈ junk, IsMrzChar c

namespace NameField
variable (n : NameField)

def padding : Str := List.replicate n.fillers '<' ++ n.junk

def text : Str := joinWith '<' n.surname ++ '<' :: '<' :: (joinWith '<' n.given ++ n.padding)

theorem replace_padding :
    replaceChar '<' ' ' n.padding =
      ' ' :: ' ' :: (List.replicate (n.fillers - 2) ' ' ++ replaceChar '<' ' ' n.junk) := by
  obtain ⟨k, hk⟩ := Nat.exists_eq_add_of_le n.two_fillers
  have hreplicate : List.replicate n.fillers ' ' = ' ' :: ' ' :: List.replicate k ' ' := by
    rw [hk, Nat.add_comm, List.replicate_succ, List.replicate_succ]
  have hrest : n.fillers - 2 = k := by omega
  rw [padding, replaceChar_append, replaceChar_replicate, hreplicate, hrest]
  rfl

theorem ne_filler {ws : List Str} (hws : ∀ w ∈ ws, w ≠ [] ∧ ∀ c ∈ w, IsUpperLetter c) :
    ∀ w ∈ ws, ∀ c ∈ w, c ≠ '<' :=
  fun w hw c hc => upper_ne_filler ((hws w hw).2 c hc)

theorem parseName_text :
    parseName n.text =
      (joinWith ' ' n.surname, strip (joinWith ' ' n.given ++ replaceChar '<' ' ' n.padding)) := by
  have hsurname := strip_joinWith (isWord_space n.surname_words) 0
  rw [List.replicate_zero, List.append_nil] at hsurname
  simp only [parseName, text, splitOnce_joinWith (isWord_filler n.surname_words),
    replaceChar_append, replaceChar_joinWith (ne_filler n.surname_words),
    replaceChar_joinWith (ne_filler n.given_words), hsurname]

end NameField

/-- What is left of two spaces and junk begins with the two spaces, or is nothing. -/
theorem beforeSpaceRun_stripped (s : Str) :
    beforeSpaceRun ((' ' :: ' ' :: s).rdropWhile isspace) = [] := by
  obtain ⟨t, ht⟩ := List.rdropWhile_prefix isspace (' ' :: ' ' :: s)
  rcases hstripped : (' ' :: ' ' :: s).rdropWhile isspace with _ | ⟨c, _ | ⟨d, u⟩⟩
  · rfl
  · rw [hstripped, List.cons_append, List.cons.injEq] at ht
    have hne : (' ' :: ' ' :: s).rdropWhile isspace ≠ [] := by simp [hstripped]
    have hlast := List.rdropWhile_last_not isspace _ hne
    simp only [hstripped, List.getLast_singleton, ht.1] at hlast
    exact absurd rfl hlast
  · rw [hstripped, List.cons_append, List.cons_append, List.cons.injEq, List.cons.injEq] at ht
    rw [ht.1, ht.2.1]
    rfl

/-- Words are kept, and the junk after two spaces is not. -/
theorem stripOcrJunk_words_append {ws : List Str} (hne : ws ≠ [])
    (hws : ∀ w ∈ ws, w ≠ [] ∧ ∀ c ∈ w, IsUpperLetter c) (s : Str) :
    stripOcrJunk (strip (joinWith ' ' ws ++ ' ' :: ' ' :: s)) = joinWith ' ' ws := by
  have hwords := isWord_space hws
  have hjoin : joinWith ' ' ws ≠ [] := joinWith_ne_nil hne hwords
  rw [strip_joinWith_append hne hwords, stripOcrJunk, if_neg (by simp [hjoin]),
    strip_joinWith_append hne hwords, List.rdropWhile_idempotent,
    beforeSpaceRun_joinWith_append hne hwords, beforeSpaceRun_stripped, List.append_nil]

theorem beforeSpaceRun_strip_eq_nil {s : Str} : beforeSpaceRun (strip s) = [] ↔ strip s = [] := by
  cases hstrip : strip s with
  | nil => exact iff_of_true rfl rfl
  | cons c cs =>
    rw [beforeSpaceRun_cons_of_not_space (strip_eq_cons hstrip)]
    simp

theorem stripOcrJunk_strip_eq_nil {s : Str} : stripOcrJunk (strip s) = [] ↔ strip s = [] := by
  rw [stripOcrJunk]
  split_ifs with hnil
  · exact iff_of_true hnil hnil
  · rw [beforeSpaceRun_strip_eq_nil]
    constructor
    · intro h
      obtain ⟨c, cs, hstrip⟩ := List.exists_cons_of_ne_nil hnil
      have hspace := strip_eq_nil_iff.mp h c (by simp [hstrip])
      rw [strip_eq_cons hstrip] at hspace
      cases hspace
    · exact fun h => absurd h hnil

theorem strip_padding_eq_nil (n : NameField) :
    strip (replaceChar '<' ' ' n.padding) = [] ↔ ∀ c ∈ n.junk, c = '<' := by
  rw [strip_eq_nil_iff]
  constructor
  · intro h c hc
    by_contra hne
    have hspace := h c (List.mem_map.mpr ⟨c, List.mem_append_right _ hc, if_neg hne⟩)
    rw [not_isspace_of_mrz (n.junk_mrz c hc)] at hspace
    cases hspace
  · intro h c hc
    obtain ⟨d, hd, rfl⟩ := List.mem_map.mp hc
    have hfiller : d = '<' := by
      rcases List.mem_append.mp hd with hd | hd
      · exact List.eq_of_mem_replicate hd
      · exact h d hd
    rw [if_pos hfiller]
    rfl

/-- The names of an accepted passport are recovered exactly when there are given names, or nothing
was misread. -/
theorem names_recovered_iff {today : Date} {line1 line2 : Str} {p : ParsedMRZ}
    (h : parseTd3 today line1 line2 = .ok p) (n : NameField) (hname : slice 5 44 line1 = n.text) :
    ((fieldsFromParsed p).surname = some (joinWith ' ' n.surname) ∧
      (fieldsFromParsed p).given_names = some (joinWith ' ' n.given)) ↔
      (n.given ≠ [] ∨ ∀ c ∈ n.junk, c = '<') := by
  obtain ⟨-, -, rfl⟩ := result_of_ok h
  simp only [fieldsFromParsed, describedResult, hname, n.parseName_text,
    stripOcrJunk_words n.surname_words, true_and, Option.some.injEq]
  by_cases hgiven : n.given = []
  · rw [hgiven, joinWith, List.nil_append, stripOcrJunk_strip_eq_nil, strip_padding_eq_nil]
    simp
  · rw [n.replace_padding, stripOcrJunk_words_append hgiven n.given_words]
    exact iff_of_true rfl (.inl hgiven)

namespace Misread

def junkName : NameField where
  surname := ["ALMANSOORI".toList]
  given := ["MOHAMED".toList]
  fillers := 12
  junk := "KK<<<<<<".toList
  surname_ne := by decide
  surname_words := by
    intro w hw
    rw [List.mem_singleton.mp hw]
    exact ⟨by decide, forall_of_all rfl⟩
  given_words := by
    intro w hw
    rw [List.mem_singleton.mp hw]
    exact ⟨by decide, forall_of_all rfl⟩
  two_fillers := by decide
  junk_mrz := forall_of_all rfl

/-- The same padding after a surname without given names. -/
def junkMononym : NameField where
  surname := ["ALMANSOORI".toList]
  given := []
  fillers := 19
  junk := "KK<<<<<<".toList
  surname_ne := by decide
  surname_words := junkName.surname_words
  given_words := nofun
  two_fillers := by decide
  junk_mrz := forall_of_all rfl

def lineOf (n : NameField) : Str := "P<ARE".toList ++ n.text

theorem parse_lineOf (n : NameField) (h : (lineOf n).length = 44) :
    parseTd3 today (lineOf n) printed = .ok (describedResult today (lineOf n) printed) :=
  parseTd3_of_readable today h rfl readable_printed

theorem names_recovered_junkName :
    (fieldsFromParsed (describedResult today (lineOf junkName) printed)).surname =
        some "ALMANSOORI".toList ∧
      (fieldsFromParsed (describedResult today (lineOf junkName) printed)).given_names =
        some "MOHAMED".toList :=
  (names_recovered_iff (parse_lineOf junkName rfl) junkName rfl).mpr (.inl (by decide))

/-- Without given names the junk becomes them. -/
theorem junkMononym_misread :
    ∃ q, parseTd3 today (lineOf junkMononym) printed = .ok q ∧
      slice 5 44 (lineOf junkMononym) = junkMononym.text ∧
      (fieldsFromParsed q).given_names = some "KK".toList ∧
      (fieldsFromParsed q).given_names ≠ some (joinWith ' ' junkMononym.given) :=
  ⟨_, parse_lineOf junkMononym rfl, rfl, rfl, by decide +kernel⟩

end Misread

def textFields (f : Fields) : List (Option Str) :=
  [f.document_type, f.issuing_country, f.surname, f.given_names, f.document_number, f.nationality,
    f.personal_number]

def Unpadded (f : Fields) : Prop := ∀ s, some s ∈ textFields f → s.getLast? ≠ some '<'

theorem filler_not_mem_parseName (field : Str) :
    '<' ∉ (parseName field).1 ∧ '<' ∉ (parseName field).2 := by
  have hreplaced : ∀ s, '<' ∉ strip (replaceChar '<' ' ' s) :=
    fun s h => not_mem_replaceChar (by decide) s (mem_of_mem_strip h)
  refine ⟨hreplaced _, ?_⟩
  cases hrest : (splitOnce ['<', '<'] field).2 with
  | none => simp only [parseName, hrest, List.not_mem_nil, not_false_eq_true]
  | some rest =>
    simp only [parseName, hrest]
    exact hreplaced rest

theorem mem_of_mem_stripOcrJunk {name : Str} {c : Char} (h : c ∈ stripOcrJunk name) : c ∈ name := by
  rw [stripOcrJunk] at h
  split_ifs at h with hnil
  · exact h
  · exact mem_of_mem_strip (mem_of_mem_beforeSpaceRun h)

theorem getLast?_stripOcrJunk {name : Str} (h : '<' ∉ name) :
    (stripOcrJunk name).getLast? ≠ some '<' :=
  fun hlast => h (mem_of_mem_stripOcrJunk (List.mem_of_getLast? hlast))

theorem getLast?_slice {a b : ℕ} {s : Str} (hab : a < b) (hb : b ≤ s.length) :
    (slice a b s).getLast? = s[b - 1]? := by
  have hlength := length_slice hb (a := a)
  rw [List.getLast?_eq_getElem?, getElem?_slice, hlength, if_pos (by omega)]
  congr 1
  omega

/-- The text fields are without filler exactly when the two country codes have three letters. -/
theorem unpadded_iff {today : Date} {line1 line2 : Str} {p : ParsedMRZ}
    (h : parseTd3 today line1 line2 = .ok p) :
    Unpadded (fieldsFromParsed p) ↔ line1[4]? ≠ some '<' ∧ line2[12]? ≠ some '<' := by
  obtain ⟨h₁, h₂, rfl⟩ := result_of_ok h
  obtain ⟨hsurname, hgiven⟩ := filler_not_mem_parseName (slice 5 44 line1)
  have hcountry := getLast?_slice (a := 2) (b := 5) (s := line1) (by omega) (by omega)
  have hnationality := getLast?_slice (a := 10) (b := 13) (s := line2) (by omega) (by omega)
  constructor
  · intro hall
    have hcountry' := hall (slice 2 5 line1) (by simp [textFields, fieldsFromParsed, describedResult])
    have hnationality' := hall (slice 10 13 line2)
      (by simp [textFields, fieldsFromParsed, describedResult])
    rw [hcountry] at hcountry'
    rw [hnationality] at hnationality'
    exact ⟨hcountry', hnationality'⟩
  · rintro ⟨hcountry', hnationality'⟩ s hs
    simp only [textFields, fieldsFromParsed, describedResult, List.mem_cons, Option.some.injEq,
      List.not_mem_nil, or_false] at hs
    rcases hs with rfl | rfl | rfl | rfl | rfl | rfl | hs
    · exact getLast?_rstripChar _ _
    · rwa [hcountry]
    · exact getLast?_stripOcrJunk hsurname
    · exact getLast?_stripOcrJunk hgiven
    · exact getLast?_rstripChar _ _
    · rwa [hnationality]
    · rw [← Option.some.inj (orNone_eq_some_iff.mp hs.symm).1]
      exact getLast?_rstripChar _ _

namespace Misread

theorem unpadded_printed :
    Unpadded (fieldsFromParsed (describedResult today line1 printed)) :=
  (unpadded_iff (parseTd3_of_readable today rfl rfl readable_printed)).mpr
    ⟨by decide +kernel, by decide +kernel⟩

def german : Str := "P<D<<ALMANSOORI<<MOHAMED<<<<<<<<<<<<<<<<<<<<".toList

theorem german_padded :
    ∃ p, parseTd3 today german printed = .ok p ∧
      (fieldsFromParsed p).issuing_country = some "D<<".toList ∧ ¬ Unpadded (fieldsFromParsed p) := by
  have hparse : parseTd3 today german printed = .ok (describedResult today german printed) :=
    parseTd3_of_readable today rfl rfl readable_printed
  refine ⟨_, hparse, rfl, fun h => ?_⟩
  exact h "D<<".toList (by simp [textFields, fieldsFromParsed, describedResult]; decide) rfl

end Misread
end Hawiya.Mrz
