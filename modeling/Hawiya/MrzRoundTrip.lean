import Hawiya.Fields
import Hawiya.MrzEncode
import Hawiya.MrzLayout

/-!
# The parser undoes the encoder

`buildTd3Mrz` and `parseTd3` are written independently: one concatenates blocks, the other slices
at fixed columns. The encoder's lines are the lines of some `Blocks`; the name, date and
check-digit lemmas decode one block each; the main theorem reads every field back.
-/

namespace Hawiya.MrzRoundTrip
open PyString Calendar Validators Mrz MrzEncode

def IsAsciiLetter (c : Char) : Prop := ('A' ≤ c ∧ c ≤ 'Z') ∨ ('a' ≤ c ∧ c ≤ 'z')

def IsUpperLetter (c : Char) : Prop := 'A' ≤ c ∧ c ≤ 'Z'

def IsAsciiDigit (c : Char) : Prop := '0' ≤ c ∧ c ≤ '9'

def IsUpperAlnum (c : Char) : Prop := IsAsciiDigit c ∨ IsUpperLetter c

instance (c : Char) : Decidable (IsAsciiLetter c) := inferInstanceAs (Decidable (_ ∨ _))
instance (c : Char) : Decidable (IsUpperLetter c) := inferInstanceAs (Decidable (_ ∧ _))
instance (c : Char) : Decidable (IsAsciiDigit c) := inferInstanceAs (Decidable (_ ∧ _))
instance (c : Char) : Decidable (IsUpperAlnum c) := inferInstanceAs (Decidable (_ ∨ _))

/-- A name made of nonempty words of ASCII letters joined by single spaces. -/
def IsName (s : Str) : Prop :=
  ∃ ws : List Str, s = joinWith ' ' ws ∧ ∀ w ∈ ws, w ≠ [] ∧ ∀ c ∈ w, IsAsciiLetter c

/-- The two-digit year, month and day of `d` spell `raw`. -/
def Spells (raw : Str) (d : Date) : Prop :=
  raw = digits2 (d.year % 100) ++ digits2 d.month ++ digits2 d.day

theorem upper_letter {c : Char} (hc : IsAsciiLetter c) : IsUpperLetter c.toUpper := by
  rcases hc with ⟨hlo, hhi⟩ | ⟨hlo, hhi⟩
  · have h : ∀ n, 65 ≤ n → n ≤ 90 → IsUpperLetter (Char.ofNat n).toUpper :=
      fun n h₁ h₂ => by interval_cases n <;> decide
    exact of_between (P := fun c => IsUpperLetter c.toUpper) h hlo hhi
  · have h : ∀ n, 97 ≤ n → n ≤ 122 → IsUpperLetter (Char.ofNat n).toUpper :=
      fun n h₁ h₂ => by interval_cases n <;> decide
    exact of_between (P := fun c => IsUpperLetter c.toUpper) h hlo hhi

theorem letter_not_space {c : Char} (hc : IsAsciiLetter c) : isspace c = false := by
  have hbound : 65 ≤ c.toNat ∧ c.toNat ≤ 122 := by
    rcases hc with ⟨hlo, hhi⟩ | ⟨hlo, hhi⟩
    · exact ⟨hlo, le_trans (show c.toNat ≤ 90 from hhi) (by omega)⟩
    · exact ⟨le_trans (by omega) (show 97 ≤ c.toNat from hlo), hhi⟩
  simp only [isspace, Bool.or_eq_false_iff, Bool.and_eq_false_iff, decide_eq_false_iff_not,
    beq_eq_false_iff_ne]
  omega

theorem upper_ne_filler {c : Char} (hc : IsUpperLetter c) : c ≠ '<' := by
  rintro rfl
  exact absurd hc.1 (by decide)

theorem upper_mrz {c : Char} (hc : IsUpperAlnum c) : IsMrzChar c := by
  rcases hc with hc | hc
  · exact Or.inr (Or.inl hc)
  · exact Or.inr (Or.inr hc)

theorem upperAlnum_ne_filler {c : Char} (hc : IsUpperAlnum c) : c ≠ '<' := by
  rintro rfl
  rcases hc with hc | hc
  · exact absurd hc.2 (by decide)
  · exact absurd hc.1 (by decide)

theorem pad_eq_ok {value : Str} {n : ℕ} (h : value.length ≤ n) :
    pad value n = .ok (value ++ List.replicate (n - value.length) '<') := by
  rw [pad, if_neg (by omega)]

theorem length_padded {value : Str} {n : ℕ} (h : value.length ≤ n) :
    (value ++ List.replicate (n - value.length) '<').length = n := by
  rw [List.length_append, List.length_replicate]
  omega

/-- Stripping filler from a padded value gives the value back. -/
theorem rstripChar_padded {value : Str} (hv : ∀ c ∈ value, c ≠ '<') (k : ℕ) :
    rstripChar '<' (value ++ List.replicate k '<') = value := by
  have hpad : ∀ c ∈ List.replicate k '<', (c == '<') = true := by
    intro c hc
    rw [List.eq_of_mem_replicate hc]
    rfl
  rw [rstripChar, rdropWhile_append_of_all hpad, List.rdropWhile_eq_self_iff]
  intro hne
  have hlast := hv _ (List.getLast_mem hne)
  simpa using hlast

theorem padded_mrz {value : Str} (hv : ∀ c ∈ value, IsUpperAlnum c) (k : ℕ) :
    ∀ c ∈ value ++ List.replicate k '<', IsMrzChar c := by
  intro c hc
  rcases List.mem_append.1 hc with h | h
  · exact upper_mrz (hv c h)
  · exact Or.inl (List.eq_of_mem_replicate h)

theorem upper_word {w : Str} (hw : w ≠ [] ∧ ∀ c ∈ w, IsAsciiLetter c) :
    upper w ≠ [] ∧ ∀ c ∈ upper w, IsUpperLetter c := by
  refine ⟨by simpa [upper] using hw.1, fun c hc => ?_⟩
  obtain ⟨d, hd, rfl⟩ := List.mem_map.1 hc
  exact upper_letter (hw.2 d hd)

theorem upper_joinWith (ws : List Str) : upper (joinWith ' ' ws) = joinWith ' ' (ws.map upper) :=
  map_joinWith Char.toUpper ' ' ws

theorem isWord_space {ws : List Str} (hws : ∀ w ∈ ws, w ≠ [] ∧ ∀ c ∈ w, IsUpperLetter c) :
    ∀ w ∈ ws, IsWord isspace w := by
  intro w hw
  exact ⟨(hws w hw).1, fun c hc => letter_not_space (Or.inl ((hws w hw).2 c hc))⟩

theorem isWord_filler {ws : List Str} (hws : ∀ w ∈ ws, w ≠ [] ∧ ∀ c ∈ w, IsUpperLetter c) :
    ∀ w ∈ ws, IsWord (· == '<') w := by
  intro w hw
  exact ⟨(hws w hw).1, fun c hc => by simpa using upper_ne_filler ((hws w hw).2 c hc)⟩

theorem upper_words_ne_space {ws : List Str}
    (hws : ∀ w ∈ ws, w ≠ [] ∧ ∀ c ∈ w, IsUpperLetter c) : ∀ w ∈ ws, ∀ c ∈ w, c ≠ ' ' := by
  intro w hw c hc he
  have hsp := letter_not_space (Or.inl ((hws w hw).2 c hc))
  rw [he] at hsp
  exact absurd hsp (by decide)

/-- The name field the parser sees, split and unfilled, is the pair of upper-cased names. -/
theorem parseName_words {ss gs : List Str}
    (hs : ∀ w ∈ ss, w ≠ [] ∧ ∀ c ∈ w, IsUpperLetter c)
    (hg : ∀ w ∈ gs, w ≠ [] ∧ ∀ c ∈ w, IsUpperLetter c) (k : ℕ) :
    parseName (joinWith '<' ss ++ '<' :: '<' :: (joinWith '<' gs ++ List.replicate k '<')) =
      (joinWith ' ' ss, joinWith ' ' gs) := by
  have hsne : ∀ w ∈ ss, ∀ c ∈ w, c ≠ '<' := fun w hw c hc => upper_ne_filler ((hs w hw).2 c hc)
  have hgne : ∀ w ∈ gs, ∀ c ∈ w, c ≠ '<' := fun w hw c hc => upper_ne_filler ((hg w hw).2 c hc)
  have hsurname := strip_joinWith (isWord_space hs) 0
  have hgiven := strip_joinWith (isWord_space hg) k
  simp only [List.replicate_zero, List.append_nil] at hsurname
  simp only [parseName, splitOnce_joinWith (isWord_filler hs), replaceChar_append,
    replaceChar_joinWith hsne, replaceChar_joinWith hgne, replaceChar_replicate, hsurname, hgiven]

theorem stripOcrJunk_words {ws : List Str} (hws : ∀ w ∈ ws, w ≠ [] ∧ ∀ c ∈ w, IsUpperLetter c) :
    stripOcrJunk (joinWith ' ' ws) = joinWith ' ' ws := by
  have hstrip := strip_joinWith (isWord_space hws) 0
  simp only [List.replicate_zero, List.append_nil] at hstrip
  rw [stripOcrJunk, hstrip, beforeSpaceRun_joinWith (isWord_space hws), ite_self]

/-- The encoder's name field: both names upper-cased, spaces as filler, padded to 39. -/
theorem nameField_words {ss gs : List Str}
    (hs : ∀ w ∈ ss, w ≠ [] ∧ ∀ c ∈ w, IsAsciiLetter c)
    (hg : ∀ w ∈ gs, w ≠ [] ∧ ∀ c ∈ w, IsAsciiLetter c)
    (hlen : (joinWith ' ' ss).length + 2 + (joinWith ' ' gs).length ≤ 39) :
    ∃ k, nameField (joinWith ' ' ss) (joinWith ' ' gs) =
        .ok (joinWith '<' (ss.map upper) ++ '<' :: '<' ::
          (joinWith '<' (gs.map upper) ++ List.replicate k '<')) ∧
      (joinWith '<' (ss.map upper) ++ '<' :: '<' ::
          (joinWith '<' (gs.map upper) ++ List.replicate k '<')).length = 39 := by
  have hupper : ∀ ws : List Str, (∀ w ∈ ws, w ≠ [] ∧ ∀ c ∈ w, IsAsciiLetter c) →
      replaceChar ' ' '<' (upper (joinWith ' ' ws)) = joinWith '<' (ws.map upper) := by
    intro ws hws
    rw [upper_joinWith]
    refine replaceChar_joinWith (upper_words_ne_space ?_)
    intro w hw
    obtain ⟨v, hv, rfl⟩ := List.mem_map.1 hw
    exact upper_word (hws v hv)
  have hlength : ∀ ws : List Str, (∀ w ∈ ws, w ≠ [] ∧ ∀ c ∈ w, IsAsciiLetter c) →
      (joinWith '<' (ws.map upper)).length = (joinWith ' ' ws).length := by
    intro ws hws
    rw [← hupper ws hws, replaceChar, upper, List.length_map, List.length_map]
  refine ⟨39 - ((joinWith ' ' ss).length + ((joinWith ' ' gs).length + 1 + 1)), ?_, ?_⟩
  · rw [nameField, hupper ss hs, hupper gs hg, pad_eq_ok]
    · simp only [List.length_append, hlength ss hs, hlength gs hg, List.length_cons,
        List.append_assoc, List.cons_append, List.nil_append, nameLength]
    · simp only [List.length_append, hlength ss hs, hlength gs hg, List.length_cons,
        List.length_nil, nameLength]
      omega
  · simp only [List.length_append, List.length_cons, List.length_replicate, hlength ss hs,
      hlength gs hg]
    omega

theorem six_digits {raw : Str} (hlen : raw.length = 6) (hd : ∀ c ∈ raw, IsAsciiDigit c) :
    ∃ yy < 100, ∃ mm < 100, ∃ dd < 100, raw = digits2 yy ++ digits2 mm ++ digits2 dd := by
  match raw, hlen with
  | [a, b, c, d, e, f], _ =>
      obtain ⟨yy, hyy, hy⟩ := exists_digits2 (hd a (by simp)) (hd b (by simp))
      obtain ⟨mm, hmm, hm⟩ := exists_digits2 (hd c (by simp)) (hd d (by simp))
      obtain ⟨dd, hdd, hdy⟩ := exists_digits2 (hd e (by simp)) (hd f (by simp))
      exact ⟨yy, hyy, mm, hmm, dd, hdd, by rw [hy, hm, hdy]; rfl⟩

theorem isdigit_six {yy mm dd : ℕ} (hy : yy < 100) (hm : mm < 100) (hd : dd < 100) :
    isdigit (digits2 yy ++ digits2 mm ++ digits2 dd) = true := by
  have hall : ∀ c ∈ digits2 yy ++ digits2 mm ++ digits2 dd, isdigitChar c = true := by
    intro c hc
    rcases List.mem_append.1 hc with h | h
    · rcases List.mem_append.1 h with h | h
      · exact digits2_isdigit hy c h
      · exact digits2_isdigit hm c h
    · exact digits2_isdigit hd c h
  rw [isdigit, List.all_eq_true.2 hall]
  rfl

theorem int_digits2 {n : ℕ} (hn : n < 100) : int (digits2 n) = .ok n := by
  rw [int, int?_digits2 hn]

theorem parseDob_digits (today : Date) {yy mm dd : ℕ} (hy : yy < 100) (hm : mm < 100)
    (hd : dd < 100) :
    parseDob today (digits2 yy ++ digits2 mm ++ digits2 dd) =
      .ok (Date.ofYmd?
        ((if yy > today.year % 100 + dobFutureSlack then 1900 else 2000) + yy) mm dd) := by
  rw [parseDob, isdigit_six hy hm hd]
  change (int (digits2 yy) >>= fun yy' => int (digits2 mm) >>= fun mm' => int (digits2 dd) >>=
    fun dd' => _) = _
  rw [int_digits2 hy, int_digits2 hm, int_digits2 hd]
  rfl

theorem parseExpiry_digits {yy mm dd : ℕ} (hy : yy < 100) (hm : mm < 100) (hd : dd < 100) :
    parseExpiry (digits2 yy ++ digits2 mm ++ digits2 dd) =
      .ok (Date.ofYmd? ((if yy < expiryCenturyCutoff then 2000 else 1900) + yy) mm dd) := by
  rw [parseExpiry, isdigit_six hy hm hd]
  change (int (digits2 yy) >>= fun yy' => int (digits2 mm) >>= fun mm' => int (digits2 dd) >>=
    fun dd' => _) = _
  rw [int_digits2 hy, int_digits2 hm, int_digits2 hd]
  rfl

theorem spells_iff {yy mm dd : ℕ} (hy : yy < 100) (hm : mm < 100) (hd : dd < 100) (d : Date) :
    Spells (digits2 yy ++ digits2 mm ++ digits2 dd) d ↔
      d.year % 100 = yy ∧ d.month = mm ∧ d.day = dd := by
  unfold Spells
  constructor
  · intro h
    obtain ⟨hym, hday⟩ := List.append_inj h rfl
    obtain ⟨hyear, hmonth⟩ := List.append_inj hym rfl
    exact ⟨(digits2_inj hy (by omega) hyear).symm,
      (digits2_inj hm d.month_lt_hundred hmonth).symm, (digits2_inj hd d.day_lt_hundred hday).symm⟩
  · rintro ⟨rfl, rfl, rfl⟩
    rfl

/-- The arguments `build_td3_mrz` is meant for. -/
structure WellFormed (m : MrzSpec) : Prop where
  issuing : m.issuing.length = 3 ∧ ∀ c ∈ m.issuing, IsUpperLetter c
  nationality : m.nationality.length = 3 ∧ ∀ c ∈ m.nationality, IsUpperLetter c
  surname : IsName m.surname
  given : IsName m.given
  names_fit : m.surname.length + 2 + m.given.length ≤ 39
  passport_number : 1 ≤ m.passport_number.length ∧ m.passport_number.length ≤ 9 ∧
    ∀ c ∈ m.passport_number, IsUpperAlnum c
  dob : m.dob.length = 6 ∧ ∀ c ∈ m.dob, IsAsciiDigit c
  sex : m.sex = ['M'] ∨ m.sex = ['F'] ∨ m.sex = ['X']
  expiry : m.expiry.length = 6 ∧ ∀ c ∈ m.expiry, IsAsciiDigit c
  personal : m.personal.length ≤ 14 ∧ ∀ c ∈ m.personal, IsUpperAlnum c

theorem digits_mrz {s : Str} (hs : ∀ c ∈ s, IsAsciiDigit c) : ∀ c ∈ s, IsMrzChar c :=
  fun c hc => upper_mrz (Or.inl (hs c hc))

theorem parseSex_single {s : Str} (hs : s = ['M'] ∨ s = ['F'] ∨ s = ['X']) :
    ∃ c, s = [c] ∧ (parseSex c).map Sex.value = some s := by
  rcases hs with rfl | rfl | rfl
  · exact ⟨'M', rfl, rfl⟩
  · exact ⟨'F', rfl, rfl⟩
  · exact ⟨'X', rfl, rfl⟩

/-- What the encoder writes, block by block: every check digit is the computed one. -/
structure Encodes (m : MrzSpec) (b : Blocks) : Prop where
  document_type : b.document_type = ['P', '<']
  issuing : b.issuing_country = m.issuing
  name : nameField m.surname m.given = .ok b.name
  doc_number : ∃ k, b.doc_number = m.passport_number ++ List.replicate k '<'
  nationality : b.nationality = m.nationality
  dob : b.dob = m.dob
  sex : m.sex = [b.sex]
  expiry : b.expiry = m.expiry
  personal : ∃ k, b.personal = m.personal ++ List.replicate k '<'
  doc_number_ok : verify b.doc_number b.doc_number_check = .ok true
  dob_ok : verify b.dob b.dob_check = .ok true
  expiry_ok : verify b.expiry b.expiry_check = .ok true
  personal_ok : verify b.personal b.personal_check = .ok true
  composite_ok : ∃ d : ℕ, computeCheckDigit b.composite = .ok d ∧
    parseCheckForComposite b.composite_check = d

theorem parseCheckForComposite_digitChar (d : ℕ) (hd : d < 10) :
    parseCheckForComposite (Nat.digitChar d) = d := by
  interval_cases d <;> rfl

/-- A field that fits is padded to its length. -/
theorem exists_padded {n : ℕ} {s : Str} (hlen : s.length ≤ n) (hs : ∀ c ∈ s, IsUpperAlnum c) :
    ∃ v, pad s n = .ok v ∧ (∃ k, v = s ++ List.replicate k '<') ∧ v.length = n ∧
      ∀ c ∈ v, IsMrzChar c :=
  ⟨_, pad_eq_ok hlen, ⟨_, rfl⟩, length_padded hlen, padded_mrz hs (n - s.length)⟩

/-- On well-formed arguments the encoder succeeds and returns the lines of blocks it encodes. -/
theorem buildTd3Mrz_blocks {m : MrzSpec} (hm : WellFormed m) :
    ∃ b : Blocks, buildTd3Mrz m = .ok (b.line1, b.line2) ∧ Encodes m b := by
  obtain ⟨ss, hss, hs⟩ := hm.surname
  obtain ⟨gs, hgs, hg⟩ := hm.given
  have hfit := hm.names_fit
  rw [hss, hgs] at hfit
  obtain ⟨k, hname, hnamelen⟩ := nameField_words hs hg hfit
  rw [← hss, ← hgs] at hname
  generalize joinWith '<' (ss.map upper) ++ '<' :: '<' ::
    (joinWith '<' (gs.map upper) ++ List.replicate k '<') = name at hname hnamelen
  obtain ⟨doc, hdocpad, hdockey, hdoclen, hdocmrz⟩ :=
    exists_padded hm.passport_number.2.1 hm.passport_number.2.2
  obtain ⟨pers, hperspad, hperskey, hperslen, hpersmrz⟩ := exists_padded hm.personal.1 hm.personal.2
  obtain ⟨c₁, hc₁, hdoc⟩ := computeCheckDigit_isOk hdocmrz
  obtain ⟨c₂, hc₂, hdob⟩ := computeCheckDigit_isOk (digits_mrz hm.dob.2)
  obtain ⟨c₃, hc₃, hexp⟩ := computeCheckDigit_isOk (digits_mrz hm.expiry.2)
  obtain ⟨c₄, hc₄, hpers⟩ := computeCheckDigit_isOk hpersmrz
  obtain ⟨c₅, hc₅, hcomp⟩ : ∃ d < 10, computeCheckDigit (doc ++ [Nat.digitChar c₁] ++ m.dob ++
      [Nat.digitChar c₂] ++ m.expiry ++ [Nat.digitChar c₃] ++ pers ++ [Nat.digitChar c₄]) =
        .ok d := by
    apply computeCheckDigit_isOk
    intro c hc
    simp only [List.mem_append, List.mem_singleton] at hc
    rcases hc with ((((((hc | rfl) | hc) | rfl) | hc) | rfl) | hc) | rfl
    · exact hdocmrz c hc
    · exact digitChar_mrz c₁ hc₁
    · exact digits_mrz hm.dob.2 c hc
    · exact digitChar_mrz c₂ hc₂
    · exact digits_mrz hm.expiry.2 c hc
    · exact digitChar_mrz c₃ hc₃
    · exact hpersmrz c hc
    · exact digitChar_mrz c₄ hc₄
  obtain ⟨sex, hsex, _⟩ := parseSex_single hm.sex
  let b : Blocks :=
    { document_type := ['P', '<'], issuing_country := m.issuing, name := name, doc_number := doc
      doc_number_check := Nat.digitChar c₁, nationality := m.nationality, dob := m.dob
      dob_check := Nat.digitChar c₂, sex := sex, expiry := m.expiry
      expiry_check := Nat.digitChar c₃, personal := pers, personal_check := Nat.digitChar c₄
      composite_check := Nat.digitChar c₅, length_document_type := rfl
      length_issuing_country := hm.issuing.1, length_name := hnamelen
      length_doc_number := hdoclen, length_nationality := hm.nationality.1
      length_dob := hm.dob.1, length_expiry := hm.expiry.1, length_personal := hperslen }
  have hline₁ : b.line1.length = 44 := b.length_line1
  have hline₂ : b.line2.length = 44 := b.length_line2
  refine ⟨b, ?_, ?_⟩
  · simp only [Blocks.line1, Blocks.line2, b] at hline₁ hline₂ ⊢
    simp only [buildTd3Mrz, hname, hdocpad, hperspad, hdoc, hdob, hexp, hpers,
      except_ok_bind, natStr_of_lt_ten _ hc₁, natStr_of_lt_ten _ hc₂, natStr_of_lt_ten _ hc₃,
      natStr_of_lt_ten _ hc₄, hcomp, natStr_of_lt_ten _ hc₅, hsex]
    rw [if_neg (by rw [hline₁]; simp), if_neg (by rw [hline₂]; simp)]
    rfl
  · exact
      { document_type := rfl, issuing := rfl, name := hname, doc_number := hdockey
        nationality := rfl, dob := rfl, sex := hsex, expiry := rfl, personal := hperskey
        doc_number_ok := verify_computed hc₁ hdoc, dob_ok := verify_computed hc₂ hdob
        expiry_ok := verify_computed hc₃ hexp, personal_ok := verify_computed hc₄ hpers
        composite_ok := ⟨c₅, hcomp, parseCheckForComposite_digitChar c₅ hc₅⟩ }

/-- The expiry window: 2000..2049 and 1950..1999. -/
def IsExpiryYear (y : ℕ) : Prop := (2000 ≤ y ∧ y ≤ 2049) ∨ (1950 ≤ y ∧ y ≤ 1999)

theorem parseExpiry_spells {raw : Str} (hlen : raw.length = 6) (hd : ∀ c ∈ raw, IsAsciiDigit c) :
    ∃ o, parseExpiry raw = .ok o ∧ ∀ d, o = some d ↔ IsExpiryYear d.year ∧ Spells raw d := by
  obtain ⟨yy, hy, mm, hm, dd, hdd, rfl⟩ := six_digits hlen hd
  refine ⟨_, parseExpiry_digits hy hm hdd, fun d => ?_⟩
  rw [Date.ofYmd?_eq_some_iff, spells_iff hy hm hdd, IsExpiryYear, expiryCenturyCutoff]
  split_ifs <;> omega

theorem parseDob_spells (today : Date) {raw : Str} (hlen : raw.length = 6)
    (hd : ∀ c ∈ raw, IsAsciiDigit c) :
    ∃ o, parseDob today raw = .ok o ∧ ∀ d, o = some d → Spells raw d := by
  obtain ⟨yy, hy, mm, hm, dd, hdd, rfl⟩ := six_digits hlen hd
  refine ⟨_, parseDob_digits today hy hm hdd, fun d h => ?_⟩
  rw [Date.ofYmd?_eq_some_iff] at h
  rw [spells_iff hy hm hdd]
  split_ifs at h <;> omega

theorem parseName_encoded {surname given name : Str} (hs : IsName surname) (hg : IsName given)
    (hfit : surname.length + 2 + given.length ≤ 39) (hname : nameField surname given = .ok name) :
    stripOcrJunk (parseName name).1 = upper surname ∧
      stripOcrJunk (parseName name).2 = upper given := by
  obtain ⟨ss, rfl, hss⟩ := hs
  obtain ⟨gs, rfl, hgs⟩ := hg
  obtain ⟨k, hfield, _⟩ := nameField_words hss hgs hfit
  have hup : ∀ ws : List Str, (∀ w ∈ ws, w ≠ [] ∧ ∀ c ∈ w, IsAsciiLetter c) →
      ∀ w ∈ ws.map upper, w ≠ [] ∧ ∀ c ∈ w, IsUpperLetter c := by
    intro ws hws w hw
    obtain ⟨v, hv, rfl⟩ := List.mem_map.1 hw
    exact upper_word (hws v hv)
  rw [hfield, Except.ok.injEq] at hname
  subst hname
  rw [parseName_words (hup ss hss) (hup gs hgs), stripOcrJunk_words (hup ss hss),
    stripOcrJunk_words (hup gs hgs), upper_joinWith, upper_joinWith]
  exact ⟨rfl, rfl⟩

theorem rstripChar_encoded {s v : Str} (hs : ∀ c ∈ s, IsUpperAlnum c)
    (hv : ∃ k, v = s ++ List.replicate k '<') : rstripChar '<' v = s := by
  obtain ⟨k, rfl⟩ := hv
  exact rstripChar_padded (fun c hc => upperAlnum_ne_filler (hs c hc)) k

/-- What is parsed from the lines of encoded blocks: every check passes. -/
theorem Encodes.parseTd3 {today : Date} {m : MrzSpec} {b : Blocks} (he : Encodes m b)
    {dob expiry : Option Date} (hdob : parseDob today m.dob = .ok dob)
    (hexp : parseExpiry m.expiry = .ok expiry) :
    Mrz.parseTd3 today b.line1 b.line2 = .ok
      { document_type := rstripChar '<' b.document_type, issuing_country := b.issuing_country
        surname := (parseName b.name).1, given_names := (parseName b.name).2
        document_number := rstripChar '<' b.doc_number, nationality := b.nationality
        date_of_birth := dob, sex := parseSex b.sex, date_of_expiry := expiry
        personal_number := rstripChar '<' b.personal, checksums := ⟨true, true, true, true, true⟩
        raw_line_1 := b.line1, raw_line_2 := b.line2 } := by
  obtain ⟨d, hcomp, hcheck⟩ := he.composite_ok
  rw [parseTd3_lines, parseBlocks, he.dob, he.expiry, hdob, hexp]
  simp only [except_ok_bind, he.doc_number_ok, he.personal_ok, hcomp, hcheck, ← he.dob,
    ← he.expiry, he.dob_ok, he.expiry_ok, beq_self_eq_true, except_pure]

/-- Decoding undoes encoding: the lines are 44 characters long, parse, and give back every field
of the arguments with all five checksums passing. The expiry is the date its digits spell in the
expiry window, absent exactly when there is none; a date of birth, when present, spells its
digits. -/
theorem parse_build (today : Date) (m : MrzSpec) (hm : WellFormed m) :
    ∃ line1 line2 p, buildTd3Mrz m = .ok (line1, line2) ∧ line1.length = 44 ∧
      line2.length = 44 ∧ parseTd3 today line1 line2 = .ok p ∧
      (fieldsFromParsed p).document_type = some ['P'] ∧
      (fieldsFromParsed p).issuing_country = some m.issuing ∧
      (fieldsFromParsed p).nationality = some m.nationality ∧
      (fieldsFromParsed p).document_number = some m.passport_number ∧
      (fieldsFromParsed p).personal_number =
        (if m.personal = [] then none else some m.personal) ∧
      (fieldsFromParsed p).sex = some m.sex ∧
      (fieldsFromParsed p).surname = some (upper m.surname) ∧
      (fieldsFromParsed p).given_names = some (upper m.given) ∧
      p.checksums = ⟨true, true, true, true, true⟩ ∧
      p.checksums.status = .allPass ∧
      (∀ s, (fieldsFromParsed p).date_of_expiry = some s ↔
        ∃ d : Date, IsExpiryYear d.year ∧ Spells m.expiry d ∧ s = d.isoformat) ∧
      ((fieldsFromParsed p).date_of_expiry = none ↔
        ¬ ∃ d : Date, IsExpiryYear d.year ∧ Spells m.expiry d) ∧
      (∀ s, (fieldsFromParsed p).date_of_birth = some s →
        ∃ d : Date, Spells m.dob d ∧ s = d.isoformat) := by
  obtain ⟨b, hbuild, he⟩ := buildTd3Mrz_blocks hm
  obtain ⟨dob, hdob, hdobspells⟩ := parseDob_spells today hm.dob.1 hm.dob.2
  obtain ⟨expiry, hexp, hexpspells⟩ := parseExpiry_spells hm.expiry.1 hm.expiry.2
  obtain ⟨hsurname, hgiven⟩ := parseName_encoded hm.surname hm.given hm.names_fit he.name
  obtain ⟨c, hc, hsex⟩ := parseSex_single hm.sex
  have hbsex : b.sex = c := by
    have h := he.sex.symm.trans hc
    simpa using h
  have hdocstrip := rstripChar_encoded hm.passport_number.2.2 he.doc_number
  have hpersstrip := rstripChar_encoded hm.personal.2 he.personal
  refine ⟨b.line1, b.line2, _, hbuild, b.length_line1, b.length_line2, he.parseTd3 hdob hexp, ?_, ?_,
    ?_, ?_, ?_, ?_, ?_, ?_, rfl, rfl, ?_, ?_, ?_⟩
  · simp only [fieldsFromParsed, he.document_type]
    rfl
  · simp only [fieldsFromParsed, he.issuing]
  · simp only [fieldsFromParsed, he.nationality]
  · simp only [fieldsFromParsed, hdocstrip]
  · simp only [fieldsFromParsed, hpersstrip]
    split_ifs with h
    · rw [h]
      rfl
    · exact orNone_of_ne_nil h
  · simp only [fieldsFromParsed, hbsex, hsex]
  · simp only [fieldsFromParsed, hsurname]
  · simp only [fieldsFromParsed, hgiven]
  · intro s
    simp only [fieldsFromParsed, Option.map_eq_some_iff, hexpspells, and_assoc, eq_comm]
  · simp only [fieldsFromParsed, Option.map_eq_none_iff]
    rw [Option.eq_none_iff_forall_ne_some]
    simp only [ne_eq, hexpspells, not_exists]
  · intro s h
    simp only [fieldsFromParsed, Option.map_eq_some_iff] at h
    obtain ⟨e, he', rfl⟩ := h
    exact ⟨e, hdobspells e he', rfl⟩

/-- The default arguments of the encoder. -/
def specimen : MrzSpec where
  issuing := ['A', 'R', 'E']
  nationality := ['A', 'R', 'E']
  surname := ['A', 'L', 'M', 'A', 'N', 'S', 'O', 'O', 'R', 'I']
  given := ['M', 'O', 'H', 'A', 'M', 'E', 'D']
  passport_number := ['P', '1', '2', '3', '4', '5', '6', '7']
  dob := ['9', '0', '0', '1', '1', '2']
  sex := ['M']
  expiry := ['3', '0', '0', '1', '0', '1']
  personal := []

theorem isName_word {w : Str} (hne : w ≠ []) (hw : ∀ c ∈ w, IsAsciiLetter c) : IsName w :=
  ⟨[w], rfl, fun w' hw' => by rw [List.mem_singleton.mp hw']; exact ⟨hne, hw⟩⟩

theorem specimen_wellFormed : WellFormed specimen where
  issuing := ⟨rfl, forall_of_all rfl⟩
  nationality := ⟨rfl, forall_of_all rfl⟩
  surname := isName_word (by decide) (forall_of_all rfl)
  given := isName_word (by decide) (forall_of_all rfl)
  names_fit := by decide
  passport_number := ⟨by decide, by decide, forall_of_all rfl⟩
  dob := ⟨rfl, forall_of_all rfl⟩
  sex := by decide
  expiry := ⟨rfl, forall_of_all rfl⟩
  personal := ⟨by decide, forall_of_all rfl⟩

theorem parse_build_specimen :
    ∃ line1 line2 p, buildTd3Mrz specimen = .ok (line1, line2) ∧
      parseTd3 ⟨2026, 5, 4, by decide⟩ line1 line2 = .ok p ∧
      (fieldsFromParsed p).document_number = some ['P', '1', '2', '3', '4', '5', '6', '7'] ∧
      p.checksums.status = .allPass := by
  obtain ⟨line1, line2, p, hbuild, _, _, hparse, _, _, _, hdoc, _, _, _, _, _, hstatus, _⟩ :=
    parse_build ⟨2026, 5, 4, by decide⟩ specimen specimen_wellFormed
  exact ⟨line1, line2, p, hbuild, hparse, hdoc, hstatus⟩

end Hawiya.MrzRoundTrip
