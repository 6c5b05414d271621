import Hawiya.ExtractionLink
import Hawiya.MrzRoundTrip
import Hawiya.OcrText
import Hawiya.RegisteredPassport

/-!
# From the passport to its record

A passport whose MRZ the encoder writes, and a photo of it whose text may have blank lines around the
MRZ, fillers missing at the end and characters read as ones of the wrong class. Every such photo is
read as the same lines, so two photos of a passport are resolved to one person, however much happens
between them, and the record made from the first says what the passport says.
-/

namespace Hawiya
open PyString Calendar Validators Interaction

namespace MrzRoundTrip
open Mrz MrzEncode

section Columns
variable {b : Blocks} {m : MrzSpec} {i : ℕ} {c : Char}

theorem correct_alpha (h : IsUpperLetter c) : c ∉ ColumnClass.alpha.table.map Prod.fst := by
  intro hmem
  simp only [ColumnClass.table, digitToAlpha, List.map_cons, List.map_nil, List.mem_cons,
    List.not_mem_nil, or_false] at hmem
  rcases hmem with rfl | rfl | rfl | rfl | rfl <;> exact absurd h.1 (by decide)

theorem correct_digit (h : IsCheckChar c) : c ∉ ColumnClass.digit.table.map Prod.fst := by
  intro hmem
  simp only [ColumnClass.table, alphaToDigit, List.map_cons, List.map_nil, List.mem_cons,
    List.not_mem_nil, or_false] at hmem
  rcases hmem with rfl | rfl | rfl | rfl | rfl | rfl | rfl <;> exact absurd h (by decide)

theorem isCheckChar_of_verify {field : Str} {flag : Bool} (h : verify field c = .ok flag) :
    IsCheckChar c := by
  by_contra hc
  obtain ⟨e, he⟩ := parseCheckDigit_error hc
  unfold verify at h
  cases hcomputed : computeCheckDigit field with
  | error e' =>
    rw [hcomputed] at h
    cases h
  | ok d =>
    rw [hcomputed, he] at h
    cases h

theorem isCheckChar_of_composite {d : ℕ} (h : parseCheckForComposite c = d) : IsCheckChar c := by
  unfold parseCheckForComposite at h
  by_cases hdigit : '0' ≤ c ∧ c ≤ '9'
  · exact .inr hdigit
  · rw [if_neg hdigit] at h
    omega

theorem mem_slice_of_getElem? {s : Str} {start stop : ℕ} (hc : s[i]? = some c) (hstart : start ≤ i)
    (hstop : i < stop) : c ∈ slice start stop s := by
  have hget : (slice start stop s)[i - start]? = some c := by
    rw [getElem?_slice, Nat.add_sub_cancel' hstart, if_pos hstop]
    exact hc
  exact List.mem_of_getElem? hget

theorem getElem?_full (hc : b.line2[i]? = some c) : (b.line1 ++ b.line2)[44 + i]? = some c := by
  rw [List.getElem?_append_right (by rw [b.length_line1]; omega), b.length_line1,
    Nat.add_sub_cancel_left]
  exact hc

theorem eq_of_charAt {s : Str} {d : Char} (hd : charAt s i = .ok d) (hc : s[i]? = some c) : c = d := by
  unfold charAt at hd
  rw [hc] at hd
  exact Except.ok.inj hd

theorem Encodes.correct1 (h : Encodes m b) (hm : WellFormed m) : ClassCorrect classOf1 b.line1 := by
  refine ⟨b.length_line1, fun i k c hk hc => ?_⟩
  unfold classOf1 at hk
  split_ifs at hk with hi
  cases hk
  have hmem : c ∈ slice 2 5 b.line1 := mem_slice_of_getElem? hc hi.1 (by omega)
  rw [slice_issuing_country, h.issuing] at hmem
  exact correct_alpha (hm.issuing.2 c hmem)

theorem Encodes.correct2 (h : Encodes m b) (hm : WellFormed m) : ClassCorrect classOf2 b.line2 := by
  refine ⟨b.length_line2, fun i k c hk hc => ?_⟩
  unfold classOf2 at hk
  split_ifs at hk with halpha hdigit
  · cases hk
    have hmem : c ∈ slice 10 13 b.line2 := mem_slice_of_getElem? hc halpha.1 (by omega)
    rw [slice_nationality, h.nationality] at hmem
    exact correct_alpha (hm.nationality.2 c hmem)
  · cases hk
    apply correct_digit
    have hfull := getElem?_full hc
    have hcases : i = 9 ∨ (13 ≤ i ∧ i < 19) ∨ i = 19 ∨ (21 ≤ i ∧ i < 27) ∨ i = 27 ∨ i = 42 ∨
        i = 43 := by omega
    rcases hcases with rfl | hdob | rfl | hexpiry | rfl | rfl | rfl
    · rw [eq_of_charAt (charAt_docNumberCheck b) hfull]
      exact isCheckChar_of_verify h.doc_number_ok
    · have hmem : c ∈ td3Dob (b.line1 ++ b.line2) :=
        mem_slice_of_getElem? hfull (by omega) (by omega)
      rw [td3Dob_lines, h.dob] at hmem
      exact .inr (hm.dob.2 c hmem)
    · rw [eq_of_charAt (charAt_dobCheck b) hfull]
      exact isCheckChar_of_verify h.dob_ok
    · have hmem : c ∈ td3Expiry (b.line1 ++ b.line2) :=
        mem_slice_of_getElem? hfull (by omega) (by omega)
      rw [td3Expiry_lines, h.expiry] at hmem
      exact .inr (hm.expiry.2 c hmem)
    · rw [eq_of_charAt (charAt_expiryCheck b) hfull]
      exact isCheckChar_of_verify h.expiry_ok
    · rw [eq_of_charAt (charAt_personalCheck b) hfull]
      exact isCheckChar_of_verify h.personal_ok
    · rw [eq_of_charAt (charAt_compositeCheck b) hfull]
      obtain ⟨d, -, hd⟩ := h.composite_ok
      exact isCheckChar_of_composite hd

end Columns

theorem Confused.refl {classOf : ℕ → Option ColumnClass} (s : Str) : Confused classOf s s :=
  ⟨rfl, fun _ _ _ hc hd => .inl (Option.some.inj (hd.symm.trans hc))⟩

/-- The text of a photo of the passport. Its first two lines that are not blank are those of the MRZ,
but for characters misread in their class and for fillers missing at the end. -/
def IsPhotoOf (m : MrzSpec) (raw : Str) : Prop :=
  ∃ line1 line2 seen1 seen2 rest, buildTd3Mrz m = .ok (line1, line2) ∧
    (splitlines raw).filter nonblank = seen1 :: seen2 :: rest ∧
    Confused classOf1 line1 (fit seen1) ∧ Confused classOf2 line2 (fit seen2)

/-- What is to be parsed from a photo of the passport. -/
structure IsReadingOf (today : Date) (m : MrzSpec) (parsed : ParsedMRZ) : Prop where
  issuing_country : parsed.issuing_country = m.issuing
  surname : stripOcrJunk parsed.surname = upper m.surname
  given_names : stripOcrJunk parsed.given_names = upper m.given
  document_number : parsed.document_number = m.passport_number
  nationality : parsed.nationality = m.nationality
  date_of_birth : parseDob today m.dob = .ok parsed.date_of_birth
  sex : parsed.sex.map Sex.value = some m.sex
  date_of_expiry : parseExpiry m.expiry = .ok parsed.date_of_expiry
  checksums : parsed.checksums.status = .allPass

theorem Encodes.isReadingOf {m : MrzSpec} {b : Blocks} (h : Encodes m b) (hm : WellFormed m)
    (today : Date) :
    ∃ parsed, Mrz.parseTd3 today b.line1 b.line2 = .ok parsed ∧ IsReadingOf today m parsed := by
  obtain ⟨dob, hdob, -⟩ := parseDob_spells today hm.dob.1 hm.dob.2
  obtain ⟨expiry, hexpiry, -⟩ := parseExpiry_spells hm.expiry.1 hm.expiry.2
  obtain ⟨hsurname, hgiven⟩ := parseName_encoded hm.surname hm.given hm.names_fit h.name
  obtain ⟨c, hc, hsex⟩ := parseSex_single hm.sex
  have hbsex : b.sex = c := List.singleton_inj.mp (h.sex.symm.trans hc)
  refine ⟨_, h.parseTd3 hdob hexpiry, ?_⟩
  exact {
    issuing_country := h.issuing
    surname := hsurname
    given_names := hgiven
    document_number := rstripChar_encoded hm.passport_number.2.2 h.doc_number
    nationality := h.nationality
    date_of_birth := hdob
    sex := by
      rw [hbsex]
      exact hsex
    date_of_expiry := hexpiry
    checksums := rfl }

/-- Whatever was misread in its class, the photo is read as the encoder's lines, and these as the
passport. -/
theorem IsPhotoOf.reading {m : MrzSpec} {raw : Str} (h : IsPhotoOf m raw) (hm : WellFormed m)
    (today : Date) :
    ∃ line1 line2 parsed, mrzLines raw = .ok (line1, line2) ∧
      parseTd3 today line1 line2 = .ok parsed ∧ IsReadingOf today m parsed := by
  obtain ⟨line1, line2, seen1, seen2, rest, hbuild, hlines, hseen1, hseen2⟩ := h
  obtain ⟨b, hbuilt, hencodes⟩ := buildTd3Mrz_blocks hm
  rw [hbuild] at hbuilt
  cases hbuilt
  obtain ⟨parsed, hparse, hreading⟩ := hencodes.isReadingOf hm today
  refine ⟨b.line1, b.line2, parsed, ?_, hparse, hreading⟩
  have hne : raw ≠ [] := by
    rintro rfl
    cases hlines
  rw [mrzLines, if_neg hne, hlines]
  have hline1 : repairLine1 (fit seen1) = b.line1 :=
    repairLine1_repairs.undoes (by decide) (hencodes.correct1 hm) hseen1
  have hline2 : repairLine2 (fit seen2) = b.line2 :=
    repairLine2_repairs.undoes (by decide) (hencodes.correct2 hm) hseen2
  rw [← hline1, ← hline2]
  rfl

section Readings
variable {today today' : Date} {m : MrzSpec} {parsed parsed' : ParsedMRZ}

theorem IsReadingOf.document_number_ne_nil (h : IsReadingOf today m parsed) (hm : WellFormed m) :
    parsed.document_number ≠ [] := by
  rw [h.document_number, ← List.length_pos_iff]
  exact hm.passport_number.1

theorem IsReadingOf.nationality_ne_nil (h : IsReadingOf today m parsed) (hm : WellFormed m) :
    parsed.nationality ≠ [] := by
  rw [h.nationality, ← List.length_pos_iff, hm.nationality.1]
  decide

/-- Two readings of a passport agree on its demographics if its two-digit year of birth stood for
the same year on both days. -/
theorem IsReadingOf.sameDemographics_iff
    (h : IsReadingOf today m parsed) (h' : IsReadingOf today' m parsed') (hm : WellFormed m) :
    SameDemographics (orNone (some parsed.nationality)) parsed.date_of_birth parsed' ↔
      ∃ born, parseDob today m.dob = .ok (some born) ∧ parseDob today' m.dob = .ok (some born) := by
  have hnationality : orNone (some parsed.nationality) = some parsed'.nationality := by
    rw [orNone_of_ne_nil (h.nationality_ne_nil hm), h.nationality, h'.nationality]
  simp only [SameDemographics, hnationality, and_true, ne_eq, h'.nationality_ne_nil hm,
    not_false_eq_true, true_and, h.date_of_birth, h'.date_of_birth, Except.ok.injEq]

end Readings

end MrzRoundTrip

open Db ExtractionService IdentityService MrzRoundTrip Mrz MrzEncode

/-! ### The person of a passport -/

/-- The day on which the request is answered. -/
def Request.today : Request → Date
  | .extract _ draws _ => draws.today
  | .resolve _ draws .. => draws.today
  | .create _ draws _ => draws.today

/-- A resolve request of the tenant that uploads a photo of the passport. -/
inductive Presents (tenant_id : UUID) (m : MrzSpec) : Request → Prop
  | photo (ctx : RequestContext) (draws : Draws) (upload : Upload) (create_if_missing : Bool)
      (raw : Str) (tenant : ctx.tenant_id = some tenant_id) (shown : IsPhotoOf m raw)
      (read : draws.read_mrz = mrzLines raw) :
      Presents tenant_id m (.resolve ctx draws upload create_if_missing)

/-- Passport `n` is active in the tenant for person `p`. -/
def Tables.Identifies (t : Tables) (tenant_id : UUID) (n : Str) (p : UUID) : Prop :=
  ∃ r ∈ t.activeIdentifiers tenant_id .passport n, r.person_uuid = p

section Photos
variable {lib : Libraries} {t t' : Tables} {tenant_id p : UUID} {m : MrzSpec} {req : Request} {n : Str}
variable {r : ResolveResult} {parsed : ParsedMRZ}

/-- A resolved photo was resolved from a reading of the passport. -/
theorem Presents.resolved (h : Presents tenant_id m req) (hm : WellFormed m) (hkeys : t.keys.Nodup)
    (hanswer : (req.perform lib t).1 = .ok (.resolved r)) :
    ∃ ctx draws payload consumer_request_id create_if_missing document_type parsed,
      IsReadingOf req.today m parsed ∧
      Resolved lib ctx draws tenant_id payload consumer_request_id create_if_missing t document_type
        parsed r (req.perform lib t).2 := by
  cases h with
  | photo ctx draws upload create_if_missing raw tenant shown read =>
    have heffect : ResolveEffect lib ctx draws upload create_if_missing t
        (Request.perform lib (.resolve ctx draws upload create_if_missing) t) :=
      resolve_effect upload create_if_missing hkeys
    generalize Request.perform lib (.resolve ctx draws upload create_if_missing) t = outcome
      at heffect hanswer ⊢
    cases heffect with
    | failed e => cases hanswer
    | refused envelope audits => cases hanswer
    | resolved tenant' document_type parsed r' t' reads leaves =>
      cases hanswer
      obtain ⟨htenant, -, line1, line2, hread, hparse⟩ := reads
      rw [tenant] at htenant
      cases htenant
      obtain ⟨line1', line2', parsed', hlines, hparse', hreading⟩ := shown.reading hm draws.today
      rw [read, hlines] at hread
      cases hread
      rw [hparse'] at hparse
      cases hparse
      exact ⟨ctx, draws, upload.payload, upload.consumer_request_id, create_if_missing, document_type,
        _, hreading, leaves⟩

theorem Tables.Identifies.active? (h : t.Identifies tenant_id n p) (hkeys : t.keys.Nodup)
    (hne : n ≠ []) :
    ∃ ident, t.active? tenant_id .passport (some n) = some ident ∧ ident.person_uuid = p := by
  obtain ⟨ident, hmem, hperson⟩ := h
  exact ⟨ident, t.active?_eq_some hkeys hne hmem, hperson⟩

theorem identifies_of_active? {ident : PersonIdentifier}
    (h : t.active? tenant_id .passport (some n) = some ident) :
    t.Identifies tenant_id n ident.person_uuid := by
  obtain ⟨v, hv, hhead⟩ := Option.bind_eq_some_iff.mp h
  obtain ⟨hsome, -⟩ := orNone_eq_some_iff.mp hv
  cases hsome
  exact ⟨ident, List.mem_of_head? hhead, rfl⟩

theorem Tables.Identifies.of_same (h : t.Identifies tenant_id n p) (hsame : SameRegistry t t') :
    t'.Identifies tenant_id n p := by
  obtain ⟨r, hr, hp⟩ := h
  obtain ⟨hmem, hactive⟩ := t.mem_activeIdentifiers.mp hr
  exact ⟨r, t'.mem_activeIdentifiers.mpr ⟨hsame.2 ▸ hmem, hactive⟩, hp⟩

theorem Tables.Identifies.perform (h : t.Identifies tenant_id n p) (req : Request) :
    (req.perform lib t).2.Identifies tenant_id n p := by
  obtain ⟨r, hr, hp⟩ := h
  obtain ⟨hmem, hactive⟩ := t.mem_activeIdentifiers.mp hr
  have hidentifiers : ∀ r ∈ t.identifiers, r ∈ (req.perform lib t).2.identifiers :=
    (transact_mono (req.endpoint lib)).2
  exact ⟨r, Tables.mem_activeIdentifiers _ |>.mpr ⟨hidentifiers r hmem, hactive⟩, hp⟩

theorem Tables.Identifies.replay (h : t.Identifies tenant_id n p) (history : List Request) :
    (replay lib history t).Identifies tenant_id n p :=
  replay_invariant (P := fun t => t.Identifies tenant_id n p) (fun req _ ht => ht.perform req) h
    history

/-- The matcher goes by the passport: a document of the MRZ has no other identifier. -/
theorem matchIn_passport (t : Tables) (tenant_id : UUID) (parsed : ParsedMRZ) :
    (t.matchIn tenant_id (query (fieldsFromParsed parsed))).person_uuid =
      (t.active? tenant_id .passport (some parsed.document_number)).map
        PersonIdentifier.person_uuid := by
  have hpassport : t.active? tenant_id .passport (query (fieldsFromParsed parsed)).passport_number =
      t.active? tenant_id .passport (some parsed.document_number) := active?_orNone t tenant_id _ _
  have hemirates : t.active? tenant_id .emiratesId (query (fieldsFromParsed parsed)).emirates_id =
      none := rfl
  unfold Tables.matchIn
  rw [hpassport, hemirates]
  cases t.active? tenant_id .passport (some parsed.document_number) with
  | none => rfl
  | some ident =>
    simp only [DeterministicMatcher.passportResult]
    split_ifs <;> rfl

section Resolved
variable {ctx : RequestContext} {draws : Draws} {payload : Bytes} {consumer_request_id : Option Str}
variable {create_if_missing : Bool} {document_type : DocumentType}

/-- Whom a resolve call names, the passport identifies from then on. -/
theorem IdentityService.Resolved.identifies
    (h : Resolved lib ctx draws tenant_id payload consumer_request_id create_if_missing t
      document_type parsed r t') (hne : parsed.document_number ≠ [])
    (hp : r.person_uuid = some p) : t'.Identifies tenant_id parsed.document_number p := by
  cases h with
  | existing found matched kept fresh =>
    have hfound : found.person_uuid = some p := hp
    rw [← matched, matchIn_passport, Option.map_eq_some_iff] at hfound
    obtain ⟨ident, hident, rfl⟩ := hfound
    exact (identifies_of_active? hident).of_same sameRegistry_resolvedTables
  | created found matched miss create fresh =>
    cases hp
    exact (hasPassport_newRecord lib ctx draws t tenant_id payload consumer_request_id document_type
      found hne).identifier

/-- Whom the passport identifies, a resolve call names; it registers nobody. -/
theorem IdentityService.Resolved.of_identifies
    (h : Resolved lib ctx draws tenant_id payload consumer_request_id create_if_missing t
      document_type parsed r t') (hkeys : t.keys.Nodup)
    (hne : parsed.document_number ≠ [])
    (hidentifies : t.Identifies tenant_id parsed.document_number p) :
    r.person_uuid = some p ∧ SameRegistry t t' := by
  obtain ⟨ident, hactive, rfl⟩ := hidentifies.active? hkeys hne
  cases h with
  | existing found matched kept fresh =>
    refine ⟨?_, sameRegistry_resolvedTables⟩
    change found.person_uuid = _
    rw [← matched, matchIn_passport, hactive, Option.map_some]
  | created found matched miss create fresh =>
    rw [miss] at hactive
    cases hactive

/-- A resolve call that made a record registered the passport with its demographics. -/
theorem IdentityService.Resolved.hasPassport
    (h : Resolved lib ctx draws tenant_id payload consumer_request_id create_if_missing t
      document_type parsed r t') (hne : parsed.document_number ≠ [])
    (hp : r.person_uuid = some p) (haction : r.action = .newRecord) :
    HasPassport t' tenant_id parsed.document_number p (orNone (some parsed.nationality))
      parsed.date_of_birth := by
  cases h with
  | existing found matched kept fresh =>
    rw [← matched] at haction
    exact absurd haction (matchIn_ne_newRecord t tenant_id _)
  | created found matched miss create fresh =>
    cases hp
    exact hasPassport_newRecord lib ctx draws t tenant_id payload consumer_request_id document_type
      found hne

/-- How a resolve call matches a registered passport. -/
theorem IdentityService.Resolved.match_of_hasPassport {c : Option Str} {d : Option Date}
    (h : Resolved lib ctx draws tenant_id payload consumer_request_id create_if_missing t
      document_type parsed r t') (hkeys : t.keys.Nodup) (hne : parsed.document_number ≠ [])
    (hhas : HasPassport t tenant_id parsed.document_number p c d) :
    (SameDemographics c d parsed → r.action = .autoMatched ∧ r.confidence = 99 / 100) ∧
      (¬ SameDemographics c d parsed → r.action = .suggestedMatch ∧ r.confidence = 90 / 100) := by
  obtain ⟨-, hmatch⟩ := matchIn_of_hasPassport hkeys hhas hne
  obtain ⟨ident, hactive, -⟩ := Tables.Identifies.active? hhas.identifier hkeys hne
  cases h with
  | existing found matched kept fresh =>
    rw [matched] at hmatch
    exact hmatch
  | created found matched miss create fresh =>
    rw [miss] at hactive
    cases hactive

end Resolved

end Photos

/-- Two photos of a passport, presented to a tenant with any requests before and between them and
misread in any way the repair undoes, are resolved to one person, and the second adds nobody. Where
the first made the record, the second is matched automatically exactly if the passport's date of
birth reads the same on both days. -/
theorem photos_meet (lib : Libraries) (start : Tables) (hkeys : start.keys.Nodup) (m : MrzSpec)
    (hm : WellFormed m) (tenant_id p : UUID) (before between : List Request) (first second : Request)
    (hfirst : Presents tenant_id m first) (hsecond : Presents tenant_id m second)
    (r r' : ResolveResult)
    (hr : (first.perform lib (replay lib before start)).1 = .ok (.resolved r))
    (hp : r.person_uuid = some p)
    (hr' : (second.perform lib (replay lib (before ++ first :: between) start)).1 =
      .ok (.resolved r')) :
    let t := replay lib (before ++ first :: between) start
    let SameBirth := ∃ born, parseDob first.today m.dob = .ok (some born) ∧
      parseDob second.today m.dob = .ok (some born)
    r'.person_uuid = some p ∧ SameRegistry t (second.perform lib t).2 ∧
      (r.action = .newRecord →
        (SameBirth → r'.action = .autoMatched ∧ r'.confidence = 99 / 100) ∧
        (¬ SameBirth → r'.action = .suggestedMatch ∧ r'.confidence = 90 / 100)) := by
  intro t SameBirth
  have hbefore : (replay lib before start).keys.Nodup := replay_keys_nodup hkeys before
  have ht : t.keys.Nodup := replay_keys_nodup hkeys _
  obtain ⟨ctx, draws, payload, consumer_request_id, create_if_missing, document_type, parsed,
    hreading, hresolved⟩ := hfirst.resolved hm hbefore hr
  obtain ⟨ctx', draws', payload', consumer_request_id', create_if_missing', document_type', parsed',
    hreading', hresolved'⟩ := hsecond.resolved hm ht hr'
  have hne : parsed.document_number ≠ [] := hreading.document_number_ne_nil hm
  have hne' : parsed'.document_number ≠ [] := hreading'.document_number_ne_nil hm
  have hnumber : parsed.document_number = parsed'.document_number := by
    rw [hreading.document_number, hreading'.document_number]
  have hlater : t = replay lib between (first.perform lib (replay lib before start)).2 := by
    rw [← replay_cons, ← replay_append]
  have hidentifies : t.Identifies tenant_id parsed'.document_number p := by
    rw [hlater, ← hnumber]
    exact (hresolved.identifies hne hp).replay between
  obtain ⟨hperson, hsame⟩ := hresolved'.of_identifies ht hne' hidentifies
  refine ⟨hperson, hsame, fun haction => ?_⟩
  have hhas : HasPassport t tenant_id parsed'.document_number p (orNone (some parsed.nationality))
      parsed.date_of_birth := by
    rw [hlater, ← hnumber]
    exact hasPassport_replay (hresolved.hasPassport hne hp haction) between
  have hmatch := hresolved'.match_of_hasPassport ht hne' hhas
  rw [hreading.sameDemographics_iff hreading' hm] at hmatch
  exact hmatch

namespace Specimen

/-- A photo of the passport, read without a mistake. -/
def clear : Str := lines.1 ++ '\n' :: lines.2

/-- Another one, with blank lines, without the fillers of the first line, and with a zero of the
date of birth read as a letter. -/
def blurred : Str :=
  "\n\nP<AREALMANSOORI<<MOHAMED\n \nP1234567<1ARE9O01125M3001019<<<<<<<<<<<<<<04\n".toList

def present (raw : Str) (extraction_id person_uuid : UUID) : Request :=
  .resolve ctx { draws extraction_id person_uuid with read_mrz := mrzLines raw } ⟨photo, none, none⟩
    true

theorem isPhotoOf_clear : IsPhotoOf specimen clear :=
  ⟨lines.1, lines.2, lines.1, lines.2, [], by decide +kernel, by decide +kernel,
    Confused.refl lines.1, Confused.refl lines.2⟩

theorem isPhotoOf_blurred : IsPhotoOf specimen blurred := by
  refine ⟨lines.1, lines.2, "P<AREALMANSOORI<<MOHAMED".toList, lines.2.set 14 'O', [],
    by decide +kernel, by decide +kernel, Confused.refl lines.1, ?_⟩
  have hdate : Confused classOf2 lines.2 (lines.2.set 14 'O') :=
    Misread.confused_set (c := '0') rfl rfl ⟨by decide, rfl⟩
  exact hdate

theorem presents {raw : Str} (h : IsPhotoOf specimen raw) (extraction_id person_uuid : UUID) :
    Presents tenant specimen (present raw extraction_id person_uuid) :=
  .photo _ _ _ _ raw rfl h rfl

/-- What the first photo is answered. -/
def firstResult : ResolveResult :=
  { secondResult with
    extraction_id := 10
    action := .newRecord
    confidence := 1
    method := "no_deterministic_match" }

theorem specimen_photos_meet :
    ((present blurred 12 13).perform lib (replay lib [present clear 10 11] (.empty [tenant]))).1 =
        .ok (.resolved secondResult) ∧
      secondResult.person_uuid = some 11 ∧ secondResult.action = .autoMatched := by
  have hanswer : ((present blurred 12 13).perform lib
      (replay lib [present clear 10 11] (.empty [tenant]))).1 = .ok (.resolved secondResult) := by
    decide +kernel
  obtain ⟨hperson, -, hmatch⟩ := photos_meet lib (.empty [tenant]) List.nodup_nil specimen
    specimen_wellFormed tenant 11 [] [] (present clear 10 11) (present blurred 12 13)
    (presents isPhotoOf_clear 10 11) (presents isPhotoOf_blurred 12 13) firstResult secondResult
    (by decide +kernel) rfl hanswer
  have hborn : ∃ born, parseDob (present clear 10 11).today specimen.dob = .ok (some born) ∧
      parseDob (present blurred 12 13).today specimen.dob = .ok (some born) :=
    ⟨birth, by decide +kernel, by decide +kernel⟩
  exact ⟨hanswer, hperson, ((hmatch rfl).1 hborn).1⟩

end Specimen
end Hawiya
