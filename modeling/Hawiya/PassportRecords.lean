import Hawiya.Cohesion
import Hawiya.PassportPhotos

/-!
# The record of a passport

A request adds rows about the person it creates and about nobody else, so what the API shows of a
person stays as it was when the person was created, whatever is requested later. A record made from
a photo says, from then on, what the passport says.
-/

namespace Hawiya
open PyString ArabicNames Calendar Interaction Db ExtractionService IdentityService Mrz MrzEncode
open MrzRoundTrip

namespace Tables

/-- `t'` has the persons `new` besides those of `t`, and no other rows about persons of `t`. -/
structure Grows (t t' : Tables) (new : List Person) : Prop where
  persons : t'.persons = t.persons ++ new
  fresh : ∀ p ∈ new, ∀ q ∈ t.persons, q.person_uuid ≠ p.person_uuid
  aggregates : ∀ u, (∀ p ∈ new, p.person_uuid ≠ u) →
    t'.identifiersOf u = t.identifiersOf u ∧ t'.nameVariantsOf u = t.nameVariantsOf u

/-- No row is about a person who is not there. -/
def Closed (t : Tables) : Prop :=
  ∀ u, (∀ p ∈ t.persons, p.person_uuid ≠ u) → t.identifiersOf u = [] ∧ t.nameVariantsOf u = []

variable {t t' t'' : Tables} {new new' : List Person} {rows : List Row} {u : UUID}

theorem closed_empty (tenants : List UUID) : (empty tenants).Closed := fun _ _ => ⟨rfl, rfl⟩

theorem Grows.refl (t : Tables) : t.Grows t [] where
  persons := (List.append_nil _).symm
  fresh := fun _ hp => absurd hp List.not_mem_nil
  aggregates := fun _ _ => ⟨rfl, rfl⟩

theorem Grows.trans (h : t.Grows t' new) (h' : t'.Grows t'' new') : t.Grows t'' (new ++ new') where
  persons := by rw [h'.persons, h.persons, List.append_assoc]
  fresh := by
    intro p hp q hq
    rcases List.mem_append.mp hp with hp | hp
    · exact h.fresh p hp q hq
    · apply h'.fresh p hp q
      rw [h.persons]
      exact List.mem_append_left new hq
  aggregates := by
    intro u hu
    have hfirst := h.aggregates u (fun p hp => hu p (List.mem_append_left new' hp))
    have hthen := h'.aggregates u (fun p hp => hu p (List.mem_append_right new hp))
    exact ⟨hthen.1.trans hfirst.1, hthen.2.trans hfirst.2⟩

theorem Grows.closed (h : t.Grows t' new) (ht : t.Closed) : t'.Closed := by
  intro u hu
  rw [h.persons] at hu
  have hsame := h.aggregates u (fun p hp => hu p (List.mem_append_right _ hp))
  have hnone := ht u (fun p hp => hu p (List.mem_append_left _ hp))
  exact ⟨hsame.1.trans hnone.1, hsame.2.trans hnone.2⟩

/-- What is shown of a person of `t` is the same in `t'`. -/
theorem Grows.loaded (h : t.Grows t' new) {q : Person} (hq : q ∈ t.persons) :
    PersonService.loaded t' q = PersonService.loaded t q := by
  obtain ⟨hidentifiers, hvariants⟩ : t'.identifiersOf q.person_uuid = t.identifiersOf q.person_uuid ∧
      t'.nameVariantsOf q.person_uuid = t.nameVariantsOf q.person_uuid :=
    h.aggregates _ (fun p hp => (h.fresh p hp q hq).symm)
  unfold identifiersOf at hidentifiers
  unfold nameVariantsOf at hvariants
  rw [PersonService.loaded, hidentifiers, hvariants]
  rfl

theorem aggregate_insertAll (h : ∀ r ∈ rows, u ∉ r.reference?) :
    (t.insertAll rows).identifiersOf u = t.identifiersOf u ∧
      (t.insertAll rows).nameVariantsOf u = t.nameVariantsOf u := by
  rw [← applyAll_inserts]
  apply aggregate_applyAll
  intro r hr
  obtain ⟨r', hr', heq⟩ := List.mem_map.mp hr
  cases heq
  exact h r hr'

theorem AcceptsAll.not_mem_keys (h : t.AcceptsAll rows) {r : Row} (hr : r ∈ rows) {k : IndexKey}
    (hk : k ∈ r.keys) : k ∉ t.keys := by
  induction rows generalizing t with
  | nil => exact absurd hr List.not_mem_nil
  | cons r' rows ih =>
    obtain ⟨hr', hrest⟩ := h
    rcases List.mem_cons.mp hr with rfl | hr
    · exact hr'.free k hk
    · exact fun hmem => ih hrest hr (mem_keys_insert.mpr (.inl hmem))

theorem not_mem_persons_of_fresh (h : .person u ∉ t.keys) : ∀ q ∈ t.persons, q.person_uuid ≠ u := by
  rintro q hq rfl
  apply h
  simp only [keys, List.mem_append, List.mem_map]
  exact .inl (.inl ⟨q, hq, rfl⟩)

end Tables

section Growth
variable {lib : Libraries} {ctx : RequestContext} {draws : Draws} {tenant_id : UUID}
variable {payload : Bytes} {consumer_request_id : Option Str} {document_type : DocumentType}
variable {parsed : ParsedMRZ} {m : MatchResult} {t t' : Tables} {args : PersonService.Args}

theorem grows_of_inert {rows : List Row}
    (h : ∀ r ∈ rows, r.person? = none ∧ r.reference? = none) : t.Grows (t.insertAll rows) [] where
  persons := by
    rw [Tables.persons_insertAll, List.filterMap_eq_nil_iff.mpr (fun r hr => (h r hr).1)]
  fresh := fun _ hp => absurd hp List.not_mem_nil
  aggregates := fun u _ => Tables.aggregate_insertAll (fun r hr hu => by
    rw [(h r hr).2] at hu
    cases hu)

theorem newRecordRows_reference {r : Row} {u : UUID}
    (hr : r ∈ newRecordRows lib ctx draws tenant_id payload document_type parsed m)
    (hu : u ∈ r.reference?) : u = draws.person_uuid := by
  rw [newRecordRows_eq] at hr
  simp only [PersonRepository.variantRows, newIdentifiers, outcomeRows, List.mem_append,
    List.mem_map, List.mem_cons, List.not_mem_nil, or_false] at hr
  rcases hr with (⟨spec, -, rfl⟩ | ⟨r', ⟨n, -, rfl⟩, rfl⟩) | rfl | rfl
  · exact (Option.some.inj hu).symm
  · exact (Option.some.inj hu).symm
  · cases hu
  · cases hu

theorem grows_newRecordTables (hfresh : t.AcceptsAll (createdRows lib ctx draws tenant_id payload
      consumer_request_id document_type parsed)) :
    t.Grows (newRecordTables lib ctx draws tenant_id payload consumer_request_id document_type parsed
      m t) [IdentityService.personRow lib draws tenant_id (fieldsFromParsed parsed)] where
  persons := adds_newRecordTables.persons
  fresh := by
    intro p hp
    rw [List.mem_singleton.mp hp]
    apply Tables.not_mem_persons_of_fresh
    exact hfresh.not_mem_keys (List.mem_append_right _ (List.mem_singleton.mpr rfl))
      (List.mem_singleton.mpr rfl)
  aggregates := by
    intro u hu
    have hne : draws.person_uuid ≠ u := hu _ (List.mem_singleton.mpr rfl)
    have hcreated : (t.insertAll (createdRows lib ctx draws tenant_id payload consumer_request_id
          document_type parsed)).identifiersOf u = t.identifiersOf u ∧
        (t.insertAll (createdRows lib ctx draws tenant_id payload consumer_request_id
          document_type parsed)).nameVariantsOf u = t.nameVariantsOf u :=
      Tables.aggregate_insertAll (by simp [createdRows, extractionRows, Row.reference?])
    -- the link between the two inserts touches extractions only
    have hrecord : ∀ r ∈ newRecordRows lib ctx draws tenant_id payload document_type parsed m,
        u ∉ r.reference? := fun r hr hmem => hne (newRecordRows_reference hr hmem).symm
    obtain ⟨hidentifiers, hvariants⟩ := Tables.aggregate_insertAll (t := createdTables lib ctx draws
      tenant_id payload consumer_request_id document_type parsed t) hrecord
    exact ⟨hidentifiers.trans hcreated.1, hvariants.trans hcreated.2⟩

theorem grows_allRows (hfresh : .person draws.person_uuid ∉ t.keys) :
    t.Grows (t.insertAll (PersonService.allRows lib ctx draws tenant_id args))
      [PersonService.personRow lib draws tenant_id args] where
  persons := adds_allRows.persons
  fresh := by
    intro p hp
    rw [List.mem_singleton.mp hp]
    exact Tables.not_mem_persons_of_fresh hfresh
  aggregates := by
    intro u hu
    have hne : draws.person_uuid ≠ u := hu _ (List.mem_singleton.mpr rfl)
    apply Tables.aggregate_insertAll
    intro r hr hmem
    rcases List.mem_cons.mp hr with rfl | hr
    · cases hmem
    · exact hne (PersonService.createdRows_reference hr hmem).symm

/-- A request adds rows about those it creates, and about nobody else. -/
theorem perform_grows (lib : Libraries) (req : Request) (hkeys : t.keys.Nodup) :
    ∃ new, t.Grows (req.perform lib t).2 new := by
  cases req with
  | extract ctx draws upload =>
    have heffect : ExtractEffect lib ctx draws upload t
        (Request.perform lib (.extract ctx draws upload) t) := extract_effect lib ctx draws upload t
    generalize Request.perform lib (.extract ctx draws upload) t = result at heffect ⊢
    cases heffect with
    | failed e => exact ⟨[], .refl t⟩
    | refused envelope audits =>
      refine ⟨[], grows_of_inert (fun r hr => ?_)⟩
      obtain ⟨a, -, rfl⟩ := List.mem_map.mp hr
      exact ⟨rfl, rfl⟩
    | extracted tenant_id document_type parsed reads =>
      exact ⟨[], grows_of_inert (by simp [extractionRows, Row.person?, Row.reference?])⟩
  | resolve ctx draws upload create_if_missing =>
    have heffect : ResolveEffect lib ctx draws upload create_if_missing t
        (Request.perform lib (.resolve ctx draws upload create_if_missing) t) :=
      resolve_effect upload create_if_missing hkeys
    generalize Request.perform lib (.resolve ctx draws upload create_if_missing) t = result
      at heffect ⊢
    cases heffect with
    | failed e => exact ⟨[], .refl t⟩
    | refused envelope audits =>
      refine ⟨[], grows_of_inert (fun r hr => ?_)⟩
      obtain ⟨a, -, rfl⟩ := List.mem_map.mp hr
      exact ⟨rfl, rfl⟩
    | resolved tenant_id document_type parsed r t' reads leaves =>
      cases leaves with
      | existing m matched kept fresh =>
        exact ⟨[], grows_of_inert (by
          simp [extractionRows, outcomeRows, Row.person?, Row.reference?])⟩
      | created m matched miss create fresh => exact ⟨_, grows_newRecordTables fresh⟩
  | create ctx draws body =>
    have heffect : CreateEffect lib ctx draws body t
        (Request.perform lib (.create ctx draws body) t) := create_effect body hkeys
    generalize Request.perform lib (.create ctx draws body) t = result at heffect ⊢
    cases heffect with
    | failed e => exact ⟨[], .refl t⟩
    | duplicate found => exact ⟨[], .refl t⟩
    | created tenant_id tenant unregistered fresh => exact ⟨_, grows_allRows fresh⟩

theorem replay_grows (lib : Libraries) (history : List Request) (hkeys : t.keys.Nodup) :
    ∃ new, t.Grows (replay lib history t) new := by
  induction history generalizing t with
  | nil => exact ⟨[], .refl t⟩
  | cons req rest ih =>
    obtain ⟨new, hstep⟩ := perform_grows lib req hkeys
    obtain ⟨new', hrest⟩ := ih (transact_keys_nodup (req.endpoint lib) hkeys)
    exact ⟨new ++ new', hstep.trans hrest⟩

end Growth

/-- Given names before surname, each in capitals. -/
def fullName (m : MrzSpec) : Str :=
  joinWith ' ' ([upper m.given, upper m.surname].filter (fun p => !p.isEmpty))

section Names
variable {m : MrzSpec} {today : Date} {parsed : ParsedMRZ}

theorem MrzRoundTrip.IsName.upper_words {s : Str} (h : IsName s) :
    ∃ ws : List Str, upper s = joinWith ' ' ws ∧ ∀ w ∈ ws, w ≠ [] ∧ ∀ c ∈ w, IsUpperLetter c := by
  obtain ⟨ws, rfl, hws⟩ := h
  refine ⟨ws.map upper, upper_joinWith ws, fun w hw => ?_⟩
  obtain ⟨v, hv, rfl⟩ := List.mem_map.mp hw
  exact upper_word (hws v hv)

theorem strip_words {ws : List Str} (hws : ∀ w ∈ ws, w ≠ [] ∧ ∀ c ∈ w, IsUpperLetter c) :
    strip (joinWith ' ' ws) = joinWith ' ' ws := by
  have hstrip := strip_joinWith (isWord_space hws) 0
  rw [List.replicate_zero, List.append_nil] at hstrip
  exact hstrip

theorem isEmpty_words {ws : List Str} (hws : ∀ w ∈ ws, w ≠ [] ∧ ∀ c ∈ w, IsUpperLetter c)
    (hne : ws ≠ []) : (joinWith ' ' ws).isEmpty = false := by
  rw [List.isEmpty_eq_false_iff]
  exact joinWith_ne_nil hne (isWord_space hws)

theorem fullName_words (hm : WellFormed m) :
    ∃ ws : List Str, fullName m = joinWith ' ' ws ∧
      ∀ w ∈ ws, w ≠ [] ∧ ∀ c ∈ w, IsUpperLetter c := by
  obtain ⟨gs, hgiven, hgs⟩ := hm.given.upper_words
  obtain ⟨ss, hsurname, hss⟩ := hm.surname.upper_words
  refine ⟨gs ++ ss, ?_, fun w hw => (List.mem_append.mp hw).elim (hgs w) (hss w)⟩
  rw [fullName, hgiven, hsurname]
  by_cases hg : gs = []
  · subst hg
    by_cases hs : ss = []
    · subst hs
      rfl
    · simp [joinWith, isEmpty_words hss hs]
  · by_cases hs : ss = []
    · subst hs
      simp [joinWith, isEmpty_words hgs hg]
    · rw [joinWith_append hg hs]
      simp [joinWith, isEmpty_words hgs hg, isEmpty_words hss hs]

theorem strip_fullName (hm : WellFormed m) : strip (fullName m) = fullName m := by
  obtain ⟨ws, hname, hws⟩ := fullName_words hm
  rw [hname, strip_words hws]

theorem isArabicScript_fullName (hm : WellFormed m) : isArabicScript (fullName m) = false := by
  obtain ⟨ws, hname, hws⟩ := fullName_words hm
  rw [hname, isArabicScript, any_joinWith rfl, List.any_eq_false]
  intro w hw
  rw [Bool.not_eq_true, List.any_eq_false]
  intro c hc
  have hcapital : c.toNat ≤ 90 := (hws w hw).2 c hc |>.2
  simp only [inRange, Bool.and_eq_true, decide_eq_true_eq]
  omega

theorem canonicalEn_reading (h : IsReadingOf today m parsed) (hm : WellFormed m) :
    canonicalEn (fieldsFromParsed parsed) = orNone (some (fullName m)) := by
  obtain ⟨gs, hgiven, hgs⟩ := hm.given.upper_words
  obtain ⟨ss, hsurname, hss⟩ := hm.surname.upper_words
  have hg : strip (stripOcrJunk parsed.given_names) = upper m.given := by
    rw [h.given_names, hgiven, strip_words hgs]
  have hs : strip (stripOcrJunk parsed.surname) = upper m.surname := by
    rw [h.surname, hsurname, strip_words hss]
  simp only [canonicalEn, fieldsFromParsed, Option.getD_some, hg, hs]
  rfl

end Names

/-- The record of person `p` says what the passport says. -/
structure IsRecordOf (today : Date) (m : MrzSpec) (p : UUID) (response : PersonResponse) : Prop where
  person_uuid : response.person_uuid = p
  canonical_name_ar : response.canonical_name_ar = none
  canonical_name_en : response.canonical_name_en = orNone (some (fullName m))
  date_of_birth : ∃ born, parseDob today m.dob = .ok born ∧
    response.date_of_birth = born.map Date.isoformat
  nationality : response.nationality = some m.nationality
  sex : response.sex = some m.sex
  status : response.status = "active"
  identifiers : ∃ expiry, parseExpiry m.expiry = .ok expiry ∧ response.identifiers =
    [{ identifier_type := "passport"
       identifier_value := m.passport_number
       issuing_country := some m.issuing
       expiry_date := expiry.map Date.isoformat
       is_primary := true }]
  name_variants : response.name_variants = (orNone (some (fullName m))).toList.map (fun n =>
    { name_value := n, script := "latin", variant_type := "canonical" })

section Records
variable {lib : Libraries} {ctx : RequestContext} {draws : Draws} {tenant_id : UUID}
variable {payload : Bytes} {consumer_request_id : Option Str} {document_type : DocumentType}
variable {parsed : ParsedMRZ} {found : MatchResult} {t : Tables} {m : MrzSpec} {today : Date}

/-- The name variants of a person made from an extraction. -/
def newVariants (lib : Libraries) (draws : Draws) (tenant_id : UUID) (fields : Fields) :
    List PersonNameVariant :=
  (personArgs fields).name_variants.map
    (PersonRepository.VariantSpec.row lib tenant_id draws.person_uuid)

theorem name_variants_newRecordTables :
    (newRecordTables lib ctx draws tenant_id payload consumer_request_id document_type parsed found
      t).name_variants =
        t.name_variants ++ newVariants lib draws tenant_id (fieldsFromParsed parsed) := by
  have hcreated : (createdTables lib ctx draws tenant_id payload consumer_request_id document_type
      parsed t).name_variants = t.name_variants := by
    simp [createdTables, Tables.apply, newRecordLink, Tables.insertAll, createdRows, extractionRows,
      List.filterMap_cons, Row.nameVariant?]
  have hvariants : ∀ specs : List PersonRepository.VariantSpec,
      (PersonRepository.variantRows lib tenant_id draws.person_uuid specs).filterMap
        Row.nameVariant? = specs.map (PersonRepository.VariantSpec.row lib tenant_id
          draws.person_uuid) := by
    intro specs
    rw [PersonRepository.variantRows, List.filterMap_map, ← List.filterMap_eq_map]
    rfl
  have hidentifiers : ∀ new : List PersonIdentifier,
      (new.map Row.identifier).filterMap Row.nameVariant? = [] := by
    intro new
    rw [List.filterMap_map]
    exact List.filterMap_eq_nil_iff.mpr (fun _ _ => rfl)
  change (createdTables lib ctx draws tenant_id payload consumer_request_id document_type parsed
    t).name_variants ++ _ = _
  rw [hcreated, newRecordRows_eq, List.filterMap_append, List.filterMap_append, hvariants,
    hidentifiers]
  simp [outcomeRows, List.filterMap_cons, Row.nameVariant?, newVariants]

/-- A new record has the passport and the name it was made from, and no other rows. -/
theorem loaded_newRecordTables (hclosed : t.Closed)
    (hfresh : t.AcceptsAll (createdRows lib ctx draws tenant_id payload consumer_request_id
      document_type parsed)) :
    PersonService.loaded (newRecordTables lib ctx draws tenant_id payload consumer_request_id
        document_type parsed found t)
      (IdentityService.personRow lib draws tenant_id (fieldsFromParsed parsed)) =
    { person := IdentityService.personRow lib draws tenant_id (fieldsFromParsed parsed)
      identifiers := newIdentifiers draws tenant_id parsed
      name_variants := newVariants lib draws tenant_id (fieldsFromParsed parsed) } := by
  have hnew : ∀ q ∈ t.persons, q.person_uuid ≠ draws.person_uuid :=
    Tables.not_mem_persons_of_fresh (hfresh.not_mem_keys
      (List.mem_append_right _ (List.mem_singleton.mpr rfl)) (List.mem_singleton.mpr rfl))
  obtain ⟨hidentifiers, hvariants⟩ := hclosed draws.person_uuid hnew
  have hpassport : (newIdentifiers draws tenant_id parsed).filter
      (fun r => r.person_uuid == draws.person_uuid) = newIdentifiers draws tenant_id parsed := by
    rw [List.filter_eq_self]
    intro r hr
    obtain ⟨n, -, rfl⟩ := List.mem_map.mp hr
    exact beq_self_eq_true _
  have hname : (newVariants lib draws tenant_id (fieldsFromParsed parsed)).filter
      (fun r => r.person_uuid == draws.person_uuid) =
        newVariants lib draws tenant_id (fieldsFromParsed parsed) := by
    rw [List.filter_eq_self]
    intro r hr
    obtain ⟨spec, -, rfl⟩ := List.mem_map.mp hr
    exact beq_self_eq_true _
  have huuid : (IdentityService.personRow lib draws tenant_id
      (fieldsFromParsed parsed)).person_uuid = draws.person_uuid := rfl
  rw [Tables.identifiersOf] at hidentifiers
  rw [Tables.nameVariantsOf] at hvariants
  rw [PersonService.loaded, huuid, adds_newRecordTables.identifiers, name_variants_newRecordTables,
    List.filter_append, List.filter_append, hidentifiers, hvariants, hpassport, hname,
    List.nil_append, List.nil_append]

theorem personRow_name (h : IsReadingOf today m parsed) (hm : WellFormed m) :
    (IdentityService.personRow lib draws tenant_id (fieldsFromParsed parsed)).canonical_name_en =
      orNone (some (fullName m)) := by
  change (orNone (canonicalEn (fieldsFromParsed parsed))).map strip = _
  rw [canonicalEn_reading h hm, orNone_orNone]
  cases hname : orNone (some (fullName m)) with
  | none => rfl
  | some n =>
    obtain ⟨hn, -⟩ := orNone_eq_some_iff.mp hname
    cases hn
    rw [Option.map_some, strip_fullName hm]

theorem newVariants_name (h : IsReadingOf today m parsed) (hm : WellFormed m) :
    (newVariants lib draws tenant_id (fieldsFromParsed parsed)).map (fun v =>
        ({ name_value := v.name_value
           script := v.script.value
           variant_type := v.variant_type.value } : NameVariantResponse)) =
      (orNone (some (fullName m))).toList.map (fun n =>
        { name_value := n, script := "latin", variant_type := "canonical" }) := by
  change (((canonicalEn (fieldsFromParsed parsed)).toList.map _).map _).map _ = _
  rw [canonicalEn_reading h hm]
  cases hname : orNone (some (fullName m)) with
  | none => rfl
  | some n =>
    obtain ⟨hn, -⟩ := orNone_eq_some_iff.mp hname
    cases hn
    simp only [Option.toList_some, List.map_cons, List.map_nil, PersonRepository.VariantSpec.row,
      strip_fullName hm, Option.getD_none, isArabicScript_fullName hm]
    rfl

theorem newIdentifiers_passport (h : IsReadingOf today m parsed) (hm : WellFormed m) :
    (newIdentifiers draws tenant_id parsed).map (fun r =>
        ({ identifier_type := r.identifier_type.value
           identifier_value := r.identifier_value
           issuing_country := r.issuing_country
           expiry_date := r.expiry_date.map Date.isoformat
           is_primary := r.is_primary } : IdentifierResponse)) =
      [{ identifier_type := "passport"
         identifier_value := m.passport_number
         issuing_country := some m.issuing
         expiry_date := parsed.date_of_expiry.map Date.isoformat
         is_primary := true }] := by
  have hissuing : orNone (some parsed.issuing_country) = some m.issuing := by
    rw [h.issuing_country]
    apply orNone_of_ne_nil
    rw [← List.length_pos_iff, hm.issuing.1]
    decide
  rw [newIdentifiers, orNone_of_ne_nil (h.document_number_ne_nil hm)]
  simp only [Option.toList_some, List.map_cons, List.map_nil, PersonIdentifierRepository.Args.row,
    identifierArgs, fieldsFromParsed, hissuing, parseIsoDate_isoformat, h.document_number]
  rfl

theorem parseSexValue_value (s : Option Sex) : parseSexValue (s.map Sex.value) = s := by
  cases s with
  | none => rfl
  | some s => cases s <;> rfl

theorem isRecordOf_new (h : IsReadingOf today m parsed) (hm : WellFormed m) :
    IsRecordOf today m draws.person_uuid (toResponse
      { person := IdentityService.personRow lib draws tenant_id (fieldsFromParsed parsed)
        identifiers := newIdentifiers draws tenant_id parsed
        name_variants := newVariants lib draws tenant_id (fieldsFromParsed parsed) }) where
  person_uuid := rfl
  canonical_name_ar := rfl
  canonical_name_en := by
    change (IdentityService.personRow lib draws tenant_id
      (fieldsFromParsed parsed)).canonical_name_en = _
    exact personRow_name h hm
  date_of_birth := ⟨parsed.date_of_birth, h.date_of_birth,
    congrArg (Option.map Date.isoformat) (parseIsoDate_isoformat _)⟩
  nationality := by
    change orNone (some parsed.nationality) = _
    rw [orNone_of_ne_nil (h.nationality_ne_nil hm), h.nationality]
  sex := by
    change (parseSexValue (parsed.sex.map Sex.value)).map Sex.value = _
    rw [parseSexValue_value, h.sex]
  status := rfl
  identifiers := ⟨parsed.date_of_expiry, h.date_of_expiry, newIdentifiers_passport h hm⟩
  name_variants := newVariants_name h hm

/-- A person that is there is found by its tenant, with the rows about it. -/
theorem transact_getPerson (hkeys : t.keys.Nodup) {q : Person} (hq : q ∈ t.persons)
    (hctx : ctx.tenant_id = some q.tenant_id) :
    transact ctx (getPerson ctx q.person_uuid) t =
      (.ok (.found (toResponse (PersonService.loaded t q))), t) := by
  have hkeys' : ((during t () [] []).view ()).keys.Nodup := by
    rw [view_during]
    exact hkeys
  have hfound : runTx () (PersonService.get ctx q.tenant_id q.person_uuid) (during t () [] []) =
      (.ok (some q), during t () [] []) := by
    rw [PersonService.get, run_requiresTenant () hctx, run_getPerson hkeys', view_during]
    exact congrArg (fun o => (Except.ok o, during t () [] [])) (t.person?_eq_some hkeys hq)
  have hrun : runTx () (getPerson ctx q.person_uuid) (during t () [] []) =
      (.ok (.found (toResponse (PersonService.loaded t q))), during t () [] []) := by
    unfold getPerson
    rw [run_requireTenantId hctx]
    simp only [runTx_bind, hfound, PersonService.run_refresh, view_during, runTx_pure,
      Tables.applyAll_nil]
  rw [transact_of_accepts hctx hrun trivial]
  rfl

/-- A resolve call that made a record from the passport leaves the person there, with the record the
passport asks for. -/
theorem IdentityService.Resolved.isRecordOf {create_if_missing : Bool} {r : ResolveResult}
    {t' : Tables} {p : UUID}
    (h : Resolved lib ctx draws tenant_id payload consumer_request_id create_if_missing t
      document_type parsed r t') (hclosed : t.Closed) (hreading : IsReadingOf today m parsed)
    (hm : WellFormed m) (haction : r.action = .newRecord) (hp : r.person_uuid = some p) :
    ∃ q ∈ t'.persons, q.tenant_id = tenant_id ∧ q.person_uuid = p ∧
      IsRecordOf today m p (toResponse (PersonService.loaded t' q)) := by
  cases h with
  | existing found matched kept fresh =>
    rw [← matched] at haction
    exact absurd haction (matchIn_ne_newRecord t tenant_id _)
  | created found matched miss create fresh =>
    cases hp
    refine ⟨IdentityService.personRow lib draws tenant_id (fieldsFromParsed parsed), ?_, rfl, rfl, ?_⟩
    · rw [adds_newRecordTables.persons]
      exact List.mem_append_right _ (List.mem_singleton.mpr rfl)
    · rw [loaded_newRecordTables hclosed fresh]
      exact isRecordOf_new hreading hm

end Records

/-- Once a photo of a passport made a record, and whatever was requested before and after it, the
tenant gets the person with exactly what the passport says: the name, the demographics as read on
that day, the one identifier and the one name variant. -/
theorem record_of_photo (lib : Libraries) (start : Tables) (hkeys : start.keys.Nodup)
    (hclosed : start.Closed) (m : MrzSpec) (hm : WellFormed m) (tenant_id p : UUID)
    (before after : List Request) (req : Request) (hreq : Presents tenant_id m req) (r : ResolveResult)
    (hr : (req.perform lib (replay lib before start)).1 = .ok (.resolved r))
    (haction : r.action = .newRecord) (hp : r.person_uuid = some p) (ctx : RequestContext)
    (hctx : ctx.tenant_id = some tenant_id) :
    let t := replay lib (before ++ req :: after) start
    ∃ response, transact ctx (getPerson ctx p) t = (.ok (.found response), t) ∧
      IsRecordOf req.today m p response := by
  intro t
  have hbefore : (replay lib before start).keys.Nodup := replay_keys_nodup hkeys before
  have ht : t.keys.Nodup := replay_keys_nodup hkeys _
  obtain ⟨_, hgrown⟩ := replay_grows lib before hkeys
  obtain ⟨ctx', draws, payload, consumer_request_id, create_if_missing, document_type, parsed,
    hreading, hresolved⟩ := hreq.resolved hm hbefore hr
  obtain ⟨q, hq, rfl, rfl, hrecord⟩ := hresolved.isRecordOf (hgrown.closed hclosed) hreading hm
    haction hp
  obtain ⟨new, hgrows⟩ : ∃ new, (req.perform lib (replay lib before start)).2.Grows t new := by
    rw [show t = replay lib after (req.perform lib (replay lib before start)).2 by
      rw [← replay_cons, ← replay_append]]
    exact replay_grows lib after (transact_keys_nodup (req.endpoint lib) hbefore)
  have hqt : q ∈ t.persons := by
    rw [hgrows.persons]
    exact List.mem_append_left new hq
  refine ⟨toResponse (PersonService.loaded t q), transact_getPerson ht hqt hctx, ?_⟩
  rw [hgrows.loaded hq]
  exact hrecord

namespace Specimen

theorem record_of_specimen :
    ∃ response, transact ctx (getPerson ctx 11)
        (replay lib [present clear 10 11, present blurred 12 13] (.empty [tenant])) =
          (.ok (.found response),
            replay lib [present clear 10 11, present blurred 12 13] (.empty [tenant])) ∧
      response.canonical_name_en = some "MOHAMED ALMANSOORI".toList ∧
      response.date_of_birth = some "1990-01-12".toList := by
  obtain ⟨response, hget, hrecord⟩ := record_of_photo lib (.empty [tenant]) List.nodup_nil
    (Tables.closed_empty _) specimen specimen_wellFormed tenant 11 [] [present blurred 12 13]
    (present clear 10 11) (presents isPhotoOf_clear 10 11) firstResult (by decide +kernel) rfl rfl
    ctx rfl
  refine ⟨response, hget, hrecord.canonical_name_en, ?_⟩
  obtain ⟨born, hborn, hresponse⟩ := hrecord.date_of_birth
  have hbirth : parseDob (present clear 10 11).today specimen.dob = .ok (some birth) := by
    decide +kernel
  rw [hborn] at hbirth
  cases hbirth
  exact hresponse

end Specimen
end Hawiya
