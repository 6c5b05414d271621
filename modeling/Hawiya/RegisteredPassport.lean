import Hawiya.RegistryRuns

/-!
# A registered passport stays registered

Registrations are found through the identifier they leave: no request removes it, and the matcher
asks for the document number in the form it was stored in. So every later resolve call on the
number answers the registered person, and compares the demographics as they were registered.
-/

namespace Hawiya
open PyString Calendar Interaction Db ExtractionService IdentityService

/-- Passport `n` is active in the tenant for person `p`, who has this nationality and date of
birth. -/
structure HasPassport (t : Tables) (tenant_id : UUID) (n : Str) (p : UUID) (c : Option Str)
    (d : Option Date) : Prop where
  identifier : ∃ r ∈ t.activeIdentifiers tenant_id .passport n, r.person_uuid = p
  person : ∃ q ∈ t.persons, q.tenant_id = tenant_id ∧ q.person_uuid = p ∧ q.nationality = c ∧
    q.date_of_birth = d

theorem HasPassport.perform {lib : Libraries} {t : Tables} {tenant_id : UUID} {n : Str} {p : UUID}
    {c : Option Str} {d : Option Date} (h : HasPassport t tenant_id n p c d) (req : Request) :
    HasPassport (req.perform lib t).2 tenant_id n p c d := by
  obtain ⟨hpersons, hidentifiers⟩ : (∀ p ∈ t.persons, p ∈ (req.perform lib t).2.persons) ∧
      ∀ r ∈ t.identifiers, r ∈ (req.perform lib t).2.identifiers := transact_mono (req.endpoint lib)
  obtain ⟨⟨r, hr, hrp⟩, q, hq, hqs⟩ := h
  obtain ⟨hmem, hactive⟩ := t.mem_activeIdentifiers.mp hr
  exact ⟨⟨r, Tables.mem_activeIdentifiers _ |>.mpr ⟨hidentifiers r hmem, hactive⟩, hrp⟩,
    q, hpersons q hq, hqs⟩

/-- The request registers passport `n` of the tenant for person `p`: as a create request, or as a
resolve request that made a new record. -/
inductive Registers (lib : Libraries) (t : Tables) (tenant_id : UUID) (n : Str) (p : UUID) :
    Request → Option Str → Option Date → Prop
  | create (ctx : RequestContext) (draws : Draws) (body : PersonService.Args)
      (response : PersonResponse) (tenant : ctx.tenant_id = some tenant_id)
      (number : body.passport_number = some n) (nonempty : n ≠ [])
      (answer : (Request.perform lib (.create ctx draws body) t).1 = .ok (.created response))
      (person : response.person_uuid = p) :
      Registers lib t tenant_id n p (.create ctx draws body) body.nationality body.date_of_birth
  | newRecord (ctx : RequestContext) (draws : Draws) (upload : Upload) (create_if_missing : Bool)
      (line1 line2 : Str) (parsed : ParsedMRZ) (result : ResolveResult)
      (tenant : ctx.tenant_id = some tenant_id) (read : draws.read_mrz = .ok (line1, line2))
      (parse : Mrz.parseTd3 draws.today line1 line2 = .ok parsed)
      (number : parsed.document_number = n) (nonempty : n ≠ [])
      (answer : (Request.perform lib (.resolve ctx draws upload create_if_missing) t).1 =
        .ok (.resolved result))
      (action : result.action = .newRecord) (person : result.person_uuid = some p) :
      Registers lib t tenant_id n p (.resolve ctx draws upload create_if_missing)
        (orNone (some parsed.nationality)) parsed.date_of_birth

theorem Registers.nonempty {lib : Libraries} {t : Tables} {tenant_id : UUID} {n : Str} {p : UUID}
    {req : Request} {c : Option Str} {d : Option Date}
    (h : Registers lib t tenant_id n p req c d) : n ≠ [] := by
  cases h with
  | create ctx draws body response tenant number nonempty answer person => exact nonempty
  | newRecord ctx draws upload create_if_missing line1 line2 parsed result tenant read parse number
      nonempty answer action person => exact nonempty

theorem parseIsoDate_isoformat (d : Option Date) : parseIsoDate (d.map Date.isoformat) = d := by
  cases d with
  | none => rfl
  | some d =>
    have hne : d.isoformat ≠ [] := by simp [Date.isoformat]
    rw [Option.map_some, parseIsoDate, orNone_of_ne_nil hne, Option.bind_some,
      Date.fromIsoformat_isoformat]

theorem matchIn_ne_newRecord (t : Tables) (tenant_id : UUID) (q : DeterministicMatcher.Query) :
    (t.matchIn tenant_id q).action ≠ .newRecord := by
  unfold Tables.matchIn
  cases t.active? tenant_id .emiratesId q.emirates_id with
  | some ident => simp [DeterministicMatcher.emiratesIdResult]
  | none =>
    cases t.active? tenant_id .passport q.passport_number with
    | none => simp [DeterministicMatcher.noMatchResult]
    | some ident =>
      simp only [DeterministicMatcher.passportResult]
      split_ifs <;> simp

theorem HasPassport.of_adds {t t' : Tables} {p : Person} {new : List PersonIdentifier}
    {r : PersonIdentifier} {n : Str} (h : Adds t t' p new) (hr : r ∈ new)
    (htype : r.identifier_type = .passport) (hvalue : r.identifier_value = n) :
    HasPassport t' p.tenant_id n p.person_uuid p.nationality p.date_of_birth := by
  obtain ⟨htenant, hperson, hstatus, -⟩ := h.owned r hr
  refine ⟨⟨r, ?_, hperson⟩, p, ?_, rfl, rfl, rfl, rfl⟩
  · rw [Tables.mem_activeIdentifiers, Tables.isActive_iff, h.identifiers]
    exact ⟨List.mem_append_right _ hr, htenant, htype, hvalue, hstatus⟩
  · rw [h.persons]
    exact List.mem_append_right _ (List.mem_singleton.mpr rfl)

theorem hasPassport_created (lib : Libraries) (ctx : RequestContext) (draws : Draws) (t : Tables)
    (tenant_id : UUID) {body : PersonService.Args} {n : Str} (number : body.passport_number = some n)
    (nonempty : n ≠ []) :
    HasPassport (t.insertAll (PersonService.allRows lib ctx draws tenant_id body)) tenant_id n
      draws.person_uuid body.nationality body.date_of_birth := by
  have hmem : (body.passport draws.person_uuid n).row tenant_id ∈
      PersonService.identifiers draws tenant_id body := by
    rw [PersonService.identifiers, number, orNone_of_ne_nil nonempty]
    exact List.mem_cons_self
  exact HasPassport.of_adds adds_allRows hmem rfl rfl

theorem hasPassport_newRecord (lib : Libraries) (ctx : RequestContext) (draws : Draws) (t : Tables)
    (tenant_id : UUID) (payload : Bytes) (consumer_request_id : Option Str)
    (document_type : DocumentType) (m : MatchResult) {parsed : ParsedMRZ}
    (nonempty : parsed.document_number ≠ []) :
    HasPassport (newRecordTables lib ctx draws tenant_id payload consumer_request_id document_type
      parsed m t) tenant_id parsed.document_number draws.person_uuid
        (orNone (some parsed.nationality)) parsed.date_of_birth := by
  have hmem : (identifierArgs draws.person_uuid (fieldsFromParsed parsed)
      parsed.document_number (confidencesFromParsed parsed).document_number).row tenant_id ∈
        newIdentifiers draws tenant_id parsed := by
    rw [newIdentifiers, orNone_of_ne_nil nonempty]
    exact List.mem_cons_self
  have hdob : (personRow lib draws tenant_id (fieldsFromParsed parsed)).date_of_birth =
      parsed.date_of_birth := parseIsoDate_isoformat _
  rw [← hdob]
  exact HasPassport.of_adds adds_newRecordTables hmem rfl rfl

/-- A request that registers a passport leaves it registered. -/
theorem Registers.hasPassport {lib : Libraries} {t : Tables} {tenant_id : UUID} {n : Str} {p : UUID}
    {req : Request} {c : Option Str} {d : Option Date} (hkeys : t.keys.Nodup)
    (h : Registers lib t tenant_id n p req c d) :
    HasPassport (req.perform lib t).2 tenant_id n p c d := by
  cases h with
  | create ctx draws body response tenant number nonempty answer person =>
    have heffect : CreateEffect lib ctx draws body t
        (Request.perform lib (.create ctx draws body) t) := create_effect body hkeys
    generalize Request.perform lib (.create ctx draws body) t = result at heffect answer ⊢
    cases heffect with
    | failed e => cases answer
    | duplicate found => cases answer
    | created tenant' tenant'' unregistered fresh =>
      rw [tenant] at tenant''
      cases tenant''
      cases answer
      subst person
      exact hasPassport_created lib ctx draws t tenant_id number nonempty
  | newRecord ctx draws upload create_if_missing line1 line2 parsed result tenant read parse number
      nonempty answer action person =>
    have heffect : ResolveEffect lib ctx draws upload create_if_missing t
        (Request.perform lib (.resolve ctx draws upload create_if_missing) t) :=
      resolve_effect upload create_if_missing hkeys
    generalize Request.perform lib (.resolve ctx draws upload create_if_missing) t = outcome
      at heffect answer ⊢
    cases heffect with
    | failed e => cases answer
    | refused envelope audits => cases answer
    | resolved tenant' document_type parsed' r t' reads leaves =>
      cases answer
      obtain ⟨htenant, -, line1', line2', hread, hparse⟩ := reads
      rw [tenant] at htenant
      cases htenant
      rw [read] at hread
      cases hread
      rw [parse] at hparse
      cases hparse
      cases leaves with
      | existing m matched kept fresh =>
        rw [← matched] at action
        exact absurd action (matchIn_ne_newRecord t tenant_id _)
      | created m matched miss create fresh =>
        cases person
        subst number
        exact hasPassport_newRecord lib ctx draws t tenant_id upload.payload
          upload.consumer_request_id document_type m nonempty

theorem hasPassport_replay {lib : Libraries} {t : Tables} {tenant_id : UUID} {n : Str} {p : UUID}
    {c : Option Str} {d : Option Date} (h : HasPassport t tenant_id n p c d)
    (history : List Request) : HasPassport (replay lib history t) tenant_id n p c d :=
  replay_invariant (P := fun t => HasPassport t tenant_id n p c d) (fun req _ ht => ht.perform req)
    h history

/-- The parsed nationality and date of birth are the registered ones, and these are given. -/
def SameDemographics (c : Option Str) (d : Option Date) (parsed : ParsedMRZ) : Prop :=
  (parsed.nationality ≠ [] ∧ c = some parsed.nationality) ∧
    ∃ born, d = some born ∧ parsed.date_of_birth = some born

theorem bothEqual_eq_true {α : Type} [BEq α] [LawfulBEq α] {a b : Option α} :
    DeterministicMatcher.bothEqual a b = true ↔ ∃ x, a = some x ∧ b = some x := by
  cases a with
  | none => simp [DeterministicMatcher.bothEqual]
  | some x =>
    cases b with
    | none => simp [DeterministicMatcher.bothEqual]
    | some y =>
      simp only [DeterministicMatcher.bothEqual, beq_iff_eq, Option.some.injEq]
      exact ⟨fun h => ⟨x, rfl, h.symm⟩, fun ⟨z, hx, hy⟩ => hx.trans hy.symm⟩

theorem demographics_iff {q : Person} {parsed : ParsedMRZ} :
    (DeterministicMatcher.nationalityMatch (some q) (query (fieldsFromParsed parsed)).nationality &&
        DeterministicMatcher.dobMatch (some q) (query (fieldsFromParsed parsed)).date_of_birth) =
          true ↔ SameDemographics q.nationality q.date_of_birth parsed := by
  simp only [Bool.and_eq_true, DeterministicMatcher.nationalityMatch, DeterministicMatcher.dobMatch,
    bothEqual_eq_true, query, fieldsFromParsed, orNone_orNone, parseIsoDate_isoformat,
    Option.bind_some, orNone_eq_some_iff, SameDemographics, Option.some.injEq]
  constructor
  · rintro ⟨⟨x, ⟨hx, hne⟩, rfl, -⟩, hdob⟩
    exact ⟨⟨hne, hx⟩, hdob⟩
  · rintro ⟨⟨hne, hx⟩, hdob⟩
    exact ⟨⟨_, ⟨hx, hne⟩, rfl, hne⟩, hdob⟩

/-- On a registered passport the matcher answers the registered person. -/
theorem matchIn_of_hasPassport {t : Tables} (hkeys : t.keys.Nodup) {tenant_id : UUID} {p : UUID}
    {c : Option Str} {d : Option Date} {parsed : ParsedMRZ}
    (h : HasPassport t tenant_id parsed.document_number p c d) (hne : parsed.document_number ≠ []) :
    (t.matchIn tenant_id (query (fieldsFromParsed parsed))).person_uuid = some p ∧
      (SameDemographics c d parsed →
        (t.matchIn tenant_id (query (fieldsFromParsed parsed))).action = .autoMatched ∧
        (t.matchIn tenant_id (query (fieldsFromParsed parsed))).confidence = 99 / 100) ∧
      (¬ SameDemographics c d parsed →
        (t.matchIn tenant_id (query (fieldsFromParsed parsed))).action = .suggestedMatch ∧
        (t.matchIn tenant_id (query (fieldsFromParsed parsed))).confidence = 90 / 100) := by
  obtain ⟨⟨r, hr, hrp⟩, q, hq, rfl, hqp, rfl, rfl⟩ := h
  have hemirates : t.active? q.tenant_id .emiratesId
      (query (fieldsFromParsed parsed)).emirates_id = none := rfl
  have hpassport : t.active? q.tenant_id .passport
      (query (fieldsFromParsed parsed)).passport_number = some r := by
    change t.active? q.tenant_id .passport (orNone (some parsed.document_number)) = some r
    rw [active?_orNone]
    exact t.active?_eq_some hkeys hne hr
  have hperson : t.person? q.tenant_id r.person_uuid = some q := by
    rw [hrp, ← hqp]
    exact t.person?_eq_some hkeys hq
  unfold Tables.matchIn
  simp only [hemirates, hpassport, hperson, DeterministicMatcher.passportResult]
  by_cases hsame : SameDemographics q.nationality q.date_of_birth parsed
  · rw [if_pos (demographics_iff.mpr hsame)]
    exact ⟨by rw [hrp], fun _ => ⟨rfl, rfl⟩, fun hno => absurd hsame hno⟩
  · rw [if_neg (fun hboth => hsame (demographics_iff.mp hboth))]
    exact ⟨by rw [hrp], fun hyes => absurd hyes hsame, fun _ => ⟨rfl, rfl⟩⟩

theorem transact_resolve_registry {lib : Libraries} {ctx : RequestContext} {draws : Draws}
    {tenant_id : UUID} {payload : Bytes} {content_type : Str} {consumer_request_id : Option Str}
    {create_if_missing : Bool} {document_type : DocumentType} {parsed : ParsedMRZ} {t : Tables}
    (hreads : Reads lib draws ctx tenant_id payload content_type document_type parsed)
    (hkeys : t.keys.Nodup)
    (hmatch : (t.matchIn tenant_id (query (fieldsFromParsed parsed))).action ≠ .noMatchNoCreate) :
    SameRegistry t (transact ctx (resolve lib ctx draws tenant_id payload content_type
      consumer_request_id create_if_missing) t).2 := by
  rcases transact_resolve_existing hreads hkeys rfl (fun h => hmatch h.1) with ⟨hok, -⟩ | ⟨e, he⟩
  · rw [hok]
    exact sameRegistry_resolvedTables
  · rw [he]
    exact ⟨rfl, rfl⟩

/-- Once a request of a history registered passport `n` for person `p`, every later resolve call of
the tenant on lines that parse with number `n` returns `p` and adds no person or identifier. It is
an automatic match exactly when the demographics are the registered ones. -/
theorem resolve_after_registration (lib : Libraries) (start : Tables) (hkeys : start.keys.Nodup)
    (before after : List Request) (req : Request) (tenant_id : UUID) (n : Str) (p : UUID)
    (c : Option Str) (d : Option Date)
    (hregisters : Registers lib (replay lib before start) tenant_id n p req c d)
    (ctx : RequestContext) (draws : Draws) (payload : Bytes) (content_type : Str)
    (consumer_request_id : Option Str) (create_if_missing : Bool) (document_type : DocumentType)
    (parsed : ParsedMRZ)
    (hreads : Reads lib draws ctx tenant_id payload content_type document_type parsed)
    (hnumber : parsed.document_number = n) :
    let t := replay lib (before ++ req :: after) start
    let call := resolve lib ctx draws tenant_id payload content_type consumer_request_id
      create_if_missing
    SameRegistry t (transact ctx call t).2 ∧
      ∃ r db, runTx () call (Db.start t) = (.ok r, db) ∧ r.person_uuid = some p ∧
        (SameDemographics c d parsed → r.action = .autoMatched ∧ r.confidence = 99 / 100) ∧
        (¬ SameDemographics c d parsed → r.action = .suggestedMatch ∧ r.confidence = 90 / 100) := by
  intro t call
  have hbefore : (replay lib before start).keys.Nodup := replay_keys_nodup hkeys before
  have ht : t.keys.Nodup := replay_keys_nodup hkeys _
  have hhas : HasPassport t tenant_id n p c d := by
    rw [show t = replay lib after (req.perform lib (replay lib before start)).2 by
      rw [← replay_cons, ← replay_append]]
    exact hasPassport_replay (hregisters.hasPassport hbefore) after
  have hne : n ≠ [] := hregisters.nonempty
  subst hnumber
  obtain ⟨hperson, hauto, hsuggested⟩ := matchIn_of_hasPassport ht hhas hne
  have hfound : (t.matchIn tenant_id (query (fieldsFromParsed parsed))).action ≠
      .noMatchNoCreate := by
    by_cases hsame : SameDemographics c d parsed
    · rw [(hauto hsame).1]
      decide
    · rw [(hsuggested hsame).1]
      decide
  have hrun : runTx () call (during t () [] []) = _ :=
    run_resolve_existing t () [] [] consumer_request_id hreads ht rfl (fun h => hfound h.1)
  rw [← start_eq_during] at hrun
  exact ⟨transact_resolve_registry hreads ht hfound, _, _, hrun, hperson, hauto, hsuggested⟩

namespace Specimen

theorem reads (extraction_id person_uuid : UUID) :
    Reads lib (draws extraction_id person_uuid) ctx tenant photo octetStream .passport parsed where
  tenant := rfl
  classified := by decide +kernel
  parses := ⟨lines.1, lines.2, rfl, parseTd3_lines extraction_id person_uuid⟩

/-- A create request that registers the passport. -/
def body : PersonService.Args where
  canonical_name_en := some "Mohamed Almansoori".toList
  date_of_birth := some birth
  nationality := some ['A', 'R', 'E']
  passport_number := some "P1234567".toList

theorem registers :
    Registers lib (.empty [tenant]) tenant "P1234567".toList 11 (.create ctx (draws 10 11) body)
      body.nationality body.date_of_birth :=
  .create ctx (draws 10 11) body
    (toResponse (PersonService.loaded
      ((Tables.empty [tenant]).insertAll (PersonService.allRows lib ctx (draws 10 11) tenant body))
      (PersonService.personRow lib (draws 10 11) tenant body)))
    rfl rfl (by decide) (by decide +kernel) rfl

/-- Created, then presented, the passport is matched automatically when it is presented again. -/
theorem resolve_after_create :
    ∃ r db, runTx () (resolve 14 15 true)
        (Db.start (replay lib
          [.create ctx (draws 10 11) body, .resolve ctx (draws 12 13) ⟨photo, none, none⟩ true]
          (.empty [tenant]))) = (.ok r, db) ∧
      r.person_uuid = some 11 ∧ r.action = .autoMatched := by
  obtain ⟨-, r, db, hrun, hperson, hauto, -⟩ := resolve_after_registration lib (.empty [tenant])
    (by decide) [] [.resolve ctx (draws 12 13) ⟨photo, none, none⟩ true]
    (.create ctx (draws 10 11) body) tenant _ 11 _ _ registers ctx (draws 14 15) photo octetStream
    none true .passport parsed (reads 14 15) rfl
  exact ⟨r, db, hrun, hperson, (hauto ⟨⟨by decide, rfl⟩, _, rfl, rfl⟩).1⟩

end Specimen
end Hawiya
