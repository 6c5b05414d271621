import Hawiya.TenantCoupling

/-!
# The services on a tenant's own database

Every repository, matcher and service call of a tenant answers the same, up to the renaming, on the
shared tables and on the tenant's view of them: each statement names the tenant or a UUID drawn for
it, and each added row carries the tenant. A person is created under a UUID drawn for the tenant.
-/

namespace Hawiya
open PyString Calendar Interaction Db

section Renaming
variable (ρ : Equiv.Perm UUID)

def PersonIdentifierRepository.Args.rename (args : PersonIdentifierRepository.Args) :
    PersonIdentifierRepository.Args :=
  { args with person_uuid := ρ args.person_uuid }

def AuditWriter.Args.rename (args : AuditWriter.Args) : AuditWriter.Args :=
  { args with
    output_summary := args.output_summary.map (List.map (fun e => (e.1, e.2.rename ρ))) }

def Draws.rename (draws : Draws) : Draws :=
  { draws with
    read_mrz := draws.read_mrz.mapError (PyError.rename ρ)
    extraction_id := ρ draws.extraction_id
    person_uuid := ρ draws.person_uuid }

def ExtractionService.ExtractionResult.rename (r : ExtractionService.ExtractionResult) :
    ExtractionService.ExtractionResult :=
  { r with extraction_id := ρ r.extraction_id }

def IdentityService.ResolveResult.rename (r : IdentityService.ResolveResult) :
    IdentityService.ResolveResult :=
  { r with extraction_id := ρ r.extraction_id, person_uuid := r.person_uuid.map ρ }

def PersonService.LoadedPerson.rename (p : PersonService.LoadedPerson) :
    PersonService.LoadedPerson where
  person := p.person.rename ρ
  identifiers := p.identifiers.map (PersonIdentifier.rename ρ)
  name_variants := p.name_variants.map (PersonNameVariant.rename ρ)

end Renaming

namespace Standpoint
variable {S : Standpoint}

theorem alike_scalarOneOrNone {α β : Type} (f : α → β) {P : α → Prop} {l : List α}
    (hl : ∀ a ∈ l, P a) :
    S.coupling.Alike (fun r r' => r' = r.map f ∧ ∀ a ∈ r, P a) (scalarOneOrNone l)
      (scalarOneOrNone (l.map f)) := by
  rcases l with _ | ⟨a, _ | ⟨b, rest⟩⟩
  · exact Coupling.Alike.pure ⟨rfl, fun _ h => absurd h (by simp)⟩
  · refine Coupling.Alike.pure ⟨rfl, ?_⟩
    rintro _ ⟨⟩
    exact hl a (List.mem_singleton_self a)
  · exact Coupling.Alike.throw rfl

theorem alike_findActive (identifier_type : IdentifierType) (identifier_value : Str) :
    S.coupling.Alike (fun r r' => r' = r.map (PersonIdentifier.rename S.ρ))
      (PersonIdentifierRepository.findActive S.tenant identifier_type identifier_value)
      (PersonIdentifierRepository.findActive S.tenant identifier_type identifier_value) := by
  apply (alike_selectIdentifiers identifier_type identifier_value).bind
  rintro rows _ rfl
  exact (alike_scalarOneOrNone _ (fun _ _ => trivial)).mono (fun _ _ h => h.1)

theorem alike_personGet (person_uuid : UUID) :
    S.coupling.Alike (fun r r' => r' = r.map (Person.rename S.ρ) ∧
        ∀ p ∈ r, S.owner p.person_uuid = some S.tenant)
      (PersonRepository.get S.tenant person_uuid)
      (PersonRepository.get S.tenant (S.ρ person_uuid)) := by
  apply (alike_selectPersons person_uuid).bind
  rintro rows _ ⟨rfl, hdrawn⟩
  exact alike_scalarOneOrNone _ hdrawn

theorem alike_identifierCreate {args : PersonIdentifierRepository.Args}
    (hu : S.owner args.person_uuid = some S.tenant) :
    S.coupling.Alike (fun _ _ => True) (PersonIdentifierRepository.create S.tenant args)
      (PersonIdentifierRepository.create S.tenant (args.rename S.ρ)) := by
  have hown : S.Own (.identifier (args.row S.tenant)) :=
    ⟨rfl, fun u h => List.mem_singleton.mp h ▸ hu⟩
  apply (alike_add hown).bind
  intro _ _ _
  exact Coupling.Alike.pure trivial

variable (lib : Libraries) (ctx : RequestContext)

theorem alike_addNameVariant {person_uuid : UUID} (hu : S.owner person_uuid = some S.tenant)
    (spec : PersonRepository.VariantSpec) :
    S.coupling.Alike (fun _ _ => True)
      (PersonRepository.addNameVariant lib S.tenant person_uuid spec)
      (PersonRepository.addNameVariant lib S.tenant (S.ρ person_uuid) spec) := by
  have hown : S.Own (.nameVariant (spec.row lib S.tenant person_uuid)) :=
    ⟨rfl, fun u h => List.mem_singleton.mp h ▸ hu⟩
  apply (alike_add hown).bind
  intro _ _ _
  exact Coupling.Alike.pure trivial

theorem alike_personCreate {person_uuid : UUID} (hu : S.owner person_uuid = some S.tenant)
    (args : PersonRepository.Args) :
    S.coupling.Alike (fun p p' => p.person_uuid = person_uuid ∧ p' = p.rename S.ρ)
      (PersonRepository.create lib S.tenant person_uuid args)
      (PersonRepository.create lib S.tenant (S.ρ person_uuid) args) := by
  have hown : S.Own (.person (args.row lib S.tenant person_uuid)) :=
    ⟨rfl, fun u h => List.mem_singleton.mp h ▸ hu⟩
  apply (alike_add hown).bind
  intro _ _ _
  apply alike_flush.bind
  intro _ _ _
  have hvariants : S.coupling.Alike (fun _ _ => True)
      (forM args.name_variants (fun spec => do
        let _ ← PersonRepository.addNameVariant lib S.tenant person_uuid spec))
      (forM args.name_variants (fun spec => do
        let _ ← PersonRepository.addNameVariant lib S.tenant (S.ρ person_uuid) spec)) := by
    apply Coupling.Alike.forM (List.forall₂_same.mpr (fun spec _ => rfl))
    rintro spec _ rfl
    apply (alike_addNameVariant lib hu spec).bind
    intro _ _ _
    exact Coupling.Alike.pure trivial
  apply hvariants.bind
  intro _ _ _
  exact Coupling.Alike.pure ⟨rfl, rfl⟩

theorem alike_auditWrite (args : AuditWriter.Args) :
    S.coupling.Alike (fun _ _ => True) (AuditWriter.write ctx S.tenant args)
      (AuditWriter.write ctx S.tenant (args.rename S.ρ)) :=
  alike_add ⟨rfl, fun _ h => absurd h List.not_mem_nil⟩

open DeterministicMatcher

theorem alike_matchEmiratesId (q : Query) :
    S.coupling.Alike (fun r r' => r' = r.map (MatchResult.rename S.ρ))
      (matchEmiratesId S.tenant q) (matchEmiratesId S.tenant q) := by
  unfold matchEmiratesId
  cases orNone q.emirates_id with
  | none => exact Coupling.Alike.pure rfl
  | some emirates_id =>
    apply (alike_findActive _ emirates_id).bind
    rintro ident _ rfl
    apply Coupling.Alike.pure
    rw [Option.map_map, Option.map_map]
    rfl

theorem nationalityMatch_rename (ρ : Equiv.Perm UUID) (person : Option Person)
    (nationality : Option Str) :
    nationalityMatch (person.map (Person.rename ρ)) nationality =
      nationalityMatch person nationality := by
  cases person with
  | none => rfl
  | some p => rfl

theorem dobMatch_rename (ρ : Equiv.Perm UUID) (person : Option Person)
    (date_of_birth : Option Date) :
    dobMatch (person.map (Person.rename ρ)) date_of_birth = dobMatch person date_of_birth := by
  cases person with
  | none => rfl
  | some p => rfl

theorem passportResult_rename (ρ : Equiv.Perm UUID) (ident : PersonIdentifier)
    (nationality_match dob_match : Bool) :
    passportResult (ident.rename ρ) nationality_match dob_match =
      (passportResult ident nationality_match dob_match).rename ρ := by
  unfold passportResult
  split_ifs with h
  · rfl
  · rfl

theorem alike_matchPassport (q : Query) :
    S.coupling.Alike (fun r r' => r' = r.map (MatchResult.rename S.ρ))
      (matchPassport S.tenant q) (matchPassport S.tenant q) := by
  unfold matchPassport
  cases orNone q.passport_number with
  | none => exact Coupling.Alike.pure rfl
  | some passport_number =>
    apply (alike_findActive _ passport_number).bind
    rintro ident _ rfl
    cases ident with
    | none => exact Coupling.Alike.pure rfl
    | some ident =>
      apply (alike_personGet ident.person_uuid).bind
      rintro person _ ⟨rfl, -⟩
      apply Coupling.Alike.pure
      rw [nationalityMatch_rename, dobMatch_rename, passportResult_rename]
      rfl

theorem alike_deterministicMatch (q : Query) :
    S.coupling.Alike (fun r r' => r' = r.rename S.ρ)
      (deterministicMatch S.tenant q) (deterministicMatch S.tenant q) := by
  apply (alike_matchEmiratesId q).bind
  rintro byEmiratesId _ rfl
  cases byEmiratesId with
  | some result => exact Coupling.Alike.pure rfl
  | none =>
    apply (alike_matchPassport q).bind
    rintro byPassport _ rfl
    apply Coupling.Alike.pure
    cases byPassport with
    | none => rfl
    | some result => rfl

theorem alike_same {α : Type} {r : Except PyError α} (h : ∀ e, r = .error e → e.rename S.ρ = e) :
    S.coupling.Alike (fun a a' => a' = a) (liftM r : Tx α) (liftM r) := by
  apply Coupling.Alike.liftM
  cases r with
  | ok a => exact .ok rfl
  | error e => exact .error (h e rfl).symm

theorem alike_classify (payload : Bytes) (content_type : Str) :
    S.coupling.Alike (fun d d' => d' = d)
      (liftM (DocumentClassifier.classify lib.unicode.isprintable payload content_type) : Tx _)
      (liftM (DocumentClassifier.classify lib.unicode.isprintable payload content_type)) := by
  apply alike_same
  intro e he
  unfold DocumentClassifier.classify at he
  dsimp only at he
  split_ifs at he with hempty hmagic hheic
  · exact Except.error.inj he ▸ rfl
  · exact Except.error.inj he ▸ rfl
  · exact Except.error.inj he ▸ rfl

theorem alike_parseTd3 (today : Date) (line1 line2 : Str) :
    S.coupling.Alike (fun p p' => p' = p) (liftM (Mrz.parseTd3 today line1 line2) : Tx _)
      (liftM (Mrz.parseTd3 today line1 line2)) := by
  apply alike_same
  intro e he
  by_cases hlength : line1.length = 44 ∧ line2.length = 44
  · rw [Mrz.parseTd3_ofLines today hlength.1 hlength.2] at he
    obtain ⟨m, rfl⟩ := Mrz.onlyValueError_parseBlocks today _ _ he
    rfl
  · rw [Classical.not_and_iff_not_or_not] at hlength
    obtain ⟨m, hm⟩ := Mrz.parseTd3_of_length today hlength
    rw [hm] at he
    exact Except.error.inj he ▸ rfl

theorem failedAudit_rename (ρ : Equiv.Perm UUID) (payload : Bytes) (e : PyError) :
    ExtractionService.failedAudit lib payload (e.rename ρ) =
      (ExtractionService.failedAudit lib payload e).rename ρ := by
  cases e with
  | _ => rfl

variable {draws : Draws}

theorem alike_readMrz (draws : Draws) (payload : Bytes) :
    S.coupling.Alike (fun lines lines' => lines' = lines)
      (ExtractionService.readMrz lib ctx draws S.tenant payload)
      (ExtractionService.readMrz lib ctx (draws.rename S.ρ) S.tenant payload) := by
  unfold ExtractionService.readMrz Draws.rename
  cases draws.read_mrz with
  | ok lines => exact Coupling.Alike.pure rfl
  | error e =>
    have haudited : S.coupling.Alike (fun (lines lines' : Str × Str) => lines' = lines)
        (do AuditWriter.write ctx S.tenant (ExtractionService.failedAudit lib payload e); throw e)
        (do
          AuditWriter.write ctx S.tenant (ExtractionService.failedAudit lib payload (e.rename S.ρ))
          throw (e.rename S.ρ)) := by
      rw [failedAudit_rename]
      apply (alike_auditWrite ctx _).bind
      intro _ _ _
      exact Coupling.Alike.throw rfl
    cases e with
    | noMRZFoundError m => exact haudited
    | ocrUnavailableError m => exact haudited
    | mrzFormatError m => exact haudited
    | _ => exact Coupling.Alike.throw rfl

theorem alike_extract (payload : Bytes) (content_type : Str) (consumer_request_id : Option Str)
    (hu : S.owner draws.extraction_id = some S.tenant) :
    S.coupling.Alike (fun r r' => r' = r.rename S.ρ)
      (ExtractionService.extract lib ctx draws S.tenant payload content_type consumer_request_id)
      (ExtractionService.extract lib ctx (draws.rename S.ρ) S.tenant payload content_type
        consumer_request_id) := by
  apply alike_requiresTenant
  apply (alike_classify lib payload content_type).bind
  rintro _ document_type rfl
  apply (alike_readMrz lib ctx draws payload).bind
  rintro _ lines rfl
  apply (alike_parseTd3 draws.today lines.1 lines.2).bind
  rintro _ parsed rfl
  have hown : S.Own (.extraction (ExtractionService.record lib draws S.tenant payload
      consumer_request_id document_type parsed)) :=
    ⟨rfl, fun u h => List.mem_singleton.mp h ▸ hu⟩
  apply (alike_add hown).bind
  intro _ _ _
  apply (alike_auditWrite ctx (ExtractionService.extractedAudit lib draws payload parsed)).bind
  intro _ _ _
  exact Coupling.Alike.pure rfl

open IdentityService

theorem alike_createPersonFromExtraction (fields : Fields) (doc_number_confidence : ℚ)
    (hu : S.owner draws.person_uuid = some S.tenant) :
    S.coupling.Alike (fun u u' => u' = S.ρ u)
      (createPersonFromExtraction lib draws S.tenant fields doc_number_confidence)
      (createPersonFromExtraction lib (draws.rename S.ρ) S.tenant fields doc_number_confidence) := by
  apply (alike_personCreate lib hu (personArgs fields)).bind
  rintro person _ ⟨hperson, rfl⟩
  rw [← hperson] at hu
  cases passportNumber fields with
  | none => exact Coupling.Alike.pure rfl
  | some passport_number =>
    have hargs : S.owner (identifierArgs person.person_uuid fields passport_number
      doc_number_confidence).person_uuid = some S.tenant := hu
    apply (alike_identifierCreate hargs).bind
    intro _ _ _
    exact Coupling.Alike.pure rfl

theorem alike_settle (extraction : ExtractionService.ExtractionResult) (match_result : MatchResult)
    (create_if_missing : Bool) (hu : S.owner draws.person_uuid = some S.tenant) :
    S.coupling.Alike (fun r r' => r' = (r.1.map S.ρ, r.2))
      (settle lib draws S.tenant extraction match_result create_if_missing)
      (settle lib (draws.rename S.ρ) S.tenant (extraction.rename S.ρ) (match_result.rename S.ρ)
        create_if_missing) := by
  unfold settle
  by_cases h : match_result.action = .noMatchNoCreate ∧ create_if_missing = true
  · rw [if_pos h, if_pos (show (match_result.rename S.ρ).action = _ ∧ _ from h)]
    apply (alike_createPersonFromExtraction lib _ _ hu).bind
    rintro person_uuid _ rfl
    exact Coupling.Alike.pure rfl
  · rw [if_neg h, if_neg (show ¬ ((match_result.rename S.ρ).action = _ ∧ _) from h)]
    exact Coupling.Alike.pure rfl

theorem resolvedAudit_rename (ρ : Equiv.Perm UUID) (payload : Bytes)
    (extraction : ExtractionService.ExtractionResult) (person_uuid : Option UUID)
    (action : MatchAction) (confidence : ℚ) :
    resolvedAudit lib payload (extraction.rename ρ) (person_uuid.map ρ) action confidence =
      (resolvedAudit lib payload extraction person_uuid action confidence).rename ρ := by
  cases person_uuid with
  | none => rfl
  | some u => rfl

theorem alike_recordDecision (payload : Bytes) (extraction : ExtractionService.ExtractionResult)
    (match_result : MatchResult) (person_uuid : Option UUID) (action : MatchAction)
    (confidence : ℚ) :
    S.coupling.Alike (fun _ _ => True)
      (recordDecision lib ctx S.tenant payload extraction match_result person_uuid action confidence)
      (recordDecision lib ctx S.tenant payload (extraction.rename S.ρ) (match_result.rename S.ρ)
        (person_uuid.map S.ρ) action confidence) := by
  apply (alike_updateExtraction extraction.extraction_id person_uuid action.value).bind
  intro _ _ _
  have haudited : S.coupling.Alike (fun _ _ => True)
      (AuditWriter.write ctx S.tenant
        (resolvedAudit lib payload extraction person_uuid action confidence))
      (AuditWriter.write ctx S.tenant
        (resolvedAudit lib payload (extraction.rename S.ρ) (person_uuid.map S.ρ) action
          confidence)) := by
    rw [resolvedAudit_rename]
    exact alike_auditWrite ctx _
  cases actionToDecision action with
  | none => exact haudited
  | some decision =>
    have hdecided : S.Own (.matchDecision
        (decisionRow S.tenant person_uuid confidence match_result.features decision)) :=
      ⟨rfl, fun _ h => absurd h List.not_mem_nil⟩
    apply (alike_add hdecided).bind
    intro _ _ _
    exact haudited

theorem alike_resolve (payload : Bytes) (content_type : Str) (consumer_request_id : Option Str)
    (create_if_missing : Bool) (hextraction : S.owner draws.extraction_id = some S.tenant)
    (hperson : S.owner draws.person_uuid = some S.tenant) :
    S.coupling.Alike (fun r r' => r' = r.rename S.ρ)
      (resolve lib ctx draws S.tenant payload content_type consumer_request_id create_if_missing)
      (resolve lib ctx (draws.rename S.ρ) S.tenant payload content_type consumer_request_id
        create_if_missing) := by
  apply alike_requiresTenant
  apply (alike_extract lib ctx payload content_type consumer_request_id hextraction).bind
  rintro extraction _ rfl
  apply (alike_deterministicMatch (query extraction.fields)).bind
  rintro match_result _ rfl
  apply (alike_settle lib extraction match_result create_if_missing hperson).bind
  rintro ⟨person_uuid, action, confidence⟩ _ rfl
  apply (alike_recordDecision lib ctx payload extraction match_result person_uuid action
    confidence).bind
  intro _ _ _
  exact Coupling.Alike.pure rfl

open PersonService

theorem alike_addIdentifier {args : Option PersonIdentifierRepository.Args}
    (hu : ∀ a ∈ args, S.owner a.person_uuid = some S.tenant) :
    S.coupling.Alike (fun _ _ => True) (addIdentifier S.tenant args)
      (addIdentifier S.tenant (args.map (PersonIdentifierRepository.Args.rename S.ρ))) := by
  cases args with
  | none => exact Coupling.Alike.pure trivial
  | some args =>
    apply (alike_identifierCreate (hu args rfl)).bind
    intro _ _ _
    exact Coupling.Alike.pure trivial

theorem alike_refresh {person : Person} (hu : S.owner person.person_uuid = some S.tenant) :
    S.coupling.Alike (fun p p' => p' = p.rename S.ρ) (refresh person)
      (refresh (person.rename S.ρ)) := by
  apply (alike_selectPersonIdentifiers hu).bind
  rintro identifiers _ rfl
  apply (alike_selectPersonNameVariants hu).bind
  rintro name_variants _ rfl
  exact Coupling.Alike.pure rfl

theorem alike_get (person_uuid : UUID) :
    S.coupling.Alike (fun r r' => r' = r.map (Person.rename S.ρ) ∧
        ∀ p ∈ r, S.owner p.person_uuid = some S.tenant)
      (PersonService.get ctx S.tenant person_uuid)
      (PersonService.get ctx S.tenant (S.ρ person_uuid)) := by
  apply alike_requiresTenant
  exact alike_personGet person_uuid

theorem passport_rename (ρ : Equiv.Perm UUID) (args : PersonService.Args) (person_uuid : UUID) :
    (orNone args.passport_number).map (args.passport (ρ person_uuid)) =
      ((orNone args.passport_number).map (args.passport person_uuid)).map
        (PersonIdentifierRepository.Args.rename ρ) := by
  rw [Option.map_map]
  rfl

theorem emiratesId_rename (ρ : Equiv.Perm UUID) (args : PersonService.Args) (person_uuid : UUID) :
    (orNone args.emirates_id).map (emiratesIdArgs (ρ person_uuid)) =
      ((orNone args.emirates_id).map (emiratesIdArgs person_uuid)).map
        (PersonIdentifierRepository.Args.rename ρ) := by
  rw [Option.map_map]
  rfl

theorem alike_create (args : PersonService.Args)
    (hu : S.owner draws.person_uuid = some S.tenant) :
    S.coupling.Alike (fun p p' => p' = p.rename S.ρ)
      (PersonService.create lib ctx draws S.tenant args)
      (PersonService.create lib ctx (draws.rename S.ρ) S.tenant args) := by
  apply alike_requiresTenant
  apply (alike_deterministicMatch args.query).bind
  rintro match_result _ rfl
  by_cases hduplicate : isDuplicate match_result = true
  · rw [if_pos hduplicate, if_pos (show isDuplicate (match_result.rename S.ρ) = true from hduplicate)]
    exact Coupling.Alike.throw rfl
  · rw [if_neg hduplicate,
      if_neg (show ¬ isDuplicate (match_result.rename S.ρ) = true from hduplicate)]
    apply (alike_personCreate lib hu args.person).bind
    rintro person _ ⟨hperson, rfl⟩
    rw [← hperson] at hu
    have hpassport : ∀ a ∈ (orNone args.passport_number).map (args.passport person.person_uuid),
        S.owner a.person_uuid = some S.tenant := by
      rintro _ ha
      obtain ⟨n, -, rfl⟩ := Option.map_eq_some_iff.mp ha
      exact hu
    have hemirates : ∀ a ∈ (orNone args.emirates_id).map (emiratesIdArgs person.person_uuid),
        S.owner a.person_uuid = some S.tenant := by
      rintro _ ha
      obtain ⟨n, -, rfl⟩ := Option.map_eq_some_iff.mp ha
      exact hu
    have hrenamed : (person.rename S.ρ).person_uuid = S.ρ person.person_uuid := rfl
    rw [hrenamed, passport_rename, emiratesId_rename]
    apply (alike_addIdentifier hpassport).bind
    intro _ _ _
    apply (alike_addIdentifier hemirates).bind
    intro _ _ _
    apply (alike_auditWrite ctx (createdAudit person.person_uuid)).bind
    intro _ _ _
    apply alike_flush.bind
    intro _ _ _
    exact alike_refresh hu

end Standpoint
end Hawiya
