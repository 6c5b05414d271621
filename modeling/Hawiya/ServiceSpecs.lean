import Hawiya.Matching
import Hawiya.Services
import Hawiya.StorableFields

/-!
# What each service call does to its transaction

One specification for each function, on the `during` form: which rows it adds or flushes and what
it returns. Callers use these and never unfold a callee.
-/

namespace Hawiya
open PyString Calendar Interaction Db

variable {ι : Type} [DecidableEq ι] {α : Type}
variable (lib : Libraries) (ctx : RequestContext) (draws : Draws)
variable (t : Tables) (i : ι) (cs : List Change) (rows : List Row) (tenant_id : UUID)

theorem run_requiresTenant {ctx : RequestContext} {tenant_id : UUID} {db : Db ι}
    (hctx : ctx.tenant_id = some tenant_id) (tx : Tx α) :
    runTx i (requiresTenant ctx tenant_id tx) db = runTx i tx db := by
  simp [requiresTenant, requireTenantId, hctx, runTx_bind]

theorem run_requiresTenant_of_ne {ctx : RequestContext} {tenant_id : UUID} {db : Db ι}
    (hctx : ctx.tenant_id ≠ some tenant_id) (tx : Tx α) :
    ∃ e, runTx i (requiresTenant ctx tenant_id tx) db = (.error e, db) := by
  unfold requiresTenant requireTenantId
  cases h : ctx.tenant_id with
  | none => exact ⟨.missingTenantError, by simp [runTx_bind]⟩
  | some tenant =>
    have hne : tenant_id ≠ tenant := fun he => hctx (by rw [h, he])
    exact ⟨.crossTenantError, by simp [runTx_bind, hne]⟩

theorem run_auditWrite (args : AuditWriter.Args) :
    runTx i (AuditWriter.write ctx tenant_id args) (during t i cs rows) =
      (.ok (), during t i cs (rows ++ [.auditLog (args.row ctx tenant_id)])) :=
  run_add t i cs rows _

namespace PersonIdentifierRepository

theorem run_create (args : Args) :
    runTx i (create tenant_id args) (during t i cs rows) =
      (.ok (args.row tenant_id), during t i cs (rows ++ [.identifier (args.row tenant_id)])) := by
  rw [create, runTx_bind, run_add]
  rfl

end PersonIdentifierRepository

namespace PersonRepository

def variantRows (person_uuid : UUID) (specs : List VariantSpec) : List Row :=
  specs.map (fun spec => .nameVariant (spec.row lib tenant_id person_uuid))

theorem run_addNameVariants (person_uuid : UUID) (specs : List VariantSpec) :
    runTx i (forM specs (fun spec => do
        let _ ← addNameVariant lib tenant_id person_uuid spec)) (during t i cs rows) =
      (.ok (), during t i cs (rows ++ variantRows lib tenant_id person_uuid specs)) := by
  induction specs generalizing rows with
  | nil => simp [variantRows]
  | cons spec specs ih =>
    have hone : runTx i (do let _ ← addNameVariant lib tenant_id person_uuid spec)
        (during t i cs rows) = (.ok (),
          during t i cs (rows ++ [.nameVariant (spec.row lib tenant_id person_uuid)])) := by
      rw [runTx_bind, addNameVariant, runTx_bind, run_add]
      rfl
    rw [List.forM_cons, runTx_bind, hone]
    refine (ih _).trans ?_
    simp [variantRows]

variable (person_uuid : UUID) (args : Args)

theorem run_create
    (h : (t.applyAll cs).AcceptsAll (rows ++ [Row.person (args.row lib tenant_id person_uuid)])) :
    runTx i (create lib tenant_id person_uuid args) (during t i cs rows) =
      (.ok (args.row lib tenant_id person_uuid),
        during t i
          (cs ++ (rows ++ [Row.person (args.row lib tenant_id person_uuid)]).map .insert)
          (variantRows lib tenant_id person_uuid args.name_variants)) := by
  unfold create
  rw [runTx_bind, run_add]
  simp only [runTx_bind, run_flush_of_accepts t i cs _ h]
  have hvariants := run_addNameVariants lib t i
    (cs ++ (rows ++ [Row.person (args.row lib tenant_id person_uuid)]).map .insert) [] tenant_id
    (args.row lib tenant_id person_uuid).person_uuid args.name_variants
  rw [List.nil_append] at hvariants
  simp only [hvariants, runTx_pure]
  rfl

theorem run_create_of_not_accepts
    (h : ¬ (t.applyAll cs).AcceptsAll (rows ++ [Row.person (args.row lib tenant_id person_uuid)])) :
    ∃ e cs', e.ofServer = true ∧
      runTx i (create lib tenant_id person_uuid args) (during t i cs rows) =
        (.error e, during t i cs' []) := by
  obtain ⟨e, cs', hserver, hflush⟩ := run_flush_of_not_accepts t i cs _ h
  refine ⟨e, cs', hserver, ?_⟩
  unfold create
  rw [runTx_bind, run_add]
  simp only [runTx_bind, hflush]

end PersonRepository

/-- The upload is classified, read and parsed: what an extraction has to succeed at. -/
structure Reads (ctx : RequestContext) (tenant_id : UUID) (payload : Bytes) (content_type : Str)
    (document_type : DocumentType) (parsed : ParsedMRZ) : Prop where
  tenant : ctx.tenant_id = some tenant_id
  classified : DocumentClassifier.classify lib.unicode.isprintable payload content_type =
    .ok document_type
  parses : ∃ line1 line2, draws.read_mrz = .ok (line1, line2) ∧
    Mrz.parseTd3 draws.today line1 line2 = .ok parsed

namespace ExtractionService
variable {lib ctx draws tenant_id} {payload : Bytes} {content_type : Str}
variable {document_type : DocumentType} {parsed : ParsedMRZ} (consumer_request_id : Option Str)

def extractionRows (lib : Libraries) (ctx : RequestContext) (draws : Draws) (tenant_id : UUID)
    (payload : Bytes) (consumer_request_id : Option Str) (document_type : DocumentType)
    (parsed : ParsedMRZ) : List Row :=
  [.extraction (record lib draws tenant_id payload consumer_request_id document_type parsed),
    .auditLog ((extractedAudit lib draws payload parsed).row ctx tenant_id)]

theorem run_extract (h : Reads lib draws ctx tenant_id payload content_type document_type parsed) :
    runTx i (extract lib ctx draws tenant_id payload content_type consumer_request_id)
        (during t i cs rows) =
      (.ok (result draws document_type parsed), during t i cs (rows ++
        extractionRows lib ctx draws tenant_id payload consumer_request_id document_type
          parsed)) := by
  obtain ⟨htenant, hclassified, line1, line2, hread, hparse⟩ := h
  unfold extract
  rw [run_requiresTenant i htenant]
  simp only [runTx_bind, hclassified, runTx_liftM, readMrz, hread, runTx_pure, hparse, run_add,
    run_auditWrite]
  simp [extractionRows]

/-- The audit row of a failed OCR call, if its exception is one the service records. -/
def failedRows (lib : Libraries) (ctx : RequestContext) (tenant_id : UUID) (payload : Bytes)
    (e : PyError) : List Row :=
  match e with
  | .noMRZFoundError _ | .ocrUnavailableError _ | .mrzFormatError _ =>
      [.auditLog ((failedAudit lib payload e).row ctx tenant_id)]
  | _ => []

theorem run_readMrz_error {e : PyError} (h : draws.read_mrz = .error e) :
    runTx i (readMrz lib ctx draws tenant_id payload) (during t i cs rows) =
      (.error e, during t i cs (rows ++ failedRows lib ctx tenant_id payload e)) := by
  unfold readMrz failedRows
  rw [h]
  cases e with
  | noMRZFoundError m => simp only [runTx_bind, run_auditWrite, runTx_throw]
  | ocrUnavailableError m => simp only [runTx_bind, run_auditWrite, runTx_throw]
  | mrzFormatError m => simp only [runTx_bind, run_auditWrite, runTx_throw]
  | _ => simp

theorem run_extract_of_not_reads
    (h : ¬ ∃ document_type parsed,
      Reads lib draws ctx tenant_id payload content_type document_type parsed) :
    ∃ e e', runTx i (extract lib ctx draws tenant_id payload content_type consumer_request_id)
      (during t i cs rows) =
        (.error e, during t i cs (rows ++ failedRows lib ctx tenant_id payload e')) := by
  have hnone : failedRows lib ctx tenant_id payload .indexError = [] := rfl
  by_cases htenant : ctx.tenant_id = some tenant_id
  · unfold extract
    rw [run_requiresTenant i htenant]
    cases hclassified : DocumentClassifier.classify lib.unicode.isprintable payload content_type with
    | error e =>
      exact ⟨e, .indexError, by simp only [runTx_bind, runTx_liftM, hnone, List.append_nil]⟩
    | ok document_type =>
      cases hread : draws.read_mrz with
      | error e =>
        exact ⟨e, e, by
          simp only [runTx_bind, runTx_liftM, run_readMrz_error t i cs rows hread]⟩
      | ok lines =>
        cases hparse : Mrz.parseTd3 draws.today lines.1 lines.2 with
        | error e =>
          exact ⟨e, .indexError, by
            simp only [runTx_bind, runTx_liftM, readMrz, hread, runTx_pure, hparse, hnone,
              List.append_nil]⟩
        | ok parsed =>
          exact absurd ⟨document_type, parsed, htenant, hclassified, _, _, hread, hparse⟩ h
  · obtain ⟨e, he⟩ := run_requiresTenant_of_ne i htenant _
    exact ⟨e, .indexError, by rw [hnone, List.append_nil]; exact he⟩

end ExtractionService

namespace IdentityService
open ExtractionService

def personRow (lib : Libraries) (draws : Draws) (tenant_id : UUID) (fields : Fields) : Person :=
  (personArgs fields).row lib tenant_id draws.person_uuid

def identifierRows (draws : Draws) (tenant_id : UUID) (fields : Fields)
    (doc_number_confidence : ℚ) : List Row :=
  (passportNumber fields).toList.map (fun n => .identifier
    ((identifierArgs draws.person_uuid fields n doc_number_confidence).row tenant_id))

/-- The rows still pending when a person has been created. -/
def newPersonRows (lib : Libraries) (draws : Draws) (tenant_id : UUID) (fields : Fields)
    (doc_number_confidence : ℚ) : List Row :=
  PersonRepository.variantRows lib tenant_id draws.person_uuid (personArgs fields).name_variants ++
    identifierRows draws tenant_id fields doc_number_confidence

theorem run_createPersonFromExtraction (fields : Fields) (doc_number_confidence : ℚ)
    (h : (t.applyAll cs).AcceptsAll (rows ++ [Row.person (personRow lib draws tenant_id fields)])) :
    runTx i (createPersonFromExtraction lib draws tenant_id fields doc_number_confidence)
        (during t i cs rows) =
      (.ok draws.person_uuid, during t i
        (cs ++ (rows ++ [Row.person (personRow lib draws tenant_id fields)]).map .insert)
        (newPersonRows lib draws tenant_id fields doc_number_confidence)) := by
  unfold createPersonFromExtraction newPersonRows identifierRows
  rw [runTx_bind, PersonRepository.run_create lib t i cs rows tenant_id draws.person_uuid _ h]
  cases passportNumber fields with
  | none => simp [personRow, PersonRepository.Args.row]
  | some n =>
    simp only [runTx_bind, PersonIdentifierRepository.run_create, runTx_pure]
    rfl

theorem run_createPersonFromExtraction_of_not_accepts (fields : Fields) (doc_number_confidence : ℚ)
    (h : ¬ (t.applyAll cs).AcceptsAll (rows ++ [Row.person (personRow lib draws tenant_id fields)])) :
    ∃ e cs', e.ofServer = true ∧
      runTx i (createPersonFromExtraction lib draws tenant_id fields doc_number_confidence)
        (during t i cs rows) = (.error e, during t i cs' []) := by
  obtain ⟨e, cs', hserver, hrun⟩ :=
    PersonRepository.run_create_of_not_accepts lib t i cs rows tenant_id draws.person_uuid _ h
  exact ⟨e, cs', hserver, by rw [createPersonFromExtraction, runTx_bind, hrun]⟩

/-- The change an extraction link makes: none unless the row is visible. -/
def linkChanges (view : Tables) (tenant_id extraction_id : UUID) (person_uuid : Option UUID)
    (action : MatchAction) : List Change :=
  if view.extractions.any (fun r => r.isExtraction extraction_id tenant_id) then
    [.link extraction_id tenant_id person_uuid action.value]
  else []

theorem run_updateExtractionLink (extraction_id : UUID) (person_uuid : Option UUID)
    (action : MatchAction) :
    runTx i (updateExtractionLink tenant_id extraction_id person_uuid action)
        (during t i cs rows) =
      (.ok (), during t i
        (cs ++ linkChanges (t.applyAll cs) tenant_id extraction_id person_uuid action) rows) := by
  unfold updateExtractionLink linkChanges
  refine (runTx_execute i _ _).trans ?_
  simp only [exec, doUpdateExtraction, view_during]
  by_cases hany : (t.applyAll cs).extractions.any (fun r => r.isExtraction extraction_id tenant_id)
  · rw [if_pos hany, if_pos hany, record_during]
  · rw [if_neg hany, if_neg hany, List.append_nil]

def decision : MatchAction → MatchDecisionValue
  | .autoMatched => .autoMerge
  | .suggestedMatch => .suggestMerge
  | .manualReview => .manualReview
  | _ => .noMatch

theorem actionToDecision_eq (action : MatchAction) :
    actionToDecision action = some (decision action) := by
  cases action with
  | _ => rfl

/-- The rows that record the outcome of a resolve call. -/
def outcomeRows (lib : Libraries) (ctx : RequestContext) (tenant_id : UUID) (payload : Bytes)
    (extraction : ExtractionResult) (match_result : MatchResult) (person_uuid : Option UUID)
    (action : MatchAction) (confidence : ℚ) : List Row :=
  [.matchDecision (decisionRow tenant_id person_uuid confidence match_result.features
      (decision action)),
    .auditLog ((resolvedAudit lib payload extraction person_uuid action confidence).row ctx
      tenant_id)]

theorem run_recordDecision (payload : Bytes) (extraction : ExtractionResult)
    (match_result : MatchResult) (person_uuid : Option UUID) (action : MatchAction)
    (confidence : ℚ) :
    runTx i (recordDecision lib ctx tenant_id payload extraction match_result person_uuid action
        confidence) (during t i cs rows) =
      (.ok (), during t i
        (cs ++ linkChanges (t.applyAll cs) tenant_id extraction.extraction_id person_uuid action)
        (rows ++ outcomeRows lib ctx tenant_id payload extraction match_result person_uuid action
          confidence)) := by
  unfold recordDecision
  simp only [runTx_bind, run_updateExtractionLink, actionToDecision_eq, run_add, run_auditWrite]
  simp [outcomeRows]

variable {lib ctx draws tenant_id} {payload : Bytes} {content_type : Str}
variable {document_type : DocumentType} {parsed : ParsedMRZ} (consumer_request_id : Option Str)
variable {create_if_missing : Bool}

def resolveResult (draws : Draws) (parsed : ParsedMRZ) (match_result : MatchResult)
    (person_uuid : Option UUID) (action : MatchAction) (confidence : ℚ) : ResolveResult where
  extraction_id := draws.extraction_id
  action := action
  person_uuid := person_uuid
  confidence := confidence
  method := match_result.method
  fields := fieldsFromParsed parsed

/-- The number that a resolve call looks up has passed its check digit. -/
theorem askable_of_reads
    (hreads : Reads lib draws ctx tenant_id payload content_type document_type parsed) :
    Askable t tenant_id (query (fieldsFromParsed parsed)) := by
  obtain ⟨-, -, line1, line2, -, hparse⟩ := hreads
  constructor
  · intro v hv
    cases hv
  · intro _ v hv
    have hnumber : orNone (some parsed.document_number) = some v := (orNone_eq_some_iff.mp hv).1
    obtain rfl : parsed.document_number = v := Option.some.inj (orNone_eq_some_iff.mp hnumber).1
    exact Mrz.nul_not_mem_document_number hparse

/-- A resolve call that does not create: the extraction is still pending when it is linked. -/
theorem run_resolve_existing
    (hreads : Reads lib draws ctx tenant_id payload content_type document_type parsed)
    (hkeys : (t.applyAll cs).keys.Nodup) {m : MatchResult}
    (hm : (t.applyAll cs).matchIn tenant_id (query (fieldsFromParsed parsed)) = m)
    (hno : ¬ (m.action = .noMatchNoCreate ∧ create_if_missing = true)) :
    runTx i (resolve lib ctx draws tenant_id payload content_type consumer_request_id
        create_if_missing) (during t i cs rows) =
      (.ok (resolveResult draws parsed m m.person_uuid m.action m.confidence), during t i
        (cs ++ linkChanges (t.applyAll cs) tenant_id draws.extraction_id m.person_uuid m.action)
        (rows ++ extractionRows lib ctx draws tenant_id payload consumer_request_id document_type
            parsed ++
          outcomeRows lib ctx tenant_id payload (result draws document_type parsed) m m.person_uuid
            m.action m.confidence)) := by
  unfold resolve settle
  rw [run_requiresTenant i hreads.tenant, runTx_bind,
    run_extract t i cs rows consumer_request_id hreads]
  simp only [runTx_bind, run_deterministicMatch_during cs hkeys _ tenant_id
    (askable_of_reads _ hreads), result, hm, if_neg hno,
    runTx_pure, run_recordDecision]
  rfl

/-- A resolve call that creates a person: its flush makes the extraction visible to the link. -/
theorem run_resolve_new
    (hreads : Reads lib draws ctx tenant_id payload content_type document_type parsed)
    (hkeys : (t.applyAll cs).keys.Nodup) {m : MatchResult}
    (hm : (t.applyAll cs).matchIn tenant_id (query (fieldsFromParsed parsed)) = m)
    (hmiss : m.action = .noMatchNoCreate)
    {created : List Row} (hcreated : created = rows ++ extractionRows lib ctx draws tenant_id payload
      consumer_request_id document_type parsed ++
      [Row.person (personRow lib draws tenant_id (fieldsFromParsed parsed))])
    (hacc : (t.applyAll cs).AcceptsAll created) :
    runTx i (resolve lib ctx draws tenant_id payload content_type consumer_request_id true)
        (during t i cs rows) =
      (.ok (resolveResult draws parsed m (some draws.person_uuid) .newRecord confNewRecord),
        during t i
          (cs ++ created.map .insert ++ linkChanges (t.applyAll (cs ++ created.map .insert)) tenant_id
            draws.extraction_id (some draws.person_uuid) .newRecord)
          (newPersonRows lib draws tenant_id (fieldsFromParsed parsed)
              (confidencesFromParsed parsed).document_number ++
            outcomeRows lib ctx tenant_id payload (result draws document_type parsed) m
              (some draws.person_uuid) .newRecord confNewRecord)) := by
  subst hcreated
  unfold resolve settle
  rw [run_requiresTenant i hreads.tenant, runTx_bind,
    run_extract t i cs rows consumer_request_id hreads]
  simp only [runTx_bind, run_deterministicMatch_during cs hkeys _ tenant_id
    (askable_of_reads _ hreads), result, hm, hmiss, and_self,
    if_true, run_createPersonFromExtraction _ _ _ _ _ _ _ _ _ hacc, runTx_pure, run_recordDecision]
  rfl

end IdentityService

namespace PersonService
variable {lib ctx draws tenant_id} {args : Args}

theorem run_create_not_askable (hctx : ctx.tenant_id = some tenant_id)
    (hkeys : (t.applyAll cs).keys.Nodup) (hask : ¬ Askable (t.applyAll cs) tenant_id args.query) :
    runTx i (create lib ctx draws tenant_id args) (during t i cs rows) =
      (.error .dbapiError, during t i cs rows) := by
  rw [← view_during t i cs rows] at hkeys hask
  unfold create
  rw [run_requiresTenant i hctx, runTx_bind,
    run_deterministicMatch_of_not_askable hkeys tenant_id hask]

/-- A duplicate is refused before anything is added to the session. -/
theorem run_create_duplicate (hctx : ctx.tenant_id = some tenant_id)
    (hkeys : (t.applyAll cs).keys.Nodup) (hask : Askable (t.applyAll cs) tenant_id args.query)
    {m : MatchResult} (hm : (t.applyAll cs).matchIn tenant_id args.query = m)
    (hdup : isDuplicate m = true) :
    runTx i (create lib ctx draws tenant_id args) (during t i cs rows) =
      (.error (.possibleDuplicateError m), during t i cs rows) := by
  unfold create
  rw [run_requiresTenant i hctx]
  simp only [runTx_bind, run_deterministicMatch_during cs hkeys _ tenant_id hask, hm, hdup, if_true,
    runTx_throw]

def personRow (lib : Libraries) (draws : Draws) (tenant_id : UUID) (args : Args) : Person :=
  args.person.row lib tenant_id draws.person_uuid

@[simp] theorem personRow_person_uuid :
    (personRow lib draws tenant_id args).person_uuid = draws.person_uuid := rfl

def identifierRows (draws : Draws) (tenant_id : UUID) (args : Args) : List Row :=
  (((orNone args.passport_number).map (args.passport draws.person_uuid)).toList ++
    ((orNone args.emirates_id).map (emiratesIdArgs draws.person_uuid)).toList).map
      (fun a => .identifier (a.row tenant_id))

/-- What `create` adds after the person itself. -/
def createdRows (lib : Libraries) (ctx : RequestContext) (draws : Draws) (tenant_id : UUID)
    (args : Args) : List Row :=
  PersonRepository.variantRows lib tenant_id draws.person_uuid args.person.name_variants ++
    identifierRows draws tenant_id args ++
    [.auditLog ((createdAudit draws.person_uuid).row ctx tenant_id)]

theorem createdRows_eq :
    PersonRepository.variantRows lib tenant_id draws.person_uuid args.person.name_variants ++
        ((orNone args.passport_number).map (args.passport draws.person_uuid)).toList.map
          (fun a => Row.identifier (a.row tenant_id)) ++
        ((orNone args.emirates_id).map (emiratesIdArgs draws.person_uuid)).toList.map
          (fun a => Row.identifier (a.row tenant_id)) ++
        [Row.auditLog ((createdAudit draws.person_uuid).row ctx tenant_id)] =
      createdRows lib ctx draws tenant_id args := by
  simp [createdRows, identifierRows]

theorem run_addIdentifier (a : Option PersonIdentifierRepository.Args) :
    runTx i (addIdentifier tenant_id a) (during t i cs rows) =
      (.ok (), during t i cs (rows ++ a.toList.map (fun a => .identifier (a.row tenant_id)))) := by
  cases a with
  | none => simp [addIdentifier]
  | some a =>
    rw [addIdentifier, runTx_bind, PersonIdentifierRepository.run_create]
    rfl

def loaded (view : Tables) (person : Person) : LoadedPerson where
  person := person
  identifiers := view.identifiers.filter (fun r => r.person_uuid == person.person_uuid)
  name_variants := view.name_variants.filter (fun r => r.person_uuid == person.person_uuid)

theorem run_refresh (person : Person) (db : Db ι) :
    runTx i (refresh person) db = (.ok (loaded (db.view i) person), db) := by
  unfold refresh selectIdentifiers selectNameVariants
  rw [runTx_bind, runTx_execute]
  simp only [exec, runTx_bind, runTx_pure]
  rw [runTx_execute]
  rfl

theorem run_create (hctx : ctx.tenant_id = some tenant_id) (hkeys : (t.applyAll cs).keys.Nodup)
    (hask : Askable (t.applyAll cs) tenant_id args.query)
    (hfree : isDuplicate ((t.applyAll cs).matchIn tenant_id args.query) = false)
    {changes : List Change} (hchanges : changes = cs ++
      (rows ++ [Row.person (personRow lib draws tenant_id args)]).map .insert)
    (hperson : (t.applyAll cs).AcceptsAll (rows ++ [Row.person (personRow lib draws tenant_id args)]))
    (hrows : (t.applyAll changes).AcceptsAll (createdRows lib ctx draws tenant_id args)) :
    runTx i (create lib ctx draws tenant_id args) (during t i cs rows) =
      (.ok (loaded (t.applyAll (changes ++ (createdRows lib ctx draws tenant_id args).map .insert))
          (personRow lib draws tenant_id args)),
        during t i (changes ++ (createdRows lib ctx draws tenant_id args).map .insert) []) := by
  have hcreate : runTx i (PersonRepository.create lib tenant_id draws.person_uuid args.person)
      (during t i cs rows) = (.ok (personRow lib draws tenant_id args), during t i changes
        (PersonRepository.variantRows lib tenant_id draws.person_uuid args.person.name_variants)) := by
    rw [hchanges]
    exact PersonRepository.run_create lib t i cs rows tenant_id draws.person_uuid args.person hperson
  unfold create
  rw [run_requiresTenant i hctx]
  simp only [runTx_bind, run_deterministicMatch_during cs hkeys _ tenant_id hask, view_during, hfree,
    Bool.false_eq_true, if_false, hcreate, personRow_person_uuid, run_addIdentifier,
    run_auditWrite, createdRows_eq, run_flush_of_accepts t i changes _ hrows, run_refresh]

end PersonService
end Hawiya
