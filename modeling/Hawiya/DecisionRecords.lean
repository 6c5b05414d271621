import Hawiya.Lib.Observations
import Hawiya.ServiceSpecs

/-!
# The records of a resolve call

The rows a call adds to its session, observed at the operations it performs: whatever the registry
replies to them, be it changed by other sessions in between, the rows of a call that returns agree
with its result and with one another.
-/

namespace Hawiya
open PyString Calendar Interaction

/-- The row an operation adds to its session. -/
def DbOp.added : DbOp → List Row
  | .add r => [r]
  | _ => []

/-- Whatever is replied, the value returned and the rows added are related. -/
abbrev AddsRows {α : Type} (tx : Tx α) (P : α → List Row → Prop) : Prop := tx.Yields DbOp.added P

variable {α : Type} (lib : Libraries) (ctx : RequestContext) (draws : Draws) (tenant_id : UUID)

theorem adds_add (r : Row) : AddsRows (Session.add r) (fun _ rows => rows = [r]) :=
  Program.Yields.perform

theorem adds_nothing {op : DbOp} (h : op.added = []) :
    AddsRows (execute op) (fun _ rows => rows = []) :=
  Program.Yields.perform.mono (fun _ _ hrows => hrows.trans h)

theorem adds_return (r : Row) (a : α) :
    AddsRows (do Session.add r; return a) (fun b rows => b = a ∧ rows = [r]) :=
  Program.Yields.bind (adds_add r) (fun _ _ h => ⟨rfl, by rw [h]; rfl⟩)

theorem adds_flush : AddsRows Session.flush (fun _ rows => rows = []) := by
  refine Program.Yields.bind (adds_nothing rfl) (fun pending _ hnone => ?_)
  refine (Program.Yields.forM (fun r => adds_nothing rfl) pending).mono (fun _ rows hrows => ?_)
  rw [hnone, hrows]
  simp

theorem adds_requiresTenant {tx : Tx α} {P : α → List Row → Prop} (h : AddsRows tx P) :
    AddsRows (requiresTenant ctx tenant_id tx) P := by
  refine Program.Yields.bind (P := fun _ rows => rows = []) ?_ (fun tenant _ hnone => ?_)
  · exact Program.Yields.ofExcept (fun _ _ => rfl)
  · subst hnone
    by_cases hne : tenant_id ≠ tenant
    · rw [if_pos hne]
      exact Program.Yields.bind (P := fun _ _ => False) trivial (fun _ _ => False.elim)
    · rw [if_neg hne]
      exact h

namespace PersonRepository

theorem adds_create (person_uuid : UUID) (args : Args) :
    AddsRows (create lib tenant_id person_uuid args) (fun person rows =>
      person = args.row lib tenant_id person_uuid ∧
      rows = .person (args.row lib tenant_id person_uuid) ::
        variantRows lib tenant_id person_uuid args.name_variants) := by
  refine Program.Yields.bind (adds_add _) (fun _ _ hperson => ?_)
  refine Program.Yields.bind adds_flush (fun _ _ hnone => ?_)
  have hvariant : ∀ spec : VariantSpec,
      AddsRows
        (do let _ ← addNameVariant lib tenant_id (args.row lib tenant_id person_uuid).person_uuid spec)
        (fun _ rows => rows = [.nameVariant (spec.row lib tenant_id person_uuid)]) := by
    intro spec
    exact Program.Yields.bind (adds_return _ _) (fun _ _ h => by rw [h.2]; rfl)
  refine Program.Yields.bind (Program.Yields.forM hvariant args.name_variants)
    (fun _ _ hvariants => ⟨rfl, ?_⟩)
  rw [hperson, hnone, hvariants]
  simp [variantRows, List.map_eq_flatMap]

end PersonRepository

namespace DeterministicMatcher

/-- What the matcher can find. -/
def Found (m : MatchResult) : Prop :=
  m.action = .autoMatched ∨ m.action = .suggestedMatch ∨ m.action = .noMatchNoCreate

theorem found_passportResult (ident : PersonIdentifier) (nationality_match dob_match : Bool) :
    Found (passportResult ident nationality_match dob_match) := by
  unfold passportResult
  split_ifs with h
  · exact .inl rfl
  · exact .inr (.inl rfl)

theorem adds_findActive (identifier_type : IdentifierType) (value : Str) :
    AddsRows (PersonIdentifierRepository.findActive tenant_id identifier_type value)
      (fun _ rows => rows = []) := by
  refine Program.Yields.bind (adds_nothing rfl) (fun found _ hnone => ?_)
  subst hnone
  match found with
  | [] => exact rfl
  | [a] => exact rfl
  | _ :: _ :: _ => trivial

theorem adds_get (person_uuid : UUID) :
    AddsRows (PersonRepository.get tenant_id person_uuid) (fun _ rows => rows = []) := by
  refine Program.Yields.bind (adds_nothing rfl) (fun found _ hnone => ?_)
  subst hnone
  match found with
  | [] => exact rfl
  | [a] => exact rfl
  | _ :: _ :: _ => trivial

theorem adds_matchEmiratesId (q : Query) : AddsRows (matchEmiratesId tenant_id q)
    (fun m rows => (∀ result ∈ m, Found result) ∧ rows = []) := by
  unfold matchEmiratesId
  cases orNone q.emirates_id with
  | none => exact ⟨nofun, rfl⟩
  | some emirates_id =>
    refine Program.Yields.bind (adds_findActive tenant_id _ _) (fun ident _ hnone => ⟨?_, ?_⟩)
    · intro result hresult
      obtain ⟨i, -, rfl⟩ := Option.map_eq_some_iff.mp hresult
      exact .inl rfl
    · rw [hnone]
      rfl

theorem adds_matchPassport (q : Query) : AddsRows (matchPassport tenant_id q)
    (fun m rows => (∀ result ∈ m, Found result) ∧ rows = []) := by
  unfold matchPassport
  cases orNone q.passport_number with
  | none => exact ⟨nofun, rfl⟩
  | some passport_number =>
    refine Program.Yields.bind (adds_findActive tenant_id _ _) (fun ident _ hnone => ?_)
    subst hnone
    cases ident with
    | none => exact ⟨nofun, rfl⟩
    | some ident =>
      refine Program.Yields.bind (adds_get tenant_id _) (fun person _ hnone => ⟨?_, ?_⟩)
      · intro result hresult
        cases hresult
        exact found_passportResult _ _ _
      · rw [hnone]
        rfl

theorem adds_deterministicMatch (q : Query) :
    AddsRows (deterministicMatch tenant_id q) (fun m rows => Found m ∧ rows = []) := by
  refine Program.Yields.bind (adds_matchEmiratesId tenant_id q) (fun byEmiratesId _ h => ?_)
  obtain ⟨hfound, rfl⟩ := h
  cases byEmiratesId with
  | some result => exact ⟨hfound result rfl, rfl⟩
  | none =>
    refine Program.Yields.bind (adds_matchPassport tenant_id q) (fun byPassport _ h => ?_)
    obtain ⟨hfound, rfl⟩ := h
    refine ⟨?_, rfl⟩
    cases byPassport with
    | some result => exact hfound result rfl
    | none => exact .inr (.inr rfl)

end DeterministicMatcher

namespace ExtractionService

theorem adds_readMrz (payload : Bytes) :
    AddsRows (readMrz lib ctx draws tenant_id payload) (fun _ rows => rows = []) := by
  unfold readMrz
  cases draws.read_mrz with
  | ok lines => exact rfl
  | error e =>
    cases e with
    | noMRZFoundError m | ocrUnavailableError m | mrzFormatError m =>
      exact Program.Yields.bind (adds_add _) (fun _ _ _ => trivial)
    | _ => trivial

theorem adds_extract (payload : Bytes) (content_type : Str) (consumer_request_id : Option Str) :
    AddsRows (extract lib ctx draws tenant_id payload content_type consumer_request_id)
      (fun r rows => ∃ document_type parsed,
        (∃ line1 line2, Mrz.parseTd3 draws.today line1 line2 = .ok parsed) ∧
        r = result draws document_type parsed ∧
        rows = extractionRows lib ctx draws tenant_id payload consumer_request_id document_type
          parsed) := by
  refine adds_requiresTenant ctx tenant_id ?_
  refine Program.Yields.bind (P := fun _ rows => rows = [])
    (Program.Yields.ofExcept (fun _ _ => rfl)) (fun document_type _ hnone => ?_)
  subst hnone
  refine Program.Yields.bind (adds_readMrz lib ctx draws tenant_id payload) (fun lines _ hnone => ?_)
  subst hnone
  refine Program.Yields.bind
    (P := fun parsed rows => Mrz.parseTd3 draws.today lines.1 lines.2 = .ok parsed ∧ rows = [])
    (Program.Yields.ofExcept (fun _ h => ⟨h, rfl⟩)) (fun parsed _ h => ?_)
  obtain ⟨hparse, rfl⟩ := h
  refine Program.Yields.bind (adds_add _) (fun _ _ hextraction => ?_)
  refine Program.Yields.bind (adds_add _)
    (fun _ _ haudit => ⟨document_type, parsed, ⟨_, _, hparse⟩, rfl, ?_⟩)
  rw [hextraction, haudit]
  rfl

end ExtractionService

namespace IdentityService
open ExtractionService

/-- The rows of a new person. -/
def recordRows (lib : Libraries) (draws : Draws) (tenant_id : UUID) (fields : Fields)
    (doc_number_confidence : ℚ) : List Row :=
  .person (personRow lib draws tenant_id fields) ::
    newPersonRows lib draws tenant_id fields doc_number_confidence

theorem adds_createPersonFromExtraction (fields : Fields) (doc_number_confidence : ℚ) :
    AddsRows (createPersonFromExtraction lib draws tenant_id fields doc_number_confidence)
      (fun person_uuid rows => person_uuid = draws.person_uuid ∧
        rows = recordRows lib draws tenant_id fields doc_number_confidence) := by
  refine Program.Yields.bind
    (PersonRepository.adds_create lib tenant_id draws.person_uuid (personArgs fields))
    (fun person rows h => ?_)
  obtain ⟨rfl, rfl⟩ := h
  unfold recordRows newPersonRows identifierRows
  cases passportNumber fields with
  | none => exact ⟨rfl, by simp; rfl⟩
  | some passport_number =>
    refine Program.Yields.bind (adds_return _ _) (fun _ _ hidentifier => ⟨rfl, ?_⟩)
    rw [hidentifier.2]
    rfl

/-- A call that returns has found what the matcher finds, or created a person. -/
inductive Settled (lib : Libraries) (draws : Draws) (tenant_id : UUID) (fields : Fields)
    (doc_number_confidence : ℚ) (m : MatchResult) : Option UUID × MatchAction × ℚ → List Row → Prop
  | found (h : DeterministicMatcher.Found m) : Settled lib draws tenant_id fields
      doc_number_confidence m (m.person_uuid, m.action, m.confidence) []
  | created : Settled lib draws tenant_id fields doc_number_confidence m
      (some draws.person_uuid, .newRecord, confNewRecord)
      (recordRows lib draws tenant_id fields doc_number_confidence)

theorem adds_settle (extraction : ExtractionResult) {m : MatchResult}
    (hm : DeterministicMatcher.Found m) (create_if_missing : Bool) :
    AddsRows (settle lib draws tenant_id extraction m create_if_missing)
      (Settled lib draws tenant_id extraction.fields
        extraction.confidence_per_field.document_number m) := by
  unfold settle
  by_cases hcreate : m.action = .noMatchNoCreate ∧ create_if_missing = true
  · rw [if_pos hcreate]
    refine Program.Yields.bind (adds_createPersonFromExtraction lib draws tenant_id _ _)
      (fun person_uuid rows h => ?_)
    obtain ⟨rfl, rfl⟩ := h
    change Settled lib draws tenant_id _ _ m _ (_ ++ [])
    rw [List.append_nil]
    exact .created
  · rw [if_neg hcreate]
    exact .found hm

theorem adds_recordDecision (payload : Bytes) (extraction : ExtractionResult) (m : MatchResult)
    (person_uuid : Option UUID) (action : MatchAction) (confidence : ℚ) :
    AddsRows (recordDecision lib ctx tenant_id payload extraction m person_uuid action confidence)
      (fun _ rows => rows =
        outcomeRows lib ctx tenant_id payload extraction m person_uuid action confidence) := by
  refine Program.Yields.bind (adds_nothing rfl) (fun _ _ hnone => ?_)
  rw [actionToDecision_eq]
  refine Program.Yields.bind (adds_add _) (fun _ _ hdecision => ?_)
  refine (adds_add _).mono (fun _ _ haudit => ?_)
  rw [hnone, hdecision, haudit]
  rfl

/-- The decision that stands for an action of a resolve call. -/
def decisionFor : MatchAction → MatchDecisionValue
  | .autoMatched => .autoMerge
  | .suggestedMatch => .suggestMerge
  | _ => .noMatch

/-- The extraction, its audit row, the decision and the audit row of the call say the same as its
result. -/
structure Agree (tenant_id : UUID) (r : ResolveResult) (extraction : DocumentExtraction)
    (extracted : AuditLog) (decision : MatchDecision) (resolved : AuditLog) : Prop where
  tenants : extraction.tenant_id = tenant_id ∧ extracted.tenant_id = tenant_id ∧
    decision.tenant_id = tenant_id ∧ resolved.tenant_id = tenant_id
  endpoints : extracted.endpoint = ExtractionService.endpoint ∧ resolved.endpoint = endpoint
  input_hashes : extracted.input_hash = some extraction.input_hash ∧
    resolved.input_hash = some extraction.input_hash
  extraction : extraction.extraction_id = r.extraction_id ∧ extraction.extracted_data = r.fields
  decision : decision.decision = decisionFor r.action ∧ decision.confidence = r.confidence ∧
    decision.candidate_a = r.person_uuid
  resolved : resolved.decision = some r.action.value ∧ resolved.confidence = some r.confidence ∧
    resolved.output_summary = some [("extraction_id", .uuid r.extraction_id),
      ("person_uuid", r.person_uuid.elim .null .uuid), ("action", .text r.action.value)]

/-- The primary active passport of a person, and no other identifier. -/
def PrimaryPassport (tenant_id : UUID) (person_uuid : Option UUID) (number : Str)
    (identifiers : List PersonIdentifier) : Prop :=
  ∃ i, identifiers = [i] ∧ i.tenant_id = tenant_id ∧ some i.person_uuid = person_uuid ∧
    i.identifier_type = .passport ∧ i.identifier_value = number ∧ i.is_primary = true ∧
    i.status = .active

/-- A new record adds its person, and a passport if a document number was read; nothing else adds
one. -/
def PersonAdded (tenant_id : UUID) (r : ResolveResult) (persons : List Person)
    (identifiers : List PersonIdentifier) : Prop :=
  if r.action = .newRecord then
    (∃ p, persons = [p] ∧ p.tenant_id = tenant_id ∧ some p.person_uuid = r.person_uuid) ∧
    match orNone r.fields.document_number with
    | some number => PrimaryPassport tenant_id r.person_uuid number identifiers
    | none => identifiers = []
  else persons = [] ∧ identifiers = []

/-- What a resolve call adds to its session. -/
structure Recorded (tenant_id : UUID) (r : ResolveResult) (rows : List Row) : Prop where
  records : ∃ extraction extracted decision resolved,
    rows.filterMap Row.extraction? = [extraction] ∧
    rows.filterMap Row.matchDecision? = [decision] ∧
    rows.filterMap Row.auditLog? = [extracted, resolved] ∧
    Agree tenant_id r extraction extracted decision resolved
  person : PersonAdded tenant_id r (rows.filterMap Row.person?) (rows.filterMap Row.identifier?)

theorem decision_eq_decisionFor {action : MatchAction} (h : action ≠ .manualReview) :
    decision action = decisionFor action := by
  cases action with
  | manualReview => exact absurd rfl h
  | autoMatched | suggestedMatch | newRecord | noMatchNoCreate => rfl

variable {lib ctx draws tenant_id}

/-- The records around the rows of a person, which hold none themselves. -/
theorem records_of_created {payload : Bytes} {consumer_request_id : Option Str}
    {document_type : DocumentType} {parsed : ParsedMRZ} {m : MatchResult} {person_uuid : Option UUID}
    {action : MatchAction} {confidence : ℚ} (haction : action ≠ .manualReview) {created : List Row}
    (hextraction : created.filterMap Row.extraction? = [])
    (hdecision : created.filterMap Row.matchDecision? = [])
    (haudit : created.filterMap Row.auditLog? = []) :
    let rows := extractionRows lib ctx draws tenant_id payload consumer_request_id document_type
      parsed ++ (created ++ outcomeRows lib ctx tenant_id payload
        (result draws document_type parsed) m person_uuid action confidence)
    ∃ extraction extracted decision resolved,
      rows.filterMap Row.extraction? = [extraction] ∧
      rows.filterMap Row.matchDecision? = [decision] ∧
      rows.filterMap Row.auditLog? = [extracted, resolved] ∧
      Agree tenant_id (resolveResult draws parsed m person_uuid action confidence) extraction
        extracted decision resolved := by
  intro rows
  have hagree : Agree tenant_id (resolveResult draws parsed m person_uuid action confidence)
      (record lib draws tenant_id payload consumer_request_id document_type parsed)
      ((extractedAudit lib draws payload parsed).row ctx tenant_id)
      (decisionRow tenant_id person_uuid confidence m.features (decision action))
      ((resolvedAudit lib payload (result draws document_type parsed) person_uuid action
        confidence).row ctx tenant_id) :=
    { tenants := ⟨rfl, rfl, rfl, rfl⟩, endpoints := ⟨rfl, rfl⟩, input_hashes := ⟨rfl, rfl⟩
      extraction := ⟨rfl, rfl⟩, decision := ⟨decision_eq_decisionFor haction, rfl, rfl⟩
      resolved := ⟨rfl, rfl, rfl⟩ }
  refine ⟨_, _, _, _, ?_, ?_, ?_, hagree⟩
  · rw [List.filterMap_append, List.filterMap_append, hextraction]
    rfl
  · rw [List.filterMap_append, List.filterMap_append, hdecision]
    rfl
  · rw [List.filterMap_append, List.filterMap_append, haudit]
    rfl

theorem filterMap_variantRows {β : Type} {f : Row → Option β}
    (hf : ∀ r, f (.nameVariant r) = none) (person_uuid : UUID)
    (specs : List PersonRepository.VariantSpec) :
    (PersonRepository.variantRows lib tenant_id person_uuid specs).filterMap f = [] := by
  induction specs with
  | nil => rfl
  | cons spec specs ih =>
    have hcons : PersonRepository.variantRows lib tenant_id person_uuid (spec :: specs) =
        .nameVariant (spec.row lib tenant_id person_uuid) ::
          PersonRepository.variantRows lib tenant_id person_uuid specs := rfl
    rw [hcons, List.filterMap_cons, hf, ih]

theorem filterMap_identifierRows {β : Type} {f : Row → Option β}
    (hf : ∀ r, f (.identifier r) = none) (fields : Fields) (doc_number_confidence : ℚ) :
    (identifierRows draws tenant_id fields doc_number_confidence).filterMap f = [] := by
  unfold identifierRows
  cases passportNumber fields with
  | none => rfl
  | some number => simp [hf]

/-- The rows of a new person hold no row of another kind. -/
theorem filterMap_recordRows {β : Type} {f : Row → Option β} (hperson : ∀ r, f (.person r) = none)
    (hvariant : ∀ r, f (.nameVariant r) = none) (hidentifier : ∀ r, f (.identifier r) = none)
    (fields : Fields) (doc_number_confidence : ℚ) :
    (recordRows lib draws tenant_id fields doc_number_confidence).filterMap f = [] := by
  unfold recordRows newPersonRows
  rw [List.filterMap_cons, hperson, List.filterMap_append, filterMap_variantRows hvariant,
    filterMap_identifierRows hidentifier]
  rfl

theorem personAdded_created (parsed : ParsedMRZ) (m : MatchResult) {rows₁ rows₂ : List Row}
    (h₁ : rows₁.filterMap Row.person? = [] ∧ rows₁.filterMap Row.identifier? = [])
    (h₂ : rows₂.filterMap Row.person? = [] ∧ rows₂.filterMap Row.identifier? = [])
    (doc_number_confidence : ℚ) :
    let r := resolveResult draws parsed m (some draws.person_uuid) .newRecord confNewRecord
    let rows := rows₁ ++
      (recordRows lib draws tenant_id (fieldsFromParsed parsed) doc_number_confidence ++ rows₂)
    PersonAdded tenant_id r (rows.filterMap Row.person?) (rows.filterMap Row.identifier?) := by
  intro r rows
  have hperson : rows.filterMap Row.person? =
      [personRow lib draws tenant_id (fieldsFromParsed parsed)] := by
    simp only [rows, recordRows, newPersonRows, List.filterMap_append, List.filterMap_cons, h₁.1,
      h₂.1, filterMap_variantRows (f := Row.person?) (fun _ => rfl),
      filterMap_identifierRows (f := Row.person?) (fun _ => rfl)]
    rfl
  have hidentifier : rows.filterMap Row.identifier? = (identifierRows draws tenant_id
      (fieldsFromParsed parsed) doc_number_confidence).filterMap Row.identifier? := by
    simp only [rows, recordRows, newPersonRows, List.filterMap_append, List.filterMap_cons, h₁.2,
      h₂.2, filterMap_variantRows (f := Row.identifier?) (fun _ => rfl)]
    simp [Row.identifier?]
  have hnew : r.action = .newRecord := rfl
  unfold PersonAdded
  rw [if_pos hnew, hperson, hidentifier]
  refine ⟨⟨_, rfl, rfl, rfl⟩, ?_⟩
  change match passportNumber (fieldsFromParsed parsed) with
    | some number => _
    | none => _
  unfold identifierRows
  cases passportNumber (fieldsFromParsed parsed) with
  | none => rfl
  | some number => exact ⟨_, rfl, rfl, rfl, rfl, rfl, rfl, rfl⟩

theorem adds_resolve (payload : Bytes) (content_type : Str) (consumer_request_id : Option Str)
    (create_if_missing : Bool) :
    AddsRows
      (resolve lib ctx draws tenant_id payload content_type consumer_request_id create_if_missing)
      (Recorded tenant_id) := by
  refine adds_requiresTenant ctx tenant_id ?_
  refine Program.Yields.bind (adds_extract lib ctx draws tenant_id _ _ _) (fun extraction _ h => ?_)
  obtain ⟨document_type, parsed, -, rfl, rfl⟩ := h
  refine Program.Yields.bind (DeterministicMatcher.adds_deterministicMatch tenant_id _)
    (fun m _ h => ?_)
  obtain ⟨hm, rfl⟩ := h
  refine Program.Yields.bind (adds_settle lib draws tenant_id _ hm create_if_missing)
    (fun settled created h => ?_)
  obtain ⟨person_uuid, action, confidence⟩ := settled
  refine Program.Yields.bind (adds_recordDecision lib ctx tenant_id payload _ m person_uuid action
    confidence) (fun _ _ houtcome => ?_)
  subst houtcome
  change Recorded tenant_id (resolveResult draws parsed m person_uuid action confidence)
    (_ ++ (created ++ (_ ++ [])))
  rw [List.append_nil]
  cases h with
  | found =>
    have hknown : m.action ≠ .manualReview ∧ m.action ≠ .newRecord := by
      rcases hm with h | h | h
      · simp [h]
      · simp [h]
      · simp [h]
    refine ⟨records_of_created hknown.1 rfl rfl rfl, ?_⟩
    unfold PersonAdded
    rw [if_neg (by exact hknown.2)]
    exact ⟨rfl, rfl⟩
  | created =>
    have hnew : MatchAction.newRecord ≠ .manualReview := nofun
    refine ⟨records_of_created hnew ?_ ?_ ?_, ?_⟩
    · exact filterMap_recordRows (fun _ => rfl) (fun _ => rfl) (fun _ => rfl) _ _
    · exact filterMap_recordRows (fun _ => rfl) (fun _ => rfl) (fun _ => rfl) _ _
    · exact filterMap_recordRows (fun _ => rfl) (fun _ => rfl) (fun _ => rfl) _ _
    · exact personAdded_created parsed m ⟨rfl, rfl⟩ ⟨rfl, rfl⟩ _

/-- A resolve call that returns has added an extraction, a decision and two audit rows that agree
with its result, and a person if the result is a new record. `answer` is whatever the registry
replies to each operation. -/
theorem resolve_records {σ : Type} (lib : Libraries) (ctx : RequestContext) (draws : Draws)
    (tenant_id : UUID) (payload : Bytes) (content_type : Str) (consumer_request_id : Option Str)
    (create_if_missing : Bool) (answer : (op : DbOp) → σ → Except PyError op.Reply × σ) (s : σ)
    (r : ResolveResult)
    (hreturns : ((resolve lib ctx draws tenant_id payload content_type consumer_request_id
      create_if_missing).run answer s).1 = .ok r) :
    Recorded tenant_id r ((resolve lib ctx draws tenant_id payload content_type consumer_request_id
      create_if_missing).trace answer DbOp.added s) :=
  (adds_resolve payload content_type consumer_request_id create_if_missing).run answer hreturns

/-- On an empty registry the passport of the specimen is a new record. -/
theorem resolve_records_specimen :
    ((Specimen.resolve 10 11 true).run (Db.exec () .accept)
        (Db.start (.empty [Specimen.tenant]))).1.map (fun r => (r.action, r.person_uuid)) =
          .ok (.newRecord, some 11) ∧
    ∃ r, Recorded Specimen.tenant r ((Specimen.resolve 10 11 true).trace (Db.exec () .accept)
      DbOp.added (Db.start (.empty [Specimen.tenant]))) := by
  have hruns : ((Specimen.resolve 10 11 true).run (Db.exec () .accept)
      (Db.start (.empty [Specimen.tenant]))).1.map (fun r => (r.action, r.person_uuid)) =
        .ok (.newRecord, some 11) := by
    decide +kernel
  refine ⟨hruns, ?_⟩
  cases hr : ((Specimen.resolve 10 11 true).run (Db.exec () .accept)
      (Db.start (.empty [Specimen.tenant]))).1 with
  | error e => simp [hr, Except.map] at hruns
  | ok r => exact ⟨r, resolve_records _ _ _ _ _ _ _ _ _ _ r hr⟩

end IdentityService
end Hawiya
