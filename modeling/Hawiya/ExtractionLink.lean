import Hawiya.CommittedCalls

/-!
# When a resolve call links its extraction

The link is an UPDATE issued while the extraction row may still be pending. It reaches the row
exactly when a person was created in between, because creating one flushes the session: that is,
when the caller asked for creation and the document number read is empty or unknown to the tenant.
-/

namespace Hawiya
open PyString Calendar Interaction Db ExtractionService IdentityService

/-- The extraction row of a resolve result says what the result says. -/
def Linked (t : Tables) (tenant_id : UUID) (r : ResolveResult) : Prop :=
  ∃ row ∈ t.extractions, row.extraction_id = r.extraction_id ∧ row.tenant_id = tenant_id ∧
    row.person_uuid = r.person_uuid ∧ row.match_action = some r.action.value

/-- The document number the lines parse to is empty or not an active passport of the tenant. -/
def FirstTime (t : Tables) (tenant_id : UUID) (draws : Draws) : Prop :=
  ∃ line1 line2 parsed, draws.read_mrz = .ok (line1, line2) ∧
    Mrz.parseTd3 draws.today line1 line2 = .ok parsed ∧
    t.active? tenant_id .passport (some parsed.document_number) = none

theorem firstTime_iff {lib : Libraries} {draws : Draws} {ctx : RequestContext} {t : Tables}
    {tenant_id : UUID} {payload : Bytes} {content_type : Str} {document_type : DocumentType}
    {parsed : ParsedMRZ}
    (h : Reads lib draws ctx tenant_id payload content_type document_type parsed) :
    FirstTime t tenant_id draws ↔
      t.active? tenant_id .passport (some parsed.document_number) = none := by
  obtain ⟨-, -, line1, line2, hread, hparse⟩ := h
  constructor
  · rintro ⟨line1', line2', parsed', hread', hparse', hnone⟩
    rw [hread] at hread'
    cases hread'
    rw [hparse] at hparse'
    cases hparse'
    exact hnone
  · exact fun hnone => ⟨line1, line2, parsed, hread, hparse, hnone⟩

section Committed
variable {lib : Libraries} {ctx : RequestContext} {draws : Draws} {tenant_id : UUID}
variable {payload : Bytes} {consumer_request_id : Option Str} {t : Tables}
variable {document_type : DocumentType} {parsed : ParsedMRZ} {m : MatchResult}

theorem not_linked_resolvedTables {person_uuid : Option UUID} {action : MatchAction}
    {confidence : ℚ} (hfree : t.KeysFree (.extraction (ExtractionService.record lib draws tenant_id
      payload consumer_request_id document_type parsed))) :
    ¬ Linked (resolvedTables lib ctx draws tenant_id payload consumer_request_id document_type
      parsed m t) tenant_id (resolveResult draws parsed m person_uuid action confidence) := by
  rintro ⟨row, hrow, hid, -, -, haction⟩
  have hrow' : row ∈ t.extractions ∨ row = ExtractionService.record lib draws tenant_id payload
      consumer_request_id document_type parsed := by
    simpa [resolvedTables, Tables.insertAll, extractionRows, outcomeRows, Row.extraction?] using hrow
  rcases hrow' with hold | rfl
  · have hkey : IndexKey.extraction draws.extraction_id ∈ t.keys := by
      rw [Tables.keys, List.mem_append]
      exact .inr (List.mem_map.mpr ⟨row, hold, congrArg IndexKey.extraction hid⟩)
    exact hfree _ (List.mem_singleton.mpr rfl) hkey
  · exact absurd haction (by simp [ExtractionService.record])

theorem linked_newRecordTables {confidence : ℚ} :
    Linked (newRecordTables lib ctx draws tenant_id payload consumer_request_id document_type parsed
      m t) tenant_id (resolveResult draws parsed m (some draws.person_uuid) .newRecord
        confidence) := by
  have hmem : (ExtractionService.record lib draws tenant_id payload consumer_request_id document_type
      parsed).link (some draws.person_uuid) MatchAction.newRecord.value ∈
        (createdTables lib ctx draws tenant_id payload consumer_request_id document_type parsed
          t).extractions := by
    refine List.mem_map.mpr ⟨ExtractionService.record lib draws tenant_id payload
      consumer_request_id document_type parsed, ?_, ?_⟩
    · simp [Tables.insertAll, createdRows, extractionRows, Row.extraction?]
    · rw [if_pos (by simp [DocumentExtraction.isExtraction, ExtractionService.record])]
  exact ⟨_, List.mem_append_left _ hmem, rfl, rfl, rfl, rfl⟩

/-- A committed resolve call leaves its extraction linked if and only if it was asked to create and
the document number it read was empty or not an active passport of the tenant. -/
theorem linked_iff_firstTime (lib : Libraries) (ctx : RequestContext) (draws : Draws)
    (tenant_id : UUID) (payload : Bytes) (content_type : Str) (consumer_request_id : Option Str)
    (create_if_missing : Bool) (t t' : Tables) (r : ResolveResult) (hkeys : t.keys.Nodup)
    (hcommit : transact ctx (resolve lib ctx draws tenant_id payload content_type
      consumer_request_id create_if_missing) t = (.ok r, t')) :
    Linked t' tenant_id r ↔ create_if_missing = true ∧ FirstTime t tenant_id draws := by
  rcases transact_resolve_cases hkeys with ⟨e, herror⟩ |
    ⟨document_type, parsed, r', t'', hreads, hok, hresolved⟩
  · rw [hcommit] at herror
    cases herror
  · rw [hcommit] at hok
    cases hok
    rw [firstTime_iff hreads]
    cases hresolved with
    | existing m matched kept fresh =>
      refine iff_of_false (not_linked_resolvedTables fresh) ?_
      rintro ⟨hcreate, hfirst⟩
      rw [← matchIn_query_miss_iff, matched] at hfirst
      exact kept ⟨hfirst, hcreate⟩
    | created m matched miss create fresh =>
      exact iff_of_true linked_newRecordTables ⟨create, miss⟩

end Committed

instance (t : Tables) (tenant_id : UUID) (r : ResolveResult) : Decidable (Linked t tenant_id r) :=
  inferInstanceAs (Decidable (∃ row ∈ t.extractions, _ ∧ _ ∧ _ ∧ _))

namespace Specimen

def registry : Tables := (transact ctx (resolve 10 11 true) (.empty [tenant])).2

def secondResult : ResolveResult where
  extraction_id := 12
  action := .autoMatched
  person_uuid := some 11
  confidence := 99 / 100
  method := "passport_plus_demographics"
  fields := {
    document_type := some ['P']
    issuing_country := some ['A', 'R', 'E']
    surname := some "ALMANSOORI".toList
    given_names := some "MOHAMED".toList
    document_number := some "P1234567".toList
    nationality := some ['A', 'R', 'E']
    date_of_birth := some "1990-01-12".toList
    sex := some ['M']
    date_of_expiry := some "2030-01-01".toList
    personal_number := none }

/-- The same passport presented again is matched and committed, but its extraction is not linked. -/
theorem second_resolve_not_linked :
    registry.keys.Nodup ∧
      (transact ctx (resolve 12 13 true) registry).1 = .ok secondResult ∧
      ¬ Linked (transact ctx (resolve 12 13 true) registry).2 tenant secondResult := by
  decide +kernel

theorem second_resolve_linked_iff :
    Linked (transact ctx (resolve 12 13 true) registry).2 tenant secondResult ↔
      true = true ∧ FirstTime registry tenant (draws 12 13) := by
  obtain ⟨hkeys, hanswer, -⟩ : registry.keys.Nodup ∧
      (transact ctx (resolve 12 13 true) registry).1 = .ok secondResult ∧ True := by
    decide +kernel
  exact linked_iff_firstTime lib ctx (draws 12 13) tenant photo octetStream none true registry _ _
    hkeys (hanswer ▸ Prod.mk.eta.symm)

end Specimen
end Hawiya
