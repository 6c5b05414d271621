import Hawiya.MrzCorruption
import Hawiya.Requests
import Hawiya.StorableRows

/-!
# The audit trail of an extraction

One extract request on committed tables, for every answer of the OCR adapter. An exception of the
adapter is audited and committed. One of the parser, which stands after the `try` block, is not: the
endpoint answers it and an empty transaction commits, or it leaves the endpoint and nothing does.
Where the database refuses a row, none is left.
-/

namespace Hawiya
open PyString Calendar Interaction Db ExtractionService

/-- What `read_mrz` may return or raise. -/
inductive AdapterAnswer : Except PyError (Str × Str) → Prop
  | lines (line1 line2 : Str) : AdapterAnswer (.ok (line1, line2))
  | noMRZFound (m : String) : AdapterAnswer (.error (.noMRZFoundError m))
  | ocrUnavailable (m : String) : AdapterAnswer (.error (.ocrUnavailableError m))
  | mrzFormat (m : String) : AdapterAnswer (.error (.mrzFormatError m))

/-- An extract request of a document that is classified. -/
structure ExtractRequest (lib : Libraries) where
  ctx : RequestContext
  tenant_id : UUID
  draws : Draws
  upload : Upload
  tenant : ctx.tenant_id = some tenant_id
  small : upload.payload.length ≤ maxPayloadBytes
  classified : ∃ document_type, DocumentClassifier.classify lib.unicode.isprintable upload.payload
    upload.contentType = .ok document_type
  adapter : AdapterAnswer draws.read_mrz

namespace ExtractRequest
variable {lib : Libraries} (r : ExtractRequest lib) (t : Tables)

def call : Tx ExtractionResult :=
  extract lib r.ctx r.draws r.tenant_id r.upload.payload r.upload.contentType
    r.upload.consumer_request_id

def Raises : Prop := ∃ e, (runTx () r.call (Db.start t)).1 = .error e

def after : Tables := (transact r.ctx (extractDocument lib r.ctx r.draws r.upload) t).2

structure IsAudit (row : AuditLog) : Prop where
  endpoint : row.endpoint = "/v1/documents/extract"
  tenant_id : row.tenant_id = r.tenant_id
  input_hash : row.input_hash = some (lib.sha256 r.upload.payload)

/-- The request leaves one audit row, marked failed if the extraction raised, and an extraction row
if it did not. -/
def Audited : Prop :=
  ∃ row extractions, (r.after t).audit_log = t.audit_log ++ [row] ∧
    (r.after t).extractions = t.extractions ++ extractions ∧
    r.IsAudit row ∧ (row.decision = some "failed" ↔ r.Raises t) ∧
    ((∃ x ∈ extractions, x.input_hash = lib.sha256 r.upload.payload) ↔ ¬ r.Raises t)

theorem payload_ne_nil : r.upload.payload ≠ [] := by
  intro hempty
  obtain ⟨document_type, hclassified⟩ := r.classified
  rw [hempty, DocumentClassifier.classify, if_pos rfl] at hclassified
  cases hclassified

theorem run_extractDocument :
    runTx () (extractDocument lib r.ctx r.draws r.upload) (during t () [] []) =
      runTx () (tryCatch (extractCall lib r.ctx r.draws r.upload r.tenant_id)
        (answerExtractionError r.ctx)) (during t () [] []) :=
  run_uploadEndpoint_passed r.tenant r.payload_ne_nil r.small

variable {r t}

theorem run_extractCall_error {e : PyError} {db : Db Unit}
    (h : runTx () r.call (during t () [] []) = (.error e, db)) :
    runTx () (extractCall lib r.ctx r.draws r.upload r.tenant_id) (during t () [] []) =
      (.error e, db) := by
  rw [call] at h
  rw [extractCall, runTx_bind, h]

theorem run_call_adapter_error {e : PyError} (h : r.draws.read_mrz = .error e) :
    runTx () r.call (during t () [] []) =
      (.error e, during t () [] (failedRows lib r.ctx r.tenant_id r.upload.payload e)) := by
  obtain ⟨document_type, hclassified⟩ := r.classified
  unfold call extract
  rw [run_requiresTenant () r.tenant]
  simp only [runTx_bind, hclassified, runTx_liftM, run_readMrz_error t () [] [] h,
    List.nil_append]

theorem run_call_parse_error {line1 line2 : Str} {e : PyError}
    (h : r.draws.read_mrz = .ok (line1, line2))
    (hparse : Mrz.parseTd3 r.draws.today line1 line2 = .error e) :
    runTx () r.call (during t () [] []) = (.error e, during t () [] []) := by
  obtain ⟨document_type, hclassified⟩ := r.classified
  unfold call extract
  rw [run_requiresTenant () r.tenant]
  simp only [runTx_bind, hclassified, runTx_liftM, readMrz, h, runTx_pure, hparse]

theorem raises_of_run {e : PyError} {db : Db Unit}
    (h : runTx () r.call (during t () [] []) = (.error e, db)) : r.Raises t :=
  ⟨e, by rw [start_eq_during t (), h]⟩

theorem not_audited_of_unchanged (h : (r.after t).audit_log = t.audit_log) : ¬ r.Audited t := by
  rintro ⟨row, extractions, hlog, -⟩
  rw [h] at hlog
  simp at hlog

theorem run_extractDocument_adapter_error {e : PyError} (h : r.draws.read_mrz = .error e) :
    ∃ envelope, runTx () (extractDocument lib r.ctx r.draws r.upload) (during t () [] []) =
      (.ok (.error envelope), during t () []
        [.auditLog ((failedAudit lib r.upload.payload e).row r.ctx r.tenant_id)]) := by
  have hrun := run_extractCall_error (run_call_adapter_error (t := t) h)
  have hanswered : ∃ response, extractionErrorResponse r.ctx e = some response ∧
      failedRows lib r.ctx r.tenant_id r.upload.payload e =
        [.auditLog ((failedAudit lib r.upload.payload e).row r.ctx r.tenant_id)] := by
    have hadapter := r.adapter
    rw [h] at hadapter
    cases hadapter with
    | noMRZFound m => exact ⟨_, rfl, rfl⟩
    | ocrUnavailable m => exact ⟨_, rfl, rfl⟩
    | mrzFormat m => exact ⟨_, rfl, rfl⟩
  obtain ⟨response, hresponse, hrows⟩ := hanswered
  obtain ⟨envelope, rfl⟩ := extractionErrorResponse_is_error hresponse
  refine ⟨envelope, ?_⟩
  rw [r.run_extractDocument, run_tryCatch_error hrun, answerExtractionError, hresponse, hrows]
  rfl

theorem audited_of_adapter_error {e : PyError} (h : r.draws.read_mrz = .error e)
    (hacc : t.AcceptsAll
      [.auditLog ((failedAudit lib r.upload.payload e).row r.ctx r.tenant_id)]) :
    r.Audited t := by
  have hraises := raises_of_run (run_call_adapter_error (t := t) h)
  obtain ⟨envelope, hrun⟩ := run_extractDocument_adapter_error (t := t) h
  have hcommitted := transact_of_accepts r.tenant hrun hacc
  rw [List.nil_append, Tables.applyAll_inserts] at hcommitted
  refine ⟨(failedAudit lib r.upload.payload e).row r.ctx r.tenant_id, [], ?_, ?_, ⟨rfl, rfl, rfl⟩,
    iff_of_true rfl hraises, iff_of_false (by simp) (not_not.mpr hraises)⟩
  · rw [after, hcommitted]
    rfl
  · rw [after, hcommitted]
    rfl

theorem not_audited_of_adapter_refused {e : PyError} (h : r.draws.read_mrz = .error e)
    (hacc : ¬ t.AcceptsAll
      [.auditLog ((failedAudit lib r.upload.payload e).row r.ctx r.tenant_id)]) :
    ¬ r.Audited t := by
  obtain ⟨envelope, hrun⟩ := run_extractDocument_adapter_error (t := t) h
  obtain ⟨e', hrefused⟩ := transact_of_not_accepts r.tenant hrun hacc
  refine not_audited_of_unchanged ?_
  rw [after, hrefused]

/-- What the parser raises leaves no row. -/
theorem not_audited_of_parse_error {line1 line2 : Str} {e : PyError}
    (h : r.draws.read_mrz = .ok (line1, line2))
    (hparse : Mrz.parseTd3 r.draws.today line1 line2 = .error e) : ¬ r.Audited t := by
  refine not_audited_of_unchanged ?_
  have hcall : runTx () (extractCall lib r.ctx r.draws r.upload r.tenant_id) (during t () [] []) =
      (.error e, during t () [] (List.map .auditLog [])) :=
    run_extractCall_error (run_call_parse_error h hparse)
  rcases transact_handled r.tenant (r.run_extractDocument t) hcall with
    ⟨envelope, hanswered⟩ | ⟨e', hfailed⟩
  · rw [after, hanswered]
    exact List.append_nil _
  · rw [after, hfailed]

def parsedRows (r : ExtractRequest lib) (document_type : DocumentType) (parsed : ParsedMRZ) :
    List Row :=
  extractionRows lib r.ctx r.draws r.tenant_id r.upload.payload r.upload.consumer_request_id
    document_type parsed

section Parsed
variable {line1 line2 : Str} {document_type : DocumentType} {parsed : ParsedMRZ}
  (h : r.draws.read_mrz = .ok (line1, line2))
  (hparse : Mrz.parseTd3 r.draws.today line1 line2 = .ok parsed)
  (hclassified : DocumentClassifier.classify lib.unicode.isprintable r.upload.payload
    r.upload.contentType = .ok document_type)
include h hparse hclassified

theorem run_call_parsed :
    runTx () r.call (during t () [] []) = (.ok (result r.draws document_type parsed),
      during t () [] (r.parsedRows document_type parsed)) :=
  run_extract t () [] [] r.upload.consumer_request_id
    ⟨r.tenant, hclassified, line1, line2, h, hparse⟩

theorem run_extractDocument_parsed :
    runTx () (extractDocument lib r.ctx r.draws r.upload) (during t () [] []) =
      (.ok (.extracted (result r.draws document_type parsed)),
        during t () [] (r.parsedRows document_type parsed)) := by
  have hcall : runTx () (extractCall lib r.ctx r.draws r.upload r.tenant_id) (during t () [] []) =
      (.ok (.extracted (result r.draws document_type parsed)),
        during t () [] (r.parsedRows document_type parsed)) := by
    have hrun := run_call_parsed (t := t) h hparse hclassified
    rw [call] at hrun
    rw [extractCall, runTx_bind, hrun]
    rfl
  exact (r.run_extractDocument t).trans (run_tryCatch_ok hcall)

theorem audited_of_parsed (hacc : t.AcceptsAll (r.parsedRows document_type parsed)) :
    r.Audited t := by
  have hrun := run_call_parsed (t := t) h hparse hclassified
  have hcommitted := transact_of_accepts r.tenant
    (run_extractDocument_parsed (t := t) h hparse hclassified) hacc
  have hreturns : ¬ r.Raises t := by
    rintro ⟨e, he⟩
    rw [start_eq_during t (), hrun] at he
    cases he
  have hstatus : ∀ status : ChecksumStatus, some status.value ≠ some "failed" := by
    intro status
    cases status <;> decide
  rw [List.nil_append, Tables.applyAll_inserts] at hcommitted
  refine ⟨(extractedAudit lib r.draws r.upload.payload parsed).row r.ctx r.tenant_id,
    [record lib r.draws r.tenant_id r.upload.payload r.upload.consumer_request_id document_type
      parsed], ?_, ?_, ⟨rfl, rfl, rfl⟩, iff_of_false (hstatus _) hreturns,
    iff_of_true ⟨_, List.mem_singleton_self _, rfl⟩ hreturns⟩
  · rw [after, hcommitted]
    rfl
  · rw [after, hcommitted]
    rfl

theorem not_audited_of_record_refused
    (hacc : ¬ t.AcceptsAll (r.parsedRows document_type parsed)) : ¬ r.Audited t := by
  obtain ⟨e, hrefused⟩ := transact_of_not_accepts r.tenant
    (run_extractDocument_parsed (t := t) h hparse hclassified) hacc
  refine not_audited_of_unchanged ?_
  rw [after, hrefused]

end Parsed

/-- The lines the adapter returned, if any, are lines the parser reads. -/
def ReadsLines (r : ExtractRequest lib) : Prop :=
  ∀ line1 line2, r.draws.read_mrz = .ok (line1, line2) →
    line1.length = 44 ∧ line2.length = 44 ∧ Mrz.Readable line2

structure HoldsRecord (r : ExtractRequest lib) (line1 line2 : Str) : Prop where
  consumer_request_id : ∀ s ∈ r.upload.consumer_request_id, VarcharHolds 128 s
  fields : Mrz.NulFree line1 line2
  elapsed_ms : r.draws.elapsed_ms < 2 ^ 31

/-- The tenant has a row, and the schema can hold what the request writes: its request id, and the
message of the adapter's exception or the extraction. -/
structure Recordable (r : ExtractRequest lib) (t : Tables) : Prop where
  tenant : r.tenant_id ∈ t.tenants
  request_id : ∀ s ∈ orNone r.ctx.request_id, VarcharHolds 64 s
  message : ∀ e, r.draws.read_mrz = .error e → nul ∉ e.message.toList
  record : ∀ line1 line2, r.draws.read_mrz = .ok (line1, line2) → r.HoldsRecord line1 line2

theorem admits_audit_iff {ctx : RequestContext} {tenant_id : UUID} {args : AuditWriter.Args}
    (hfits : args.Fits) :
    t.Admits (.auditLog (args.row ctx tenant_id)) ↔ tenant_id ∈ t.tenants ∧
      (∀ s ∈ orNone ctx.request_id, VarcharHolds 64 s) ∧ ∀ s ∈ args.texts, nul ∉ s := by
  have hstorable : (Row.auditLog (args.row ctx tenant_id)).Storable ↔
      (∀ s ∈ orNone ctx.request_id, VarcharHolds 64 s) ∧ ∀ s ∈ args.texts, nul ∉ s :=
    storable_audit_iff hfits
  rw [← hstorable]
  constructor
  · rintro ⟨hstorable, -, -, htenant⟩
    exact ⟨htenant tenant_id rfl, hstorable⟩
  · rintro ⟨htenant, hstorable⟩
    exact ⟨hstorable, fun k hk => absurd hk List.not_mem_nil,
      fun u hu => absurd hu (Option.not_mem_none u), forall_mem_some htenant⟩

section Hash
variable (hsha : ∀ payload, (lib.sha256 payload).length = 64 ∧ nul ∉ lib.sha256 payload)
include hsha

theorem accepts_failed_iff {e : PyError} (h : r.draws.read_mrz = .error e) :
    t.AcceptsAll [.auditLog ((failedAudit lib r.upload.payload e).row r.ctx r.tenant_id)] ↔
      r.Recordable t := by
  rw [Tables.AcceptsAll, Tables.AcceptsAll, and_true,
    admits_audit_iff (fits_failedAudit (fun payload => (hsha payload).1) r.upload.payload e),
    nul_failedAudit_iff (fun payload => (hsha payload).2)]
  constructor
  · rintro ⟨htenant, hrequest, hmessage⟩
    refine ⟨htenant, hrequest, fun e' he' => ?_, fun line1 line2 hlines => ?_⟩
    · rw [h] at he'
      cases he'
      exact hmessage
    · rw [h] at hlines
      cases hlines
  · rintro ⟨htenant, hrequest, hmessage, -⟩
    exact ⟨htenant, hrequest, hmessage e h⟩

theorem accepts_parsed_iff {line1 line2 : Str} {parsed : ParsedMRZ}
    (h : r.draws.read_mrz = .ok (line1, line2))
    (hparse : Mrz.parseTd3 r.draws.today line1 line2 = .ok parsed)
    (document_type : DocumentType) (hfresh : .extraction r.draws.extraction_id ∉ t.keys) :
    t.AcceptsAll (r.parsedRows document_type parsed) ↔ r.Recordable t := by
  let row := record lib r.draws r.tenant_id r.upload.payload r.upload.consumer_request_id
    document_type parsed
  have hrecord : (Row.extraction row).Storable ↔
      (∀ s ∈ r.upload.consumer_request_id, VarcharHolds 128 s) ∧ Mrz.NulFree line1 line2 ∧
        r.draws.elapsed_ms < 2 ^ 31 :=
    storable_record_iff (hsha r.upload.payload) hparse r.upload.consumer_request_id
  have haudit : (t.insert (.extraction row)).Admits
      (.auditLog ((extractedAudit lib r.draws r.upload.payload parsed).row r.ctx r.tenant_id)) ↔
        r.tenant_id ∈ t.tenants ∧ ∀ s ∈ orNone r.ctx.request_id, VarcharHolds 64 s := by
    rw [admits_audit_iff (fits_extractedAudit (fun payload => (hsha payload).1) r.draws
      r.upload.payload parsed), and_iff_left (nul_not_mem_extractedAudit
        (fun payload => (hsha payload).2) r.draws r.upload.payload parsed)]
    rfl
  rw [parsedRows, extractionRows, Tables.AcceptsAll, Tables.AcceptsAll, Tables.AcceptsAll, and_true,
    haudit]
  constructor
  · rintro ⟨⟨hstorable, -, -⟩, htenant, hrequest⟩
    obtain ⟨hconsumer, hfields, hms⟩ := hrecord.mp hstorable
    refine ⟨htenant, hrequest, fun e he => ?_, fun line1' line2' hlines => ?_⟩
    · rw [h] at he
      cases he
    · rw [h] at hlines
      cases hlines
      exact ⟨hconsumer, hfields, hms⟩
  · rintro ⟨htenant, hrequest, -, hholds⟩
    obtain ⟨hconsumer, hfields, hms⟩ := hholds line1 line2 h
    refine ⟨⟨hrecord.mpr ⟨hconsumer, hfields, hms⟩, ?_,
      fun u hu => absurd hu (Option.not_mem_none u), forall_mem_some htenant⟩, htenant, hrequest⟩
    intro k hk
    rw [List.mem_singleton.mp hk]
    exact hfresh

end Hash

end ExtractRequest

namespace Specimen

def photographed (line2 : Str) : ExtractRequest lib where
  ctx := ctx
  tenant_id := tenant
  draws := { draws 1 2 with read_mrz := .ok (lines.1, line2) }
  upload := ⟨photo, none, none⟩
  tenant := rfl
  small := by decide
  classified := ⟨.passport, rfl⟩
  adapter := .lines _ _

theorem sha256_hex (payload : Bytes) :
    (lib.sha256 payload).length = 64 ∧ nul ∉ lib.sha256 payload := by
  refine ⟨Sha256.length_hexdigest payload, fun hmem => ?_⟩
  exact absurd (Sha256.mem_hexdigest hmem) (by decide)

def shortLine2 : Str := lines.2.take 43

end Specimen
end Hawiya
