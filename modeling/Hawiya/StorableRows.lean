import Hawiya.CommittedCalls
import Hawiya.StorableFields

/-!
# The rows a call writes and what the schema can hold

For each kind of row, what storing it asks of the arguments it is made from. The strings a call adds
of its own are short and hold no NUL.
-/

namespace Hawiya
open PyString Calendar

theorem forall_mem_some {α : Type} {P : α → Prop} {a : α} (h : P a) : ∀ s ∈ some a, P s := by
  intro s hs
  rw [← Option.some.inj hs]
  exact h

theorem mem_of_mem_orNone {o : Option Str} {s : Str} (h : s ∈ orNone o) : s ∈ o :=
  (orNone_eq_some_iff.mp h).1

section Rows
variable {lib : Libraries} {ctx : RequestContext} {tenant_id person_uuid : UUID}

theorem storable_person_iff {r : Person} :
    (Row.person r).Storable ↔ (∀ s ∈ r.canonical_name_ar, VarcharHolds 255 s) ∧
      (∀ s ∈ r.canonical_name_en, VarcharHolds 255 s) ∧ ∀ s ∈ r.nationality, VarcharHolds 3 s := by
  have htexts : (∀ s ∈ (Row.person r).texts, nul ∉ s) ↔ (∀ s ∈ r.canonical_name_ar, nul ∉ s) ∧
      (∀ s ∈ r.canonical_name_en, nul ∉ s) ∧ ∀ s ∈ r.nationality, nul ∉ s := by
    rw [Row.texts, forall_reduceOption_cons, forall_reduceOption_cons, forall_reduceOption_cons,
      List.reduceOption_nil]
    simp
  simp only [forall_varcharHolds]
  constructor
  · rintro ⟨⟨har, hen, hnationality⟩, hnone, -⟩
    obtain ⟨har', hen', hnationality'⟩ := htexts.mp hnone
    exact ⟨⟨har, har'⟩, ⟨hen, hen'⟩, hnationality, hnationality'⟩
  · rintro ⟨⟨har, har'⟩, ⟨hen, hen'⟩, hnationality, hnationality'⟩
    exact ⟨⟨har, hen, hnationality⟩, htexts.mpr ⟨har', hen', hnationality'⟩, trivial⟩

theorem storable_nameVariant_iff {r : PersonNameVariant} :
    (Row.nameVariant r).Storable ↔
      VarcharHolds 255 r.name_value ∧ ∀ s ∈ r.phonetic_key, VarcharHolds 64 s := by
  have htexts : (∀ s ∈ (Row.nameVariant r).texts, nul ∉ s) ↔
      nul ∉ r.name_value ∧ ∀ s ∈ r.phonetic_key, nul ∉ s := by
    simp [Row.texts]
  rw [forall_varcharHolds]
  constructor
  · rintro ⟨⟨hname, hkey⟩, hnone, -⟩
    obtain ⟨hname', hkey'⟩ := htexts.mp hnone
    exact ⟨⟨hname, hname'⟩, hkey, hkey'⟩
  · rintro ⟨⟨hname, hname'⟩, hkey, hkey'⟩
    exact ⟨⟨hname, hkey⟩, htexts.mpr ⟨hname', hkey'⟩, trivial⟩

theorem storable_identifier_iff {r : PersonIdentifier}
    (hsource : ∀ s ∈ r.source, s.length ≤ 64 ∧ nul ∉ s.toList) :
    (Row.identifier r).Storable ↔
      VarcharHolds 64 r.identifier_value ∧ ∀ s ∈ r.issuing_country, VarcharHolds 3 s := by
  have htexts : (∀ s ∈ (Row.identifier r).texts, nul ∉ s) ↔
      nul ∉ r.identifier_value ∧ ∀ s ∈ r.issuing_country, nul ∉ s := by
    have hown : ∀ s ∈ r.source.map String.toList, nul ∉ s := by
      rintro s hs
      obtain ⟨source, hmem, rfl⟩ := Option.map_eq_some_iff.mp hs
      exact (hsource source hmem).2
    have hend : ∀ s ∈ ([] : List Str), nul ∉ s := fun s hs => nomatch hs
    rw [Row.texts, List.forall_mem_cons, forall_reduceOption_cons, forall_reduceOption_cons,
      List.reduceOption_nil, and_iff_left (a := ∀ s ∈ r.issuing_country, nul ∉ s) ⟨hown, hend⟩]
  rw [forall_varcharHolds]
  constructor
  · rintro ⟨⟨hvalue, hcountry, -⟩, hnone, -⟩
    obtain ⟨hvalue', hcountry'⟩ := htexts.mp hnone
    exact ⟨⟨hvalue, hvalue'⟩, hcountry, hcountry'⟩
  · rintro ⟨⟨hvalue, hvalue'⟩, hcountry, hcountry'⟩
    exact ⟨⟨hvalue, hcountry, fun s hs => (hsource s hs).1⟩, htexts.mpr ⟨hvalue', hcountry'⟩,
      trivial⟩

namespace AuditWriter

/-- The arguments of an audit row, apart from the request id. -/
structure Args.Fits (args : Args) : Prop where
  endpoint : args.endpoint.length ≤ 255
  input_hash : ∀ s ∈ args.input_hash, s.length ≤ 128
  processing_path : ∀ s ∈ args.processing_path, s.length ≤ 64
  decision : ∀ s ∈ args.decision, s.length ≤ 64
  user_id : args.user_id = none

def Args.texts (args : Args) : List Str :=
  args.endpoint.toList :: [args.input_hash, args.processing_path.map String.toList,
    args.decision.map String.toList].reduceOption ++
    (args.output_summary.getD []).flatMap (fun e => e.1.toList :: e.2.texts) ++
    (args.model_versions.getD []).flatMap (fun e => [e.1.toList, e.2.toList])

theorem Args.Fits.row {args : Args} (h : args.Fits)
    (hrequest : ∀ s ∈ orNone ctx.request_id, s.length ≤ 64) :
    (args.row ctx tenant_id).Fits where
  request_id := by
    unfold Args.row
    cases hsome : orNone ctx.request_id with
    | none =>
      have hdefault : noRequestId.length ≤ 64 := by decide
      exact hdefault
    | some s => exact hrequest s hsome
  user_id := by
    intro s hs
    have hnone : (args.row ctx tenant_id).user_id = none := h.user_id
    rw [hnone] at hs
    cases hs
  endpoint := h.endpoint
  input_hash := h.input_hash
  processing_path := h.processing_path
  decision := h.decision

end AuditWriter

/-- An audit row asks for a request id its column can hold, and for texts without a NUL. -/
theorem storable_audit_iff {args : AuditWriter.Args} (h : args.Fits) :
    (Row.auditLog (args.row ctx tenant_id)).Storable ↔
      (∀ s ∈ orNone ctx.request_id, VarcharHolds 64 s) ∧ ∀ s ∈ args.texts, nul ∉ s := by
  have hdefault : nul ∉ AuditWriter.noRequestId := by decide
  have hrequest : nul ∉ (args.row ctx tenant_id).request_id ↔
      ∀ s ∈ orNone ctx.request_id, nul ∉ s := by
    unfold AuditWriter.Args.row
    cases orNone ctx.request_id with
    | none => simp [hdefault]
    | some s => simp
  have htexts : (∀ s ∈ (Row.auditLog (args.row ctx tenant_id)).texts, nul ∉ s) ↔
      (∀ s ∈ orNone ctx.request_id, nul ∉ s) ∧ ∀ s ∈ args.texts, nul ∉ s := by
    have huser : (args.row ctx tenant_id).user_id = none := h.user_id
    have hrows : (Row.auditLog (args.row ctx tenant_id)).texts =
        (args.row ctx tenant_id).request_id :: args.texts := by
      rw [Row.texts, huser, List.reduceOption_cons_of_none]
      rfl
    rw [← hrequest, hrows, List.forall_mem_cons]
  rw [forall_varcharHolds]
  constructor
  · rintro ⟨hfits, hnone, -⟩
    obtain ⟨hrequest', hargs⟩ := htexts.mp hnone
    refine ⟨⟨fun s hs => ?_, hrequest'⟩, hargs⟩
    have hlength : (args.row ctx tenant_id).request_id.length ≤ 64 := hfits.request_id
    unfold AuditWriter.Args.row at hlength
    rwa [Option.mem_def.mp hs] at hlength
  · rintro ⟨⟨hlength, hrequest'⟩, hargs⟩
    exact ⟨h.row hlength, htexts.mpr ⟨hrequest', hargs⟩, trivial⟩

namespace PersonService
variable {draws : Draws}

/-- The schema can hold what a create call writes: the names once cleaned, the numbers and codes as
they are supplied, and the request id. -/
structure Args.Storable (lib : Libraries) (ctx : RequestContext) (args : Args) : Prop where
  canonical_name_ar : ∀ s ∈ orNone args.canonical_name_ar,
    VarcharHolds 255 (ArabicNames.toCanonical lib.unicode s)
  names : ∀ s ∈ (orNone args.canonical_name_ar).toList ++ (orNone args.canonical_name_en).toList,
    VarcharHolds 255 (strip s) ∧ VarcharHolds 64 (ArabicNames.phoneticKey lib.unicode s)
  nationality : ∀ s ∈ args.nationality, VarcharHolds 3 s
  passport_number : ∀ n ∈ orNone args.passport_number,
    VarcharHolds 64 n ∧ ∀ s ∈ args.issuing_country, VarcharHolds 3 s
  emirates_id : ∀ n ∈ orNone args.emirates_id, VarcharHolds 64 n
  request_id : ∀ s ∈ orNone ctx.request_id, VarcharHolds 64 s

theorem fits_createdAudit (person_uuid : UUID) : (createdAudit person_uuid).Fits where
  endpoint := by
    have hendpoint : endpoint.length ≤ 255 := by decide
    exact hendpoint
  input_hash s hs := nomatch hs
  processing_path s hs := nomatch hs
  decision := forall_mem_some (by decide)
  user_id := rfl

theorem nul_not_mem_createdAudit (person_uuid : UUID) :
    ∀ s ∈ (createdAudit person_uuid).texts, nul ∉ s := by
  change ∀ s ∈ ["/v1/persons".toList, "created".toList, "person_uuid".toList, "action".toList,
    "created".toList], nul ∉ s
  decide

theorem storable_variantRows_iff (args : PersonService.Args) :
    (∀ r ∈ PersonRepository.variantRows lib tenant_id person_uuid args.person.name_variants,
      r.Storable) ↔
      ∀ s ∈ (orNone args.canonical_name_ar).toList ++ (orNone args.canonical_name_en).toList,
        VarcharHolds 255 (strip s) ∧ VarcharHolds 64 (ArabicNames.phoneticKey lib.unicode s) := by
  simp only [PersonRepository.variantRows, Args.person, seedVariants, List.map_map,
    List.forall_mem_map, Function.comp_apply, storable_nameVariant_iff]
  refine forall₂_congr (fun s _ => and_congr_right (fun _ => ?_))
  have hempty : VarcharHolds 64 [] := by decide
  cases hkey : ArabicNames.phoneticKey lib.unicode s with
  | nil => simp [PersonRepository.VariantSpec.row, hkey, orNone, hempty]
  | cons c cs => simp [PersonRepository.VariantSpec.row, hkey, orNone]

theorem storable_identifierRows_iff (args : PersonService.Args) :
    (∀ r ∈ identifierRows draws tenant_id args, r.Storable) ↔
      (∀ n ∈ orNone args.passport_number,
        VarcharHolds 64 n ∧ ∀ s ∈ args.issuing_country, VarcharHolds 3 s) ∧
      ∀ n ∈ orNone args.emirates_id, VarcharHolds 64 n := by
  have hsource : ∀ s ∈ some "api_create", s.length ≤ 64 ∧ nul ∉ s.toList :=
    forall_mem_some (by decide)
  have hpassport : ∀ n, (Row.identifier ((args.passport draws.person_uuid n).row tenant_id)).Storable
      ↔ VarcharHolds 64 n ∧ ∀ s ∈ args.issuing_country, VarcharHolds 3 s :=
    fun n => storable_identifier_iff hsource
  have hemirates : ∀ n, (Row.identifier ((emiratesIdArgs draws.person_uuid n).row
      tenant_id)).Storable ↔ VarcharHolds 64 n := by
    intro n
    refine (storable_identifier_iff hsource).trans (and_iff_left (fun s hs => ?_))
    cases hs
  unfold identifierRows
  rw [List.forall_mem_map, List.forall_mem_append]
  cases orNone args.passport_number with
  | none => cases orNone args.emirates_id <;> simp [hemirates]
  | some n => cases orNone args.emirates_id <;> simp [hpassport, hemirates]

theorem storable_allRows_iff {args : PersonService.Args} :
    (∀ r ∈ allRows lib ctx draws tenant_id args, r.Storable) ↔ args.Storable lib ctx := by
  have hperson : (Row.person (personRow lib draws tenant_id args)).Storable ↔
      (∀ s ∈ orNone args.canonical_name_ar,
        VarcharHolds 255 (ArabicNames.toCanonical lib.unicode s)) ∧
      (∀ s ∈ orNone args.canonical_name_en, VarcharHolds 255 (strip s)) ∧
      ∀ s ∈ args.nationality, VarcharHolds 3 s := by
    rw [storable_person_iff]
    simp [personRow, PersonRepository.Args.row, Args.person]
  have haudit : (Row.auditLog ((createdAudit draws.person_uuid).row ctx tenant_id)).Storable ↔
      ∀ s ∈ orNone ctx.request_id, VarcharHolds 64 s := by
    rw [storable_audit_iff (fits_createdAudit _), and_iff_left (nul_not_mem_createdAudit _)]
  rw [allRows, createdRows, List.forall_mem_cons, List.forall_mem_append, List.forall_mem_append,
    List.forall_mem_singleton, hperson, storable_variantRows_iff, storable_identifierRows_iff,
    haudit]
  constructor
  · rintro ⟨⟨har, -, hnationality⟩, ⟨hnames, hpassport, hemirates⟩, hrequest⟩
    exact ⟨har, hnames, hnationality, hpassport, hemirates, hrequest⟩
  · rintro ⟨har, hnames, hnationality, hpassport, hemirates, hrequest⟩
    refine ⟨⟨har, fun s hs => (hnames s ?_).1, hnationality⟩, ⟨hnames, hpassport, hemirates⟩,
      hrequest⟩
    exact List.mem_append_right _ (Option.mem_toList.mpr hs)

end PersonService

namespace ExtractionService
variable {draws : Draws} {payload : Bytes} {document_type : DocumentType} {parsed : ParsedMRZ}

section Hash
variable (hsha : ∀ payload, (lib.sha256 payload).length = 64)
include hsha

theorem fits_hash (payload : Bytes) : ∀ s ∈ some (lib.sha256 payload), s.length ≤ 128 :=
  forall_mem_some ((hsha payload).trans_le (by decide))

theorem fits_failedAudit (payload : Bytes) (e : PyError) : (failedAudit lib payload e).Fits where
  endpoint := by
    have hendpoint : endpoint.length ≤ 255 := by decide
    exact hendpoint
  input_hash := fits_hash hsha payload
  processing_path := forall_mem_some (by decide)
  decision := forall_mem_some (by decide)
  user_id := rfl

theorem fits_extractedAudit (draws : Draws) (payload : Bytes) (parsed : ParsedMRZ) :
    (extractedAudit lib draws payload parsed).Fits where
  endpoint := by
    have hendpoint : endpoint.length ≤ 255 := by decide
    exact hendpoint
  input_hash := fits_hash hsha payload
  processing_path := forall_mem_some (by decide)
  decision := by
    refine forall_mem_some ?_
    cases parsed.checksums.status with
    | _ => decide
  user_id := rfl

end Hash

section Nul
variable (hsha : ∀ payload, nul ∉ lib.sha256 payload)
include hsha

/-- Besides the hash and constants, a failed call writes the message of the exception. -/
theorem nul_failedAudit_iff (payload : Bytes) (e : PyError) :
    (∀ s ∈ (failedAudit lib payload e).texts, nul ∉ s) ↔ nul ∉ e.message.toList := by
  have hname : nul ∉ e.name.toList := by
    unfold PyError.name
    split
    · decide
    · decide
    · decide
    · decide
  have htexts : (failedAudit lib payload e).texts = ["/v1/documents/extract".toList,
      lib.sha256 payload, "mrz_only".toList, "failed".toList, "error".toList, e.name.toList,
      "message".toList, e.message.toList] := rfl
  have hconstants : ∀ s ∈ ["/v1/documents/extract", "mrz_only", "failed", "error", "message"],
      nul ∉ s.toList := by decide
  simp only [List.forall_mem_cons] at hconstants
  rw [htexts]
  simp only [List.forall_mem_cons, hconstants, hname, hsha, not_false_eq_true, true_and,
    List.not_mem_nil, false_imp_iff, implies_true, and_true]

theorem nul_not_mem_extractedAudit (draws : Draws) (payload : Bytes) (parsed : ParsedMRZ) :
    ∀ s ∈ (extractedAudit lib draws payload parsed).texts, nul ∉ s := by
  have hstatus : nul ∉ parsed.checksums.status.value.toList := by
    cases parsed.checksums.status with
    | _ => decide
  have htexts : (extractedAudit lib draws payload parsed).texts = ["/v1/documents/extract".toList,
      lib.sha256 payload, "mrz_only".toList, parsed.checksums.status.value.toList,
      "extraction_id".toList, "checksum_status".toList, parsed.checksums.status.value.toList,
      "mrz".toList, "icao-9303-td3".toList] := rfl
  have hconstants : ∀ s ∈ ["/v1/documents/extract", "mrz_only", "extraction_id",
      "checksum_status", "mrz", "icao-9303-td3"], nul ∉ s.toList := by decide
  simp only [List.forall_mem_cons] at hconstants
  rw [htexts]
  simp only [List.forall_mem_cons, hconstants, hstatus, hsha, not_false_eq_true, true_and,
    List.not_mem_nil, false_imp_iff, implies_true]

end Nul

theorem storable_record_iff {today : Date} {line1 line2 : Str}
    (hsha : (lib.sha256 payload).length = 64 ∧ nul ∉ lib.sha256 payload)
    (hparse : Mrz.parseTd3 today line1 line2 = .ok parsed) (consumer_request_id : Option Str) :
    (Row.extraction (record lib draws tenant_id payload consumer_request_id document_type
        parsed)).Storable ↔
      (∀ s ∈ consumer_request_id, VarcharHolds 128 s) ∧ Mrz.NulFree line1 line2 ∧
        draws.elapsed_ms < 2 ^ 31 := by
  have htexts : (∀ s ∈ (Row.extraction (record lib draws tenant_id payload consumer_request_id
      document_type parsed)).texts, nul ∉ s) ↔
      (∀ s ∈ consumer_request_id, nul ∉ s) ∧ Mrz.NulFree line1 line2 := by
    have haction : (record lib draws tenant_id payload consumer_request_id document_type
      parsed).match_action.map String.toList = none := rfl
    rw [← Mrz.nul_free_iff hparse, Row.texts, haction, List.cons_append, List.forall_mem_cons,
      List.forall_mem_append, forall_reduceOption_cons, List.reduceOption_cons_of_none,
      List.reduceOption_nil, and_iff_left (fun s hs => absurd hs List.not_mem_nil)]
    exact and_iff_right hsha.2
  rw [forall_varcharHolds]
  constructor
  · rintro ⟨hfits, hnone, hms⟩
    obtain ⟨hrequest, hfields⟩ := htexts.mp hnone
    exact ⟨⟨hfits.consumer_request_id, hrequest⟩, hfields, hms⟩
  · rintro ⟨⟨hlength, hrequest⟩, hfields, hms⟩
    exact ⟨⟨hlength, hsha.1.le, fun s hs => nomatch hs⟩, htexts.mpr ⟨hrequest, hfields⟩, hms⟩

end ExtractionService

end Rows
end Hawiya
