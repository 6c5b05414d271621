import Mathlib.Data.List.ReduceOption
import Hawiya.Models

/-!
# What the schema can hold

The declared lengths of the string columns, counted in characters, and what PostgreSQL refuses in
any text or JSON value: the NUL character. `processing_time_ms` is an INTEGER; the other columns
have types as wide as the code's own.
-/

namespace Hawiya
open PyString

structure Person.Fits (r : Person) : Prop where
  canonical_name_ar : ∀ s ∈ r.canonical_name_ar, s.length ≤ 255
  canonical_name_en : ∀ s ∈ r.canonical_name_en, s.length ≤ 255
  nationality : ∀ s ∈ r.nationality, s.length ≤ 3

structure PersonIdentifier.Fits (r : PersonIdentifier) : Prop where
  identifier_value : r.identifier_value.length ≤ 64
  issuing_country : ∀ s ∈ r.issuing_country, s.length ≤ 3
  source : ∀ s ∈ r.source, s.length ≤ 64

structure PersonNameVariant.Fits (r : PersonNameVariant) : Prop where
  name_value : r.name_value.length ≤ 255
  phonetic_key : ∀ s ∈ r.phonetic_key, s.length ≤ 64

structure DocumentExtraction.Fits (r : DocumentExtraction) : Prop where
  consumer_request_id : ∀ s ∈ r.consumer_request_id, s.length ≤ 128
  input_hash : r.input_hash.length ≤ 64
  match_action : ∀ s ∈ r.match_action, s.length ≤ 32

structure AuditLog.Fits (r : AuditLog) : Prop where
  request_id : r.request_id.length ≤ 64
  user_id : ∀ s ∈ r.user_id, s.length ≤ 128
  endpoint : r.endpoint.length ≤ 255
  input_hash : ∀ s ∈ r.input_hash, s.length ≤ 128
  processing_path : ∀ s ∈ r.processing_path, s.length ≤ 64
  decision : ∀ s ∈ r.decision, s.length ≤ 64

/-- A match decision has no string column of a declared length that the services write. -/
def Row.Fits : Row → Prop
  | .person r => r.Fits
  | .identifier r => r.Fits
  | .nameVariant r => r.Fits
  | .extraction r => r.Fits
  | .matchDecision _ => True
  | .auditLog r => r.Fits

instance (r : Person) : Decidable r.Fits :=
  decidable_of_iff ((∀ s ∈ r.canonical_name_ar, s.length ≤ 255) ∧
      (∀ s ∈ r.canonical_name_en, s.length ≤ 255) ∧ ∀ s ∈ r.nationality, s.length ≤ 3)
    ⟨fun ⟨h₁, h₂, h₃⟩ => ⟨h₁, h₂, h₃⟩, fun ⟨h₁, h₂, h₃⟩ => ⟨h₁, h₂, h₃⟩⟩

instance (r : PersonIdentifier) : Decidable r.Fits :=
  decidable_of_iff (r.identifier_value.length ≤ 64 ∧
      (∀ s ∈ r.issuing_country, s.length ≤ 3) ∧ ∀ s ∈ r.source, s.length ≤ 64)
    ⟨fun ⟨h₁, h₂, h₃⟩ => ⟨h₁, h₂, h₃⟩, fun ⟨h₁, h₂, h₃⟩ => ⟨h₁, h₂, h₃⟩⟩

instance (r : PersonNameVariant) : Decidable r.Fits :=
  decidable_of_iff (r.name_value.length ≤ 255 ∧ ∀ s ∈ r.phonetic_key, s.length ≤ 64)
    ⟨fun ⟨h₁, h₂⟩ => ⟨h₁, h₂⟩, fun ⟨h₁, h₂⟩ => ⟨h₁, h₂⟩⟩

instance (r : DocumentExtraction) : Decidable r.Fits :=
  decidable_of_iff ((∀ s ∈ r.consumer_request_id, s.length ≤ 128) ∧ r.input_hash.length ≤ 64 ∧
      ∀ s ∈ r.match_action, s.length ≤ 32)
    ⟨fun ⟨h₁, h₂, h₃⟩ => ⟨h₁, h₂, h₃⟩, fun ⟨h₁, h₂, h₃⟩ => ⟨h₁, h₂, h₃⟩⟩

instance (r : AuditLog) : Decidable r.Fits :=
  decidable_of_iff (r.request_id.length ≤ 64 ∧ (∀ s ∈ r.user_id, s.length ≤ 128) ∧
      r.endpoint.length ≤ 255 ∧ (∀ s ∈ r.input_hash, s.length ≤ 128) ∧
      (∀ s ∈ r.processing_path, s.length ≤ 64) ∧ ∀ s ∈ r.decision, s.length ≤ 64)
    ⟨fun ⟨h₁, h₂, h₃, h₄, h₅, h₆⟩ => ⟨h₁, h₂, h₃, h₄, h₅, h₆⟩,
      fun ⟨h₁, h₂, h₃, h₄, h₅, h₆⟩ => ⟨h₁, h₂, h₃, h₄, h₅, h₆⟩⟩

instance : (r : Row) → Decidable r.Fits
  | .person r => inferInstanceAs (Decidable r.Fits)
  | .identifier r => inferInstanceAs (Decidable r.Fits)
  | .nameVariant r => inferInstanceAs (Decidable r.Fits)
  | .extraction r => inferInstanceAs (Decidable r.Fits)
  | .matchDecision _ => inferInstanceAs (Decidable True)
  | .auditLog r => inferInstanceAs (Decidable r.Fits)

def nul : Char := '\x00'

/-- A VARCHAR column of this length can hold the string. -/
structure VarcharHolds (n : ℕ) (s : Str) : Prop where
  length : s.length ≤ n
  text : nul ∉ s

instance (n : ℕ) (s : Str) : Decidable (VarcharHolds n s) :=
  decidable_of_iff (s.length ≤ n ∧ nul ∉ s) ⟨fun ⟨h₁, h₂⟩ => ⟨h₁, h₂⟩, fun ⟨h₁, h₂⟩ => ⟨h₁, h₂⟩⟩

theorem forall_varcharHolds {o : Option Str} {n : ℕ} :
    (∀ s ∈ o, VarcharHolds n s) ↔ (∀ s ∈ o, s.length ≤ n) ∧ ∀ s ∈ o, nul ∉ s :=
  ⟨fun h => ⟨fun s hs => (h s hs).length, fun s hs => (h s hs).text⟩,
    fun h s hs => ⟨h.1 s hs, h.2 s hs⟩⟩

theorem forall_reduceOption_cons {P : Str → Prop} {o : Option Str} {l : List (Option Str)} :
    (∀ s ∈ (o :: l).reduceOption, P s) ↔ (∀ s ∈ o, P s) ∧ ∀ s ∈ l.reduceOption, P s := by
  cases o with
  | none => simp [List.reduceOption_cons_of_none]
  | some s => simp [List.reduceOption_cons_of_some]

/-- The strings of an `extracted_data` dictionary. -/
def Fields.texts (f : Fields) : List Str :=
  [f.document_type, f.issuing_country, f.surname, f.given_names, f.document_number, f.nationality,
    f.date_of_birth, f.sex, f.date_of_expiry, f.personal_number].reduceOption

def Feature.texts : Feature → List Str
  | .text s => [s.toList]
  | .flag _ => []

def SummaryValue.texts : SummaryValue → List Str
  | .text s => [s.toList]
  | _ => []

/-- The strings of a row, those inside its JSON columns included. -/
def Row.texts : Row → List Str
  | .person r => [r.canonical_name_ar, r.canonical_name_en, r.nationality].reduceOption
  | .identifier r =>
      r.identifier_value :: [r.issuing_country, r.source.map String.toList].reduceOption
  | .nameVariant r => r.name_value :: r.phonetic_key.toList
  | .extraction r =>
      r.input_hash :: [r.consumer_request_id, r.match_action.map String.toList].reduceOption ++
        r.extracted_data.texts
  | .matchDecision r => r.features.flatMap (fun e => e.1.toList :: e.2.texts)
  | .auditLog r =>
      r.request_id :: r.endpoint.toList :: [r.user_id, r.input_hash,
        r.processing_path.map String.toList, r.decision.map String.toList].reduceOption ++
        (r.output_summary.getD []).flatMap (fun e => e.1.toList :: e.2.texts) ++
        (r.model_versions.getD []).flatMap (fun e => [e.1.toList, e.2.toList])

/-- The INTEGER column of a row is in range. -/
def Row.InRange : Row → Prop
  | .extraction r => r.processing_time_ms < 2 ^ 31
  | _ => True

instance : (r : Row) → Decidable r.InRange
  | .extraction r => inferInstanceAs (Decidable (r.processing_time_ms < 2 ^ 31))
  | .person _ | .identifier _ | .nameVariant _ | .matchDecision _ | .auditLog _ =>
      inferInstanceAs (Decidable True)

/-- The columns of the row's table can hold its values. -/
structure Row.Storable (r : Row) : Prop where
  fits : r.Fits
  texts : ∀ s ∈ r.texts, nul ∉ s
  inRange : r.InRange

instance (r : Row) : Decidable r.Storable :=
  decidable_of_iff (r.Fits ∧ (∀ s ∈ r.texts, nul ∉ s) ∧ r.InRange)
    ⟨fun ⟨h₁, h₂, h₃⟩ => ⟨h₁, h₂, h₃⟩, fun ⟨h₁, h₂, h₃⟩ => ⟨h₁, h₂, h₃⟩⟩

end Hawiya
