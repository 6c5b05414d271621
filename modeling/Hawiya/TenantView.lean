import Hawiya.Services

/-!
# One tenant's view of the registry

`project` keeps the rows of one tenant and renames the UUIDs in them. Changes a tenant makes act on
its view as they act on the tables, and leave the rows of the others alone; statements that name the
tenant, or a UUID only this tenant's rows hold, answer from the view.
-/

namespace Hawiya
open PyString Calendar Interaction

section Renaming
variable (ρ : Equiv.Perm UUID)

def Person.rename (r : Person) : Person := { r with person_uuid := ρ r.person_uuid }

def PersonIdentifier.rename (r : PersonIdentifier) : PersonIdentifier :=
  { r with person_uuid := ρ r.person_uuid }

def PersonNameVariant.rename (r : PersonNameVariant) : PersonNameVariant :=
  { r with person_uuid := ρ r.person_uuid }

def DocumentExtraction.rename (r : DocumentExtraction) : DocumentExtraction :=
  { r with extraction_id := ρ r.extraction_id, person_uuid := r.person_uuid.map ρ }

def MatchDecision.rename (r : MatchDecision) : MatchDecision :=
  { r with candidate_a := r.candidate_a.map ρ, candidate_b := r.candidate_b.map ρ }

def SummaryValue.rename : SummaryValue → SummaryValue
  | .uuid u => .uuid (ρ u)
  | v => v

def AuditLog.rename (r : AuditLog) : AuditLog :=
  { r with output_summary := r.output_summary.map (List.map (fun e => (e.1, e.2.rename ρ))) }

def Row.rename : Row → Row
  | .person r => .person (r.rename ρ)
  | .identifier r => .identifier (r.rename ρ)
  | .nameVariant r => .nameVariant (r.rename ρ)
  | .extraction r => .extraction (r.rename ρ)
  | .matchDecision r => .matchDecision (r.rename ρ)
  | .auditLog r => .auditLog (r.rename ρ)

def IndexKey.rename : IndexKey → IndexKey
  | .person u => .person (ρ u)
  | .extraction u => .extraction (ρ u)
  | .activeIdentifier tenant_id identifier_type value =>
      .activeIdentifier tenant_id identifier_type value

def Tables.rename (t : Tables) : Tables where
  tenants := t.tenants
  persons := t.persons.map (Person.rename ρ)
  identifiers := t.identifiers.map (PersonIdentifier.rename ρ)
  name_variants := t.name_variants.map (PersonNameVariant.rename ρ)
  extractions := t.extractions.map (DocumentExtraction.rename ρ)
  match_decisions := t.match_decisions.map (MatchDecision.rename ρ)
  audit_log := t.audit_log.map (AuditLog.rename ρ)

def MatchResult.rename (r : MatchResult) : MatchResult :=
  { r with person_uuid := r.person_uuid.map ρ }

def PyError.rename : PyError → PyError
  | .possibleDuplicateError found => .possibleDuplicateError (found.rename ρ)
  | e => e

end Renaming

section One

theorem map_one (u : Option UUID) : u.map (1 : Equiv.Perm UUID) = u :=
  congrFun Option.map_id u

@[simp] theorem Person.rename_one (r : Person) : r.rename 1 = r := rfl

@[simp] theorem PersonIdentifier.rename_one (r : PersonIdentifier) : r.rename 1 = r := rfl

@[simp] theorem PersonNameVariant.rename_one (r : PersonNameVariant) : r.rename 1 = r := rfl

@[simp] theorem DocumentExtraction.rename_one (r : DocumentExtraction) : r.rename 1 = r := by
  rw [rename, map_one]
  rfl

@[simp] theorem MatchDecision.rename_one (r : MatchDecision) : r.rename 1 = r := by
  rw [rename, map_one, map_one]

@[simp] theorem SummaryValue.rename_one (v : SummaryValue) : v.rename 1 = v := by
  cases v with
  | _ => rfl

@[simp] theorem AuditLog.rename_one (r : AuditLog) : r.rename 1 = r := by
  simp [rename]

@[simp] theorem Tables.rename_one (t : Tables) : t.rename 1 = t := by
  simp only [rename, List.map_id'' Person.rename_one, List.map_id'' PersonIdentifier.rename_one,
    List.map_id'' PersonNameVariant.rename_one, List.map_id'' DocumentExtraction.rename_one,
    List.map_id'' MatchDecision.rename_one, List.map_id'' AuditLog.rename_one]

@[simp] theorem MatchResult.rename_one (r : MatchResult) : r.rename 1 = r := by
  rw [rename, map_one]

@[simp] theorem PyError.rename_one (e : PyError) : e.rename 1 = e := by
  cases e with
  | possibleDuplicateError found => exact congrArg _ found.rename_one
  | _ => rfl

end One

section Keys
variable {ρ : Equiv.Perm UUID}

theorem IndexKey.rename_injective : Function.Injective (IndexKey.rename ρ) := by
  intro k k' h
  cases k with
  | person u =>
    cases k' with
    | person v => exact congrArg _ (ρ.injective (IndexKey.person.inj h))
    | extraction v => cases h
    | activeIdentifier a b c => cases h
  | extraction u =>
    cases k' with
    | person v => cases h
    | extraction v => exact congrArg _ (ρ.injective (IndexKey.extraction.inj h))
    | activeIdentifier a b c => cases h
  | activeIdentifier a b c =>
    cases k' with
    | person v => cases h
    | extraction v => cases h
    | activeIdentifier a' b' c' => exact h

theorem IndexKey.constraint_rename (k : IndexKey) : (k.rename ρ).constraint = k.constraint := by
  cases k with
  | _ => rfl

theorem Row.keys_rename (r : Row) : (r.rename ρ).keys = r.keys.map (IndexKey.rename ρ) := by
  cases r with
  | identifier r =>
    change PersonIdentifier.keys _ = List.map _ (PersonIdentifier.keys r)
    unfold PersonIdentifier.keys
    by_cases h : r.status = .active
    · rw [if_pos h, if_pos (show (r.rename ρ).status = .active from h)]
      rfl
    · rw [if_neg h, if_neg (show (r.rename ρ).status ≠ .active from h)]
      rfl
  | _ => rfl

theorem Row.reference_rename (r : Row) : (r.rename ρ).reference? = r.reference?.map ρ := by
  cases r with
  | _ => rfl

theorem Row.tenantReference_rename (r : Row) :
    (r.rename ρ).tenantReference? = r.tenantReference? := by
  cases r with
  | _ => rfl

theorem Row.foreignKey_rename (r : Row) : (r.rename ρ).foreignKey = r.foreignKey := by
  cases r with
  | _ => rfl

theorem Row.fits_rename (r : Row) : (r.rename ρ).Fits ↔ r.Fits := by
  cases r with
  | person r => exact ⟨fun ⟨h₁, h₂, h₃⟩ => ⟨h₁, h₂, h₃⟩, fun ⟨h₁, h₂, h₃⟩ => ⟨h₁, h₂, h₃⟩⟩
  | identifier r => exact ⟨fun ⟨h₁, h₂, h₃⟩ => ⟨h₁, h₂, h₃⟩, fun ⟨h₁, h₂, h₃⟩ => ⟨h₁, h₂, h₃⟩⟩
  | nameVariant r => exact ⟨fun ⟨h₁, h₂⟩ => ⟨h₁, h₂⟩, fun ⟨h₁, h₂⟩ => ⟨h₁, h₂⟩⟩
  | extraction r => exact ⟨fun ⟨h₁, h₂, h₃⟩ => ⟨h₁, h₂, h₃⟩, fun ⟨h₁, h₂, h₃⟩ => ⟨h₁, h₂, h₃⟩⟩
  | matchDecision r => rfl
  | auditLog r =>
    exact ⟨fun ⟨h₁, h₂, h₃, h₄, h₅, h₆⟩ => ⟨h₁, h₂, h₃, h₄, h₅, h₆⟩,
      fun ⟨h₁, h₂, h₃, h₄, h₅, h₆⟩ => ⟨h₁, h₂, h₃, h₄, h₅, h₆⟩⟩

theorem SummaryValue.texts_rename (v : SummaryValue) : (v.rename ρ).texts = v.texts := by
  cases v with
  | _ => rfl

theorem Row.texts_rename (r : Row) : (r.rename ρ).texts = r.texts := by
  cases r with
  | auditLog r =>
    have hsummary : ((r.rename ρ).output_summary.getD []).flatMap
        (fun e => e.1.toList :: e.2.texts) =
          (r.output_summary.getD []).flatMap (fun e => e.1.toList :: e.2.texts) := by
      rw [AuditLog.rename]
      cases r.output_summary with
      | none => rfl
      | some entries => simp [List.flatMap_map, SummaryValue.texts_rename]
    simp only [Row.rename, Row.texts, hsummary]
    rfl
  | _ => rfl

/-- Whether a row can be stored does not hang on its UUIDs. -/
theorem Row.storable_rename (r : Row) : (r.rename ρ).Storable ↔ r.Storable := by
  have hrange : (r.rename ρ).InRange ↔ r.InRange := by
    cases r with
    | _ => rfl
  constructor
  · rintro ⟨hfits, htexts, hinRange⟩
    exact ⟨r.fits_rename.mp hfits, r.texts_rename ▸ htexts, hrange.mp hinRange⟩
  · rintro ⟨hfits, htexts, hinRange⟩
    exact ⟨r.fits_rename.mpr hfits, r.texts_rename.symm ▸ htexts, hrange.mpr hinRange⟩

end Keys

def Row.tenant_id : Row → UUID
  | .person r => r.tenant_id
  | .identifier r => r.tenant_id
  | .nameVariant r => r.tenant_id
  | .extraction r => r.tenant_id
  | .matchDecision r => r.tenant_id
  | .auditLog r => r.tenant_id

/-- The UUIDs that identify a row or the person it belongs to. -/
def Row.uuids : Row → List UUID
  | .person r => [r.person_uuid]
  | .identifier r => [r.person_uuid]
  | .nameVariant r => [r.person_uuid]
  | .extraction r => [r.extraction_id]
  | _ => []

/-- The tenant a key of a unique index belongs to. -/
def IndexKey.tenant (owner : UUID → Option UUID) : IndexKey → Option UUID
  | .person u => owner u
  | .extraction u => owner u
  | .activeIdentifier tenant_id .. => some tenant_id

/-- A row of the tenant, about UUIDs drawn for it. -/
structure Row.Own (owner : UUID → Option UUID) (tenant : UUID) (r : Row) : Prop where
  tenant_id : r.tenant_id = tenant
  uuids : ∀ u ∈ r.uuids, owner u = some tenant

theorem Row.eq_tenant_of_reference {r : Row} {u : UUID} (h : u ∈ r.tenantReference?) :
    u = r.tenant_id := by
  cases r with
  | person r => exact (Option.some.inj h).symm
  | extraction r => exact (Option.some.inj h).symm
  | auditLog r => exact (Option.some.inj h).symm
  | _ => cases h

theorem Row.Own.tenant_of_key {owner : UUID → Option UUID} {tenant : UUID} {r : Row} {k : IndexKey}
    (h : r.Own owner tenant) (hk : k ∈ r.keys) : k.tenant owner = some tenant := by
  obtain ⟨rfl, huuids⟩ := h
  cases r with
  | person r =>
    rw [List.mem_singleton.mp hk]
    exact huuids _ (List.mem_singleton_self _)
  | identifier r =>
    change k ∈ PersonIdentifier.keys r at hk
    unfold PersonIdentifier.keys at hk
    split_ifs at hk with hstatus
    · rw [List.mem_singleton.mp hk]
      rfl
    · exact absurd hk List.not_mem_nil
  | extraction r =>
    rw [List.mem_singleton.mp hk]
    exact huuids _ (List.mem_singleton_self _)
  | _ => exact absurd hk List.not_mem_nil

theorem Row.reference_mem_uuids {r : Row} {u : UUID} (h : u ∈ r.reference?) : u ∈ r.uuids := by
  cases r with
  | identifier r => exact List.mem_singleton.mpr (Option.some.inj h).symm
  | nameVariant r => exact List.mem_singleton.mpr (Option.some.inj h).symm
  | _ => cases h

namespace Tables

def rows (t : Tables) : List Row :=
  t.persons.map .person ++ t.identifiers.map .identifier ++ t.name_variants.map .nameVariant ++
    t.extractions.map .extraction ++ t.match_decisions.map .matchDecision ++
    t.audit_log.map .auditLog

/-- The rows of some tenants. -/
def restrict (keep : UUID → Bool) (t : Tables) : Tables where
  tenants := t.tenants.filter keep
  persons := t.persons.filter (fun r => keep r.tenant_id)
  identifiers := t.identifiers.filter (fun r => keep r.tenant_id)
  name_variants := t.name_variants.filter (fun r => keep r.tenant_id)
  extractions := t.extractions.filter (fun r => keep r.tenant_id)
  match_decisions := t.match_decisions.filter (fun r => keep r.tenant_id)
  audit_log := t.audit_log.filter (fun r => keep r.tenant_id)

/-- The rows with `tenant_id = tenant`. -/
def of (t : Tables) (tenant : UUID) : Tables := t.restrict (· == tenant)

/-- The rows of the other tenants. -/
def except (t : Tables) (tenant : UUID) : Tables := t.restrict (· != tenant)

/-- The tenant's rows with their UUIDs renamed. -/
def project (ρ : Equiv.Perm UUID) (tenant : UUID) (t : Tables) : Tables := (t.of tenant).rename ρ

/-- Every UUID in the rows was drawn for the tenant of its row. -/
def DrawnFor (owner : UUID → Option UUID) (t : Tables) : Prop :=
  ∀ r ∈ t.rows, ∀ u ∈ r.uuids, owner u = some r.tenant_id

theorem mem_rows {t : Tables} {r : Row} :
    r ∈ t.rows ↔ (∃ p ∈ t.persons, r = .person p) ∨ (∃ p ∈ t.identifiers, r = .identifier p) ∨
      (∃ p ∈ t.name_variants, r = .nameVariant p) ∨ (∃ p ∈ t.extractions, r = .extraction p) ∨
      (∃ p ∈ t.match_decisions, r = .matchDecision p) ∨ (∃ p ∈ t.audit_log, r = .auditLog p) := by
  simp only [rows, List.mem_append, List.mem_map, or_assoc, eq_comm]

theorem mem_rows_insert {t : Tables} {r r' : Row} :
    r' ∈ (t.insert r).rows ↔ r' ∈ t.rows ∨ r' = r := by
  cases r with
  | _ => simp [insert, rows, or_assoc, or_comm, or_left_comm, eq_comm]

theorem mem_keys {t : Tables} {k : IndexKey} : k ∈ t.keys ↔ ∃ r ∈ t.rows, k ∈ r.keys := by
  simp only [keys, List.mem_append, List.mem_map, List.mem_flatMap]
  constructor
  · rintro ((⟨p, hp, rfl⟩ | ⟨p, hp, hk⟩) | ⟨p, hp, rfl⟩)
    · exact ⟨.person p, mem_rows.mpr (.inl ⟨p, hp, rfl⟩), List.mem_singleton_self _⟩
    · exact ⟨.identifier p, mem_rows.mpr (.inr (.inl ⟨p, hp, rfl⟩)), hk⟩
    · exact ⟨.extraction p, mem_rows.mpr (.inr (.inr (.inr (.inl ⟨p, hp, rfl⟩)))),
        List.mem_singleton_self _⟩
  · rintro ⟨r, hr, hk⟩
    rcases mem_rows.mp hr with ⟨p, hp, rfl⟩ | ⟨p, hp, rfl⟩ | ⟨p, hp, rfl⟩ | ⟨p, hp, rfl⟩ |
      ⟨p, hp, rfl⟩ | ⟨p, hp, rfl⟩
    · exact .inl (.inl ⟨p, hp, (List.mem_singleton.mp hk).symm⟩)
    · exact .inl (.inr ⟨p, hp, hk⟩)
    · exact absurd hk List.not_mem_nil
    · exact .inr ⟨p, hp, (List.mem_singleton.mp hk).symm⟩
    · exact absurd hk List.not_mem_nil
    · exact absurd hk List.not_mem_nil

theorem mem_rows_restrict {keep : UUID → Bool} {t : Tables} {r : Row} :
    r ∈ (t.restrict keep).rows ↔ r ∈ t.rows ∧ keep r.tenant_id = true := by
  simp only [mem_rows, restrict, List.mem_filter]
  constructor
  · rintro (⟨p, ⟨hp, hk⟩, rfl⟩ | ⟨p, ⟨hp, hk⟩, rfl⟩ | ⟨p, ⟨hp, hk⟩, rfl⟩ | ⟨p, ⟨hp, hk⟩, rfl⟩ |
      ⟨p, ⟨hp, hk⟩, rfl⟩ | ⟨p, ⟨hp, hk⟩, rfl⟩)
    · exact ⟨.inl ⟨p, hp, rfl⟩, hk⟩
    · exact ⟨.inr (.inl ⟨p, hp, rfl⟩), hk⟩
    · exact ⟨.inr (.inr (.inl ⟨p, hp, rfl⟩)), hk⟩
    · exact ⟨.inr (.inr (.inr (.inl ⟨p, hp, rfl⟩))), hk⟩
    · exact ⟨.inr (.inr (.inr (.inr (.inl ⟨p, hp, rfl⟩)))), hk⟩
    · exact ⟨.inr (.inr (.inr (.inr (.inr ⟨p, hp, rfl⟩)))), hk⟩
  · rintro ⟨⟨p, hp, rfl⟩ | ⟨p, hp, rfl⟩ | ⟨p, hp, rfl⟩ | ⟨p, hp, rfl⟩ | ⟨p, hp, rfl⟩ |
      ⟨p, hp, rfl⟩, hk⟩
    · exact .inl ⟨p, ⟨hp, hk⟩, rfl⟩
    · exact .inr (.inl ⟨p, ⟨hp, hk⟩, rfl⟩)
    · exact .inr (.inr (.inl ⟨p, ⟨hp, hk⟩, rfl⟩))
    · exact .inr (.inr (.inr (.inl ⟨p, ⟨hp, hk⟩, rfl⟩)))
    · exact .inr (.inr (.inr (.inr (.inl ⟨p, ⟨hp, hk⟩, rfl⟩))))
    · exact .inr (.inr (.inr (.inr (.inr ⟨p, ⟨hp, hk⟩, rfl⟩))))

theorem restrict_restrict (keep keep' : UUID → Bool) (t : Tables) :
    (t.restrict keep).restrict keep' = t.restrict (fun u => keep' u && keep u) := by
  simp only [restrict, List.filter_filter]

theorem of_except {tenant other : UUID} (h : other ≠ tenant) (t : Tables) :
    (t.except other).of tenant = t.of tenant := by
  have hkeep : (fun u => u == tenant && u != other) = (fun u : UUID => u == tenant) := by
    funext u
    by_cases hu : u = tenant
    · simp [hu, Ne.symm h]
    · simp [hu]
  rw [except, of, restrict_restrict, hkeep]
  rfl

theorem rows_rename (ρ : Equiv.Perm UUID) (t : Tables) :
    (t.rename ρ).rows = t.rows.map (Row.rename ρ) := by
  simp only [rows, rename, List.map_append, List.map_map]
  rfl

theorem restrict_insert_of_kept {keep : UUID → Bool} {r : Row} (h : keep r.tenant_id = true)
    (t : Tables) : (t.insert r).restrict keep = (t.restrict keep).insert r := by
  cases r with
  | _ r =>
    have hkept : [r].filter (fun r => keep r.tenant_id) = [r] := List.filter_cons_of_pos h
    simp [insert, restrict, hkept]

theorem restrict_insert_of_not_kept {keep : UUID → Bool} {r : Row}
    (h : ¬ keep r.tenant_id = true) (t : Tables) :
    (t.insert r).restrict keep = t.restrict keep := by
  cases r with
  | _ r =>
    have hdropped : [r].filter (fun r => keep r.tenant_id) = [] := List.filter_cons_of_neg h
    simp [insert, restrict, hdropped]

theorem rename_insert (ρ : Equiv.Perm UUID) (t : Tables) (r : Row) :
    (t.insert r).rename ρ = (t.rename ρ).insert (r.rename ρ) := by
  cases r with
  | _ => simp [insert, rename, Row.rename]

theorem restrict_link (keep : UUID → Bool) (t : Tables) (extraction_id tenant_id : UUID)
    (person_uuid : Option UUID) (match_action : String) :
    (t.apply (.link extraction_id tenant_id person_uuid match_action)).restrict keep =
      (t.restrict keep).apply (.link extraction_id tenant_id person_uuid match_action) := by
  simp only [apply, restrict, List.filter_map, Tables.mk.injEq, true_and, and_true]
  congr 1
  apply List.filter_congr
  intro r _
  rw [Function.comp_apply]
  split_ifs with h
  · rfl
  · rfl

/-- A link of another tenant's extraction changes nothing. -/
theorem apply_link_of_not_mem {t : Tables} {extraction_id tenant_id : UUID}
    (h : ∀ r ∈ t.extractions, r.tenant_id ≠ tenant_id) (person_uuid : Option UUID)
    (match_action : String) :
    t.apply (.link extraction_id tenant_id person_uuid match_action) = t := by
  have hnone : ∀ r ∈ t.extractions, ¬ r.isExtraction extraction_id tenant_id = true := by
    intro r hr hlinked
    rw [DocumentExtraction.isExtraction, Bool.and_eq_true] at hlinked
    exact h r hr (beq_iff_eq.mp hlinked.2)
  have hmap : t.extractions.map (fun r => if r.isExtraction extraction_id tenant_id then
      r.link person_uuid match_action else r) = t.extractions :=
    (List.map_congr_left (fun r hr => if_neg (hnone r hr))).trans (List.map_id' _)
  simp only [apply, hmap]

theorem beq_rename (ρ : Equiv.Perm UUID) (u v : UUID) : (ρ u == ρ v) = (u == v) := by
  rw [Bool.eq_iff_iff, beq_iff_eq, beq_iff_eq, ρ.injective.eq_iff]

theorem isExtraction_rename {ρ : Equiv.Perm UUID} (r : DocumentExtraction)
    (extraction_id tenant_id : UUID) :
    (r.rename ρ).isExtraction (ρ extraction_id) tenant_id =
      r.isExtraction extraction_id tenant_id := by
  rw [DocumentExtraction.isExtraction, DocumentExtraction.isExtraction, DocumentExtraction.rename,
    beq_rename]

theorem rename_link (ρ : Equiv.Perm UUID) (t : Tables) (extraction_id tenant_id : UUID)
    (person_uuid : Option UUID) (match_action : String) :
    (t.apply (.link extraction_id tenant_id person_uuid match_action)).rename ρ =
      (t.rename ρ).apply (.link (ρ extraction_id) tenant_id (person_uuid.map ρ) match_action) := by
  simp only [apply, rename, List.map_map, Tables.mk.injEq, true_and, and_true]
  apply List.map_congr_left
  intro r _
  rw [Function.comp_apply, Function.comp_apply, isExtraction_rename]
  split_ifs with h
  · rfl
  · rfl

section Project
variable {ρ : Equiv.Perm UUID} {tenant : UUID} {t : Tables} {r : Row}

theorem mem_rows_project :
    r ∈ (t.project ρ tenant).rows ↔ ∃ r' ∈ t.rows, r'.tenant_id = tenant ∧ r'.rename ρ = r := by
  simp only [project, of, rows_rename, List.mem_map, mem_rows_restrict, beq_iff_eq, and_assoc]

theorem project_insert (h : r.tenant_id = tenant) :
    (t.insert r).project ρ tenant = (t.project ρ tenant).insert (r.rename ρ) := by
  have hkept : (fun u => u == tenant) r.tenant_id = true := beq_iff_eq.mpr h
  rw [project, of, restrict_insert_of_kept hkept, rename_insert]
  rfl

theorem except_insert (h : r.tenant_id = tenant) : (t.insert r).except tenant = t.except tenant :=
  restrict_insert_of_not_kept (by simp [h]) t

theorem project_link (extraction_id : UUID) (person_uuid : Option UUID) (match_action : String) :
    (t.apply (.link extraction_id tenant person_uuid match_action)).project ρ tenant =
      (t.project ρ tenant).apply
        (.link (ρ extraction_id) tenant (person_uuid.map ρ) match_action) := by
  rw [project, of, restrict_link, rename_link]
  rfl

theorem except_link (extraction_id : UUID) (person_uuid : Option UUID) (match_action : String) :
    (t.apply (.link extraction_id tenant person_uuid match_action)).except tenant =
      t.except tenant := by
  rw [except, restrict_link]
  apply apply_link_of_not_mem
  intro r hr
  simpa using (List.mem_filter.mp hr).2

theorem DrawnFor.insert {owner : UUID → Option UUID} (h : t.DrawnFor owner)
    (hr : ∀ u ∈ r.uuids, owner u = some r.tenant_id) : (t.insert r).DrawnFor owner := by
  intro r' hr' u hu
  rcases mem_rows_insert.mp hr' with hr' | rfl
  · exact h r' hr' u hu
  · exact hr u hu

theorem DrawnFor.link {owner : UUID → Option UUID} (h : t.DrawnFor owner)
    (extraction_id tenant_id : UUID) (person_uuid : Option UUID) (match_action : String) :
    (t.apply (.link extraction_id tenant_id person_uuid match_action)).DrawnFor owner := by
  intro r hr u hu
  by_cases hextraction : ∃ p ∈ t.extractions, u = p.extraction_id ∧ r.tenant_id = p.tenant_id
  · obtain ⟨p, hp, rfl, htenant⟩ := hextraction
    rw [htenant]
    exact h (.extraction p) (mem_rows.mpr (.inr (.inr (.inr (.inl ⟨p, hp, rfl⟩))))) _
      (List.mem_singleton_self _)
  · refine h r ?_ u hu
    rw [mem_rows] at hr ⊢
    rcases hr with hr | hr | hr | ⟨p, hp, rfl⟩ | hr
    · exact .inl hr
    · exact .inr (.inl hr)
    · exact .inr (.inr (.inl hr))
    · obtain ⟨q, hq, rfl⟩ := List.mem_map.mp hp
      refine absurd ⟨q, hq, ?_, ?_⟩ hextraction
      · rw [List.mem_singleton.mp hu]
        split_ifs with hlinked
        · rfl
        · rfl
      · change DocumentExtraction.tenant_id _ = _
        split_ifs with hlinked
        · rfl
        · rfl
    · exact .inr (.inr (.inr (.inr hr)))

/-- A selection of rows that all belong to the tenant, on its view. -/
theorem filter_project {α : Type} {l : List α} {f : α → α} {keep : α → Bool} {q q' : α → Bool}
    (h : ∀ a ∈ l, (q' (f a) && keep a) = q a) :
    ((l.filter keep).map f).filter q' = (l.filter q).map f := by
  rw [List.filter_map, List.filter_filter]
  congr 1
  exact List.filter_congr h

theorem activeIdentifiers_project (identifier_type : IdentifierType) (identifier_value : Str) :
    (t.project ρ tenant).activeIdentifiers tenant identifier_type identifier_value =
      (t.activeIdentifiers tenant identifier_type identifier_value).map
        (PersonIdentifier.rename ρ) := by
  apply filter_project
  intro r _
  simp only [PersonIdentifier.isActive, PersonIdentifier.rename]
  cases (r.tenant_id == tenant) <;> simp

theorem persons_project (person_uuid : UUID) :
    (t.project ρ tenant).persons.filter
        (fun p => p.tenant_id == tenant && p.person_uuid == ρ person_uuid) =
      (t.persons.filter (fun p => p.tenant_id == tenant && p.person_uuid == person_uuid)).map
        (Person.rename ρ) := by
  apply filter_project
  intro r _
  simp only [Person.rename, beq_rename]
  cases (r.tenant_id == tenant) <;> simp

theorem any_extraction_project (extraction_id : UUID) :
    (t.project ρ tenant).extractions.any (fun r => r.isExtraction (ρ extraction_id) tenant) =
      t.extractions.any (fun r => r.isExtraction extraction_id tenant) := by
  change ((t.extractions.filter (fun r => r.tenant_id == tenant)).map
    (DocumentExtraction.rename ρ)).any _ = _
  rw [List.any_map, List.any_filter]
  congr 1
  funext r
  rw [Function.comp_apply, isExtraction_rename]
  simp only [DocumentExtraction.isExtraction]
  cases (r.tenant_id == tenant) <;> simp

end Project

section DrawnFor
variable {ρ : Equiv.Perm UUID} {owner : UUID → Option UUID} {tenant : UUID} {t : Tables}
variable (howned : t.DrawnFor owner)
include howned

theorem DrawnFor.identifier {r : PersonIdentifier} (h : r ∈ t.identifiers) :
    owner r.person_uuid = some r.tenant_id :=
  howned (.identifier r) (mem_rows.mpr (.inr (.inl ⟨r, h, rfl⟩))) _ (List.mem_singleton_self _)

theorem DrawnFor.nameVariant {r : PersonNameVariant} (h : r ∈ t.name_variants) :
    owner r.person_uuid = some r.tenant_id :=
  howned (.nameVariant r) (mem_rows.mpr (.inr (.inr (.inl ⟨r, h, rfl⟩)))) _
    (List.mem_singleton_self _)

theorem DrawnFor.person {r : Person} (h : r ∈ t.persons) :
    owner r.person_uuid = some r.tenant_id :=
  howned (.person r) (mem_rows.mpr (.inl ⟨r, h, rfl⟩)) _ (List.mem_singleton_self _)

theorem identifiersOf_project {person_uuid : UUID} (hu : owner person_uuid = some tenant) :
    (t.project ρ tenant).identifiers.filter (fun r => r.person_uuid == ρ person_uuid) =
      (t.identifiers.filter (fun r => r.person_uuid == person_uuid)).map
        (PersonIdentifier.rename ρ) := by
  apply filter_project
  intro r hr
  have hr := howned.identifier hr
  by_cases h : r.person_uuid = person_uuid
  · rw [h, hu] at hr
    simp [PersonIdentifier.rename, h, (Option.some.inj hr).symm]
  · simp [PersonIdentifier.rename, beq_rename, h]

theorem nameVariantsOf_project {person_uuid : UUID} (hu : owner person_uuid = some tenant) :
    (t.project ρ tenant).name_variants.filter (fun r => r.person_uuid == ρ person_uuid) =
      (t.name_variants.filter (fun r => r.person_uuid == person_uuid)).map
        (PersonNameVariant.rename ρ) := by
  apply filter_project
  intro r hr
  have hr := howned.nameVariant hr
  by_cases h : r.person_uuid = person_uuid
  · rw [h, hu] at hr
    simp [PersonNameVariant.rename, h, (Option.some.inj hr).symm]
  · simp [PersonNameVariant.rename, beq_rename, h]

theorem DrawnFor.own {r : Row} (hr : r ∈ t.rows) : r.Own owner r.tenant_id := ⟨rfl, howned r hr⟩

/-- A unique index of the view refuses what the index of the tables refuses. -/
theorem mem_keys_project {r : Row} {k : IndexKey} (hr : r.Own owner tenant) (hk : k ∈ r.keys) :
    k.rename ρ ∈ (t.project ρ tenant).keys ↔ k ∈ t.keys := by
  rw [mem_keys, mem_keys]
  constructor
  · rintro ⟨r', hr', hk'⟩
    obtain ⟨r₁, hr₁, -, rfl⟩ := mem_rows_project.mp hr'
    rw [Row.keys_rename] at hk'
    exact ⟨r₁, hr₁, (List.mem_map_of_injective IndexKey.rename_injective).mp hk'⟩
  · rintro ⟨r₁, hr₁, hk₁⟩
    have htenant : r₁.tenant_id = tenant :=
      Option.some.inj (((howned.own hr₁).tenant_of_key hk₁).symm.trans (hr.tenant_of_key hk))
    refine ⟨r₁.rename ρ, mem_rows_project.mpr ⟨r₁, hr₁, htenant, rfl⟩, ?_⟩
    rw [Row.keys_rename]
    exact List.mem_map_of_mem hk₁

variable (ρ) in
theorem find_key_project {r : Row} (hr : r.Own owner tenant) :
    (r.rename ρ).keys.find? (fun k => k ∈ (t.project ρ tenant).keys) =
      (r.keys.find? (fun k => k ∈ t.keys)).map (IndexKey.rename ρ) := by
  rw [Row.keys_rename, List.find?_map]
  congr 1
  apply List.find?_congr
  intro k hk
  simp only [Function.comp_apply, mem_keys_project howned hr hk]

variable (ρ) in
theorem referenceHolds_project {r : Row} (hr : r.Own owner tenant) :
    (t.project ρ tenant).ReferenceHolds (r.rename ρ) ↔ t.ReferenceHolds r := by
  apply and_congr
  · rw [Row.reference_rename]
    cases href : r.reference? with
    | none => simp
    | some u =>
      have hu : owner u = some tenant := hr.uuids u (Row.reference_mem_uuids href)
      simp only [Option.map_some, Option.mem_def, Option.some.injEq, forall_eq']
      constructor
      · rintro ⟨p, hp, hpu⟩
        obtain ⟨q, hq, rfl⟩ := List.mem_map.mp hp
        exact ⟨q, (List.mem_filter.mp hq).1, ρ.injective hpu⟩
      · rintro ⟨p, hp, rfl⟩
        have htenant : p.tenant_id = tenant := Option.some.inj ((howned.person hp).symm.trans hu)
        exact ⟨p.rename ρ, List.mem_map_of_mem (List.mem_filter.mpr ⟨hp, beq_iff_eq.mpr htenant⟩),
          rfl⟩
  · rw [Row.tenantReference_rename]
    refine forall₂_congr (fun u hu => ?_)
    obtain rfl : u = tenant := (Row.eq_tenant_of_reference hu).trans hr.tenant_id
    change u ∈ t.tenants.filter (· == u) ↔ u ∈ t.tenants
    simp

end DrawnFor

end Tables
end Hawiya
