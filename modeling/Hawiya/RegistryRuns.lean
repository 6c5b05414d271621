import Hawiya.Requests

/-!
# Histories of requests

A history is a list of requests, each in its own transaction, one after another. A request leaves
the registry as it is or adds one person, with identifiers of that person that are active and not
empty.
-/

namespace Hawiya
open PyString Calendar Interaction Db ExtractionService IdentityService

def replay (lib : Libraries) (history : List Request) (t : Tables) : Tables :=
  history.foldl (fun t req => (req.perform lib t).2) t

theorem replay_append (lib : Libraries) (before after : List Request) (t : Tables) :
    replay lib (before ++ after) t = replay lib after (replay lib before t) := List.foldl_append

theorem replay_cons (lib : Libraries) (req : Request) (rest : List Request) (t : Tables) :
    replay lib (req :: rest) t = replay lib rest (req.perform lib t).2 := rfl

/-- What every request preserves, every history preserves. -/
theorem replay_invariant {lib : Libraries} {P : Tables → Prop}
    (hP : ∀ req t, P t → P (Request.perform lib req t).2) {t : Tables} (h : P t)
    (history : List Request) : P (replay lib history t) := by
  induction history generalizing t with
  | nil => exact h
  | cons req rest ih => exact ih (hP req t h)

theorem replay_keys_nodup {lib : Libraries} {t : Tables} (h : t.keys.Nodup)
    (history : List Request) : (replay lib history t).keys.Nodup :=
  replay_invariant (P := fun t => t.keys.Nodup) (fun req _ => transact_keys_nodup (req.endpoint lib))
    h history

/-- `t'` has the same persons and identifiers as `t`. -/
def SameRegistry (t t' : Tables) : Prop :=
  t'.persons = t.persons ∧ t'.identifiers = t.identifiers

/-- `t'` has one more person, and identifiers of that person, each active and not empty. -/
structure Adds (t t' : Tables) (p : Person) (new : List PersonIdentifier) : Prop where
  persons : t'.persons = t.persons ++ [p]
  identifiers : t'.identifiers = t.identifiers ++ new
  owned : ∀ r ∈ new, r.tenant_id = p.tenant_id ∧ r.person_uuid = p.person_uuid ∧
    r.status = .active ∧ r.identifier_value ≠ []

section Deltas
variable {lib : Libraries} {ctx : RequestContext} {draws : Draws} {tenant_id : UUID}
variable {payload : Bytes} {consumer_request_id : Option Str} {document_type : DocumentType}
variable {parsed : ParsedMRZ} {m : MatchResult} {t : Tables} {args : PersonService.Args}

theorem sameRegistry_insertAll {rows : List Row}
    (h : ∀ r ∈ rows, r.person? = none ∧ r.identifier? = none) : SameRegistry t (t.insertAll rows) := by
  constructor
  · rw [Tables.insertAll, List.filterMap_eq_nil_iff.mpr (fun r hr => (h r hr).1), List.append_nil]
  · rw [Tables.insertAll, List.filterMap_eq_nil_iff.mpr (fun r hr => (h r hr).2), List.append_nil]

theorem extractionRows_inert : ∀ r ∈ extractionRows lib ctx draws tenant_id payload
    consumer_request_id document_type parsed, r.person? = none ∧ r.identifier? = none := by
  simp [extractionRows, Row.person?, Row.identifier?]

theorem outcomeRows_inert {extraction : ExtractionResult} {person_uuid : Option UUID}
    {action : MatchAction} {confidence : ℚ} :
    ∀ r ∈ outcomeRows lib ctx tenant_id payload extraction m person_uuid action confidence,
      r.person? = none ∧ r.identifier? = none := by
  simp [outcomeRows, Row.person?, Row.identifier?]

theorem sameRegistry_resolvedTables :
    SameRegistry t (resolvedTables lib ctx draws tenant_id payload consumer_request_id document_type
      parsed m t) := by
  apply sameRegistry_insertAll
  intro r hr
  rcases List.mem_append.mp hr with hr | hr
  · exact extractionRows_inert r hr
  · exact outcomeRows_inert r hr

/-- The passport a new record registers, if the document number is not empty. -/
def newIdentifiers (draws : Draws) (tenant_id : UUID) (parsed : ParsedMRZ) :
    List PersonIdentifier :=
  (orNone (some parsed.document_number)).toList.map (fun n =>
    (identifierArgs draws.person_uuid (fieldsFromParsed parsed) n
      (confidencesFromParsed parsed).document_number).row tenant_id)

theorem filterMap_variantRows {α : Type} {f : Row → Option α} (hf : ∀ v, f (.nameVariant v) = none)
    (specs : List PersonRepository.VariantSpec) (person_uuid : UUID) :
    (PersonRepository.variantRows lib tenant_id person_uuid specs).filterMap f = [] := by
  rw [PersonRepository.variantRows, List.filterMap_map]
  exact List.filterMap_eq_nil_iff.mpr (fun spec _ => hf _)

theorem filterMap_identifier? (new : List PersonIdentifier) :
    (new.map Row.identifier).filterMap Row.identifier? = new ∧
      (new.map Row.identifier).filterMap Row.person? = [] := by
  constructor
  · rw [List.filterMap_map]
    exact List.filterMap_some
  · rw [List.filterMap_map]
    exact List.filterMap_eq_nil_iff.mpr (fun _ _ => rfl)

theorem newRecordRows_eq :
    newRecordRows lib ctx draws tenant_id payload document_type parsed m =
      PersonRepository.variantRows lib tenant_id draws.person_uuid
          (personArgs (fieldsFromParsed parsed)).name_variants ++
        (newIdentifiers draws tenant_id parsed).map Row.identifier ++
        outcomeRows lib ctx tenant_id payload (result draws document_type parsed) m
          (some draws.person_uuid) .newRecord confNewRecord := by
  simp [newRecordRows, newPersonRows, identifierRows, newIdentifiers, passportNumber,
    fieldsFromParsed, Function.comp_def]

theorem newRecordRows_identity :
    (newRecordRows lib ctx draws tenant_id payload document_type parsed m).filterMap Row.person? =
        [] ∧
      (newRecordRows lib ctx draws tenant_id payload document_type parsed m).filterMap
        Row.identifier? = newIdentifiers draws tenant_id parsed := by
  rw [newRecordRows_eq, List.filterMap_append, List.filterMap_append, List.filterMap_append,
    List.filterMap_append, filterMap_variantRows (f := Row.person?) (fun _ => rfl),
    filterMap_variantRows (f := Row.identifier?) (fun _ => rfl), (filterMap_identifier? _).1,
    (filterMap_identifier? _).2]
  simp [outcomeRows, List.filterMap_cons, Row.person?, Row.identifier?]

theorem createdTables_identity :
    (createdTables lib ctx draws tenant_id payload consumer_request_id document_type parsed
        t).persons = t.persons ++ [personRow lib draws tenant_id (fieldsFromParsed parsed)] ∧
    (createdTables lib ctx draws tenant_id payload consumer_request_id document_type parsed
        t).identifiers = t.identifiers := by
  simp [createdTables, Tables.apply, newRecordLink, createdRows, extractionRows,
    List.filterMap_cons, Row.person?, Row.identifier?]

theorem adds_newRecordTables :
    Adds t (newRecordTables lib ctx draws tenant_id payload consumer_request_id document_type parsed
      m t) (personRow lib draws tenant_id (fieldsFromParsed parsed))
      (newIdentifiers draws tenant_id parsed) where
  persons := by
    rw [newRecordTables, Tables.persons_insertAll, newRecordRows_identity.1,
      createdTables_identity.1, List.append_nil]
  identifiers := by
    rw [newRecordTables, Tables.identifiers_insertAll, newRecordRows_identity.2,
      createdTables_identity.2]
  owned := by
    intro r hr
    obtain ⟨n, hn, rfl⟩ := List.mem_map.mp hr
    exact ⟨rfl, rfl, rfl, (orNone_eq_some_iff.mp (Option.mem_toList.mp hn)).2⟩

theorem allRows_identity :
    (PersonService.allRows lib ctx draws tenant_id args).filterMap Row.person? =
        [PersonService.personRow lib draws tenant_id args] ∧
      (PersonService.allRows lib ctx draws tenant_id args).filterMap Row.identifier? =
        PersonService.identifiers draws tenant_id args := by
  rw [PersonService.allRows, PersonService.createdRows, PersonService.identifierRows_eq,
    List.filterMap_cons, List.filterMap_cons, List.filterMap_append, List.filterMap_append,
    List.filterMap_append, List.filterMap_append,
    filterMap_variantRows (f := Row.person?) (fun _ => rfl),
    filterMap_variantRows (f := Row.identifier?) (fun _ => rfl), (filterMap_identifier? _).1,
    (filterMap_identifier? _).2]
  simp [List.filterMap_cons, Row.person?, Row.identifier?]

theorem adds_allRows :
    Adds t (t.insertAll (PersonService.allRows lib ctx draws tenant_id args))
      (PersonService.personRow lib draws tenant_id args)
      (PersonService.identifiers draws tenant_id args) where
  persons := by rw [Tables.persons_insertAll, allRows_identity.1]
  identifiers := by rw [Tables.identifiers_insertAll, allRows_identity.2]
  owned := by
    intro r hr
    obtain ⟨a, ha, rfl⟩ := List.mem_map.mp hr
    simp only [List.mem_append, Option.mem_toList, Option.map_eq_some_iff] at ha
    rcases ha with ⟨v, hv, rfl⟩ | ⟨v, hv, rfl⟩
    · exact ⟨rfl, rfl, rfl, (orNone_eq_some_iff.mp hv).2⟩
    · exact ⟨rfl, rfl, rfl, (orNone_eq_some_iff.mp hv).2⟩

end Deltas

/-- A request leaves the registry as it is or adds one person with their identifiers. -/
theorem perform_registry (lib : Libraries) (req : Request) {t : Tables} (hkeys : t.keys.Nodup) :
    SameRegistry t (req.perform lib t).2 ∨ ∃ p new, Adds t (req.perform lib t).2 p new := by
  cases req with
  | extract ctx draws upload =>
    have heffect : ExtractEffect lib ctx draws upload t
        (Request.perform lib (.extract ctx draws upload) t) := extract_effect lib ctx draws upload t
    generalize Request.perform lib (.extract ctx draws upload) t = result at heffect ⊢
    cases heffect with
    | failed e => exact .inl ⟨rfl, rfl⟩
    | refused envelope audits =>
      refine .inl (sameRegistry_insertAll (fun r hr => ?_))
      obtain ⟨a, -, rfl⟩ := List.mem_map.mp hr
      exact ⟨rfl, rfl⟩
    | extracted tenant_id document_type parsed reads =>
      exact .inl (sameRegistry_insertAll extractionRows_inert)
  | resolve ctx draws upload create_if_missing =>
    have heffect : ResolveEffect lib ctx draws upload create_if_missing t
        (Request.perform lib (.resolve ctx draws upload create_if_missing) t) :=
      resolve_effect upload create_if_missing hkeys
    generalize Request.perform lib (.resolve ctx draws upload create_if_missing) t = result
      at heffect ⊢
    cases heffect with
    | failed e => exact .inl ⟨rfl, rfl⟩
    | refused envelope audits =>
      refine .inl (sameRegistry_insertAll (fun r hr => ?_))
      obtain ⟨a, -, rfl⟩ := List.mem_map.mp hr
      exact ⟨rfl, rfl⟩
    | resolved tenant_id document_type parsed r t' reads leaves =>
      cases leaves with
      | existing m matched kept fresh => exact .inl sameRegistry_resolvedTables
      | created m matched miss create fresh => exact .inr ⟨_, _, adds_newRecordTables⟩
  | create ctx draws body =>
    have heffect : CreateEffect lib ctx draws body t
        (Request.perform lib (.create ctx draws body) t) := create_effect body hkeys
    generalize Request.perform lib (.create ctx draws body) t = result at heffect ⊢
    cases heffect with
    | failed e => exact .inl ⟨rfl, rfl⟩
    | duplicate found => exact .inl ⟨rfl, rfl⟩
    | created tenant_id tenant unregistered fresh => exact .inr ⟨_, _, adds_allRows⟩

end Hawiya
