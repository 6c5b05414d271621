import Hawiya.Repositories
import Hawiya.Transactions

/-!
# The matcher as a function of the tables

Under the unique indexes a lookup meets at most one row, so the matcher fails only where it asks for
a value the database refuses, and it changes nothing: its answer is `matchIn`, read off the tables
the transaction sees.
-/

namespace Hawiya
open PyString Calendar Interaction DeterministicMatcher

namespace Tables
variable (t : Tables)

def personsWith (tenant_id person_uuid : UUID) : List Person :=
  t.persons.filter (fun p => p.tenant_id == tenant_id && p.person_uuid == person_uuid)

def person? (tenant_id person_uuid : UUID) : Option Person :=
  (t.personsWith tenant_id person_uuid).head?

def active? (tenant_id : UUID) (identifier_type : IdentifierType) (value : Option Str) :
    Option PersonIdentifier :=
  (orNone value).bind (fun v => (t.activeIdentifiers tenant_id identifier_type v).head?)

/-- What `deterministicMatch` answers on these tables. -/
def matchIn (tenant_id : UUID) (q : Query) : MatchResult :=
  match t.active? tenant_id .emiratesId q.emirates_id with
  | some ident => emiratesIdResult ident
  | none =>
      match t.active? tenant_id .passport q.passport_number with
      | some ident =>
          let person := t.person? tenant_id ident.person_uuid
          passportResult ident (nationalityMatch person q.nationality)
            (dobMatch person q.date_of_birth)
      | none => noMatchResult q

theorem person_uuids_nodup (h : t.keys.Nodup) : (t.persons.map Person.person_uuid).Nodup := by
  have hkeys := (List.nodup_append.mp (List.nodup_append.mp h).1).1
  exact List.Nodup.of_map IndexKey.person (by simpa [List.map_map, Function.comp_def] using hkeys)

theorem eq_of_person_uuid (h : t.keys.Nodup) {p q : Person} (hp : p ∈ t.persons)
    (hq : q ∈ t.persons) (huuid : p.person_uuid = q.person_uuid) : p = q :=
  List.inj_on_of_nodup_map (t.person_uuids_nodup h) hp hq huuid

theorem length_personsWith_le_one (h : t.keys.Nodup) (tenant_id person_uuid : UUID) :
    (t.personsWith tenant_id person_uuid).length ≤ 1 := by
  have hnodup := t.person_uuids_nodup h
  have hle : ((t.personsWith tenant_id person_uuid).map Person.person_uuid).Sublist
      (t.persons.map Person.person_uuid) := List.filter_sublist.map _
  have hrep : (t.personsWith tenant_id person_uuid).map Person.person_uuid =
      List.replicate (t.personsWith tenant_id person_uuid).length person_uuid := by
    rw [List.eq_replicate_iff]
    refine ⟨List.length_map _, fun u hu => ?_⟩
    obtain ⟨p, hp, rfl⟩ := List.mem_map.mp hu
    have hboth := (List.mem_filter.mp hp).2
    rw [Bool.and_eq_true, beq_iff_eq, beq_iff_eq] at hboth
    exact hboth.2
  rw [hrep] at hle
  exact List.nodup_replicate.mp (hnodup.sublist hle)

theorem length_activeIdentifiers_le_one (h : t.keys.Nodup) (tenant_id : UUID)
    (identifier_type : IdentifierType) (value : Str) :
    (t.activeIdentifiers tenant_id identifier_type value).length ≤ 1 := by
  have hnodup : (t.identifiers.flatMap PersonIdentifier.keys).Nodup :=
    (List.nodup_append.mp (List.nodup_append.mp h).1).2.1
  rw [t.length_activeIdentifiers]
  exact List.nodup_iff_count_le_one.mp hnodup _

/-- The partial unique index leaves at most one active identifier per tenant, type and value. -/
theorem activeIdentifiers_eq_singleton (h : t.keys.Nodup) {tenant_id : UUID}
    {identifier_type : IdentifierType} {value : Str} {r : PersonIdentifier}
    (hr : r ∈ t.activeIdentifiers tenant_id identifier_type value) :
    t.activeIdentifiers tenant_id identifier_type value = [r] := by
  have hle := t.length_activeIdentifiers_le_one h tenant_id identifier_type value
  rcases hl : t.activeIdentifiers tenant_id identifier_type value with _ | ⟨a, _ | ⟨b, rest⟩⟩
  · simp [hl] at hr
  · simpa [hl, eq_comm] using hr
  · simp [hl] at hle

theorem active?_eq_some (h : t.keys.Nodup) {tenant_id : UUID} {identifier_type : IdentifierType}
    {value : Str} (hvalue : value ≠ []) {r : PersonIdentifier}
    (hr : r ∈ t.activeIdentifiers tenant_id identifier_type value) :
    t.active? tenant_id identifier_type (some value) = some r := by
  rw [active?, orNone_of_ne_nil hvalue, Option.bind_some, t.activeIdentifiers_eq_singleton h hr]
  rfl

theorem active?_eq_none_iff {tenant_id : UUID} {identifier_type : IdentifierType}
    {value : Option Str} :
    t.active? tenant_id identifier_type value = none ↔
      ∀ v, value = some v → v ≠ [] → .activeIdentifier tenant_id identifier_type v ∉ t.keys := by
  simp only [active?, Option.bind_eq_none_iff, List.head?_eq_none_iff, activeIdentifiers_eq_nil_iff,
    orNone_eq_some_iff, and_imp]

theorem person?_eq_some (h : t.keys.Nodup) {p : Person} (hp : p ∈ t.persons) :
    t.person? p.tenant_id p.person_uuid = some p := by
  have hmem : p ∈ t.personsWith p.tenant_id p.person_uuid := by
    simp [personsWith, hp]
  have hle := t.length_personsWith_le_one h p.tenant_id p.person_uuid
  unfold person?
  rcases hl : t.personsWith p.tenant_id p.person_uuid with _ | ⟨a, _ | ⟨b, rest⟩⟩
  · simp [hl] at hmem
  · simpa [hl, eq_comm] using hmem
  · simp [hl] at hle

end Tables

theorem orNone_orNone (s : Option Str) : orNone (orNone s) = orNone s := by
  rcases s with _ | _ | ⟨c, cs⟩
  · rfl
  · rfl
  · rfl

theorem active?_orNone (t : Tables) (tenant_id : UUID) (identifier_type : IdentifierType)
    (value : Option Str) :
    t.active? tenant_id identifier_type (orNone value) =
      t.active? tenant_id identifier_type value := by
  rw [Tables.active?, orNone_orNone, Tables.active?]

/-- The matcher misses exactly when neither identifier is active. -/
theorem matchIn_miss_iff (t : Tables) (tenant_id : UUID) (q : DeterministicMatcher.Query) :
    (t.matchIn tenant_id q).action = .noMatchNoCreate ↔
      t.active? tenant_id .emiratesId q.emirates_id = none ∧
        t.active? tenant_id .passport q.passport_number = none := by
  unfold Tables.matchIn
  cases t.active? tenant_id .emiratesId q.emirates_id with
  | some ident => simp [DeterministicMatcher.emiratesIdResult]
  | none =>
    cases t.active? tenant_id .passport q.passport_number with
    | none => simp [DeterministicMatcher.noMatchResult]
    | some ident =>
      simp only [DeterministicMatcher.passportResult]
      split_ifs <;> simp

theorem scalarOneOrNone_of_length_le_one {α : Type} {l : List α} (h : l.length ≤ 1) :
    scalarOneOrNone l = pure l.head? := by
  rcases l with _ | ⟨a, _ | ⟨b, rest⟩⟩
  · rfl
  · rfl
  · simp at h

open Db

variable {ι : Type} [DecidableEq ι] {i : ι} {db : Db ι}

theorem run_findActive (h : (db.view i).keys.Nodup) (tenant_id : UUID)
    (identifier_type : IdentifierType) {value : Str} (hvalue : nul ∉ value) :
    runTx i (PersonIdentifierRepository.findActive tenant_id identifier_type value) db =
      (.ok ((db.view i).activeIdentifiers tenant_id identifier_type value).head?, db) := by
  unfold PersonIdentifierRepository.findActive PersonIdentifierRepository.selectActive
  rw [runTx_bind, runTx_execute]
  simp only [exec, if_neg hvalue, scalarOneOrNone_of_length_le_one
    ((db.view i).length_activeIdentifiers_le_one h tenant_id identifier_type value), runTx_pure]

theorem run_findActive_of_nul (tenant_id : UUID) (identifier_type : IdentifierType) {value : Str}
    (hvalue : nul ∈ value) :
    runTx i (PersonIdentifierRepository.findActive tenant_id identifier_type value) db =
      (.error .dbapiError, db) := by
  unfold PersonIdentifierRepository.findActive PersonIdentifierRepository.selectActive
  rw [runTx_bind, runTx_execute]
  simp only [exec, if_pos hvalue]

theorem run_getPerson (h : (db.view i).keys.Nodup) (tenant_id person_uuid : UUID) :
    runTx i (PersonRepository.get tenant_id person_uuid) db =
      (.ok ((db.view i).person? tenant_id person_uuid), db) := by
  unfold PersonRepository.get PersonRepository.select
  rw [runTx_bind, runTx_execute]
  exact congrArg (fun tx => runTx i tx db) (scalarOneOrNone_of_length_le_one
    ((db.view i).length_personsWith_le_one h tenant_id person_uuid))

theorem run_matchEmiratesId (h : (db.view i).keys.Nodup) (tenant_id : UUID) {q : Query}
    (hvalue : ∀ v ∈ orNone q.emirates_id, nul ∉ v) :
    runTx i (matchEmiratesId tenant_id q) db =
      (.ok (((db.view i).active? tenant_id .emiratesId q.emirates_id).map emiratesIdResult), db) := by
  unfold matchEmiratesId Tables.active?
  cases hv : orNone q.emirates_id with
  | none => rfl
  | some v =>
    simp only [runTx_bind, run_findActive h _ _ (hvalue v hv), runTx_pure, Option.bind_some]

theorem run_matchPassport (h : (db.view i).keys.Nodup) (tenant_id : UUID) {q : Query}
    (hvalue : ∀ v ∈ orNone q.passport_number, nul ∉ v) :
    runTx i (matchPassport tenant_id q) db =
      (.ok (((db.view i).active? tenant_id .passport q.passport_number).map (fun ident =>
        passportResult ident
          (nationalityMatch ((db.view i).person? tenant_id ident.person_uuid) q.nationality)
          (dobMatch ((db.view i).person? tenant_id ident.person_uuid) q.date_of_birth))), db) := by
  unfold matchPassport Tables.active?
  cases hv : orNone q.passport_number with
  | none => rfl
  | some v =>
    simp only [runTx_bind, run_findActive h _ _ (hvalue v hv), Option.bind_some]
    cases ((db.view i).activeIdentifiers tenant_id .passport v).head? with
    | none => rfl
    | some ident => simp only [runTx_bind, run_getPerson h, runTx_pure, Option.map_some]

/-- The database can be asked for the values that the matcher looks up: it looks up the passport
only where the Emirates ID finds nobody. -/
structure Askable (t : Tables) (tenant_id : UUID) (q : Query) : Prop where
  emirates_id : ∀ v ∈ orNone q.emirates_id, nul ∉ v
  passport_number : t.active? tenant_id .emiratesId q.emirates_id = none →
    ∀ v ∈ orNone q.passport_number, nul ∉ v

/-- The matcher answers from what the transaction sees and changes nothing. -/
theorem run_deterministicMatch (h : (db.view i).keys.Nodup) (tenant_id : UUID) {q : Query}
    (hask : Askable (db.view i) tenant_id q) :
    runTx i (deterministicMatch tenant_id q) db = (.ok ((db.view i).matchIn tenant_id q), db) := by
  unfold deterministicMatch Tables.matchIn
  rw [runTx_bind, run_matchEmiratesId h tenant_id hask.emirates_id]
  cases hfound : (db.view i).active? tenant_id .emiratesId q.emirates_id with
  | some ident => rfl
  | none =>
    simp only [Option.map_none, runTx_bind,
      run_matchPassport h tenant_id (hask.passport_number hfound), runTx_pure]
    cases (db.view i).active? tenant_id .passport q.passport_number with
    | some ident => rfl
    | none => rfl

theorem run_deterministicMatch_of_not_askable (h : (db.view i).keys.Nodup) (tenant_id : UUID)
    {q : Query} (hask : ¬ Askable (db.view i) tenant_id q) :
    runTx i (deterministicMatch tenant_id q) db = (.error .dbapiError, db) := by
  unfold deterministicMatch
  rw [runTx_bind]
  by_cases hemirates : ∀ v ∈ orNone q.emirates_id, nul ∉ v
  · rw [run_matchEmiratesId h tenant_id hemirates]
    cases hfound : (db.view i).active? tenant_id .emiratesId q.emirates_id with
    | some ident =>
      refine absurd ⟨hemirates, fun hnone => ?_⟩ hask
      rw [hfound] at hnone
      cases hnone
    | none =>
      have hpassport : ¬ ∀ v ∈ orNone q.passport_number, nul ∉ v :=
        fun hvalue => hask ⟨hemirates, fun _ => hvalue⟩
      simp only [not_forall, not_not] at hpassport
      obtain ⟨v, hv, hnul⟩ := hpassport
      simp only [Option.map_none, matchPassport, Option.mem_def.mp hv, runTx_bind,
        run_findActive_of_nul _ _ hnul]
  · simp only [not_forall, not_not] at hemirates
    obtain ⟨v, hv, hnul⟩ := hemirates
    simp only [matchEmiratesId, Option.mem_def.mp hv, runTx_bind, run_findActive_of_nul _ _ hnul]

theorem run_deterministicMatch_during {t : Tables} (cs : List Change)
    (h : (t.applyAll cs).keys.Nodup) (rows : List Row) (tenant_id : UUID) {q : Query}
    (hask : Askable (t.applyAll cs) tenant_id q) :
    runTx i (deterministicMatch tenant_id q) (during t i cs rows) =
      (.ok ((t.applyAll cs).matchIn tenant_id q), during t i cs rows) := by
  have hview : (during t i cs rows).view i = t.applyAll cs := view_during t i cs rows
  rw [run_deterministicMatch (hview.symm ▸ h) tenant_id (hview.symm ▸ hask), hview]

end Hawiya
