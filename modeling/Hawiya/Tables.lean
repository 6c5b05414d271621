import Hawiya.Models

/-!
# The tables and what statements do to them

`Tables` are the rows of one database state in insertion order. A statement's effect is a
`Change`. The unique indexes are read off the rows as `keys`; inserting appends the row's keys and
linking an extraction leaves them alone, so uniqueness is the absence of duplicates in `keys`.
-/

namespace Hawiya
open PyString Calendar

structure Tables where
  /-- The `tenant_id` column of the `tenants` table. -/
  tenants : List UUID
  persons : List Person
  identifiers : List PersonIdentifier
  name_variants : List PersonNameVariant
  extractions : List DocumentExtraction
  match_decisions : List MatchDecision
  audit_log : List AuditLog
  deriving DecidableEq

/-- What a statement of a transaction changes. -/
inductive Change where
  | insert (r : Row)
  | link (extraction_id tenant_id : UUID) (person_uuid : Option UUID) (match_action : String)
  deriving DecidableEq

def Change.keys : Change → List IndexKey
  | .insert r => r.keys
  | .link .. => []

def Change.updates (extraction_id : UUID) : Change → Bool
  | .insert _ => false
  | .link id .. => id == extraction_id

def DocumentExtraction.isExtraction (r : DocumentExtraction) (extraction_id tenant_id : UUID) :
    Bool :=
  r.extraction_id == extraction_id && r.tenant_id == tenant_id

def DocumentExtraction.link (r : DocumentExtraction) (person_uuid : Option UUID)
    (match_action : String) : DocumentExtraction :=
  { r with person_uuid := person_uuid, match_action := some match_action }

def PersonIdentifier.isActive (tenant_id : UUID) (identifier_type : IdentifierType)
    (identifier_value : Str) (r : PersonIdentifier) : Bool :=
  r.tenant_id == tenant_id && r.identifier_type == identifier_type &&
    r.identifier_value == identifier_value && r.status == .active

namespace Tables

/-- Tenants without a row. -/
def empty (tenants : List UUID) : Tables := ⟨tenants, [], [], [], [], [], []⟩

def keys (t : Tables) : List IndexKey :=
  t.persons.map (fun r => .person r.person_uuid) ++ t.identifiers.flatMap PersonIdentifier.keys ++
    t.extractions.map (fun r => .extraction r.extraction_id)

def insert (t : Tables) : Row → Tables
  | .person r => { t with persons := t.persons ++ [r] }
  | .identifier r => { t with identifiers := t.identifiers ++ [r] }
  | .nameVariant r => { t with name_variants := t.name_variants ++ [r] }
  | .extraction r => { t with extractions := t.extractions ++ [r] }
  | .matchDecision r => { t with match_decisions := t.match_decisions ++ [r] }
  | .auditLog r => { t with audit_log := t.audit_log ++ [r] }

def apply (t : Tables) : Change → Tables
  | .insert r => t.insert r
  | .link extraction_id tenant_id person_uuid match_action =>
      { t with extractions := t.extractions.map (fun r =>
          if r.isExtraction extraction_id tenant_id then r.link person_uuid match_action else r) }

def applyAll (t : Tables) (changes : List Change) : Tables := changes.foldl apply t

def activeIdentifiers (t : Tables) (tenant_id : UUID) (identifier_type : IdentifierType)
    (identifier_value : Str) : List PersonIdentifier :=
  t.identifiers.filter (PersonIdentifier.isActive tenant_id identifier_type identifier_value)

/-- What a row refers to by foreign key is there. -/
def ReferenceHolds (t : Tables) (r : Row) : Prop :=
  (∀ u ∈ r.reference?, ∃ p ∈ t.persons, p.person_uuid = u) ∧
    ∀ u ∈ r.tenantReference?, u ∈ t.tenants

instance (t : Tables) (r : Row) : Decidable (t.ReferenceHolds r) :=
  inferInstanceAs (Decidable ((∀ u ∈ r.reference?, ∃ p ∈ t.persons, p.person_uuid = u) ∧
    ∀ u ∈ r.tenantReference?, u ∈ t.tenants))

/-- No unique index holds a key of the row. -/
def KeysFree (t : Tables) (r : Row) : Prop := ∀ k ∈ r.keys, k ∉ t.keys

instance (t : Tables) (r : Row) : Decidable (t.KeysFree r) :=
  inferInstanceAs (Decidable (∀ k ∈ r.keys, k ∉ t.keys))

variable (t : Tables)

@[simp] theorem applyAll_nil : t.applyAll [] = t := rfl

@[simp] theorem applyAll_cons (c : Change) (cs : List Change) :
    t.applyAll (c :: cs) = (t.apply c).applyAll cs := rfl

theorem applyAll_append (cs ds : List Change) :
    t.applyAll (cs ++ ds) = (t.applyAll cs).applyAll ds := List.foldl_append

def insertAll (t : Tables) (rows : List Row) : Tables where
  tenants := t.tenants
  persons := t.persons ++ rows.filterMap Row.person?
  identifiers := t.identifiers ++ rows.filterMap Row.identifier?
  name_variants := t.name_variants ++ rows.filterMap Row.nameVariant?
  extractions := t.extractions ++ rows.filterMap Row.extraction?
  match_decisions := t.match_decisions ++ rows.filterMap Row.matchDecision?
  audit_log := t.audit_log ++ rows.filterMap Row.auditLog?

@[simp] theorem persons_insertAll (rows : List Row) :
    (t.insertAll rows).persons = t.persons ++ rows.filterMap Row.person? := rfl

@[simp] theorem identifiers_insertAll (rows : List Row) :
    (t.insertAll rows).identifiers = t.identifiers ++ rows.filterMap Row.identifier? := rfl

theorem applyAll_inserts (rows : List Row) : t.applyAll (rows.map .insert) = t.insertAll rows := by
  induction rows generalizing t with
  | nil => simp [insertAll]
  | cons r rows ih =>
    rw [List.map_cons, applyAll_cons, ih]
    cases r with
    | _ => simp [apply, insert, insertAll, List.filterMap_cons, Row.person?, Row.identifier?,
        Row.nameVariant?, Row.extraction?, Row.matchDecision?, Row.auditLog?]

@[simp] theorem tenants_apply (c : Change) : (t.apply c).tenants = t.tenants := by
  cases c with
  | insert r => cases r <;> rfl
  | link => rfl

@[simp] theorem tenants_applyAll (cs : List Change) : (t.applyAll cs).tenants = t.tenants := by
  induction cs generalizing t with
  | nil => rfl
  | cons c cs ih => rw [applyAll_cons, ih, tenants_apply]

theorem keys_insert (r : Row) : (t.insert r).keys.Perm (t.keys ++ r.keys) := by
  cases r with
  | person r =>
    simp only [keys, insert, Row.keys, List.map_append, List.map_cons, List.map_nil,
      List.append_assoc]
    exact List.perm_append_comm.append_left _ |>.trans (by simp)
  | identifier r =>
    simp only [keys, insert, Row.keys, List.flatMap_append, List.flatMap_cons, List.flatMap_nil,
      List.append_nil, List.append_assoc]
    exact (List.perm_append_comm.append_left _).append_left _
  | nameVariant r => simp [keys, insert, Row.keys]
  | extraction r => simp [keys, insert, Row.keys]
  | matchDecision r => simp [keys, insert, Row.keys]
  | auditLog r => simp [keys, insert, Row.keys]

theorem keys_apply (c : Change) : (t.apply c).keys.Perm (t.keys ++ c.keys) := by
  cases c with
  | insert r => exact t.keys_insert r
  | link extraction_id tenant_id person_uuid match_action =>
    have hid : ∀ r : DocumentExtraction,
        (if r.isExtraction extraction_id tenant_id then r.link person_uuid match_action
          else r).extraction_id = r.extraction_id := by
      intro r
      by_cases h : r.isExtraction extraction_id tenant_id
      · rw [if_pos h]
        rfl
      · rw [if_neg h]
    simp only [keys, apply, Change.keys, List.map_map, Function.comp_def, hid, List.append_nil]
    exact .refl _

theorem keys_applyAll (cs : List Change) :
    (t.applyAll cs).keys.Perm (t.keys ++ cs.flatMap Change.keys) := by
  induction cs generalizing t with
  | nil => simp
  | cons c cs ih =>
    rw [applyAll_cons, List.flatMap_cons, ← List.append_assoc]
    exact (ih _).trans ((t.keys_apply c).append_right _)

theorem persons_apply (c : Change) :
    (t.apply c).persons = t.persons ∨
      ∃ r, c = .insert (.person r) ∧ (t.apply c).persons = t.persons ++ [r] := by
  cases c with
  | link => exact .inl rfl
  | insert r =>
    cases r with
    | person r => exact .inr ⟨r, rfl, rfl⟩
    | _ => exact .inl rfl

theorem identifiers_apply (c : Change) :
    (t.apply c).identifiers = t.identifiers ∨
      ∃ r, c = .insert (.identifier r) ∧ (t.apply c).identifiers = t.identifiers ++ [r] := by
  cases c with
  | link => exact .inl rfl
  | insert r =>
    cases r with
    | identifier r => exact .inr ⟨r, rfl, rfl⟩
    | _ => exact .inl rfl

theorem mem_persons_apply {c : Change} {p : Person} :
    p ∈ (t.apply c).persons ↔ p ∈ t.persons ∨ c = .insert (.person p) := by
  rcases t.persons_apply c with h | ⟨r, rfl, h⟩
  · rw [h]
    constructor
    · exact .inl
    · rintro (hp | rfl)
      · exact hp
      · simp [apply, insert] at h
  · rw [h]
    simp [eq_comm]

theorem mem_identifiers_apply {c : Change} {r : PersonIdentifier} :
    r ∈ (t.apply c).identifiers ↔ r ∈ t.identifiers ∨ c = .insert (.identifier r) := by
  rcases t.identifiers_apply c with h | ⟨r', rfl, h⟩
  · rw [h]
    constructor
    · exact .inl
    · rintro (hr | rfl)
      · exact hr
      · simp [apply, insert] at h
  · rw [h]
    simp [eq_comm]

theorem mem_persons_applyAll {cs : List Change} {p : Person} :
    p ∈ (t.applyAll cs).persons ↔ p ∈ t.persons ∨ .insert (.person p) ∈ cs := by
  induction cs generalizing t with
  | nil => simp
  | cons c cs ih => rw [applyAll_cons, ih, mem_persons_apply, or_assoc, List.mem_cons, eq_comm]

theorem mem_identifiers_applyAll {cs : List Change} {r : PersonIdentifier} :
    r ∈ (t.applyAll cs).identifiers ↔ r ∈ t.identifiers ∨ .insert (.identifier r) ∈ cs := by
  induction cs generalizing t with
  | nil => simp
  | cons c cs ih => rw [applyAll_cons, ih, mem_identifiers_apply, or_assoc, List.mem_cons, eq_comm]

theorem isActive_iff {tenant_id : UUID} {identifier_type : IdentifierType} {value : Str}
    {r : PersonIdentifier} :
    r.isActive tenant_id identifier_type value = true ↔ r.tenant_id = tenant_id ∧
      r.identifier_type = identifier_type ∧ r.identifier_value = value ∧ r.status = .active := by
  simp only [PersonIdentifier.isActive, Bool.and_eq_true, beq_iff_eq, and_assoc]

theorem isActive_iff_key {tenant_id : UUID} {identifier_type : IdentifierType} {value : Str}
    {r : PersonIdentifier} :
    r.isActive tenant_id identifier_type value = true ↔
      .activeIdentifier tenant_id identifier_type value ∈ r.keys := by
  rw [isActive_iff, PersonIdentifier.keys]
  by_cases h : r.status = .active
  · simp only [h, and_true, if_true, List.mem_singleton, IndexKey.activeIdentifier.injEq]
    exact ⟨fun ⟨a, b, c⟩ => ⟨a.symm, b.symm, c.symm⟩, fun ⟨a, b, c⟩ => ⟨a.symm, b.symm, c.symm⟩⟩
  · simp [h]

theorem mem_activeIdentifiers {tenant_id : UUID} {identifier_type : IdentifierType} {value : Str}
    {r : PersonIdentifier} :
    r ∈ t.activeIdentifiers tenant_id identifier_type value ↔
      r ∈ t.identifiers ∧ r.isActive tenant_id identifier_type value = true :=
  List.mem_filter

theorem length_activeIdentifiers (tenant_id : UUID) (identifier_type : IdentifierType)
    (value : Str) :
    (t.activeIdentifiers tenant_id identifier_type value).length =
      (t.identifiers.flatMap PersonIdentifier.keys).count
        (.activeIdentifier tenant_id identifier_type value) := by
  unfold activeIdentifiers
  induction t.identifiers with
  | nil => rfl
  | cons r rest ih =>
    rw [List.flatMap_cons, List.count_append, ← ih]
    by_cases h : r.isActive tenant_id identifier_type value
    · obtain ⟨rfl, rfl, rfl, hs⟩ := isActive_iff.mp h
      rw [List.filter_cons_of_pos h, List.length_cons, PersonIdentifier.keys, if_pos hs,
        List.count_singleton_self, Nat.add_comm]
    · rw [List.filter_cons_of_neg h, List.count_eq_zero_of_not_mem (fun hk => h
        (isActive_iff_key.mpr hk)), Nat.zero_add]

theorem activeIdentifiers_eq_nil_iff {tenant_id : UUID} {identifier_type : IdentifierType}
    {value : Str} :
    t.activeIdentifiers tenant_id identifier_type value = [] ↔
      .activeIdentifier tenant_id identifier_type value ∉ t.keys := by
  simp only [activeIdentifiers, List.filter_eq_nil_iff, isActive_iff_key, keys, List.mem_append,
    List.mem_map, List.mem_flatMap, reduceCtorEq, and_false, exists_false, or_false, false_or,
    not_exists, not_and]

end Tables
end Hawiya
