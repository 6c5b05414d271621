import Hawiya.TenantView

/-!
# Rows that name persons of their tenant

The schema lets a row of one tenant name a person of another: the foreign keys do not mention the
tenant, and the columns of extractions and match decisions have none. In cohesive tables no row
does, and every person that is named is there.
-/

namespace Hawiya

/-- The persons a row names, by a foreign key or in a column without one. -/
def Row.names : Row → List UUID
  | .identifier r => [r.person_uuid]
  | .nameVariant r => [r.person_uuid]
  | .extraction r => r.person_uuid.toList
  | .matchDecision r => r.candidate_a.toList ++ r.candidate_b.toList
  | _ => []

def Change.tenant_id : Change → UUID
  | .insert r => r.tenant_id
  | .link _ tenant_id .. => tenant_id

def Change.names : Change → List UUID
  | .insert r => r.names
  | .link _ _ person_uuid _ => person_uuid.toList

namespace Tables

def HasPerson (t : Tables) (u tenant_id : UUID) : Prop :=
  ∃ p ∈ t.persons, p.person_uuid = u ∧ p.tenant_id = tenant_id

/-- What a row names is related to the tenant of the row. -/
def Within (S : UUID → UUID → Prop) (t : Tables) : Prop :=
  ∀ r ∈ t.rows, ∀ u ∈ r.names, S u r.tenant_id

def Cohesive (t : Tables) : Prop := t.Within t.HasPerson

variable {t t' : Tables} {S S' : UUID → UUID → Prop} {c : Change} {cs : List Change}

theorem cohesive_empty (tenants : List UUID) : (Tables.empty tenants).Cohesive :=
  fun _ h => absurd h List.not_mem_nil

theorem nodup_keys_empty (tenants : List UUID) : (Tables.empty tenants).keys.Nodup :=
  List.nodup_nil

theorem Within.mono (h : t.Within S) (hS : ∀ u tenant, S u tenant → S' u tenant) : t.Within S' :=
  fun r hr u hu => hS _ _ (h r hr u hu)

theorem HasPerson.mono (h : ∀ p ∈ t.persons, p ∈ t'.persons) (u tenant : UUID)
    (hu : t.HasPerson u tenant) : t'.HasPerson u tenant := by
  obtain ⟨p, hp, hrest⟩ := hu
  exact ⟨p, h p hp, hrest⟩

theorem HasPerson.applyAll (cs : List Change) (u tenant : UUID) (hu : t.HasPerson u tenant) :
    (t.applyAll cs).HasPerson u tenant :=
  hu.mono (fun _ hp => t.mem_persons_applyAll.mpr (.inl hp)) u tenant

theorem Within.apply (h : t.Within S) (hc : ∀ u ∈ c.names, S u c.tenant_id) :
    (t.apply c).Within S := by
  cases c with
  | insert r =>
    intro r' hr' u hu
    rcases mem_rows_insert.mp hr' with hr' | rfl
    · exact h r' hr' u hu
    · exact hc u hu
  | link extraction_id tenant_id person_uuid match_action =>
    intro r hr u hu
    rw [mem_rows] at hr
    rcases hr with hr | hr | hr | ⟨p, hp, rfl⟩ | hr
    · exact h r (mem_rows.mpr (.inl hr)) u hu
    · exact h r (mem_rows.mpr (.inr (.inl hr))) u hu
    · exact h r (mem_rows.mpr (.inr (.inr (.inl hr)))) u hu
    · obtain ⟨q, hq, rfl⟩ := List.mem_map.mp hp
      by_cases hlinked : q.isExtraction extraction_id tenant_id = true
      · -- the extraction that is linked takes the change's person, and has the change's tenant
        rw [if_pos hlinked] at hu ⊢
        rw [DocumentExtraction.isExtraction, Bool.and_eq_true, beq_iff_eq, beq_iff_eq] at hlinked
        change S u q.tenant_id
        rw [hlinked.2]
        exact hc u hu
      · rw [if_neg hlinked] at hu ⊢
        exact h (.extraction q) (mem_rows.mpr (.inr (.inr (.inr (.inl ⟨q, hq, rfl⟩))))) u hu
    · exact h r (mem_rows.mpr (.inr (.inr (.inr (.inr hr))))) u hu

theorem Within.applyAll (h : t.Within S) (hcs : ∀ c ∈ cs, ∀ u ∈ c.names, S u c.tenant_id) :
    (t.applyAll cs).Within S := by
  induction cs generalizing t with
  | nil => exact h
  | cons c cs ih =>
    exact ih (h.apply (hcs c List.mem_cons_self))
      (fun c' hc' => hcs c' (List.mem_cons_of_mem c hc'))

/-- Changes that name persons who are there in the end keep the tables cohesive. -/
theorem Cohesive.applyAll (h : t.Cohesive)
    (hcs : ∀ c ∈ cs, ∀ u ∈ c.names, (t.applyAll cs).HasPerson u c.tenant_id) :
    (t.applyAll cs).Cohesive :=
  (h.mono (HasPerson.applyAll cs)).applyAll hcs

def identifiersOf (t : Tables) (u : UUID) : List PersonIdentifier :=
  t.identifiers.filter (fun r => r.person_uuid == u)

def nameVariantsOf (t : Tables) (u : UUID) : List PersonNameVariant :=
  t.name_variants.filter (fun r => r.person_uuid == u)

/-- A change that says nothing about a person leaves the person's rows. -/
theorem aggregate_apply {u : UUID} (h : ∀ r, c = .insert r → u ∉ r.reference?) :
    (t.apply c).identifiersOf u = t.identifiersOf u ∧
      (t.apply c).nameVariantsOf u = t.nameVariantsOf u := by
  cases c with
  | link => exact ⟨rfl, rfl⟩
  | insert r =>
    have hr := h r rfl
    cases r with
    | identifier r =>
      have hnone : [r].filter (fun r : PersonIdentifier => r.person_uuid == u) = [] :=
        List.filter_cons_of_neg (fun heq => hr (congrArg some (beq_iff_eq.mp heq)))
      refine ⟨?_, rfl⟩
      change (t.identifiers ++ [r]).filter _ = _
      rw [List.filter_append, hnone, List.append_nil]
      rfl
    | nameVariant r =>
      have hnone : [r].filter (fun r : PersonNameVariant => r.person_uuid == u) = [] :=
        List.filter_cons_of_neg (fun heq => hr (congrArg some (beq_iff_eq.mp heq)))
      refine ⟨rfl, ?_⟩
      change (t.name_variants ++ [r]).filter _ = _
      rw [List.filter_append, hnone, List.append_nil]
      rfl
    | _ => exact ⟨rfl, rfl⟩

/-- The rows about a person in two states that the same changes are applied to. -/
theorem aggregate_applyAll_congr {u : UUID} (h : t'.identifiersOf u = t.identifiersOf u ∧
    t'.nameVariantsOf u = t.nameVariantsOf u) (cs : List Change) :
    (t'.applyAll cs).identifiersOf u = (t.applyAll cs).identifiersOf u ∧
      (t'.applyAll cs).nameVariantsOf u = (t.applyAll cs).nameVariantsOf u := by
  induction cs generalizing t t' with
  | nil => exact h
  | cons c cs ih =>
    apply ih
    obtain ⟨hi, hv⟩ := h
    unfold identifiersOf nameVariantsOf at *
    cases c with
    | link => exact ⟨hi, hv⟩
    | insert r =>
      cases r with
      | identifier r => exact ⟨by simp only [apply, insert, List.filter_append, hi], hv⟩
      | nameVariant r => exact ⟨hi, by simp only [apply, insert, List.filter_append, hv]⟩
      | _ => exact ⟨hi, hv⟩

theorem aggregate_applyAll {u : UUID} (h : ∀ r, .insert r ∈ cs → u ∉ r.reference?) :
    (t.applyAll cs).identifiersOf u = t.identifiersOf u ∧
      (t.applyAll cs).nameVariantsOf u = t.nameVariantsOf u := by
  induction cs generalizing t with
  | nil => exact ⟨rfl, rfl⟩
  | cons c cs ih =>
    have hc := aggregate_apply (t := t) (c := c) (u := u)
      (fun r hr => h r (hr ▸ List.mem_cons_self))
    have hrest := ih (t := t.apply c) (fun r hr => h r (List.mem_cons_of_mem c hr))
    exact ⟨hrest.1.trans hc.1, hrest.2.trans hc.2⟩

end Tables
end Hawiya
