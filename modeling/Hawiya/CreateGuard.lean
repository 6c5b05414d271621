import Hawiya.ColumnLengths
import Hawiya.RegistryRuns

/-!
# The guard of the create call

The matcher, the two conditional inserts and the partial unique index agree on what a supplied
identifier is: one that is present and not empty. In every registry reached from the empty one, a
create call is refused exactly when a supplied identifier is taken, and otherwise registers every
supplied identifier for the new person, as long as the database takes what it is asked and given.
-/

namespace Hawiya
open PyString Calendar Interaction Db

def Tables.Owned (t : Tables) : Prop :=
  ∀ r ∈ t.identifiers, r.status = .active ∧ r.identifier_value ≠ [] ∧
    ∃ q ∈ t.persons, q.person_uuid = r.person_uuid ∧ q.tenant_id = r.tenant_id

theorem Tables.Owned.of_same {t t' : Tables} (h : t.Owned) (hsame : SameRegistry t t') :
    t'.Owned := by
  obtain ⟨hpersons, hidentifiers⟩ := hsame
  rw [Tables.Owned, hpersons, hidentifiers]
  exact h

theorem Tables.Owned.of_adds {t t' : Tables} {p : Person} {new : List PersonIdentifier}
    (h : t.Owned) (hadds : Adds t t' p new) : t'.Owned := by
  intro r hr
  rw [hadds.identifiers, List.mem_append] at hr
  rw [hadds.persons]
  rcases hr with hr | hr
  · obtain ⟨hstatus, hvalue, q, hq, hqs⟩ := h r hr
    exact ⟨hstatus, hvalue, q, List.mem_append_left _ hq, hqs⟩
  · obtain ⟨htenant, hperson, hstatus, hvalue⟩ := hadds.owned r hr
    exact ⟨hstatus, hvalue, p, List.mem_append_right _ (List.mem_singleton.mpr rfl), hperson.symm,
      htenant.symm⟩

theorem replay_owned (lib : Libraries) (tenants : List UUID) (history : List Request) :
    (replay lib history (.empty tenants)).keys.Nodup ∧
      (replay lib history (.empty tenants)).Owned := by
  apply replay_invariant (P := fun t => t.keys.Nodup ∧ t.Owned)
  · rintro req t ⟨hkeys, howned⟩
    refine ⟨transact_keys_nodup _ hkeys, ?_⟩
    rcases perform_registry lib req hkeys with hsame | ⟨p, new, hadds⟩
    · exact howned.of_same hsame
    · exact howned.of_adds hadds
  · exact ⟨List.nodup_nil, fun r hr => absurd hr List.not_mem_nil⟩

namespace PersonService
variable {lib : Libraries} {ctx : RequestContext} {draws : Draws} {tenant_id : UUID} {args : Args}
variable {t : Tables}

/-- The identifiers a call supplies: those present and not empty. -/
def Args.supplied (args : Args) : List (IdentifierType × Str) :=
  (orNone args.passport_number).toList.map (fun v => (.passport, v)) ++
    (orNone args.emirates_id).toList.map (fun v => (.emiratesId, v))

def Taken (t : Tables) (tenant_id : UUID) (args : Args) : Prop :=
  ∃ s ∈ args.supplied, ∃ r ∈ t.identifiers, r.tenant_id = tenant_id ∧ r.identifier_type = s.1 ∧
    r.identifier_value = s.2 ∧ r.status = .active

theorem mem_keys_iff_active {identifier_type : IdentifierType} {v : Str} :
    .activeIdentifier tenant_id identifier_type v ∈ t.keys ↔
      ∃ r ∈ t.identifiers, r.tenant_id = tenant_id ∧ r.identifier_type = identifier_type ∧
        r.identifier_value = v ∧ r.status = .active := by
  rw [← not_iff_not, ← t.activeIdentifiers_eq_nil_iff, List.eq_nil_iff_forall_not_mem]
  simp only [Tables.mem_activeIdentifiers, Tables.isActive_iff, not_exists]

theorem not_taken_iff : ¬ Taken t tenant_id args ↔ NoneActive t tenant_id args := by
  unfold Taken NoneActive
  simp only [Tables.active?_eq_none_iff, ← mem_keys_iff_active, Args.supplied, List.mem_append,
    List.mem_map, Option.mem_toList, not_exists, not_and]
  constructor
  · intro h
    exact ⟨fun v hv hne => h _ (.inl ⟨v, orNone_eq_some_iff.mpr ⟨hv, hne⟩, rfl⟩),
      fun v hv hne => h _ (.inr ⟨v, orNone_eq_some_iff.mpr ⟨hv, hne⟩, rfl⟩)⟩
  · rintro ⟨hpassport, hemirates⟩ s (⟨v, hv, rfl⟩ | ⟨v, hv, rfl⟩)
    · obtain ⟨hsome, hne⟩ := orNone_eq_some_iff.mp hv
      exact hpassport v hsome hne
    · obtain ⟨hsome, hne⟩ := orNone_eq_some_iff.mp hv
      exact hemirates v hsome hne

theorem identifiers_supplied :
    (identifiers draws tenant_id args).map (fun r => (r.identifier_type, r.identifier_value)) =
      args.supplied := by
  unfold identifiers Args.supplied
  cases orNone args.passport_number with
  | none => cases orNone args.emirates_id <;> rfl
  | some n => cases orNone args.emirates_id <;> rfl

theorem nul_not_mem_supplied (h : args.Storable lib ctx) {s : IdentifierType × Str}
    (hs : s ∈ args.supplied) : nul ∉ s.2 := by
  rcases List.mem_append.mp hs with hs | hs
  · obtain ⟨v, hv, rfl⟩ := List.mem_map.mp hs
    exact (h.passport_number v (Option.mem_toList.mp hv)).1.text
  · obtain ⟨v, hv, rfl⟩ := List.mem_map.mp hs
    exact (h.emirates_id v (Option.mem_toList.mp hv)).text

/-- `t'` is `t` with one more person, who has exactly the supplied identifiers, and each of these
is found for that person. -/
structure Registration (t t' : Tables) (tenant_id person_uuid : UUID)
    (supplied : List (IdentifierType × Str)) : Prop where
  added : ∃ p new, Adds t t' p new ∧ p.tenant_id = tenant_id ∧ p.person_uuid = person_uuid ∧
    new.map (fun r => (r.identifier_type, r.identifier_value)) = supplied
  unique : t'.keys.Nodup
  found : ∀ s ∈ supplied, ∃ r,
    runTx () (PersonIdentifierRepository.findActive tenant_id s.1 s.2) (Db.start t') =
      (.ok (some r), Db.start t') ∧ r.tenant_id = tenant_id ∧ r.person_uuid = person_uuid

theorem registration_allRows (hstorable : args.Storable lib ctx)
    (h : (t.insertAll (allRows lib ctx draws tenant_id args)).keys.Nodup) :
    Registration t (t.insertAll (allRows lib ctx draws tenant_id args)) tenant_id draws.person_uuid
      args.supplied where
  added := ⟨_, _, adds_allRows, rfl, rfl, identifiers_supplied⟩
  unique := h
  found := by
    intro s hs
    have hsupplied : (identifiers draws tenant_id args).map
      (fun r => (r.identifier_type, r.identifier_value)) = args.supplied := identifiers_supplied
    have hnul : nul ∉ s.2 := nul_not_mem_supplied hstorable hs
    rw [← hsupplied, List.mem_map] at hs
    obtain ⟨r, hr, rfl⟩ := hs
    have hadds : Adds t (t.insertAll (allRows lib ctx draws tenant_id args)) _ _ := adds_allRows
    obtain ⟨htenant, hperson, hstatus, -⟩ := hadds.owned r hr
    have hactive : r ∈ (t.insertAll (allRows lib ctx draws tenant_id args)).activeIdentifiers
        tenant_id r.identifier_type r.identifier_value := by
      rw [Tables.mem_activeIdentifiers, Tables.isActive_iff, hadds.identifiers]
      exact ⟨List.mem_append_right _ hr, htenant, rfl, rfl, hstatus⟩
    refine ⟨r, ?_, htenant, hperson⟩
    have hview : (Db.start (t.insertAll (allRows lib ctx draws tenant_id args))).view () =
        t.insertAll (allRows lib ctx draws tenant_id args) := by
      rw [start_eq_during, view_during]
      rfl
    rw [run_findActive (by rwa [hview]) _ _ hnul, hview,
      Tables.activeIdentifiers_eq_singleton _ h hactive]
    rfl

/-- A create call is refused exactly when a supplied identifier is taken, and then changes nothing.
Otherwise it commits one person with the supplied identifiers. -/
structure Guards (lib : Libraries) (ctx : RequestContext) (draws : Draws) (tenant_id : UUID)
    (args : Args) (t : Tables) : Prop where
  refused : (∃ m, (runTx () (create lib ctx draws tenant_id args) (Db.start t)).1 =
    .error (.possibleDuplicateError m)) ↔ Taken t tenant_id args
  unchanged : Taken t tenant_id args →
    (runTx () (create lib ctx draws tenant_id args) (Db.start t)).2 = Db.start t
  registered : ¬ Taken t tenant_id args →
    ∃ p t', transact ctx (create lib ctx draws tenant_id args) t = (.ok p, t') ∧
      p.person.person_uuid = draws.person_uuid ∧
      Registration t t' tenant_id draws.person_uuid args.supplied

/-- The database can be asked for what the matcher looks up. Unless that finds somebody, it can also
hold what the call writes, and knows the tenant. -/
structure Takes (lib : Libraries) (ctx : RequestContext) (tenant_id : UUID) (args : Args)
    (t : Tables) : Prop where
  asked : Askable t tenant_id args.query
  written : ¬ Taken t tenant_id args → args.Storable lib ctx ∧ tenant_id ∈ t.tenants

theorem guards_of_takes (hctx : ctx.tenant_id = some tenant_id) (hkeys : t.keys.Nodup)
    (hfresh : .person draws.person_uuid ∉ t.keys) (h : Takes lib ctx tenant_id args t) :
    Guards lib ctx draws tenant_id args t := by
  by_cases htaken : Taken t tenant_id args
  · have hfound := run_create_found lib draws hctx hkeys h.asked
      (fun hnone => not_taken_iff.mpr hnone htaken)
    rw [← start_eq_during] at hfound
    exact ⟨iff_of_true ⟨_, congrArg Prod.fst hfound⟩ htaken, fun _ => congrArg Prod.snd hfound,
      fun hfree => absurd htaken hfree⟩
  · obtain ⟨hstorable, htenant⟩ := h.written htaken
    have hnone := not_taken_iff.mp htaken
    have hacc : t.AcceptsAll (allRows lib ctx draws tenant_id args) :=
      allRows_accepted (storable_allRows_iff.mpr hstorable) htenant hnone hfresh
    have hcreated := transact_create_of_accepts hctx hkeys h.asked hnone hacc
    have hunique : (transact ctx (create lib ctx draws tenant_id args) t).2.keys.Nodup :=
      transact_keys_nodup _ hkeys
    rw [hcreated] at hunique
    refine ⟨iff_of_false ?_ htaken, fun h => absurd h htaken,
      fun _ => ⟨_, _, hcreated, rfl, registration_allRows hstorable hunique⟩⟩
    rintro ⟨m, hm⟩
    rw [start_eq_during, run_create_of_accepts hctx hkeys h.asked hnone hacc] at hm
    cases hm

theorem takes_of_guards (hctx : ctx.tenant_id = some tenant_id) (hkeys : t.keys.Nodup)
    (h : Guards lib ctx draws tenant_id args t) : Takes lib ctx tenant_id args t := by
  have hask : Askable t tenant_id args.query := by
    by_contra hask
    have hrun : runTx () (create lib ctx draws tenant_id args) (during t () [] []) =
        (.error .dbapiError, during t () [] []) := run_create_not_askable t () [] [] hctx hkeys hask
    by_cases htaken : Taken t tenant_id args
    · obtain ⟨m, hm⟩ := h.refused.mpr htaken
      rw [start_eq_during, hrun] at hm
      cases hm
    · obtain ⟨p, t', hok, -⟩ := h.registered htaken
      rw [transact_of_error hctx hrun] at hok
      cases hok
  refine ⟨hask, fun htaken => ?_⟩
  have hacc : t.AcceptsAll (allRows lib ctx draws tenant_id args) := by
    by_contra hacc
    obtain ⟨e, cs', -, hrun⟩ := run_create_of_not_accepts hctx hkeys hask (not_taken_iff.mp htaken)
      hacc
    obtain ⟨p, t', hok, -⟩ := h.registered htaken
    rw [transact_of_error hctx hrun] at hok
    cases hok
  refine ⟨storable_allRows_iff.mp (fun r hr => hacc.storable hr), ?_⟩
  exact hacc.1.reference.2 tenant_id rfl

end PersonService

instance (t : Tables) (tenant_id : UUID) (args : PersonService.Args) :
    Decidable (PersonService.Taken t tenant_id args) :=
  inferInstanceAs (Decidable (∃ s ∈ args.supplied, ∃ r ∈ t.identifiers, _ ∧ _ ∧ _ ∧ _))

namespace Specimen
open PersonService

def emiratesIdBody : PersonService.Args where
  canonical_name_en := some "Mohamed Almansoori".toList
  passport_number := some []
  emirates_id := some "784199012345671".toList

def resolved : Tables :=
  replay lib [.resolve ctx (draws 10 11) ⟨photo, none, none⟩ true] (.empty [tenant])

/-- The number of the resolved passport, with an Emirates ID that holds a NUL. -/
def nulBody : PersonService.Args where
  passport_number := some "P1234567".toList
  emirates_id := some [nul]

end Specimen
end Hawiya
