import Hawiya.SessionAnswers
import Hawiya.SessionInvariants

/-!
# Runs of the API

A pool with one session for each call, in any interleaving of their statements, with or without
policies. Every account fits the database in every state reached: the committed tables stay
cohesive, an answer agrees with the committed tables from the moment it is there, and the policies
make no difference.
-/

namespace Hawiya
open PyString Calendar Interaction

/-- The tenant of a request; a request without one never binds a session. -/
def RequestContext.tenant (ctx : RequestContext) : UUID := ctx.tenant_id.getD 0

/-- One session for each call. -/
def apiPool {ι : Type} (lib : Libraries) (ctxs : ι → RequestContext) (calls : ι → ApiCall)
    (t : Tables) : Pool ι (BoundDb ι) SessionOp SessionOp.Reply PyError ApiAnswer where
  shared := BoundDb.start t
  program i := (calls i).session lib (ctxs i)

/-- A person with the rows about it. -/
def Tables.load (t : Tables) (p : Person) : PersonService.LoadedPerson where
  person := p
  identifiers := t.identifiersOf p.person_uuid
  name_variants := t.nameVariantsOf p.person_uuid

def Tables.Shows (t : Tables) (tenant : UUID) (r : PersonResponse) : Prop :=
  ∃ p ∈ t.persons, p.tenant_id = tenant ∧ r = toResponse (t.load p)

/-- Whom the answer names is a person of the tenant, and what it shows of a person is all there
is. -/
def ApiAnswer.Accurate (tenant : UUID) (t : Tables) : ApiAnswer → Prop
  | .response (.extracted _) => True
  | .response (.resolved r) => ∀ u ∈ r.person_uuid, t.HasPerson u tenant
  | .response (.created r) => t.Shows tenant r
  | .response (.error e) => ∀ u ∈ e.persons, t.HasPerson u tenant
  | .lookup (.found r) => t.Shows tenant r
  | .lookup (.notFound ..) => True
  | .candidates rs => ∃ ps : List Person,
      (∀ p ∈ ps, p ∈ t.persons ∧ p.tenant_id = tenant) ∧ rs = ps.map toSummary

namespace Account
variable {tenant : UUID} {k : Account} {t : Tables}

theorem KnowsAll.shows {loaded : PersonService.LoadedPerson} (h : k.KnowsAll loaded)
    (hfacts : ∀ f ∈ k.facts, f.Holds tenant t) : t.Shows tenant (toResponse loaded) := by
  obtain ⟨hperson, htenant⟩ := hfacts _ (h.row _ List.mem_cons_self)
  have hidentifiers := (hfacts _ h.identifiers).2
  have hvariants := (hfacts _ h.name_variants).2
  refine ⟨loaded.person, hperson, htenant, ?_⟩
  rw [Tables.load, hidentifiers, hvariants]

/-- What the account warrants is accurate where its facts hold. -/
theorem Warrants.accurate {a : ApiAnswer} (h : k.Warrants a)
    (hfacts : ∀ f ∈ k.facts, f.Holds tenant t) : a.Accurate tenant t := by
  cases a with
  | response r =>
    cases r with
    | extracted r => trivial
    | resolved r => exact fun u hu => hfacts _ (h u hu)
    | created r =>
      obtain ⟨loaded, hloaded, rfl⟩ := h
      exact hloaded.shows hfacts
    | error e => exact fun u hu => hfacts _ (h u hu)
  | lookup r =>
    cases r with
    | found r =>
      obtain ⟨loaded, hloaded, rfl⟩ := h
      exact hloaded.shows hfacts
    | notFound => trivial
  | candidates rs =>
    obtain ⟨ps, hps, rfl⟩ := h
    exact ⟨ps, fun p hp => hfacts _ (hps p hp _ List.mem_cons_self), rfl⟩

end Account

namespace BoundDb
variable {ι : Type} [DecidableEq ι] {lib : Libraries} {ctxs : ι → RequestContext}
variable {calls : ι → ApiCall} {t : Tables} {similarity : Str → Str → ℚ} {forced : Bool}
variable {allowed : ι → Choice → SessionOp → BoundDb ι → Prop}
variable {q q' : Pool ι (BoundDb ι) SessionOp SessionOp.Reply PyError ApiAnswer}

/-- Every session of the pool keeps to the protocol of its tenant. -/
def Keeping (ctxs : ι → RequestContext) (calls : ι → ApiCall)
    (q : Pool ι (BoundDb ι) SessionOp SessionOp.Reply PyError ApiAnswer) : Prop :=
  Protocol.Conforms (fun i => Account.protocol (ctxs i).tenant (· ∈ (calls i).drawn))
    (AllFit (fun i => (ctxs i).tenant) (fun i => (· ∈ (calls i).drawn)))
    (fun i => Account.Answered (ctxs i)) q

theorem keeping_apiPool (hkeys : t.keys.Nodup) (hcohesive : t.Cohesive) :
    Keeping ctxs calls (apiPool lib ctxs calls t) := by
  refine ⟨fun _ => Account.start, allFit_start hkeys hcohesive, fun i => ?_⟩
  apply Account.follows_session
  · intro tenant htenant
    rw [RequestContext.tenant, htenant]
    rfl
  · exact fun u hu => hu

theorem keeping_run (hkeys : t.keys.Nodup) (hcohesive : t.Cohesive)
    (hrun : Pool.Run (environment similarity forced) allowed (apiPool lib ctxs calls t) q) :
    Keeping ctxs calls q :=
  Protocol.Conforms.run (kept similarity forced) (keeping_apiPool hkeys hcohesive) hrun

/-- In every state of every run the keys are unique, and each row names persons who are there, and
of its own tenant. -/
theorem committed_cohesive (hkeys : t.keys.Nodup) (hcohesive : t.Cohesive)
    (hrun : Pool.Run (environment similarity forced) allowed (apiPool lib ctxs calls t) q) :
    q.shared.db.committed.keys.Nodup ∧ q.shared.db.committed.Cohesive := by
  obtain ⟨ks, hfit, -⟩ := keeping_run hkeys hcohesive hrun
  exact ⟨hfit.consistent.committed, hfit.cohesive⟩

/-- The policies can be installed or dropped: the runs are the same. -/
theorem policies_invisible (hkeys : t.keys.Nodup) (hcohesive : t.Cohesive) :
    Pool.Run (environment similarity true) allowed (apiPool lib ctxs calls t) q ↔
      Pool.Run (environment similarity false) allowed (apiPool lib ctxs calls t) q :=
  Protocol.Conforms.run_iff (kept similarity false) (agree_forced similarity)
    (keeping_apiPool hkeys hcohesive)

theorem Keeping.accurate (h : Keeping ctxs calls q) {i : ι} {a : ApiAnswer}
    (ha : q.program i = .pure a) :
    ∃ tenant, (ctxs i).tenant_id = some tenant ∧ a.Accurate tenant q.shared.db.committed := by
  obtain ⟨ks, hfit, hanswered⟩ := Protocol.Conforms.returned h ha
  obtain ⟨htenant, hended, hwarrants⟩ := hanswered a rfl
  obtain ⟨tenant, htenant⟩ := Option.ne_none_iff_exists'.mp htenant
  have hview : q.shared.db.view i = q.shared.db.committed := by
    rw [Db.view, (hfit.each i).idle hended]
    rfl
  have hsame : (ctxs i).tenant = tenant := by
    rw [RequestContext.tenant, htenant]
    rfl
  refine ⟨tenant, htenant, ?_⟩
  rw [← hview, ← hsame]
  exact hwarrants.accurate (hfit.each i).facts

/-- An answer agrees with the committed tables, whatever is committed after it. -/
theorem answer_stays_accurate (hkeys : t.keys.Nodup) (hcohesive : t.Cohesive)
    (hrun : Pool.Run (environment similarity forced) allowed (apiPool lib ctxs calls t) q)
    {i : ι} {a : ApiAnswer} (ha : q.program i = .pure a)
    (hlater : Pool.Run (environment similarity forced) allowed q q') :
    ∃ tenant, (ctxs i).tenant_id = some tenant ∧ a.Accurate tenant q'.shared.db.committed :=
  (keeping_run hkeys hcohesive (hrun.trans hlater)).accurate (Protocol.returned_stays hlater ha)

end BoundDb

namespace Specimen
open BoundDb

/-- Words that are not equal have nothing in common. -/
def similarity (n q : Str) : ℚ := if n = q then 1 else 0

def fatima : PersonService.Args where
  canonical_name_en := some "Fatima".toList
  passport_number := some "P1234567".toList
  nationality := some "ARE".toList

/-- A person is created and looked up. -/
def createAndGet (first : Bool) : ApiCall := if first then .create (draws 10 11) fatima else .get 11

def calling : Pool Bool (BoundDb Bool) SessionOp SessionOp.Reply PyError ApiAnswer :=
  apiPool lib (fun _ => ctx) createAndGet (Tables.empty [1])

def accepts : Choice := ⟨.accept, id⟩

/-- The session of the lookup is bound before the person is committed. -/
def schedule : List (Bool × Choice) :=
  (false, accepts) :: List.replicate 16 (true, accepts) ++ List.replicate 5 (false, accepts)

def answer {α : Type} : SessionTx α → Option α
  | .pure a => some a
  | _ => none

theorem eq_pure_of_answer {α : Type} {p : SessionTx α} {a : α} (h : answer p = some a) :
    p = .pure a := by
  cases p with
  | pure b => exact congrArg Program.pure (Option.some.inj h)
  | throw e => cases h
  | call op next => cases h

def fatimaResponse : PersonResponse where
  person_uuid := 11
  canonical_name_ar := none
  canonical_name_en := some "Fatima".toList
  date_of_birth := none
  nationality := some "ARE".toList
  sex := none
  status := "active"
  identifiers := [{
    identifier_type := "passport"
    identifier_value := "P1234567".toList
    issuing_country := none
    expiry_date := none
    is_primary := true }]
  name_variants := [{
    name_value := "Fatima".toList
    script := "latin"
    variant_type := "canonical" }]

theorem calling_runs (forced : Bool) : ∃ q,
    Pool.Run (environment similarity forced) Pool.Unrestricted calling q ∧
      q.program true = .pure (.response (.created fatimaResponse)) ∧
      q.program false = .pure (.lookup (.found fatimaResponse)) := by
  have hends : (Pool.runSchedule (environment similarity forced) schedule calling).map
      (fun q => (answer (q.program true), answer (q.program false))) =
      some (some (.response (.created fatimaResponse)),
        some (.lookup (.found fatimaResponse))) := by
    cases forced with
    | _ => decide +kernel
  obtain ⟨q, hq, hends⟩ := Option.map_eq_some_iff.mp hends
  obtain ⟨hcreated, hfound⟩ := Prod.mk.inj hends
  exact ⟨q, Pool.run_of_runSchedule hq, eq_pure_of_answer hcreated, eq_pure_of_answer hfound⟩

theorem calling_cohesive : ∃ q,
    Pool.Run (environment similarity true) Pool.Unrestricted calling q ∧
      q.program false = .pure (.lookup (.found fatimaResponse)) ∧
      q.shared.db.committed.keys.Nodup ∧ q.shared.db.committed.Cohesive := by
  obtain ⟨q, hrun, -, hfound⟩ := calling_runs true
  exact ⟨q, hrun, hfound,
    committed_cohesive (Tables.nodup_keys_empty _) (Tables.cohesive_empty _) hrun⟩

theorem calling_accurate : ∃ q,
    Pool.Run (environment similarity true) Pool.Unrestricted calling q ∧
      q.shared.db.committed.Shows 1 fatimaResponse := by
  obtain ⟨q, hrun, -, hfound⟩ := calling_runs true
  obtain ⟨tenant, htenant, haccurate⟩ :=
    answer_stays_accurate (Tables.nodup_keys_empty _) (Tables.cohesive_empty _) hrun hfound .start
  cases htenant
  exact ⟨q, hrun, haccurate⟩

theorem calling_without_policies : ∃ q,
    Pool.Run (environment similarity false) Pool.Unrestricted calling q ∧
      q.program false = .pure (.lookup (.found fatimaResponse)) := by
  obtain ⟨q, hrun, -, hfound⟩ := calling_runs true
  exact ⟨q, (policies_invisible (Tables.nodup_keys_empty _) (Tables.cohesive_empty _)).mp hrun, hfound⟩

end Specimen
end Hawiya
