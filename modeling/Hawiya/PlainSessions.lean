import Hawiya.ApiRuns
import Hawiya.Lib.Simulation

/-!
# The database without settings

A session that binds its transaction and then runs a body is, for the tables, the body alone: the
settings of the sessions can be left out of the state and the binding out of the programs. Together
with the policies making no difference, a run of the API on the database with policies is a run of
its calls on the plain database.
-/

namespace Hawiya
open PyString Interaction

namespace Db
variable {ι : Type} [DecidableEq ι] {db : Db ι} {i j : ι}

/-- The session has done nothing in its transaction. -/
structure Idle (db : Db ι) (i : ι) : Prop where
  changes : db.changesOf i = []
  pending : db.pending i = []

theorem Idle.exec (h : db.Idle i) (hji : i ≠ j) (outcome : Outcome) (op : DbOp) :
    (Db.exec j outcome op db).2.Idle i := by
  obtain ⟨hchanges, hpending, -⟩ := Db.exec_frame outcome op db hji
  exact ⟨hchanges.trans h.changes, hpending.trans h.pending⟩

theorem Idle.rollback (h : db.Idle i) : (db.endTransaction i).setPending i [] = db := by
  have hnone : ∀ e ∈ db.uncommitted, e.1 ≠ i := by
    rintro ⟨_, c⟩ he rfl
    have hc : c ∈ db.changesOf _ := mem_changesOf.mpr he
    rw [h.changes] at hc
    cases hc
  have huncommitted : db.uncommitted.filter (fun e => e.1 ≠ i) = db.uncommitted :=
    List.filter_eq_self.mpr (fun e he => decide_eq_true (hnone e he))
  have hpending : Function.update db.pending i [] = db.pending := by
    rw [← h.pending, Function.update_eq_self]
  rw [setPending, endTransaction, huncommitted, hpending]

end Db

namespace BoundDb
variable {ι : Type} [DecidableEq ι] {α : Type}

/-- Where a session stands, and where the session without the binding stands. -/
inductive Stage (ctx : RequestContext) (body : Tx α) (db : Db ι) (i : ι) :
    SessionTx α → Tx α → Prop
  | unbound (idle : db.Idle i) (bound : ctx.tenant_id ≠ none) :
      Stage ctx body db i (SessionTx.getSession ctx (SessionTx.statements body))
        (Hawiya.getSession ctx body)
  | running (p : Tx α) : Stage ctx body db i (SessionTx.statements p) p
  | failing (e : PyError) (idle : db.Idle i) (p : Tx α) :
      Stage ctx body db i (SessionTx.statements (do Session.rollback; throw e)) p
  | failed (e : PyError) (p : Tx α) : Stage ctx body db i (.throw e) p

variable {ctx : RequestContext} {body : Tx α} {db db' : Db ι} {i j : ι}

theorem Stage.idle {p : SessionTx α} {p' : Tx α} (h : Stage ctx body db i p p')
    (hidle : db.Idle i → db'.Idle i) : Stage ctx body db' i p p' := by
  cases h with
  | unbound idle bound => exact .unbound (hidle idle) bound
  | running => exact .running p'
  | failing e idle => exact .failing e (hidle idle) p'
  | failed e => exact .failed e p'

theorem stage_start (ctx : RequestContext) (body : Tx α) (t : Tables) (i : ι) :
    Stage ctx body (Db.start t) i (SessionTx.getSession ctx (SessionTx.statements body))
      (Hawiya.getSession ctx body) := by
  by_cases hctx : ctx.tenant_id = none
  · have hfailing : SessionTx.getSession ctx (SessionTx.statements body) =
        SessionTx.statements (do
          Session.rollback
          throw (.runtimeError "set_session_tenant called without a tenant in context.")) := by
      unfold SessionTx.getSession SessionTx.setSessionTenant
      rw [hctx]
      rfl
    rw [hfailing]
    exact .failing _ ⟨rfl, rfl⟩ _
  · exact .unbound ⟨rfl, rfl⟩ hctx

theorem getSession_bound {tenant_id : UUID} (hctx : ctx.tenant_id = some tenant_id) (body : Tx α) :
    ∃ next,
      SessionTx.getSession ctx (SessionTx.statements body) = .call (.setConfig tenant_id) next ∧
      next (.ok ()) = SessionTx.statements (Hawiya.getSession ctx body) ∧
      ∀ e, next (.error e) = SessionTx.statements (do Session.rollback; throw e) := by
  unfold SessionTx.getSession SessionTx.setSessionTenant Hawiya.getSession
  rw [hctx]
  refine ⟨_, rfl, ?_, fun e => rfl⟩
  rw [SessionTx.statements_handle]
  rfl

/-- The pools agree on the tables, and each session stands where the plain one stands. -/
structure Plain (ctxs : ι → RequestContext) (bodies : ι → Tx α)
    (q : Pool ι (BoundDb ι) SessionOp SessionOp.Reply PyError α)
    (q' : Pool ι (Db ι) DbOp DbOp.Reply PyError α) : Prop where
  shared : q'.shared = q.shared.db
  stages : ∀ i, Stage (ctxs i) (bodies i) q.shared.db i (q.program i) (q'.program i)

section Steps
variable {ctxs : ι → RequestContext} {bodies : ι → Tx α} {similarity : Str → Str → ℚ}
variable {q r : Pool ι (BoundDb ι) SessionOp SessionOp.Reply PyError α}
variable {q' r' : Pool ι (Db ι) DbOp DbOp.Reply PyError α} {choice : Choice}

/-- Session `i` has moved, and what it did to the tables left the others idle where they were. -/
theorem Plain.moved (h : Plain ctxs bodies q q') {p : SessionTx α} {p' : Tx α} {s : BoundDb ι}
    (hothers : ∀ j, j ≠ i → q.shared.db.Idle j → s.db.Idle j)
    (hi : Stage (ctxs i) (bodies i) s.db i p p') :
    Plain ctxs bodies ⟨s, Function.update q.program i p⟩
      ⟨s.db, Function.update q'.program i p'⟩ where
  shared := rfl
  stages j := by
    change Stage (ctxs j) (bodies j) s.db j (Function.update q.program i p j)
      (Function.update q'.program i p' j)
    by_cases hji : j = i
    · subst hji
      rw [Function.update_self, Function.update_self]
      exact hi
    · rw [Function.update_of_ne hji, Function.update_of_ne hji]
      exact (h.stages j).idle (hothers j hji)

/-- The plain session stays where it is. -/
theorem Plain.stutter (h : Plain ctxs bodies q q') {p : SessionTx α} {s : BoundDb ι}
    (hdb : s.db = q.shared.db)
    (hi : Stage (ctxs i) (bodies i) s.db i p (q'.program i)) :
    Plain ctxs bodies ⟨s, Function.update q.program i p⟩ q' := by
  have hmoved := h.moved (fun j _ hidle => by rw [hdb]; exact hidle) hi
  rw [Function.update_eq_self, hdb, ← h.shared] at hmoved
  exact hmoved

theorem waits_statement {s : BoundDb ι} {op : DbOp} :
    waits false i (.statement op) s = Db.waits i op s.db := by
  cases op with
  | insert r => rfl
  | updateExtraction => rfl
  | _ => rfl

theorem Plain.statement (h : Plain ctxs bodies q q') {op : DbOp}
    {next : Except PyError op.Reply → Tx α} (hp : q'.program i = .call op next)
    (hw : waits false i (.statement op) q.shared = false) (outcome : Outcome) :
    ∃ r', q'.step Db.environment i outcome = some r' ∧
      Plain ctxs bodies
        ⟨(execStatement false i outcome op q.shared).2,
          Function.update q.program i
            (SessionTx.statements (next (execStatement false i outcome op q.shared).1))⟩ r' := by
  obtain ⟨hreply, hdb⟩ := execStatement_unforced (i := i) (s := q.shared) outcome op
  rw [waits_statement] at hw
  have hstep : q'.step Db.environment i outcome = some {
      shared := (Db.exec i outcome op q'.shared).2
      program := Function.update q'.program i (next (Db.exec i outcome op q'.shared).1) } := by
    unfold Pool.step
    simp only [hp, Db.environment, h.shared, hw, Bool.false_eq_true, if_false]
  refine ⟨_, hstep, ?_⟩
  have hmoved := h.moved (i := i) (s := (execStatement false i outcome op q.shared).2)
    (fun j hji hidle => hdb ▸ hidle.exec hji outcome op)
    (.running (next (execStatement false i outcome op q.shared).1))
  rw [hreply, hdb, ← h.shared] at hmoved
  rw [hreply, ← h.shared]
  exact hmoved

theorem simulates_plain :
    Simulates (environment similarity false) Db.environment Pool.Unrestricted
      (Plain ctxs bodies) := by
  intro q q' i choice r h hstep
  obtain ⟨op, next, hp, hw, rfl⟩ := Pool.step_cases hstep
  have hstage := h.stages i
  rw [hp] at hstage
  generalize hreal : Program.call op next = real at hstage
  generalize hplain : q'.program i = plain at hstage
  cases hstage with
  | failed e => cases hreal
  | failing e idle =>
    cases hreal
    refine ⟨q', .start, h.stutter idle.rollback ?_⟩
    exact .failed e _
  | running =>
    cases plain with
    | pure a => cases hreal
    | throw e => cases hreal
    | call op' next' =>
      cases hreal
      obtain ⟨r', hstep', hplain'⟩ := h.statement hplain hw choice.outcome
      exact ⟨r', .next .start hstep' (Pool.allows_unrestricted _ _ _), hplain'⟩
  | unbound idle bound =>
    obtain ⟨tenant_id, hctx⟩ := Option.ne_none_iff_exists'.mp bound
    obtain ⟨next', hsession, hok, herror⟩ := getSession_bound hctx (bodies i)
    rw [hsession] at hreal
    cases hreal
    refine ⟨q', .start, ?_⟩
    obtain ⟨outcome, tie⟩ := choice
    cases outcome with
    | accept =>
      have hrunning : Stage (ctxs i) (bodies i) q.shared.db i (next' (.ok ())) (q'.program i) := by
        rw [hok, hplain]
        exact .running _
      exact h.stutter (s := q.shared.bind i (some tenant_id)) rfl hrunning
    | refuse =>
      have hfailing : Stage (ctxs i) (bodies i) q.shared.db i (next' (.error .operationalError))
          (q'.program i) := by
        rw [herror]
        exact .failing _ idle _
      exact h.stutter (s := q.shared) rfl hfailing

end Steps

end BoundDb

/-- The endpoint as a program of the plain database, for the calls that only use its statements. -/
def ApiCall.body (lib : Libraries) (ctx : RequestContext) : ApiCall → Option (Tx ApiAnswer)
  | .extract draws upload => some (do
      let r ← extractDocument lib ctx draws upload
      return .response r)
  | .resolve draws upload create_if_missing => some (do
      let r ← resolveIdentity lib ctx draws upload create_if_missing
      return .response r)
  | .create draws args => some (do
      let r ← createPerson lib ctx draws args
      return .response r)
  | .get person_uuid => some (do
      let r ← getPerson ctx person_uuid
      return .lookup r)
  | .search .. => none

theorem ApiCall.endpoint_of_body {lib : Libraries} {ctx : RequestContext} {call : ApiCall}
    {body : Tx ApiAnswer} (h : call.body lib ctx = some body) :
    call.endpoint lib ctx = SessionTx.statements body := by
  cases call with
  | search => cases h
  | _ =>
    rw [← Option.some.inj h, SessionTx.statements_bind]
    rfl

namespace BoundDb
variable {ι : Type} [DecidableEq ι] {α : Type} {similarity : Str → Str → ℚ} {t : Tables}
variable {ctxs : ι → RequestContext} {allowed : ι → Choice → SessionOp → BoundDb ι → Prop}

/-- Sessions without policies refine the bodies they run, on the plain database. -/
theorem sessions_refine {bodies : ι → Tx α}
    {q : Pool ι (BoundDb ι) SessionOp SessionOp.Reply PyError α}
    (hrun : Pool.Run (environment similarity false) allowed
      ⟨start t, fun i => SessionTx.getSession (ctxs i) (SessionTx.statements (bodies i))⟩ q) :
    ∃ q', Pool.Run Db.environment Pool.Unrestricted
        ⟨Db.start t, fun i => getSession (ctxs i) (bodies i)⟩ q' ∧
      q'.shared = q.shared.db ∧ ∀ i a, q.program i = .pure a → q'.program i = .pure a := by
  have hstart : Plain ctxs bodies
      ⟨start t, fun i => SessionTx.getSession (ctxs i) (SessionTx.statements (bodies i))⟩
      ⟨Db.start t, fun i => getSession (ctxs i) (bodies i)⟩ :=
    ⟨rfl, fun i => stage_start (ctxs i) (bodies i) t i⟩
  obtain ⟨q', hrun', hplain⟩ := simulates_plain.run hstart hrun
  refine ⟨q', hrun', hplain.shared, fun i a ha => ?_⟩
  have hstage := hplain.stages i
  rw [ha] at hstage
  generalize hreal : Program.pure a = real at hstage
  generalize hp : q'.program i = plain at hstage
  cases hstage with
  | failed e => cases hreal
  | failing e => cases hreal
  | running =>
    cases plain with
    | pure b =>
      cases hreal
      rfl
    | throw e => cases hreal
    | call op next => cases hreal
  | unbound idle bound =>
    obtain ⟨tenant_id, hctx⟩ := Option.ne_none_iff_exists'.mp bound
    obtain ⟨next, hsession, -⟩ := getSession_bound hctx (bodies i)
    rw [hsession] at hreal
    cases hreal

/-- A run of the API on the database with policies is a run of its calls on the plain database, with
the same tables, the same log and the same answers. -/
theorem api_refines {lib : Libraries} {calls : ι → ApiCall} {bodies : ι → Tx ApiAnswer}
    {q : Pool ι (BoundDb ι) SessionOp SessionOp.Reply PyError ApiAnswer} (hkeys : t.keys.Nodup)
    (hcohesive : t.Cohesive) (hbodies : ∀ i, (calls i).body lib (ctxs i) = some (bodies i))
    (hrun : Pool.Run (environment similarity true) allowed (apiPool lib ctxs calls t) q) :
    ∃ q', Pool.Run Db.environment Pool.Unrestricted
        ⟨Db.start t, fun i => getSession (ctxs i) (bodies i)⟩ q' ∧
      q'.shared = q.shared.db ∧ ∀ i a, q.program i = .pure a → q'.program i = .pure a := by
  have hpool : apiPool lib ctxs calls t =
      ⟨start t, fun i => SessionTx.getSession (ctxs i) (SessionTx.statements (bodies i))⟩ := by
    unfold apiPool
    congr 1
    funext i
    rw [ApiCall.session, ApiCall.endpoint_of_body (hbodies i)]
  have hunforced := Protocol.Conforms.transfer (kept similarity true) (agree_forced similarity).symm
    (keeping_apiPool hkeys hcohesive) hrun
  rw [hpool] at hunforced
  exact sessions_refine hunforced

end BoundDb

namespace Specimen
open BoundDb

def bodies (first : Bool) : Tx ApiAnswer :=
  if first then do
    let r ← createPerson lib ctx (draws 10 11) fatima
    return .response r
  else do
    let r ← getPerson ctx 11
    return .lookup r

theorem calling_refines : ∃ q',
    Pool.Run Db.environment Pool.Unrestricted
        ⟨Db.start (Tables.empty [1]), fun i => getSession ctx (bodies i)⟩ q' ∧
      q'.program false = .pure (.lookup (.found fatimaResponse)) := by
  obtain ⟨q, hrun, -, hfound⟩ := calling_runs true
  have hbodies : ∀ i, (createAndGet i).body lib ctx = some (bodies i) := by
    intro i
    cases i with
    | _ => rfl
  obtain ⟨q', hrun', -, hanswers⟩ :=
    api_refines (Tables.nodup_keys_empty _) (Tables.cohesive_empty _) hbodies hrun
  exact ⟨q', hrun', hanswers false _ hfound⟩

end Specimen
end Hawiya
