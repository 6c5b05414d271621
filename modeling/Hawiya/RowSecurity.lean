import Hawiya.Api
import Hawiya.PersonSearch
import Hawiya.TenantView

/-!
# Row-level security

`get_session` binds its transaction to the tenant of the request: `set_config` with `is_local` sets
`app.current_tenant` until the transaction ends. The migrations force row-level security on every
table that has a tenant and create one policy for it, which compares `tenant_id` with that setting,
for the rows a statement sees and for the rows it writes. `forced` says whether they are installed.

Unique indexes and foreign keys look at all rows either way. The error of a statement that violates
a policy is not told apart from that of another failed statement.
-/

namespace Hawiya
open PyString Interaction

/-- What a session asks of the server. -/
inductive SessionOp where
  | setConfig (tenant_id : UUID)
  | statement (op : DbOp)
  | selectByName (tenant_id : UUID) (q : Str) (limit : ℕ)
  deriving DecidableEq

abbrev SessionOp.Reply : SessionOp → Type
  | .setConfig _ => Unit
  | .statement op => op.Reply
  | .selectByName .. => List Person

abbrev SessionTx := Program SessionOp SessionOp.Reply PyError

/-- What the server decides: whether it executes the statement, and the order of equals. -/
structure Choice where
  outcome : Outcome
  tie : UUID → ℕ

/-- The database with the value of `app.current_tenant` in each session. -/
structure BoundDb (ι : Type) where
  db : Db ι
  current_tenant : ι → Option UUID

namespace BoundDb
variable {ι : Type}

def start (t : Tables) : BoundDb ι := ⟨Db.start t, fun _ => none⟩

/-- `tenant_id::text = current_setting('app.current_tenant', true)`. -/
def admits (forced : Bool) (s : BoundDb ι) (i : ι) (tenant_id : UUID) : Bool :=
  !forced || s.current_tenant i == some tenant_id

variable [DecidableEq ι]

def bind (s : BoundDb ι) (i : ι) (tenant_id : Option UUID) : BoundDb ι :=
  { s with current_tenant := Function.update s.current_tenant i tenant_id }

/-- The statement as it is without policies. -/
def pass (i : ι) (outcome : Outcome) (op : DbOp) (s : BoundDb ι) :
    Except PyError op.Reply × BoundDb ι :=
  ((Db.exec i outcome op s.db).1, { s with db := (Db.exec i outcome op s.db).2 })

/-- The rows of a reply that the policies show. -/
def hide {α : Type} (visible : α → Bool) (r : Except PyError (List α) × BoundDb ι) :
    Except PyError (List α) × BoundDb ι :=
  (r.1.map (List.filter visible), r.2)

def execStatement (forced : Bool) (i : ι) (outcome : Outcome) (op : DbOp) (s : BoundDb ι) :
    Except PyError op.Reply × BoundDb ι :=
  match op with
  | .add r => s.pass i outcome (.add r)
  | .takePending => s.pass i outcome .takePending
  | .insert r =>
      if s.admits forced i r.tenant_id then s.pass i outcome (.insert r)
      else (.error .operationalError, s)
  | .updateExtraction extraction_id tenant_id person_uuid match_action =>
      if s.admits forced i tenant_id then
        s.pass i outcome (.updateExtraction extraction_id tenant_id person_uuid match_action)
      else
        match outcome with
        | .accept => (.ok (), s)
        | .refuse => (.error .operationalError, s)
  | .selectIdentifiers tenant_id identifier_type identifier_value =>
      hide (fun r => s.admits forced i r.tenant_id)
        (s.pass i outcome (.selectIdentifiers tenant_id identifier_type identifier_value))
  | .selectPersons tenant_id person_uuid =>
      hide (fun r => s.admits forced i r.tenant_id)
        (s.pass i outcome (.selectPersons tenant_id person_uuid))
  | .selectPersonIdentifiers person_uuid =>
      hide (fun r => s.admits forced i r.tenant_id)
        (s.pass i outcome (.selectPersonIdentifiers person_uuid))
  | .selectPersonNameVariants person_uuid =>
      hide (fun r => s.admits forced i r.tenant_id)
        (s.pass i outcome (.selectPersonNameVariants person_uuid))
  | .commit => ((s.pass i outcome .commit).1, (s.pass i outcome .commit).2.bind i none)
  | .rollback => ((s.pass i outcome .rollback).1, (s.pass i outcome .rollback).2.bind i none)

def exec (similarity : Str → Str → ℚ) (forced : Bool) (i : ι) (choice : Choice) (op : SessionOp)
    (s : BoundDb ι) : Except PyError op.Reply × BoundDb ι :=
  match op with
  | .setConfig tenant_id =>
      match choice.outcome with
      | .accept => (.ok (), s.bind i (some tenant_id))
      | .refuse => (.error .operationalError, s)
  | .statement op => execStatement forced i choice.outcome op s
  | .selectByName tenant_id q limit =>
      match choice.outcome with
      | .accept =>
          if nul ∈ q then (.error .dbapiError, s)
          else (.ok (PersonRepository.selectByName similarity choice.tie tenant_id q limit
            ((s.db.view i).persons.filter (fun p => s.admits forced i p.tenant_id))), s)
      | .refuse => (.error .operationalError, s)

/-- A search by name shows the best candidates or raises. -/
theorem exec_selectByName (similarity : Str → Str → ℚ) (forced : Bool) (i : ι) (choice : Choice)
    (s : BoundDb ι) (tenant_id : UUID) (q : Str) (limit : ℕ) :
    exec similarity forced i choice (.selectByName tenant_id q limit) s =
        (.ok (PersonRepository.selectByName similarity choice.tie tenant_id q limit
          ((s.db.view i).persons.filter (fun p => s.admits forced i p.tenant_id))), s) ∨
      ∃ e, e.ofServer = true ∧
        exec similarity forced i choice (.selectByName tenant_id q limit) s = (.error e, s) := by
  obtain ⟨outcome, tie⟩ := choice
  cases outcome with
  | refuse => exact .inr ⟨_, rfl, rfl⟩
  | accept =>
    by_cases hnul : nul ∈ q
    · exact .inr ⟨.dbapiError, rfl, by simp only [exec, if_pos hnul]⟩
    · exact .inl (by simp only [exec, if_neg hnul])

theorem exec_selectByName_state (similarity : Str → Str → ℚ) (forced : Bool) (i : ι)
    (choice : Choice) (s : BoundDb ι) (tenant_id : UUID) (q : Str) (limit : ℕ) :
    (exec similarity forced i choice (.selectByName tenant_id q limit) s).2 = s := by
  rcases exec_selectByName similarity forced i choice s tenant_id q limit with h | ⟨e, -, h⟩
  · rw [h]
  · rw [h]

/-- A statement waits for the rows it may write. -/
def waits (forced : Bool) (i : ι) (op : SessionOp) (s : BoundDb ι) : Bool :=
  match op with
  | .statement (.insert r) => s.admits forced i r.tenant_id && Db.waits i (.insert r) s.db
  | .statement (.updateExtraction extraction_id tenant_id person_uuid match_action) =>
      s.admits forced i tenant_id &&
        Db.waits i (.updateExtraction extraction_id tenant_id person_uuid match_action) s.db
  | _ => false

def environment (similarity : Str → Str → ℚ) (forced : Bool) :
    Environment ι Choice SessionOp SessionOp.Reply PyError (BoundDb ι) :=
  ⟨waits forced, exec similarity forced⟩

end BoundDb

namespace SessionTx
variable {α : Type} (ctx : RequestContext)

def statements : Tx α → SessionTx α
  | .pure a => .pure a
  | .throw e => .throw e
  | .call op next => .call (.statement op) (fun r => statements (next r))

def setConfig (tenant_id : UUID) : SessionTx Unit := Program.perform (SessionOp.setConfig tenant_id)

def setSessionTenant : SessionTx Unit :=
  match ctx.tenant_id with
  | none => throw (.runtimeError "set_session_tenant called without a tenant in context.")
  | some tenant_id => setConfig tenant_id

/-- `get_session` around the code that uses the session. -/
def getSession (body : SessionTx α) : SessionTx α :=
  let bound : SessionTx α := do
    setSessionTenant ctx
    body
  bound.handle (fun r => statements (closeSession r))

def requiresTenant (tenant_id : UUID) (method : SessionTx α) : SessionTx α := do
  statements (Hawiya.requiresTenant ctx tenant_id (pure ()))
  method

end SessionTx

namespace PersonRepository

def searchByName (tenant_id : UUID) (query : Str) (limit : ℕ) : SessionTx (List Person) :=
  if query = [] ∨ strip query = [] then pure []
  else Program.perform (SessionOp.selectByName tenant_id (strip query) limit)

end PersonRepository

namespace PersonService

def search (ctx : RequestContext) (tenant_id : UUID) (query : Str) (limit : ℕ) :
    SessionTx (List Person) :=
  SessionTx.requiresTenant ctx tenant_id (PersonRepository.searchByName tenant_id query limit)

end PersonService
end Hawiya
