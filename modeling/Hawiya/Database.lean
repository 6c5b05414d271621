import Hawiya.Lib.Pool
import Hawiya.Schema
import Hawiya.Tables

/-!
# Sessions and transactions

The database under READ COMMITTED, with one session for each process `ι`. A session is built
with `autoflush=False`: an added object stays `pending` until a flush turns it into an INSERT.
A statement sees the committed rows and its own transaction's changes. An INSERT whose unique key
another open transaction holds waits for that transaction to end; one whose key is visible is
refused, and so is one of a row that the schema cannot hold or whose foreign key finds nothing. A
COMMIT moves the transaction's changes to the committed tables and to the log.

Row-level security is added to this database by `BoundDb`.
-/

namespace Hawiya
open PyString Calendar Interaction

inductive DbOp where
  | add (r : Row)
  | takePending
  | insert (r : Row)
  | selectIdentifiers (tenant_id : UUID) (identifier_type : IdentifierType)
      (identifier_value : Str)
  | selectPersons (tenant_id person_uuid : UUID)
  | selectPersonIdentifiers (person_uuid : UUID)
  | selectPersonNameVariants (person_uuid : UUID)
  | updateExtraction (extraction_id tenant_id : UUID) (person_uuid : Option UUID)
      (match_action : String)
  | commit
  | rollback
  deriving DecidableEq

abbrev DbOp.Reply : DbOp → Type
  | .takePending => List Row
  | .selectIdentifiers .. => List PersonIdentifier
  | .selectPersons .. => List Person
  | .selectPersonIdentifiers _ => List PersonIdentifier
  | .selectPersonNameVariants _ => List PersonNameVariant
  | _ => Unit

abbrev Tx := Program DbOp DbOp.Reply PyError

def execute (op : DbOp) : Tx op.Reply := Program.perform op

structure Db (ι : Type) where
  committed : Tables
  uncommitted : List (ι × Change)
  pending : ι → List Row
  log : List (ι × List Change)

/-- What the server answers to a statement it could execute. -/
inductive Outcome where
  | accept
  | refuse
  deriving DecidableEq

namespace Db
variable {ι : Type}

/-- No transaction is open. -/
def start (t : Tables) : Db ι :=
  { committed := t, uncommitted := [], pending := fun _ => [], log := [] }

def record (db : Db ι) (i : ι) (c : Change) : Db ι :=
  { db with uncommitted := db.uncommitted ++ [(i, c)] }

@[simp] theorem committed_record (db : Db ι) (i : ι) (c : Change) :
    (db.record i c).committed = db.committed := rfl

variable [DecidableEq ι]

def changesOf (db : Db ι) (i : ι) : List Change :=
  (db.uncommitted.filter (fun e => e.1 = i)).map Prod.snd

/-- What a statement of transaction `i` sees. -/
def view (db : Db ι) (i : ι) : Tables := db.committed.applyAll (db.changesOf i)

def setPending (db : Db ι) (i : ι) (rows : List Row) : Db ι :=
  { db with pending := Function.update db.pending i rows }

def endTransaction (db : Db ι) (i : ι) : Db ι :=
  { db with uncommitted := db.uncommitted.filter (fun e => e.1 ≠ i) }

def doCommit (db : Db ι) (i : ι) : Db ι :=
  { db.endTransaction i with
    committed := db.view i
    log := db.log ++ [(i, db.changesOf i)] }

def doInsert (db : Db ι) (i : ι) (r : Row) : Except PyError Unit × Db ι :=
  if r.Storable then
    match r.keys.find? (fun k => k ∈ (db.view i).keys) with
    | some k => (.error (.integrityError k.constraint), db)
    | none =>
        if (db.view i).ReferenceHolds r then (.ok (), db.record i (.insert r))
        else (.error (.integrityError r.foreignKey), db)
  else (.error .dbapiError, db)

def doUpdateExtraction (db : Db ι) (i : ι) (extraction_id tenant_id : UUID)
    (person_uuid : Option UUID) (match_action : String) : Db ι :=
  if (db.view i).extractions.any (fun r => r.isExtraction extraction_id tenant_id) then
    db.record i (.link extraction_id tenant_id person_uuid match_action)
  else db

def waits (i : ι) (op : DbOp) (db : Db ι) : Bool :=
  match op with
  | .insert r =>
      -- a value that no column holds is refused before any index is asked
      r.Storable && db.uncommitted.any (fun e => e.1 ≠ i && r.keys.any (fun k => k ∈ e.2.keys))
  | .updateExtraction extraction_id .. =>
      db.uncommitted.any (fun e => e.1 ≠ i && e.2.updates extraction_id)
  | _ => false

def exec (i : ι) (outcome : Outcome) (op : DbOp) (db : Db ι) : Except PyError op.Reply × Db ι :=
  match op with
  | .add r => (.ok (), db.setPending i (db.pending i ++ [r]))
  | .takePending => (.ok (db.pending i), db.setPending i [])
  | .rollback => (.ok (), (db.endTransaction i).setPending i [])
  | .commit =>
      match outcome with
      | .accept => (.ok (), db.doCommit i)
      | .refuse => (.error .operationalError, db.endTransaction i)
  | .insert r =>
      match outcome with
      | .accept => db.doInsert i r
      | .refuse => (.error .operationalError, db)
  | .updateExtraction extraction_id tenant_id person_uuid match_action =>
      match outcome with
      | .accept =>
          (.ok (), db.doUpdateExtraction i extraction_id tenant_id person_uuid match_action)
      | .refuse => (.error .operationalError, db)
  | .selectIdentifiers tenant_id identifier_type identifier_value =>
      match outcome with
      | .accept =>
          -- no parameter of a statement holds a NUL either
          if nul ∈ identifier_value then (.error .dbapiError, db)
          else (.ok ((db.view i).activeIdentifiers tenant_id identifier_type identifier_value), db)
      | .refuse => (.error .operationalError, db)
  | .selectPersons tenant_id person_uuid =>
      match outcome with
      | .accept => (.ok ((db.view i).persons.filter (fun p =>
          p.tenant_id == tenant_id && p.person_uuid == person_uuid)), db)
      | .refuse => (.error .operationalError, db)
  | .selectPersonIdentifiers person_uuid =>
      match outcome with
      | .accept => (.ok ((db.view i).identifiers.filter (fun r => r.person_uuid == person_uuid)), db)
      | .refuse => (.error .operationalError, db)
  | .selectPersonNameVariants person_uuid =>
      match outcome with
      | .accept =>
          (.ok ((db.view i).name_variants.filter (fun r => r.person_uuid == person_uuid)), db)
      | .refuse => (.error .operationalError, db)

def environment : Environment ι Outcome DbOp DbOp.Reply PyError (Db ι) := ⟨waits, exec⟩

end Db

namespace Session

def add (r : Row) : Tx Unit := execute (.add r)
def takePending : Tx (List Row) := execute .takePending
def insert (r : Row) : Tx Unit := execute (.insert r)
def commit : Tx Unit := execute .commit
def rollback : Tx Unit := execute .rollback

/-- SQLAlchemy inserts table by table, those referred to first, here in the order of `add`. The two
orders put the rows that hold unique keys in the same sequence: what is pending at once is an
extraction, or a person before its identifiers; the other rows have no keys of their own. -/
def flush : Tx Unit := do
  let rows ← takePending
  forM rows insert

end Session

/-- Leaving `async with factory() as session, session.begin()` with the outcome of its body. -/
def closeSession {α : Type} : Except PyError α → Tx α
  | .ok a =>
      let commit : Tx Unit := do
        Session.flush
        Session.commit
      commit.handle (fun r => match r with
        | .ok _ => .pure a
        | .error e => do
            Session.rollback
            throw e)
  | .error e => do
      Session.rollback
      throw e

structure RequestContext where
  tenant_id : Option UUID
  request_id : Option Str

/-- `get_session` around the code that uses the session. -/
def getSession {α : Type} (ctx : RequestContext) (body : Tx α) : Tx α :=
  match ctx.tenant_id with
  | none => throw (.runtimeError "set_session_tenant called without a tenant in context.")
  | some _ => body.handle closeSession

namespace Db
variable {ι : Type} [DecidableEq ι] (db : Db ι) (i : ι)

theorem changesOf_record_self (c : Change) : (db.record i c).changesOf i = db.changesOf i ++ [c] := by
  simp [changesOf, record]

theorem changesOf_record_ne {j : ι} (h : j ≠ i) (c : Change) :
    (db.record j c).changesOf i = db.changesOf i := by
  simp [changesOf, record, h]

theorem view_record_self (c : Change) : (db.record i c).view i = (db.view i).apply c := by
  rw [view, changesOf_record_self, committed_record, Tables.applyAll_append]
  rfl

theorem changesOf_endTransaction_self : (db.endTransaction i).changesOf i = [] := by
  simp [changesOf, endTransaction]

theorem changesOf_endTransaction_ne {j : ι} (h : j ≠ i) :
    (db.endTransaction j).changesOf i = db.changesOf i := by
  simp only [changesOf, endTransaction, List.filter_filter]
  congr 1
  apply List.filter_congr
  intro e _
  by_cases he : e.1 = i
  · simp [he, Ne.symm h]
  · simp [he]

end Db
end Hawiya
