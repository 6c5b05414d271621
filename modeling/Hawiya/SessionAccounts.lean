import Hawiya.ApiCalls
import Hawiya.Cohesion
import Hawiya.Lib.Knowledge
import Hawiya.Matching

/-!
# What a session of a tenant may do, and what it learns

The account of a session: whether the tenant is bound, the rows its session holds, the persons its
transaction has written, and facts it has been told. A session that keeps to its protocol writes
rows of its tenant, and names only persons it knows; a row with a foreign key belongs to a person
that the same transaction has written.
-/

namespace Hawiya
open PyString Interaction

/-- The UUIDs that a row is the first to have. -/
def Row.fresh : Row → List UUID
  | .person r => [r.person_uuid]
  | .extraction r => [r.extraction_id]
  | _ => []

def Change.fresh : Change → List UUID
  | .insert r => r.fresh
  | .link .. => []

inductive Fact where
  | person (u : UUID)
  | row (p : Person)
  | identifiers (u : UUID) (rows : List PersonIdentifier)
  | nameVariants (u : UUID) (rows : List PersonNameVariant)

namespace Fact

def Holds (tenant : UUID) (t : Tables) : Fact → Prop
  | .person u => t.HasPerson u tenant
  | .row p => p ∈ t.persons ∧ p.tenant_id = tenant
  | .identifiers u rows => t.HasPerson u tenant ∧ t.identifiersOf u = rows
  | .nameVariants u rows => t.HasPerson u tenant ∧ t.nameVariantsOf u = rows

/-- The fact does not end when the transaction inserts a row. -/
def lasting : Fact → Bool
  | .person _ => true
  | .row _ => true
  | _ => false

/-- What a person that is read teaches. -/
def ofPerson (p : Person) : List Fact := [.row p, .person p.person_uuid]

variable {tenant : UUID} {t t' : Tables} {f : Fact} {p : Person}

theorem Holds.mono (hf : f.Holds tenant t) (hlasting : f.lasting = true)
    (hpersons : ∀ p ∈ t.persons, p ∈ t'.persons) : f.Holds tenant t' := by
  cases f with
  | person u => exact Tables.HasPerson.mono hpersons u tenant hf
  | row p => exact ⟨hpersons p hf.1, hf.2⟩
  | identifiers u rows => cases hlasting
  | nameVariants u rows => cases hlasting

theorem holds_ofPerson (hp : p ∈ t.persons) (htenant : p.tenant_id = tenant) (hf : f ∈ ofPerson p) :
    f.Holds tenant t := by
  rcases List.mem_cons.mp hf with rfl | hf
  · exact ⟨hp, htenant⟩
  · rw [List.mem_singleton.mp hf]
    exact ⟨p, hp, rfl, htenant⟩

end Fact

structure Account where
  bound : Bool
  pending : List Row
  written : List UUID
  facts : List Fact

namespace Account

def start : Account := ⟨false, [], [], []⟩

def Knows (k : Account) (u : UUID) : Prop := .person u ∈ k.facts

def learn (k : Account) (facts : List Fact) : Account := { k with facts := k.facts ++ facts }

def insert (k : Account) : Row → Account
  | .person p =>
      { k with
        written := k.written ++ [p.person_uuid]
        facts := k.facts.filter Fact.lasting ++ Fact.ofPerson p }
  | _ => { k with facts := k.facts.filter Fact.lasting }

/-- The transaction has committed. -/
def commit (k : Account) : Account := { k with bound := false, written := [] }

/-- The transaction has been rolled back. -/
def abort (k : Account) : Account := { k with bound := false, written := [], facts := [] }

section May
variable (tenant : UUID) (drawn : UUID → Prop)

/-- The session may write the row: it is the tenant's, brings only UUIDs the session drew, and is
about persons the session knows. -/
structure Supports (k : Account) (r : Row) : Prop where
  tenant_id : r.tenant_id = tenant
  fresh : ∀ u ∈ r.fresh, drawn u
  reference : ∀ u ∈ r.reference?, u ∈ k.written
  names : ∀ u ∈ r.names, k.Knows u

def mayExecute (k : Account) : DbOp → Prop
  | .insert r => k.bound = true ∧ k.Supports tenant drawn r
  | .updateExtraction _ tenant_id person_uuid _ =>
      k.bound = true ∧ tenant_id = tenant ∧ ∀ u ∈ person_uuid, k.Knows u
  | .selectIdentifiers tenant_id .. => k.bound = true ∧ tenant_id = tenant
  | .selectPersons tenant_id _ => k.bound = true ∧ tenant_id = tenant
  | .selectPersonIdentifiers person_uuid => k.bound = true ∧ k.Knows person_uuid
  | .selectPersonNameVariants person_uuid => k.bound = true ∧ k.Knows person_uuid
  | _ => True

def may (k : Account) : SessionOp → Prop
  | .setConfig tenant_id => tenant_id = tenant
  | .statement op => k.mayExecute tenant drawn op
  | .selectByName tenant_id .. => k.bound = true ∧ tenant_id = tenant

end May

/-- The account after an answer, given what it teaches. -/
def told {α : Type} (k : Account) (teaches : α → Account) : Except PyError α → Account
  | .ok a => teaches a
  | .error _ => k

def afterStatement (k : Account) : (op : DbOp) → Except PyError op.Reply → Account
  | .add r, _ => { k with pending := k.pending ++ [r] }
  | .takePending, _ => { k with pending := [] }
  | .insert r, reply => k.told (fun _ : Unit => k.insert r) reply
  | .updateExtraction .., _ => k
  | .selectIdentifiers .., reply =>
      k.told (fun rows : List PersonIdentifier =>
        k.learn (rows.map (fun r => .person r.person_uuid))) reply
  | .selectPersons .., reply =>
      k.told (fun rows : List Person => k.learn (rows.flatMap Fact.ofPerson)) reply
  | .selectPersonIdentifiers person_uuid, reply =>
      k.told (fun rows : List PersonIdentifier => k.learn [.identifiers person_uuid rows]) reply
  | .selectPersonNameVariants person_uuid, reply =>
      k.told (fun rows : List PersonNameVariant => k.learn [.nameVariants person_uuid rows]) reply
  | .commit, reply => k.abort.told (fun _ : Unit => k.commit) reply
  | .rollback, _ => { k.abort with pending := [] }

def after (k : Account) : (op : SessionOp) → Except PyError op.Reply → Account
  | .setConfig _, reply => k.told (fun _ : Unit => { k with bound := true }) reply
  | .statement op, reply => k.afterStatement op reply
  | .selectByName .., reply =>
      k.told (fun rows : List Person => k.learn (rows.flatMap Fact.ofPerson)) reply

/-- What is certain of a reply. -/
def Expects (k : Account) : (op : SessionOp) → Except PyError op.Reply → Prop
  | .statement .takePending, reply => reply = .ok k.pending
  | .statement (.selectPersons _ person_uuid), reply =>
      ∀ rows : List Person, reply = .ok rows → ∀ p ∈ rows, p.person_uuid = person_uuid
  | _, _ => True

variable {k : Account} {r : Row} {u : UUID} {f : Fact}

@[simp] theorem bound_insert : (k.insert r).bound = k.bound := by
  cases r with
  | _ => rfl

@[simp] theorem pending_insert : (k.insert r).pending = k.pending := by
  cases r with
  | _ => rfl

theorem mem_written_insert : u ∈ (k.insert r).written ↔
    u ∈ k.written ∨ ∃ p, r = .person p ∧ p.person_uuid = u := by
  cases r with
  | person p => simp [insert, eq_comm]
  | _ => simp [insert]

theorem mem_facts_insert : f ∈ (k.insert r).facts ↔
    (f ∈ k.facts ∧ f.lasting = true) ∨ ∃ p, r = .person p ∧ f ∈ Fact.ofPerson p := by
  cases r with
  | person p => simp [insert, List.mem_filter]
  | _ => simp [insert, List.mem_filter]

def protocol (tenant : UUID) (drawn : UUID → Prop) :
    Protocol SessionOp SessionOp.Reply PyError Account where
  may k op := k.may tenant drawn op
  learns k op reply k' :=
    (∀ e, reply = .error e → e.ofServer = true) ∧ k.Expects op reply ∧ k' = k.after op reply

end Account

namespace BoundDb
variable {ι : Type} [DecidableEq ι]

structure Fits (tenant : UUID) (drawn : UUID → Prop) (k : Account) (s : BoundDb ι) (i : ι) :
    Prop where
  setting : s.current_tenant i = if k.bound then some tenant else none
  pending : s.db.pending i = k.pending
  idle : k.bound = false → s.db.changesOf i = []
  changes : ∀ c ∈ s.db.changesOf i, c.tenant_id = tenant ∧ (∀ u ∈ c.fresh, drawn u) ∧
    ∀ u ∈ c.names, (s.db.view i).HasPerson u tenant
  owned : ∀ r, .insert r ∈ s.db.changesOf i → ∀ u ∈ r.reference?,
    ∃ p, .insert (.person p) ∈ s.db.changesOf i ∧ p.person_uuid = u
  written : ∀ u ∈ k.written, ∃ p, .insert (.person p) ∈ s.db.changesOf i ∧ p.person_uuid = u
  facts : ∀ f ∈ k.facts, f.Holds tenant (s.db.view i)

structure AllFit (tenants : ι → UUID) (drawn : ι → UUID → Prop) (ks : ι → Account)
    (s : BoundDb ι) : Prop where
  consistent : s.db.Consistent
  cohesive : s.db.committed.Cohesive
  each : ∀ i, s.Fits (tenants i) (drawn i) (ks i) i

end BoundDb
end Hawiya
