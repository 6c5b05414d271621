import Hawiya.Idempotency

/-!
# The server under the middleware

The state that requests share: the idempotency store, the clock, what each client has sent and been
sent, and the application's own state `τ`, on which a `backend` carries out its operations. Every
reading of the clock takes its next value. The events at the application's boundary are kept in
order.
-/

namespace Hawiya
open PyString Interaction

structure ServerState (ι τ : Type) where
  entries : Entries
  ticks : ℕ
  inbox : ι → List Message
  outbox : ι → List Message
  events : List (ι × AppEvent)
  app : τ

namespace ServerState
variable {ι τ χ ω : Type} {Rep : ω → Type}

variable [DecidableEq ι]

def setInbox (s : ServerState ι τ) (i : ι) (messages : List Message) : ServerState ι τ :=
  { s with inbox := Function.update s.inbox i messages }

def deliver (s : ServerState ι τ) (i : ι) (message : Message) : ServerState ι τ :=
  { s with outbox := Function.update s.outbox i (s.outbox i ++ [message]) }

def record (s : ServerState ι τ) (i : ι) (e : AppEvent) : ServerState ι τ :=
  { s with events := s.events ++ [(i, e)] }

def lookup (clock : ℕ → ℚ) (s : ServerState ι τ) (tenant_id : UUID) (key : Str) :
    Option CachedResponse :=
  (InMemoryIdempotencyStore.get s.entries (clock s.ticks) tenant_id key).1

def afterGet (clock : ℕ → ℚ) (s : ServerState ι τ) (tenant_id : UUID) (key : Str) :
    ServerState ι τ :=
  { s with
    entries := (InMemoryIdempotencyStore.get s.entries (clock s.ticks) tenant_id key).2
    ticks := s.ticks + 1 }

def afterPut (clock : ℕ → ℚ) (s : ServerState ι τ) (tenant_id : UUID) (key : Str)
    (value : ℚ → CachedResponse) : ServerState ι τ :=
  { s with
    entries := InMemoryIdempotencyStore.put s.entries tenant_id key (value (clock s.ticks))
    ticks := s.ticks + 1 }

/-- The messages the application has sent for a request. -/
def sentBy (s : ServerState ι τ) (i : ι) : List Message :=
  s.events.filterMap (fun e => if e.1 = i then e.2.message? else none)

/-- The calls of the application. -/
def calls (s : ServerState ι τ) : List (ι × Scope) :=
  s.events.filterMap (fun e => e.2.scope?.map (fun scope => (e.1, scope)))

/-- The messages the application has sent, for whatever request. -/
def appSent (s : ServerState ι τ) : List Message := s.events.filterMap (fun e => e.2.message?)

/-- `receive` waits for a message, and `_collect_body` for the last one of the body. -/
def waits (backend : Environment ι χ ω Rep PyError τ) (i : ι) (op : ServerOp ω)
    (s : ServerState ι τ) : Bool :=
  match op with
  | .receive => (s.inbox i).isEmpty
  | .collectBody => (s.inbox i).all Message.more_body
  | .own op => backend.waits i op s.app
  | _ => false

def exec (clock : ℕ → ℚ) (backend : Environment ι χ ω Rep PyError τ) (i : ι) (choice : χ)
    (op : ServerOp ω) (s : ServerState ι τ) :
    Except PyError (op.Reply Rep) × ServerState ι τ :=
  match op with
  | .receive => (.ok ((s.inbox i).headD .disconnect), s.setInbox i (s.inbox i).tail)
  | .collectBody =>
      (.ok (collectBody (s.inbox i)).1, s.setInbox i (collectBody (s.inbox i)).2)
  | .send message => (.ok (), s.deliver i message)
  | .get tenant_id key => (.ok (s.lookup clock tenant_id key), s.afterGet clock tenant_id key)
  | .put tenant_id key value => (.ok (), s.afterPut clock tenant_id key value)
  | .event e => (.ok (), s.record i e)
  | .own op =>
      ((backend.exec i choice op s.app).1, { s with app := (backend.exec i choice op s.app).2 })

def environment (clock : ℕ → ℚ) (backend : Environment ι χ ω Rep PyError τ) :
    Environment ι χ (ServerOp ω) (ServerOp.Reply Rep) PyError (ServerState ι τ) :=
  ⟨waits backend, exec clock backend⟩

/-- An empty store, and requests of which nothing is read or answered. -/
def start (inbox : ι → List Message) (t : τ) : ServerState ι τ where
  entries _ := none
  ticks := 0
  inbox := inbox
  outbox _ := []
  events := []
  app := t

end ServerState

/-- A request body in the chunks it arrives in. -/
structure Delivery where
  chunks : List Bytes
  last : Bytes
  deriving DecidableEq

namespace Delivery

def body (d : Delivery) : Bytes := d.chunks.flatten ++ d.last

def messages (d : Delivery) : List Message :=
  d.chunks.map (fun c => .request c true) ++ [.request d.last false]

theorem collectBody_more (c : Bytes) (rest : List Message) :
    collectBody (.request c true :: rest) = (c ++ (collectBody rest).1, (collectBody rest).2) := rfl

/-- The body is collected up to the first message after which no more comes. -/
theorem collectBody_until (chunks : List Bytes) {m : Message} (hm : m.more_body = false)
    (rest : List Message) :
    collectBody (chunks.map (fun c => .request c true) ++ m :: rest) =
      (chunks.flatten ++ m.body, rest) := by
  induction chunks with
  | nil => simp [collectBody, hm]
  | cons c chunks ih =>
    rw [List.map_cons, List.cons_append, collectBody_more, ih, List.flatten_cons,
      List.append_assoc]

theorem collectBody_messages (d : Delivery) : collectBody d.messages = (d.body, []) :=
  collectBody_until d.chunks rfl []

end Delivery

/-! An application that counts its calls, and keyed POST requests, for closed instances. -/

namespace Specimen

/-- The counter of the application: reading it counts. -/
def counter {ι : Type} : Environment ι Unit Unit (fun _ => ℕ) PyError ℕ where
  waits _ _ _ := false
  exec _ _ _ n := (.ok n, n + 1)

abbrev Counting : Type → Type := Program (AsgiOp Unit) (AsgiOp.Reply (fun _ => ℕ)) PyError

def await (op : AsgiOp Unit) : Counting (op.Reply (fun _ => ℕ)) := Program.perform op

def receive : Counting Message := await .receive
def send (message : Message) : Counting Unit := await (.send message)
def count : Counting ℕ := await (.own ())

/-- Answers with the body it was given and the number of earlier calls. -/
def echo : App Unit (fun _ => ℕ) := fun _ => do
  let message ← receive
  let n ← count
  send (.responseStart 200 [])
  send (.responseBody message.body true)
  send (.responseBody (utf8Encode (natStr n)) false)

def post (path : String) : Scope where
  type := .http
  method := ['P', 'O', 'S', 'T']
  path := path.toList
  url_path := path.toList
  headers := [(bytes "x-tenant-id", bytes "00000000-0000-0000-0000-000000000001"),
    (bytes "idempotency-key", bytes "k")]

theorem keyOf_post (path : String) :
    IdempotencyMiddleware.keyOf (post path) = some (1, ['k']) := by
  change IdempotencyMiddleware.requestKey [(bytes "x-tenant-id",
    bytes "00000000-0000-0000-0000-000000000001"), (bytes "idempotency-key", bytes "k")] = _
  decide +kernel

/-- One hour between readings. -/
def clock (n : ℕ) : ℚ := 3600 * n

end Specimen
end Hawiya
