import Hawiya.Asgi

/-!
# The Idempotency-Key middleware

An ASGI middleware over the operations of the server. The two closures it hands to the application,
`receive` and `send`, are handlers of the application's operations with the state that the closures
keep. Clock readings are rational; a stored value is given as a function of the reading taken when
it is stored.
-/

namespace Hawiya
open PyString Interaction

def bytes (s : String) : Bytes := utf8Encode s.toList

def tenantHeader : Bytes := bytes "x-tenant-id"
def idempotencyHeader : Bytes := bytes "idempotency-key"

structure CachedResponse where
  status : ℕ
  headers : Headers
  body : Bytes
  body_hash : Str
  expires_at : ℚ
  deriving DecidableEq

abbrev Entries := UUID × Str → Option CachedResponse

namespace InMemoryIdempotencyStore

def get (entries : Entries) (now : ℚ) (tenant_id : UUID) (key : Str) :
    Option CachedResponse × Entries :=
  match entries (tenant_id, key) with
  | none => (none, entries)
  | some entry =>
      if entry.expires_at < now then (none, Function.update entries (tenant_id, key) none)
      else (some entry, entries)

def put (entries : Entries) (tenant_id : UUID) (key : Str) (value : CachedResponse) : Entries :=
  Function.update entries (tenant_id, key) (some value)

end InMemoryIdempotencyStore

/-- What happens between the server and the application: a call, or a message it sends. -/
inductive AppEvent where
  | called (scope : Scope)
  | sent (message : Message)
  deriving DecidableEq

def AppEvent.message? : AppEvent → Option Message
  | .called _ => none
  | .sent message => some message

def AppEvent.scope? : AppEvent → Option Scope
  | .called scope => some scope
  | .sent _ => none

/-- What the middleware stack awaits. `event` has no effect but to be recorded. -/
inductive ServerOp (ω : Type) where
  | receive
  | collectBody
  | send (message : Message)
  | get (tenant_id : UUID) (key : Str)
  | put (tenant_id : UUID) (key : Str) (value : ℚ → CachedResponse)
  | event (e : AppEvent)
  | own (op : ω)

abbrev ServerOp.Reply {ω : Type} (Rep : ω → Type) : ServerOp ω → Type
  | .receive => Message
  | .collectBody => Bytes
  | .get .. => Option CachedResponse
  | .own op => Rep op
  | _ => Unit

abbrev ServerProgram (ω : Type) (Rep : ω → Type) :=
  Program (ServerOp ω) (ServerOp.Reply Rep) PyError

/-- `_collect_body` on the messages that arrive: the body and what is left of them. -/
def collectBody : List Message → Bytes × List Message
  | [] => ([], [])
  | m :: rest =>
      if m.more_body then (m.body ++ (collectBody rest).1, (collectBody rest).2) else (m.body, rest)

namespace Server
variable {ω : Type} {Rep : ω → Type}

def await (op : ServerOp ω) : ServerProgram ω Rep (op.Reply Rep) := Program.perform op

def receive : ServerProgram ω Rep Message := await .receive
def collectBody : ServerProgram ω Rep Bytes := await .collectBody
def send (message : Message) : ServerProgram ω Rep Unit := await (.send message)
def get (tenant_id : UUID) (key : Str) : ServerProgram ω Rep (Option CachedResponse) :=
  await (.get tenant_id key)
def put (tenant_id : UUID) (key : Str) (value : ℚ → CachedResponse) : ServerProgram ω Rep Unit :=
  await (.put tenant_id key value)
def event (e : AppEvent) : ServerProgram ω Rep Unit := await (.event e)
def own (op : ω) : ServerProgram ω Rep (Rep op) := await (.own op)

end Server

/-- `_conflict_response`. -/
def conflictResponse (request_id : Str) : ℕ × Headers × Bytes :=
  let body := bytes ("\x7b\"error\":\x7b\"code\":\"IDEMPOTENCY_KEY_CONFLICT\"," ++
      "\"message\":\"Idempotency-Key was previously used with a different request body.\"," ++
      "\"details\":\x7b\x7d,\"trace_id\":\"") ++
    utf8Encode request_id ++ bytes "\"\x7d\x7d"
  (422, [(bytes "content-type", bytes "application/json"),
    (bytes "content-length", utf8Encode (natStr body.length))], body)

def answerMessages (status : ℕ) (headers : Headers) (body : Bytes) : List Message :=
  [.responseStart status headers, .responseBody body false]

def conflictMessages (key : Str) : List Message :=
  answerMessages (conflictResponse key).1 (conflictResponse key).2.1 (conflictResponse key).2.2

/-- The variables of the two closures: `sent` and `captured`. -/
structure Closure where
  sent : Bool := false
  status : ℕ := 200
  headers : Headers := []
  body : Bytes := []

/-- What `captured` holds after a message. -/
def Closure.capture (c : Closure) : Message → Closure
  | .responseStart status headers => { c with status := status, headers := headers }
  | .responseBody body _ => { c with body := c.body ++ body }
  | _ => c

def cacheable (status : ℕ) : Bool := 200 ≤ status ∧ status < 300

/-- The message is the last chunk of a response to be stored. -/
def Closure.completes (c : Closure) : Message → Bool
  | .responseBody _ more_body => !more_body && cacheable c.status
  | _ => false

def Closure.toCached (c : Closure) (body_hash : Str) (expires_at : ℚ) : CachedResponse where
  status := c.status
  headers := c.headers
  body := c.body
  body_hash := body_hash
  expires_at := expires_at

/-- `captured` after the messages of a response. -/
def captured (messages : List Message) : Closure := messages.foldl Closure.capture {}

theorem capture_sent (c : Closure) (b : Bool) (m : Message) :
    ({ c with sent := b } : Closure).capture m = { c.capture m with sent := b } := by
  cases m <;> rfl

@[simp] theorem sent_capture (c : Closure) (m : Message) : (c.capture m).sent = c.sent := by
  cases m <;> rfl

theorem completes_sent (c : Closure) (b : Bool) (m : Message) :
    ({ c with sent := b } : Closure).completes m = c.completes m := by
  cases m <;> rfl

/-- The messages of a whole 2xx response. -/
def Whole (messages : List Message) : Prop :=
  ∃ m, messages.getLast? = some m ∧ (captured messages).completes m

theorem captured_append (ms : List Message) (m : Message) :
    captured (ms ++ [m]) = (captured ms).capture m :=
  List.foldl_append

namespace IdempotencyMiddleware

/-- A keyed request: what the lookup and the closures use of it. -/
structure Fingerprint where
  tenant_id : UUID
  key : Str
  body_hash : Str
  deriving DecidableEq

section Call
variable {ω : Type} {Rep : ω → Type}

/-- The application on the server's own `receive` and `send`. -/
def passOn : (op : AsgiOp ω) → Unit → ServerProgram ω Rep (op.Reply Rep × Unit)
  | .receive, _ => do
      let message ← Server.receive
      return (message, ())
  | .send message, _ => do
      Server.event (.sent message)
      Server.send message
      return ((), ())
  | .own op, _ => do
      let reply ← Server.own op
      return (reply, ())

/-- `_make_replay_receive` and `_make_capturing_send`. -/
def replayAndCapture (body : Bytes) (f : Fingerprint) (ttl : ℕ) :
    (op : AsgiOp ω) → Closure → ServerProgram ω Rep (op.Reply Rep × Closure)
  | .receive, c =>
      return (if c.sent then .disconnect else .request body false, { c with sent := true })
  | .send message, c => do
      Server.event (.sent message)
      let c := c.capture message
      if c.completes message then
        Server.put f.tenant_id f.key (fun now => Closure.toCached c f.body_hash (now + ttl))
      Server.send message
      return ((), c)
  | .own op, c => do
      let reply ← Server.own op
      return (reply, c)

/-- Tenant and key of a request that takes part, if its headers give both. -/
def requestKey (headers : Headers) : Option (UUID × Str) :=
  match headerLookup headers idempotencyHeader, headerLookup headers tenantHeader with
  | some raw_key, some raw_tenant =>
      if raw_key = [] ∨ raw_tenant = [] then none
      else ((ascii? raw_tenant).bind uuid?).map (fun tenant_id => (tenant_id, utf8Decode raw_key))
  | _, _ => none

/-- Tenant and key of the requests the middleware does not pass through. -/
def keyOf (scope : Scope) : Option (UUID × Str) :=
  if scope.type ≠ .http ∨ scope.method ≠ ['P', 'O', 'S', 'T'] then none
  else requestKey scope.headers

variable (sha256 : Bytes → Str) (ttl_seconds : ℕ) (app : App ω Rep)

def passThrough (scope : Scope) : ServerProgram ω Rep Unit := do
  Server.event (.called scope)
  (app scope).interpret passOn ()

def answer (status : ℕ) (headers : Headers) (body : Bytes) : ServerProgram ω Rep Unit := do
  Server.send (.responseStart status headers)
  Server.send (.responseBody body false)

def answerConflict (key : Str) : ServerProgram ω Rep Unit :=
  answer (conflictResponse key).1 (conflictResponse key).2.1 (conflictResponse key).2.2

def forward (scope : Scope) (body : Bytes) (f : Fingerprint) : ServerProgram ω Rep Unit := do
  Server.event (.called scope)
  (app scope).interpret (replayAndCapture body f ttl_seconds) {}

/-- After the lookup: conflict, replay or miss. -/
def settle (scope : Scope) (body : Bytes) (f : Fingerprint) :
    Option CachedResponse → ServerProgram ω Rep Unit
  | some cached =>
      if cached.body_hash ≠ f.body_hash then answerConflict f.key
      else answer cached.status cached.headers cached.body
  | none => forward ttl_seconds app scope body f

theorem settle_replay {cached : CachedResponse} {f : Fingerprint}
    (h : cached.body_hash = f.body_hash) (scope : Scope) (body : Bytes) :
    settle ttl_seconds app scope body f (some cached) =
      answer cached.status cached.headers cached.body :=
  if_neg (not_not.mpr h)

theorem settle_conflict {cached : CachedResponse} {f : Fingerprint}
    (h : cached.body_hash ≠ f.body_hash) (scope : Scope) (body : Bytes) :
    settle ttl_seconds app scope body f (some cached) = answerConflict f.key :=
  if_pos h

def keyed (scope : Scope) (tenant_id : UUID) (key : Str) : ServerProgram ω Rep Unit := do
  let body ← Server.collectBody
  let cached ← Server.get tenant_id key
  settle ttl_seconds app scope body ⟨tenant_id, key, sha256 body⟩ cached

/-- `IdempotencyMiddleware.__call__`. -/
def call (scope : Scope) : ServerProgram ω Rep Unit :=
  match keyOf scope with
  | none => passThrough app scope
  | some (tenant_id, key) => keyed sha256 ttl_seconds app scope tenant_id key

end Call
end IdempotencyMiddleware
end Hawiya
