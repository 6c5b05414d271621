import Mathlib.Algebra.Order.Floor.Ring
import Mathlib.Data.Rat.Floor
import Hawiya.Idempotency
import Hawiya.Lib.Pool

/-!
# The rate limiter and its middleware

Token buckets by tenant and endpoint class, over rational time. The checks of the limiter are
operations of the stack next to the application's own. What Starlette does is a parameter: how it
renders a JSON response, and which messages `BaseHTTPMiddleware` sends on for those of the wrapped
application.
-/

namespace Hawiya
open PyString Interaction

inductive EndpointClass where
  | extract
  | read
  deriving DecidableEq

def endpointClasses : List (Str × EndpointClass) := [
  ("/v1/documents/extract".toList, .extract),
  ("/v1/identity/resolve".toList, .extract),
  ("/v1/persons/search".toList, .read),
  ("/v1/persons".toList, .read)]

def classifyEndpoint (path : Str) : Option EndpointClass :=
  (endpointClasses.find? (fun e => path = e.1 ∨ (e.1 ++ ['/']).isPrefixOf path)).map Prod.snd

structure Bucket where
  capacity : ℚ
  tokens : ℚ
  rate_per_sec : ℚ
  last_refill : ℚ

namespace Bucket

def refilled (b : Bucket) (now : ℚ) : Bucket :=
  let elapsed := max 0 (now - b.last_refill)
  { b with tokens := min b.capacity (b.tokens + elapsed * b.rate_per_sec), last_refill := now }

/-- Seconds until a retry, if no token could be taken; `⊤` is `math.inf`. -/
def take (b : Bucket) (now : ℚ) : Option (WithTop ℚ) × Bucket :=
  let b := b.refilled now
  if 1 ≤ b.tokens then (none, { b with tokens := b.tokens - 1 })
  else
    let deficit := 1 - b.tokens
    (some (if 0 < b.rate_per_sec then ((deficit / b.rate_per_sec : ℚ) : WithTop ℚ) else ⊤), b)

end Bucket

abbrev Buckets := UUID × EndpointClass → Option Bucket

namespace RateLimiter

/-- The integers from here on round to no double. -/
@[irreducible] def doubleOverflow : ℕ := 2 ^ 1024 - 2 ^ 970

/-- `float(n)`, without the rounding. -/
def float (n : ℤ) : Except PyError ℚ :=
  if n.natAbs < doubleOverflow then .ok n else .error .overflowError

def bucketFor (default_per_minute : ℤ) (buckets : Buckets) (tenant_id : UUID)
    (endpoint_class : EndpointClass) (now : ℚ) : Except PyError Bucket :=
  match buckets (tenant_id, endpoint_class) with
  | some bucket => .ok bucket
  | none => do
      let capacity ← float default_per_minute
      return ⟨capacity, capacity, capacity / 60, now⟩

/-- `max(1.0, math.ceil(retry))`; there is no ceiling of infinity. -/
def retryAfter : WithTop ℚ → Except PyError ℕ
  | ⊤ => .error .overflowError
  | (retry : ℚ) => .ok (max 1 ⌈retry⌉.toNat)

def check (default_per_minute : ℤ) (buckets : Buckets) (tenant_id : UUID)
    (endpoint_class : EndpointClass) (now : ℚ) : Except PyError (Option ℕ) × Buckets :=
  match bucketFor default_per_minute buckets tenant_id endpoint_class now with
  | .error e => (.error e, buckets)
  | .ok bucket =>
      let taken := bucket.take now
      (match taken.1 with
        | none => .ok none
        | some retry => (retryAfter retry).map some,
       Function.update buckets (tenant_id, endpoint_class) (some taken.2))

end RateLimiter

inductive LimiterOp (ω : Type) where
  | check (tenant_id : UUID) (endpoint_class : EndpointClass)
  | own (op : ω)

abbrev LimiterOp.Reply {ω : Type} (Rep : ω → Type) : LimiterOp ω → Type
  | .check .. => Option ℕ
  | .own op => Rep op

/-- The buckets and the monotonic clock, with the application's own state. -/
structure LimiterState (τ : Type) where
  buckets : Buckets
  readings : ℕ
  app : τ

namespace LimiterState
variable {ι τ χ ω : Type} {Rep : ω → Type}

def waits (backend : Environment ι χ ω Rep PyError τ) (i : ι) (op : LimiterOp ω)
    (s : LimiterState τ) : Bool :=
  match op with
  | .check .. => false
  | .own op => backend.waits i op s.app

def exec (monotonic : ℕ → ℚ) (default_per_minute : ℤ) (backend : Environment ι χ ω Rep PyError τ)
    (i : ι) (choice : χ) (op : LimiterOp ω) (s : LimiterState τ) :
    Except PyError (op.Reply Rep) × LimiterState τ :=
  match op with
  | .check tenant_id endpoint_class =>
      let checked := RateLimiter.check default_per_minute s.buckets tenant_id endpoint_class
        (monotonic s.readings)
      (checked.1, { s with buckets := checked.2, readings := s.readings + 1 })
  | .own op =>
      ((backend.exec i choice op s.app).1, { s with app := (backend.exec i choice op s.app).2 })

def environment (monotonic : ℕ → ℚ) (default_per_minute : ℤ)
    (backend : Environment ι χ ω Rep PyError τ) :
    Environment ι χ (LimiterOp ω) (LimiterOp.Reply Rep) PyError (LimiterState τ) :=
  ⟨waits backend, exec monotonic default_per_minute backend⟩

def start (t : τ) : LimiterState τ := ⟨fun _ => none, 0, t⟩

end LimiterState

structure ErrorContent where
  code : String
  message : String
  retry_after_seconds : Option ℕ := none
  trace_id : Str

structure JSONResponse where
  status_code : ℕ
  content : ErrorContent
  headers : List (Str × Str)

/-- What the middleware takes from Starlette. -/
structure Starlette where
  /-- Headers and body of a JSON response. -/
  render : JSONResponse → Headers × Bytes
  Relay : Type
  relay : Relay
  /-- The messages `BaseHTTPMiddleware` sends for a message of the wrapped application. -/
  relayed : Relay → Message → List Message × Relay

def headersGet (headers : Headers) (name : Bytes) : Option Str :=
  (headers.find? (fun h => h.1 = name)).map (fun h => latin1 h.2)

/-- `value or None`. -/
def nonEmpty (value : Option Str) : Option Str := value.filter (fun s => s ≠ [])

namespace BaseHTTPMiddleware
variable {ω : Type} {Rep : ω → Type} (web : Starlette)

def respond (r : JSONResponse) : ServerProgram ω Rep Unit :=
  IdempotencyMiddleware.answer r.status_code (web.render r).1 (web.render r).2

/-- The response of the wrapped application, with its headers edited. -/
def edited (edit : Headers → Headers) : Message → Message
  | .responseStart status headers => .responseStart status (edit headers)
  | message => message

def passOn (edit : Headers → Headers) :
    (op : ServerOp ω) → web.Relay → ServerProgram ω Rep (op.Reply Rep × web.Relay)
  | .send message, relay => do
      forM (web.relayed relay message).1 (fun m => Server.send (edited edit m))
      return ((), (web.relayed relay message).2)
  | .receive, relay => do
      let message ← Server.receive
      return (message, relay)
  | .collectBody, relay => do
      let body ← Server.collectBody
      return (body, relay)
  | .get tenant_id key, relay => do
      let cached ← Server.get tenant_id key
      return (cached, relay)
  | .put tenant_id key value, relay => do
      Server.put tenant_id key value
      return ((), relay)
  | .event e, relay => do
      Server.event e
      return ((), relay)
  | .own op, relay => do
      let reply ← Server.own op
      return (reply, relay)

/-- `await call_next(request)`, and then the response it returned. -/
def callNext (edit : Headers → Headers) (inner : ServerProgram ω Rep Unit) :
    ServerProgram ω Rep Unit :=
  inner.interpret (passOn web edit) web.relay

end BaseHTTPMiddleware

def rateLimitedResponse (retry_after : ℕ) (request_id : Str) : JSONResponse where
  status_code := 429
  content := {
    code := "RATE_LIMITED"
    message := "Per-tenant rate limit exceeded."
    retry_after_seconds := some retry_after
    trace_id := request_id }
  headers := [("Retry-After".toList, natStr retry_after), ("X-Request-ID".toList, request_id)]

/-- Tenant and endpoint class of a request that is limited. -/
def limitedAs (scope : Scope) : Option (UUID × EndpointClass) :=
  (classifyEndpoint scope.url_path).bind (fun endpoint_class =>
    ((nonEmpty (headersGet scope.headers (bytes "x-tenant-id"))).bind uuid?).map
      (fun tenant_id => (tenant_id, endpoint_class)))

namespace RateLimitMiddleware
variable {ω : Type} {Rep : ω → Type}

def check (tenant_id : UUID) (endpoint_class : EndpointClass) :
    ServerProgram (LimiterOp ω) (LimiterOp.Reply Rep) (Option ℕ) :=
  Server.own (LimiterOp.check tenant_id endpoint_class : LimiterOp ω)

def call (web : Starlette) (scope : Scope)
    (inner : ServerProgram (LimiterOp ω) (LimiterOp.Reply Rep) Unit) :
    ServerProgram (LimiterOp ω) (LimiterOp.Reply Rep) Unit :=
  if scope.type ≠ .http then inner
  else
    match limitedAs scope with
    | none => BaseHTTPMiddleware.callNext web id inner
    | some (tenant_id, endpoint_class) => do
        let retry ← check tenant_id endpoint_class
        match retry with
        | none => BaseHTTPMiddleware.callNext web id inner
        | some retry =>
            BaseHTTPMiddleware.respond web (rateLimitedResponse retry
              ((headersGet scope.headers (bytes "x-request-id")).getD []))

end RateLimitMiddleware
end Hawiya
