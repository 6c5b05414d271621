import Hawiya.RateLimit

/-!
# The tenancy middleware and the stack

`TenancyMiddleware` decides by the path whether a request must carry the bearer token and a tenant.
`stack` is what `create_app` installs: tenancy outside the rate limit outside idempotency outside
the application. A request without a request id gets a fresh one.
-/

namespace Hawiya
open PyString Interaction

def unauthenticatedPaths : List Str := [
  "/v1/health".toList,
  "/v1/ready".toList,
  "/metrics".toList,
  "/openapi.json".toList,
  "/docs".toList,
  "/docs/oauth2-redirect".toList,
  "/redoc".toList]

/-- `headers[name] = value`: the first of that name is replaced and the others go. -/
def setHeader (name value : Bytes) : Headers → Headers
  | [] => [(name, value)]
  | h :: headers =>
      if h.1 = name then (name, value) :: headers.filter (fun h => h.1 ≠ name)
      else h :: setHeader name value headers

namespace TenancyMiddleware

def requestId (fresh : Str) (headers : Headers) : Str :=
  (nonEmpty (headersGet headers (bytes "x-request-id"))).getD fresh

def bearer (headers : Headers) : Option Str :=
  let auth := (headersGet headers (bytes "authorization")).getD []
  if "Bearer ".toList.isPrefixOf auth then some (auth.drop 7) else none

def error (code message : String) (status_code : ℕ) (request_id : Str) : JSONResponse where
  status_code := status_code
  content := { code := code, message := message, trace_id := request_id }
  headers := [("X-Request-ID".toList, request_id)]

/-- The refusal of a request on a path that is not exempt. -/
def refusal (token : Str) (headers : Headers) (request_id : Str) : Option JSONResponse :=
  if bearer headers ≠ some token then
    some (error "UNAUTHENTICATED" "Missing or invalid bearer token." 401 request_id)
  else
    match nonEmpty (headersGet headers (bytes "x-tenant-id")) with
    | none => some (error "TENANT_REQUIRED" "X-Tenant-ID header is required." 401 request_id)
    | some raw_tenant =>
        match uuid? raw_tenant with
        | none => some (error "TENANT_INVALID" "X-Tenant-ID must be a valid UUID." 400 request_id)
        | some _ => none

variable {ω : Type} {Rep : ω → Type}

def call (web : Starlette) (token fresh : Str) (scope : Scope) (inner : ServerProgram ω Rep Unit) :
    ServerProgram ω Rep Unit :=
  if scope.type ≠ .http then inner
  else
    let request_id := requestId fresh scope.headers
    let edit := setHeader (bytes "x-request-id") (latin1Encode request_id)
    if scope.url_path ∈ unauthenticatedPaths then BaseHTTPMiddleware.callNext web edit inner
    else
      match refusal token scope.headers request_id with
      | some response => BaseHTTPMiddleware.respond web response
      | none => BaseHTTPMiddleware.callNext web edit inner

end TenancyMiddleware

structure Deployment where
  web : Starlette
  dev_bearer_token : Str
  sha256 : Bytes → Str
  ttl_seconds : ℕ

def Deployment.stack {ω : Type} {Rep : ω → Type} (d : Deployment)
    (app : App (LimiterOp ω) (LimiterOp.Reply Rep)) (fresh : Str) (scope : Scope) :
    ServerProgram (LimiterOp ω) (LimiterOp.Reply Rep) Unit :=
  TenancyMiddleware.call d.web d.dev_bearer_token fresh scope
    (RateLimitMiddleware.call d.web scope
      (IdempotencyMiddleware.call d.sha256 d.ttl_seconds app scope))

end Hawiya
