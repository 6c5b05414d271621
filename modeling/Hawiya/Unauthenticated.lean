import Hawiya.Lib.Handlers
import Hawiya.Lib.Sha256
import Hawiya.Tenancy
import Hawiya.Traffic

/-!
# Requests without the token

What a request without the valid bearer token is sent, in any run in which no such request finds a
live entry in the idempotency store: what it would be sent by a server that serves nothing else.
The routes of the exempt paths are taken as stateless. A keyed POST to an exempt path does reach the
store, and is answered from it.
-/

namespace Hawiya
open PyString Interaction

variable {ι τ χ ω : Type} {Rep : ω → Type}

/-- Not an operation of the application or of the limiter. -/
def ServerOp.Plain (op : ServerOp ω) : Prop := ∀ o, op ≠ .own o

/-- An application that keeps nothing: all it does is receive and send. -/
def Stateless (p : Program (AsgiOp ω) (AsgiOp.Reply Rep) PyError Unit) : Prop :=
  p.Only (fun op => ∀ o, op ≠ .own o)

section Plain

theorem only_await {op : ServerOp ω} (h : op.Plain) :
    (Server.await op : ServerProgram ω Rep _).Only ServerOp.Plain :=
  Program.only_perform h

theorem only_answer (status : ℕ) (headers : Headers) (body : Bytes) :
    (IdempotencyMiddleware.answer status headers body : ServerProgram ω Rep Unit).Only
      ServerOp.Plain :=
  Program.only_bind (only_await nofun) (fun _ => only_await nofun)

theorem only_passOn {op : AsgiOp ω} (hop : ∀ o, op ≠ .own o) (u : Unit) :
    (IdempotencyMiddleware.passOn op u : ServerProgram ω Rep _).Only ServerOp.Plain := by
  cases op with
  | receive => exact Program.only_bind (only_await nofun) (fun _ => trivial)
  | send m =>
    exact Program.only_bind (only_await nofun) (fun _ =>
      Program.only_bind (only_await nofun) (fun _ => trivial))
  | own o => exact absurd rfl (hop o)

theorem only_replayAndCapture (body : Bytes) (f : IdempotencyMiddleware.Fingerprint) (ttl : ℕ)
    {op : AsgiOp ω} (hop : ∀ o, op ≠ .own o) (c : Closure) :
    (IdempotencyMiddleware.replayAndCapture body f ttl op c : ServerProgram ω Rep _).Only
      ServerOp.Plain := by
  cases op with
  | receive => trivial
  | send m =>
    have hsend : (do Server.send m; return ((), c.capture m) : ServerProgram ω Rep _).Only
        ServerOp.Plain :=
      Program.only_bind (only_await nofun) (fun _ => trivial)
    refine Program.only_bind (only_await nofun) (fun _ => ?_)
    by_cases h : (c.capture m).completes m
    · simp only [h, if_true]
      exact Program.only_bind (only_await nofun) (fun _ => hsend)
    · rw [if_neg h]
      exact hsend
  | own o => exact absurd rfl (hop o)

theorem only_call (sha256 : Bytes → Str) (ttl : ℕ) {app : App ω Rep} {scope : Scope}
    (happ : Stateless (app scope)) :
    (IdempotencyMiddleware.call sha256 ttl app scope).Only ServerOp.Plain := by
  unfold IdempotencyMiddleware.call
  cases IdempotencyMiddleware.keyOf scope with
  | none =>
    exact Program.only_bind (only_await nofun) (fun _ =>
      Program.only_interpret (fun _ _ hop => only_passOn hop _) happ _)
  | some k =>
    refine Program.only_bind (only_await nofun) (fun body => ?_)
    refine Program.only_bind (only_await nofun) (fun cached => ?_)
    cases cached with
    | none =>
      exact Program.only_bind (only_await nofun) (fun _ =>
        Program.only_interpret (fun _ st hop => only_replayAndCapture _ _ _ hop st) happ _)
    | some cached =>
      by_cases hbody : cached.body_hash = sha256 body
      · rw [IdempotencyMiddleware.settle_replay ttl app hbody]
        exact only_answer _ _ _
      · rw [IdempotencyMiddleware.settle_conflict ttl app hbody]
        exact only_answer _ _ _

theorem only_callNext (web : Starlette) (edit : Headers → Headers)
    {inner : ServerProgram ω Rep Unit} (h : inner.Only ServerOp.Plain) :
    (BaseHTTPMiddleware.callNext web edit inner).Only ServerOp.Plain := by
  refine Program.only_interpret (fun op relay hop => ?_) h _
  cases op with
  | send m =>
    exact Program.only_bind (Program.only_forM (fun _ _ => only_await nofun)) (fun _ => trivial)
  | own o => exact absurd rfl (hop o)
  | receive | collectBody | get | put | event =>
    exact Program.only_bind (only_await nofun) (fun _ => trivial)

end Plain

/-- A request that does not carry the valid token. -/
def Unauthenticated (token : Str) (scope : Scope) : Prop :=
  scope.type = .http ∧ TenancyMiddleware.bearer scope.headers ≠ some token

theorem classifyEndpoint_exempt :
    ∀ path ∈ unauthenticatedPaths, classifyEndpoint path = none := by
  decide

/-- Without the token the stack comes to the application on exempt paths only. -/
theorem only_stack (d : Deployment) {app : App (LimiterOp ω) (LimiterOp.Reply Rep)}
    (hroutes : ∀ scope, scope.url_path ∈ unauthenticatedPaths → Stateless (app scope))
    (fresh : Str) {scope : Scope} (h : Unauthenticated d.dev_bearer_token scope) :
    (d.stack app fresh scope).Only ServerOp.Plain := by
  obtain ⟨hhttp, hbearer⟩ := h
  unfold Deployment.stack TenancyMiddleware.call
  rw [if_neg (not_not.mpr hhttp)]
  by_cases hexempt : scope.url_path ∈ unauthenticatedPaths
  · have hlimit : limitedAs scope = none := by
      rw [limitedAs, classifyEndpoint_exempt _ hexempt]
      rfl
    simp only [if_pos hexempt]
    refine only_callNext _ _ ?_
    unfold RateLimitMiddleware.call
    rw [if_neg (not_not.mpr hhttp), hlimit]
    exact only_callNext _ _ (only_call _ _ (hroutes scope hexempt))
  · have hrefusal : TenancyMiddleware.refusal d.dev_bearer_token scope.headers
        (TenancyMiddleware.requestId fresh scope.headers) =
          some (TenancyMiddleware.error "UNAUTHENTICATED" "Missing or invalid bearer token." 401
            (TenancyMiddleware.requestId fresh scope.headers)) :=
      if_pos hbearer
    simp only [if_neg hexempt, hrefusal]
    exact only_answer _ _ _

/-- What a program sends that gets these messages, where nothing is stored. -/
def answerAlone : ServerProgram ω Rep Unit → List Message → List Message
  | .pure _, _ => []
  | .throw _, _ => []
  | .call .receive next, inbox => answerAlone (next (.ok (inbox.headD .disconnect))) inbox.tail
  | .call .collectBody next, inbox =>
      answerAlone (next (.ok (collectBody inbox).1)) (collectBody inbox).2
  | .call (.send message) next, inbox => message :: answerAlone (next (.ok ())) inbox
  | .call (.get _ _) next, inbox => answerAlone (next (.ok none)) inbox
  | .call (.put _ _ _) next, inbox => answerAlone (next (.ok ())) inbox
  | .call (.event _) next, inbox => answerAlone (next (.ok ())) inbox
  | .call (.own _) _, _ => []

namespace Traffic
variable [DecidableEq ι] (x : Traffic ι) (d : Deployment)
  (app : App (LimiterOp ω) (LimiterOp.Reply Rep)) (fresh : ι → Str)

def stackPool (t : τ) : Pool ι (ServerState ι (LimiterState τ)) (ServerOp (LimiterOp ω))
    (ServerOp.Reply (LimiterOp.Reply Rep)) PyError Unit where
  shared := ServerState.start x.inbox (LimiterState.start t)
  program i := d.stack app (fresh i) (x.scope i)

/-- The answer to request `i` of a server that serves nothing else. -/
def aloneAnswer (i : ι) : List Message :=
  answerAlone (d.stack app (fresh i) (x.scope i)) (x.inbox i)

/-- No request without the token finds a live entry. -/
def NoLiveEntry (clock : ℕ → ℚ) : ι → χ → ServerOp (LimiterOp ω) →
    ServerState ι (LimiterState τ) → Prop
  | i, _, .get tenant_id key, s =>
      Unauthenticated d.dev_bearer_token (x.scope i) → s.lookup clock tenant_id key = none
  | _, _, _, _ => True

def openDoor (clock : ℕ → ℚ) (env : Environment ι χ (LimiterOp ω) (LimiterOp.Reply Rep) PyError
    (LimiterState τ)) :
    Discipline ι χ (ServerOp (LimiterOp ω)) (ServerOp.Reply (LimiterOp.Reply Rep)) PyError
      (ServerState ι (LimiterState τ)) where
  env := ServerState.environment clock env
  allowed := x.NoLiveEntry d clock
  rely := ServerState.Elsewhere
  running i s := Unauthenticated d.dev_bearer_token (x.scope i) →
    s.outbox i <+: x.aloneAnswer d app fresh i

variable {x d app fresh} {clock : ℕ → ℚ} {i : ι}
  {env : Environment ι χ (LimiterOp ω) (LimiterOp.Reply Rep) PyError (LimiterState τ)}

theorem openDoor_closed : (x.openDoor d app fresh clock env).Closed where
  refl := ServerState.Elsewhere.refl
  trans _ _ _ _ h h' := h.trans h'

theorem openDoor_guarantees : (x.openDoor d app fresh clock env).Guarantees :=
  fun _ _ choice op s hj _ _ => ServerState.exec_elsewhere clock env hj choice op s

/-- The request has been sent its answer, if it has no token. -/
def Answered (x : Traffic ι) (d : Deployment) (app : App (LimiterOp ω) (LimiterOp.Reply Rep))
    (fresh : ι → Str) (i : ι) (s : ServerState ι (LimiterState τ)) : Prop :=
  Unauthenticated d.dev_bearer_token (x.scope i) → s.outbox i = x.aloneAnswer d app fresh i

/-- What has been sent and what is still to be sent make up the answer. -/
theorem triple_alone (hi : Unauthenticated d.dev_bearer_token (x.scope i))
    (p : ServerProgram (LimiterOp ω) (LimiterOp.Reply Rep) Unit) (hp : p.Only ServerOp.Plain) :
    Triple (x.openDoor d app fresh clock env) i
      (fun s => s.outbox i ++ answerAlone p (s.inbox i) = x.aloneAnswer d app fresh i) p
      (fun _ => x.Answered d app fresh i) (x.Answered d app fresh i) := by
  have hstable : ∀ p : ServerProgram (LimiterOp ω) (LimiterOp.Reply Rep) Unit,
      (x.openDoor d app fresh clock env).Stable i (fun s =>
        s.outbox i ++ answerAlone p (s.inbox i) = x.aloneAnswer d app fresh i) := by
    intro p s s' hrely hs
    rw [hrely.outbox, hrely.inbox]
    exact hs
  have hdone : (x.openDoor d app fresh clock env).Stable i (x.Answered d app fresh i) :=
    fun s s' hrely hs hi => hrely.outbox.trans (hs hi)
  induction p with
  | pure a => exact Triple.pure hdone (fun s hs _ => (List.append_nil _).symm.trans hs)
  | throw e => exact Triple.throw hdone (fun s hs _ => (List.append_nil _).symm.trans hs)
  | call op next ih =>
    refine Triple.call (R := fun r s =>
      s.outbox i ++ answerAlone (next r) (s.inbox i) = x.aloneAnswer d app fresh i) (hstable _)
      (fun s hs _ => ⟨_, hs⟩) ?_ (fun r => ih r (hp.2 r))
    intro s choice hs hw hok
    refine ⟨fun j hj => openDoor_guarantees i j choice op s hj hw hok, ?_⟩
    cases op with
    | receive =>
      have hinbox : (s.setInbox i (s.inbox i).tail).inbox i = (s.inbox i).tail :=
        Function.update_self ..
      refine Eq.trans ?_ hs
      exact congrArg (fun inbox => s.outbox i ++ answerAlone _ inbox) hinbox
    | collectBody =>
      have hinbox : (s.setInbox i (collectBody (s.inbox i)).2).inbox i =
          (collectBody (s.inbox i)).2 :=
        Function.update_self ..
      refine Eq.trans ?_ hs
      exact congrArg (fun inbox => s.outbox i ++ answerAlone _ inbox) hinbox
    | send m =>
      have hrest : s.outbox i ++ [m] ++ answerAlone (next (.ok ())) (s.inbox i) =
          x.aloneAnswer d app fresh i := by
        rw [List.append_assoc]
        exact hs
      rw [← hrest]
      exact congrArg (· ++ _) (ServerState.outbox_deliver_self s i m)
    | get tenant_id key =>
      have hmiss : s.lookup clock tenant_id key = none := hok hi
      change s.outbox i ++ answerAlone (next (.ok (s.lookup clock tenant_id key))) (s.inbox i) = _
      rw [hmiss]
      exact hs
    | put tenant_id key value => exact hs
    | event e => exact hs
    | own o => exact absurd rfl (hp.1 o)

theorem triple_stack
    (hroutes : ∀ scope, scope.url_path ∈ unauthenticatedPaths → Stateless (app scope)) :
    Triple (x.openDoor d app fresh clock env) i
      (fun s => s.outbox i = [] ∧ s.inbox i = x.inbox i) (d.stack app (fresh i) (x.scope i))
      (fun _ => x.Answered d app fresh i) (x.Answered d app fresh i) := by
  by_cases hi : Unauthenticated d.dev_bearer_token (x.scope i)
  · refine (triple_alone hi _ (only_stack d hroutes (fresh i) hi)).conseq ?_ (fun _ _ => id)
    rintro s ⟨hout, hin⟩
    rw [hout, hin]
    rfl
  · exact Triple.anything openDoor_guarantees (fun _ h => absurd h hi) (fun _ _ h => absurd h hi)
      (fun _ h => absurd h hi) _

variable (x d app fresh)

/-- In a run in which no request without the valid token finds a live entry, such a request is sent
the answer to it alone: whatever other requests there are and have been, and none of it from the
store. -/
theorem unauthenticated_answers_are_fixed
    (hroutes : ∀ scope, scope.url_path ∈ unauthenticatedPaths → Stateless (app scope))
    (clock monotonic : ℕ → ℚ) (default_per_minute : ℤ)
    (backend : Environment ι χ ω Rep PyError τ) (t : τ)
    (q : Pool ι (ServerState ι (LimiterState τ)) (ServerOp (LimiterOp ω))
      (ServerOp.Reply (LimiterOp.Reply Rep)) PyError Unit)
    (hrun : Pool.Run (ServerState.environment clock
      (LimiterState.environment monotonic default_per_minute backend)) (x.NoLiveEntry d clock)
      (x.stackPool d app fresh t) q) (i : ι)
    (hi : Unauthenticated d.dev_bearer_token (x.scope i)) :
    q.shared.outbox i <+: x.aloneAnswer d app fresh i ∧
      ((∀ op next, q.program i ≠ .call op next) →
        q.shared.outbox i = x.aloneAnswer d app fresh i) := by
  have hends := Triple.run (D := x.openDoor d app fresh clock
      (LimiterState.environment monotonic default_per_minute backend)) openDoor_closed
    (fun _ => triple_stack hroutes) (fun _ => ⟨rfl, rfl⟩) hrun i
  rcases hends with ⟨-, -, h⟩ | ⟨-, -, h⟩ | ⟨h, op, next, hcall⟩
  · rw [h hi]
    exact ⟨List.prefix_rfl, fun _ => rfl⟩
  · rw [h hi]
    exact ⟨List.prefix_rfl, fun _ => rfl⟩
  · exact ⟨h hi, fun hdone => absurd hcall (hdone op next)⟩

end Traffic

/-! A deployment with one authenticated request and one without a token, of the same key. -/

namespace Specimen

/-- Each chunk is sent on as one that more follow, and the end as an empty one. -/
def relayed : Message → List Message
  | .responseStart status headers => [.responseStart status headers]
  | .responseBody body more_body =>
      (if body = [] then [] else [.responseBody body true]) ++
        (if more_body then [] else [.responseBody [] false])
  | _ => []

def web : Starlette where
  render r := (r.headers.map (fun h => (latin1Encode h.1, latin1Encode h.2)), bytes r.content.code)
  Relay := Unit
  relay := ()
  relayed _ message := (relayed message, ())

def deployment : Deployment where
  web := web
  dev_bearer_token := "dev".toList
  sha256 := Sha256.hexdigest
  ttl_seconds := 7200

abbrev Routing : Type → Type :=
  Program (AsgiOp (LimiterOp Unit)) (AsgiOp.Reply (LimiterOp.Reply fun _ => ℕ)) PyError

def routed (op : AsgiOp (LimiterOp Unit)) : Routing (op.Reply (LimiterOp.Reply fun _ => ℕ)) :=
  Program.perform op

/-- A counter, and exempt paths that no POST is allowed on. -/
def routes : App (LimiterOp Unit) (LimiterOp.Reply fun _ => ℕ) := fun scope =>
  if unauthenticatedPaths.contains scope.url_path then do
    routed (.send (.responseStart 405 []))
    routed (.send (.responseBody [] false))
  else do
    let n ← routed (.own (.own ()))
    routed (.send (.responseStart 200 []))
    routed (.send (.responseBody (utf8Encode (natStr n)) false))

theorem routes_exempt (scope : Scope) (h : scope.url_path ∈ unauthenticatedPaths) :
    Stateless (routes scope) := by
  unfold Stateless routes
  rw [if_pos (List.contains_iff_mem.mpr h)]
  exact Program.only_bind (Program.only_perform nofun) (fun _ => Program.only_perform nofun)

def authenticated (scope : Scope) : Scope :=
  { scope with headers := (bytes "authorization", bytes "Bearer dev") :: scope.headers }

/-- The request `true` has the token, the request `false` has not. -/
def mixed : Traffic Bool where
  scope i := if i then authenticated (post "/v1/persons") else post "/v1/health"
  inbox _ := [.request [1] false]

def mixedPool : Pool Bool (ServerState Bool (LimiterState ℕ)) (ServerOp (LimiterOp Unit))
    (ServerOp.Reply (LimiterOp.Reply fun _ => ℕ)) PyError Unit :=
  mixed.stackPool deployment routes (fun _ => "fresh".toList) 0

def mixedEnvironment : Environment Bool Unit (ServerOp (LimiterOp Unit))
    (ServerOp.Reply (LimiterOp.Reply fun _ => ℕ)) PyError (ServerState Bool (LimiterState ℕ)) :=
  ServerState.environment clock (LimiterState.environment clock 100 counter)

theorem mixed_unauthenticated : Unauthenticated deployment.dev_bearer_token (mixed.scope false) :=
  ⟨rfl, by decide +kernel⟩

/-- No lookup of any request finds a live entry. -/
def noLiveEntry (op : ServerOp (LimiterOp Unit)) (s : ServerState Bool (LimiterState ℕ)) : Bool :=
  match op with
  | .get tenant_id key => (s.lookup clock tenant_id key).isNone
  | _ => true

end Specimen

namespace Traffic
open Specimen

/-- The key is looked up before anything is stored: the answer is the one to the request alone. -/
theorem early_request_answered_alone : ∃ q,
    Pool.Run mixedEnvironment (mixed.NoLiveEntry deployment clock) mixedPool q ∧
      (q.program true).returned ∧ (q.program false).returned ∧
      q.shared.outbox false =
        mixed.aloneAnswer deployment routes (fun _ => "fresh".toList) false := by
  have hok : ∀ (i : Bool) (choice : Unit) (op : ServerOp (LimiterOp Unit))
      (s : ServerState Bool (LimiterState ℕ)), noLiveEntry op s = true →
        mixed.NoLiveEntry deployment clock i choice op s := by
    intro i choice op s h
    cases op with
    | get tenant_id key => exact fun _ => Option.isNone_iff_eq_none.mp h
    | receive | collectBody | send | put | event | own => trivial
  have hends : (Pool.runChecked mixedEnvironment (fun _ _ => noLiveEntry)
      (List.replicate 7 (false, ()) ++ List.replicate 11 (true, ())) mixedPool).map
        (fun q => ((q.program true).returned, (q.program false).returned)) =
      some (true, true) := by
    decide +kernel
  obtain ⟨q, hq, hends⟩ := Option.map_eq_some_iff.mp hends
  obtain ⟨hfirst, hsecond⟩ := Prod.mk.inj hends
  have hrun := Pool.run_of_runChecked hok hq
  refine ⟨q, hrun, hfirst, hsecond, ?_⟩
  obtain ⟨-, hanswer⟩ := unauthenticated_answers_are_fixed mixed deployment routes
    (fun _ => "fresh".toList) routes_exempt clock clock 100 counter 0 q hrun false
    mixed_unauthenticated
  refine hanswer (fun op next hcall => ?_)
  obtain ⟨a, ha⟩ := Program.returned_iff.mp hsecond
  rw [ha] at hcall
  cases hcall

/-- On an exempt path, without a token, the tenant's stored response is sent. -/
theorem stored_response_without_token : ∃ q,
    Pool.Run mixedEnvironment Pool.Unrestricted mixedPool q ∧
      Unauthenticated deployment.dev_bearer_token (mixed.scope false) ∧
      (∀ scope, scope.url_path ∈ unauthenticatedPaths → Stateless (routes scope)) ∧
      (q.program false).returned ∧ q.shared.outbox false = q.shared.outbox true ∧
      q.shared.outbox false ≠
        mixed.aloneAnswer deployment routes (fun _ => "fresh".toList) false := by
  have hends : (Pool.runSchedule mixedEnvironment
      (List.replicate 11 (true, ()) ++ List.replicate 5 (false, ())) mixedPool).map
        (fun q => ((q.program false).returned,
          decide (q.shared.outbox false = q.shared.outbox true),
          decide (q.shared.outbox false =
            mixed.aloneAnswer deployment routes (fun _ => "fresh".toList) false))) =
      some (true, true, false) := by
    decide +kernel
  obtain ⟨q, hq, hends⟩ := Option.map_eq_some_iff.mp hends
  simp only [Prod.mk.injEq, decide_eq_true_eq, decide_eq_false_iff_not] at hends
  obtain ⟨hreturned, hstored, halone⟩ := hends
  exact ⟨q, Pool.run_of_runSchedule hq, mixed_unauthenticated, routes_exempt, hreturned, hstored,
    halone⟩

end Traffic
end Hawiya
