import Hawiya.RetryAfter
import Hawiya.Unauthenticated

/-!
# Which limits the rate limiter can enforce

A sequence of limited requests on a fresh limiter, whatever is behind the middleware. A limit between
one and the largest double lets each of them through or refuses it with a number of seconds. From a
limit below one a bucket gets a rate that is not positive: its waiting time is infinite and has no
ceiling.
-/

namespace Hawiya
open PyString Interaction RateLimiter

/-- The limits that can be enforced. -/
def Enforceable (default_per_minute : ℤ) : Prop :=
  1 ≤ default_per_minute ∧ default_per_minute < doubleOverflow

theorem float_of_enforceable {n : ℤ} (h : Enforceable n) : float n = .ok n := by
  obtain ⟨hpos, hlt⟩ := h
  unfold float
  rw [if_pos (by omega)]

theorem check_of_not_enforceable {n : ℤ} (h : ¬ Enforceable n) {buckets : Buckets} {tenant_id : UUID}
    {endpoint_class : EndpointClass} (hnone : buckets (tenant_id, endpoint_class) = none) (now : ℚ) :
    (check n buckets tenant_id endpoint_class now).1 = .error .overflowError := by
  unfold check bucketFor float
  rw [hnone]
  by_cases hlt : n.natAbs < doubleOverflow
  · have hle : n ≤ 0 := by
      unfold Enforceable at h
      omega
    have hle' : (n : ℚ) ≤ 0 := by exact_mod_cast hle
    have hrate : ¬ (0 : ℚ) < n / 60 := by linarith
    have hless : ¬ (1 : ℚ) ≤ n := by linarith
    simp [hlt, Bucket.take, Bucket.refilled, hrate, hless, retryAfter, Except.map]
  · simp [hlt]

namespace RateLimiter

def Levelled (n : ℤ) (buckets : Buckets) : Prop := ∀ k, ∃ level, At n k buckets level

theorem levelled_check {n : ℤ} (hn : 0 ≤ n) {buckets : Buckets} (h : Levelled n buckets) (c : Call) :
    Levelled n (checkCall n buckets c).2 := by
  intro k
  by_cases hk : c.key = k
  · subst hk
    obtain ⟨level, hlevel⟩ := h c.key
    obtain ⟨level', -, hlevel'⟩ := hlevel.checkCall hn
    exact ⟨level', hlevel'⟩
  · obtain ⟨level, hlevel⟩ := h k
    exact ⟨level, hlevel.other hk⟩

end RateLimiter

structure LimitedRequest (ω : Type) (Rep : ω → Type) where
  scope : Scope
  http : scope.type = .http
  key : UUID × EndpointClass
  limited : limitedAs scope = some key
  messages : List Message
  inner : ServerProgram (LimiterOp ω) (LimiterOp.Reply Rep) Unit

section
variable {τ ω : Type} {Rep : ω → Type} (web : Starlette) (clock monotonic : ℕ → ℚ) (n : ℤ)
variable (backend : Environment Unit Unit ω Rep PyError τ)

def runLimited (p : ServerProgram (LimiterOp ω) (LimiterOp.Reply Rep) Unit)
    (s : ServerState Unit (LimiterState τ)) :
    Except PyError Unit × ServerState Unit (LimiterState τ) :=
  p.run (ServerState.exec clock (LimiterState.environment monotonic n backend) () ()) s

def afterCheck (key : UUID × EndpointClass) (s : ServerState Unit (LimiterState τ)) :
    ServerState Unit (LimiterState τ) :=
  { s with app := { s.app with
      buckets := (check n s.app.buckets key.1 key.2 (monotonic s.app.readings)).2
      readings := s.app.readings + 1 } }

def checkAnswer (key : UUID × EndpointClass) (s : ServerState Unit (LimiterState τ)) :
    Except PyError (Option ℕ) :=
  (check n s.app.buckets key.1 key.2 (monotonic s.app.readings)).1

namespace LimitedRequest
variable (r : LimitedRequest ω Rep) (s : ServerState Unit (LimiterState τ))

def request_id : Str := (headersGet r.scope.headers (bytes "x-request-id")).getD []

def dispatch (inner : ServerProgram (LimiterOp ω) (LimiterOp.Reply Rep) Unit) :
    ServerProgram (LimiterOp ω) (LimiterOp.Reply Rep) Unit :=
  RateLimitMiddleware.call web r.scope inner

def arrives : ServerState Unit (LimiterState τ) :=
  { s with inbox := fun _ => r.messages, outbox := fun _ => [] }

def refusal (retry : ℕ) : List Message :=
  answerMessages 429 (web.render (rateLimitedResponse retry r.request_id)).1
    (web.render (rateLimitedResponse retry r.request_id)).2

/-- What the middleware makes of the request, whatever application it stands before. -/
inductive Answered : Prop
  | forwarded (h : ∀ inner, runLimited clock monotonic n backend (r.dispatch web inner) (r.arrives s) =
      runLimited clock monotonic n backend (BaseHTTPMiddleware.callNext web id inner)
        (afterCheck monotonic n r.key (r.arrives s)))
  | refused (retry : ℕ) (positive : 1 ≤ retry)
      (h : ∀ inner, (runLimited clock monotonic n backend (r.dispatch web inner) (r.arrives s)).1 =
          .ok () ∧
        (runLimited clock monotonic n backend (r.dispatch web inner) (r.arrives s)).2.outbox () =
          r.refusal web retry)

def after : ServerState Unit (LimiterState τ) :=
  (runLimited clock monotonic n backend (r.dispatch web r.inner) (r.arrives s)).2

theorem run_dispatch (inner : ServerProgram (LimiterOp ω) (LimiterOp.Reply Rep) Unit) :
    runLimited clock monotonic n backend (r.dispatch web inner) s =
      match checkAnswer monotonic n r.key s with
      | .error e => (.error e, afterCheck monotonic n r.key s)
      | .ok none => runLimited clock monotonic n backend (BaseHTTPMiddleware.callNext web id inner)
          (afterCheck monotonic n r.key s)
      | .ok (some retry) => runLimited clock monotonic n backend (BaseHTTPMiddleware.respond web
          (rateLimitedResponse retry r.request_id)) (afterCheck monotonic n r.key s) := by
  have hcheck : (RateLimitMiddleware.check r.key.1 r.key.2 :
      ServerProgram (LimiterOp ω) (LimiterOp.Reply Rep) (Option ℕ)).run
        (ServerState.exec clock (LimiterState.environment monotonic n backend) () ()) s =
      (checkAnswer monotonic n r.key s, afterCheck monotonic n r.key s) :=
    Program.run_perform _ _ _
  unfold runLimited dispatch RateLimitMiddleware.call
  rw [if_neg (not_not.mpr r.http), r.limited]
  simp only [Program.run_bind, hcheck]
  cases checkAnswer monotonic n r.key s with
  | error e => rfl
  | ok retry =>
    cases retry with
    | none => rfl
    | some retry => rfl

theorem outbox_respond (response : JSONResponse) {s : ServerState Unit (LimiterState τ)}
    (hs : s.outbox () = []) :
    (runLimited clock monotonic n backend (BaseHTTPMiddleware.respond web response) s).2.outbox () =
      answerMessages response.status_code (web.render response).1 (web.render response).2 := by
  have hrun : (runLimited clock monotonic n backend
      (BaseHTTPMiddleware.respond web response) s).2 =
      (s.deliver () (.responseStart response.status_code (web.render response).1)).deliver ()
        (.responseBody (web.render response).2 false) := rfl
  rw [hrun, ServerState.outbox_deliver_self, ServerState.outbox_deliver_self, hs]
  rfl

theorem answered_of_check {answer : Option ℕ}
    (h : checkAnswer monotonic n r.key (r.arrives s) = .ok answer)
    (hpos : ∀ retry ∈ answer, 1 ≤ retry) : r.Answered web clock monotonic n backend s := by
  cases answer with
  | none =>
    refine .forwarded (fun inner => ?_)
    rw [run_dispatch, h]
  | some retry =>
    refine .refused retry (hpos retry rfl) (fun inner => ?_)
    rw [run_dispatch, h]
    exact ⟨rfl, outbox_respond web clock monotonic n backend _ rfl⟩

theorem not_answered_of_check {e : PyError}
    (h : checkAnswer monotonic n r.key (r.arrives s) = .error e) :
    ¬ r.Answered web clock monotonic n backend s := by
  rintro (hforwarded | ⟨retry, -, hrefused⟩)
  · -- an application that does nothing would have let the request through
    have hdone := hforwarded (.pure ())
    rw [run_dispatch, h] at hdone
    exact absurd (congrArg Prod.fst hdone) nofun
  · have hdone := (hrefused (.pure ())).1
    rw [run_dispatch, h] at hdone
    exact absurd hdone nofun

end LimitedRequest

/-- Each request of a sequence is forwarded or refused, on the server the ones before it leave. -/
def AllAnswered :
    List (LimitedRequest ω Rep) → ServerState Unit (LimiterState τ) → Prop
  | [], _ => True
  | r :: requests, s => r.Answered web clock monotonic n backend s ∧
      AllAnswered requests (r.after web clock monotonic n backend s)

theorem levelled_run {n : ℤ} (hn : 0 ≤ n)
    (p : ServerProgram (LimiterOp ω) (LimiterOp.Reply Rep) Unit)
    {s : ServerState Unit (LimiterState τ)} (h : Levelled n s.app.buckets) :
    Levelled n (runLimited clock monotonic n backend p s).2.app.buckets := by
  refine Program.run_invariant (I := fun s : ServerState Unit (LimiterState τ) =>
    Levelled n s.app.buckets) _ (fun op s hs => ?_) p h
  cases op with
  | own op =>
    cases op with
    | check tenant_id endpoint_class =>
      exact levelled_check hn hs ⟨tenant_id, endpoint_class, monotonic s.app.readings⟩
    | own op => exact hs
  | receive | collectBody | send | get | put | event => exact hs

theorem checkAnswer_of_enforceable {n : ℤ} (h : Enforceable n) (key : UUID × EndpointClass)
    {s : ServerState Unit (LimiterState τ)} (hs : Levelled n s.app.buckets) :
    ∃ answer, checkAnswer monotonic n key s = .ok answer ∧ ∀ retry ∈ answer, 1 ≤ retry := by
  obtain ⟨level, hlevel⟩ := hs key
  have hchecked := RateLimiter.At.checkCall_made
    (c := ⟨key.1, key.2, monotonic s.app.readings⟩) h.1 hlevel (fun _ => float_of_enforceable h)
  change checkAnswer monotonic n key s = _ at hchecked
  rw [hchecked]
  split_ifs with hone
  · exact ⟨none, rfl, by simp⟩
  · refine ⟨_, rfl, fun retry hretry => ?_⟩
    rw [← Option.some.inj (Option.mem_def.mp hretry)]
    exact le_max_left _ _

theorem allAnswered_of_enforceable {n : ℤ} (h : Enforceable n)
    (requests : List (LimitedRequest ω Rep)) {s : ServerState Unit (LimiterState τ)}
    (hs : Levelled n s.app.buckets) : AllAnswered web clock monotonic n backend requests s := by
  have hn : 0 ≤ n := by
    obtain ⟨hpos, -⟩ := h
    omega
  induction requests generalizing s with
  | nil => trivial
  | cons r requests ih =>
    obtain ⟨answer, hanswer, hpos⟩ := checkAnswer_of_enforceable monotonic h r.key
      (s := r.arrives s) hs
    exact ⟨r.answered_of_check web clock monotonic n backend s hanswer hpos,
      ih (levelled_run clock monotonic backend hn _ hs)⟩

/-- Each of any sequence of limited requests on a fresh limiter is forwarded or told when to retry,
exactly for the limits that can be enforced. -/
theorem limiter_answers_iff (t : τ) (requests : List (LimitedRequest ω Rep)) :
    AllAnswered web clock monotonic n backend requests
        (ServerState.start (fun _ => []) (LimiterState.start t)) ↔
      requests = [] ∨ Enforceable n := by
  constructor
  · intro h
    cases requests with
    | nil => exact .inl rfl
    | cons r requests =>
      by_contra hnot
      have hn : ¬ Enforceable n := fun hn => hnot (.inr hn)
      have hfails : checkAnswer monotonic n r.key (r.arrives
          (ServerState.start (fun _ => []) (LimiterState.start t))) = .error .overflowError :=
        check_of_not_enforceable hn rfl (monotonic 0)
      exact r.not_answered_of_check web clock monotonic n backend _ hfails h.1
  · rintro (rfl | hn)
    · trivial
    · exact allAnswered_of_enforceable web clock monotonic backend hn requests
        (fun k => ⟨⟨n, 0⟩, at_start n k⟩)

end

namespace Specimen

def limitedSearch : LimitedRequest Unit (fun _ => ℕ) where
  scope := post "/v1/persons/search"
  http := rfl
  key := (1, .read)
  limited := by decide +kernel
  messages := [.request [] false]
  inner := .pure ()

def fresh : ServerState Unit (LimiterState ℕ) :=
  ServerState.start (fun _ => []) (LimiterState.start 0)

theorem limitedSearch_overflows :
    checkAnswer clock 0 limitedSearch.key (limitedSearch.arrives fresh) = .error .overflowError :=
  check_of_not_enforceable (fun h => absurd h.1 (by omega)) rfl (clock 0)

end Specimen

/-- Under a limit of zero, the first request of a tenant raises an error. -/
theorem limit_zero_raises :
    (runLimited Specimen.clock Specimen.clock 0 Specimen.counter
      (Specimen.limitedSearch.dispatch Specimen.web Specimen.limitedSearch.inner)
      (Specimen.limitedSearch.arrives Specimen.fresh)).1 = .error .overflowError ∧
    ¬ AllAnswered Specimen.web Specimen.clock Specimen.clock 0 Specimen.counter
      [Specimen.limitedSearch] Specimen.fresh := by
  constructor
  · rw [LimitedRequest.run_dispatch, Specimen.limitedSearch_overflows]
  · intro h
    exact LimitedRequest.not_answered_of_check _ _ _ _ _ _ _ Specimen.limitedSearch_overflows h.1

end Hawiya
