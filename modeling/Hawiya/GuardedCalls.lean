import Hawiya.Lib.Knowledge
import Hawiya.RateWindow
import Hawiya.Tenancy
import Hawiya.Traffic
import Hawiya.Unauthenticated

/-!
# What stands in front of the application

A request of the stack calls the application at most once, after it has passed the tenancy
middleware and, on a limited path, the rate limiter. In any interleaving of requests the calls for a
tenant and class are therefore bounded as the limiter bounds its answers, although a request may be
held up for any time between the limiter's answer and its call.
-/

namespace Hawiya
open PyString Interaction RateLimiter TokenBucket

/-- The middleware lets the request pass: its path is exempt, or it has the token and a tenant. -/
def Authenticated (token : Str) (scope : Scope) : Prop :=
  scope.type = .http → scope.url_path ∈ unauthenticatedPaths ∨
    TenancyMiddleware.bearer scope.headers = some token ∧
      ((nonEmpty (headersGet scope.headers (bytes "x-tenant-id"))).bind uuid?).isSome

theorem passed_of_refusal {token request_id : Str} {headers : Headers}
    (h : TenancyMiddleware.refusal token headers request_id = none) :
    TenancyMiddleware.bearer headers = some token ∧
      ((nonEmpty (headersGet headers (bytes "x-tenant-id"))).bind uuid?).isSome := by
  unfold TenancyMiddleware.refusal at h
  by_cases hbearer : TenancyMiddleware.bearer headers = some token
  · rw [if_neg (not_not.mpr hbearer)] at h
    refine ⟨hbearer, ?_⟩
    cases hraw : nonEmpty (headersGet headers (bytes "x-tenant-id")) with
    | none => simp [hraw] at h
    | some raw =>
      cases hparsed : uuid? raw with
      | none => simp [hraw, hparsed] at h
      | some tenant_id => simp [hparsed]
  · rw [if_pos hbearer] at h
    cases h

/-- Tenant and class of a request that the limiter sees. -/
def limited (scope : Scope) : Option (UUID × EndpointClass) :=
  if scope.type = .http then limitedAs scope else none

/-- How far a request has come: the reading of the clock at which the limiter let it through, and
whether the application was called. -/
structure Passage where
  admitted : Option ℕ := none
  called : Bool := false

section Protocol
variable {ω : Type} {Rep : ω → Type}

/-- The request is checked at most once, before the call; the application is called at most once,
behind the doors, and its own operations come after. -/
def doors (token : Str) (scope : Scope) :
    Protocol (ServerOp (LimiterOp ω)) (ServerOp.Reply (LimiterOp.Reply Rep)) PyError Passage where
  may k
    | .own (.check tenant_id endpoint_class) =>
        limited scope = some (tenant_id, endpoint_class) ∧ k.admitted = none ∧ k.called = false
    | .own (.own _) => k.called = true
    | .event (.called scope') => scope' = scope ∧ k.called = false ∧ Authenticated token scope ∧
        (limited scope ≠ none → k.admitted ≠ none)
    | _ => True
  learns k
    | .own (.check ..), .ok none, k' => ∃ reading, k' = { k with admitted := some reading }
    | .event (.called _), _, k' => k' = { k with called := true }
    | _, _, k' => k' = k

/-- The application does not call the limiter, and has been called. -/
def inside :
    Protocol (AsgiOp (LimiterOp ω)) (AsgiOp.Reply (LimiterOp.Reply Rep)) PyError Passage where
  may k op := k.called = true ∧
    ∀ tenant_id endpoint_class, op ≠ .own (.check tenant_id endpoint_class)
  learns k _ _ k' := k' = k

/-- An application that leaves the limiter alone. -/
def Unlimited
    (p : Program (AsgiOp (LimiterOp ω)) (AsgiOp.Reply (LimiterOp.Reply Rep)) PyError Unit) : Prop :=
  p.Only (fun op => ∀ tenant_id endpoint_class, op ≠ .own (.check tenant_id endpoint_class))

/-- Operations that teach nothing and are always allowed. -/
def ServerOp.Neutral (op : ServerOp (LimiterOp ω)) : Prop :=
  (∀ o, op ≠ .own o) ∧ ∀ scope, op ≠ .event (.called scope)

variable {token : Str} {scope : Scope} {k : Passage}

theorem doors_neutral {op : ServerOp (LimiterOp ω)} (h : op.Neutral) :
    (doors token scope : Protocol _ (ServerOp.Reply (LimiterOp.Reply Rep)) _ _).may k op ∧
      ∀ r k', (doors token scope : Protocol _ (ServerOp.Reply (LimiterOp.Reply Rep)) _ _).learns
        k op r k' → k' = k := by
  cases op with
  | own o => exact absurd rfl (h.1 o)
  | event e =>
    cases e with
    | called scope => exact absurd rfl (h.2 scope)
    | sent m => exact ⟨trivial, fun _ _ => id⟩
  | receive | collectBody | send | get | put => exact ⟨trivial, fun _ _ => id⟩

theorem follows_neutral {α : Type} {p : ServerProgram (LimiterOp ω) (LimiterOp.Reply Rep) α}
    (h : p.Only ServerOp.Neutral) : (doors token scope).Follows p k (fun _ k' => k' = k) :=
  .of_still h (fun _ hop => doors_neutral hop)

theorem neutral_answer (status : ℕ) (headers : Headers) (body : Bytes) :
    (IdempotencyMiddleware.answer status headers body :
      ServerProgram (LimiterOp ω) (LimiterOp.Reply Rep) Unit).Only ServerOp.Neutral :=
  Program.only_bind (Program.only_perform ⟨nofun, nofun⟩)
    (fun _ => Program.only_perform ⟨nofun, nofun⟩)

theorem neutral_respond (web : Starlette) (r : JSONResponse) :
    (BaseHTTPMiddleware.respond web r :
      ServerProgram (LimiterOp ω) (LimiterOp.Reply Rep) Unit).Only ServerOp.Neutral :=
  neutral_answer _ _ _

theorem keeps_passOn {op : AsgiOp (LimiterOp ω)}
    (h : (inside : Protocol _ (AsgiOp.Reply (LimiterOp.Reply Rep)) _ _).may k op) (st : Unit) :
    (doors token scope).Follows (IdempotencyMiddleware.passOn op st) k
      (fun (_ : Except PyError (AsgiOp.Reply (LimiterOp.Reply Rep) op × Unit)) k' => k' = k) := by
  cases op with
  | receive =>
    exact follows_neutral
      (Program.only_bind (Program.only_perform ⟨nofun, nofun⟩) (fun _ => trivial))
  | send m =>
    exact follows_neutral (Program.only_bind (Program.only_perform ⟨nofun, nofun⟩)
      (fun _ => Program.only_bind (Program.only_perform ⟨nofun, nofun⟩) (fun _ => trivial)))
  | own o =>
    cases o with
    | check tenant_id endpoint_class => exact absurd rfl (h.2 tenant_id endpoint_class)
    | own o => exact Protocol.Follows.handOn h.1 st

theorem keeps_replayAndCapture (body : Bytes) (f : IdempotencyMiddleware.Fingerprint) (ttl : ℕ)
    {op : AsgiOp (LimiterOp ω)}
    (h : (inside : Protocol _ (AsgiOp.Reply (LimiterOp.Reply Rep)) _ _).may k op) (c : Closure) :
    (doors token scope).Follows (IdempotencyMiddleware.replayAndCapture body f ttl op c) k
      (fun (_ : Except PyError (AsgiOp.Reply (LimiterOp.Reply Rep) op × Closure)) k' =>
        k' = k) := by
  cases op with
  | receive => exact follows_neutral trivial
  | send m =>
    have hsend : (do Server.send m; return ((), c.capture m) :
        ServerProgram (LimiterOp ω) (LimiterOp.Reply Rep) (Unit × Closure)).Only ServerOp.Neutral :=
      Program.only_bind (Program.only_perform ⟨nofun, nofun⟩) (fun _ => trivial)
    apply follows_neutral
    refine Program.only_bind (Program.only_perform ⟨nofun, nofun⟩) (fun _ => ?_)
    by_cases hcompletes : (c.capture m).completes m
    · simp only [hcompletes, if_true]
      exact Program.only_bind (Program.only_perform ⟨nofun, nofun⟩) (fun _ => hsend)
    · rw [if_neg hcompletes]
      exact hsend
  | own o =>
    cases o with
    | check tenant_id endpoint_class => exact absurd rfl (h.2 tenant_id endpoint_class)
    | own o => exact Protocol.Follows.handOn h.1 c

/-- Behind the doors, and not called yet. -/
structure Through (token : Str) (scope : Scope) (k : Passage) : Prop where
  called : k.called = false
  authenticated : Authenticated token scope
  admitted : limited scope ≠ none → k.admitted ≠ none

variable {app : App (LimiterOp ω) (LimiterOp.Reply Rep)}

/-- The application, called and then run behind a handler of the middleware. -/
theorem follows_application {S : Type} (h : Through token scope k) (happ : Unlimited (app scope))
    {handler : (op : AsgiOp (LimiterOp ω)) → S → ServerProgram (LimiterOp ω) (LimiterOp.Reply Rep)
      (op.Reply (LimiterOp.Reply Rep) × S)}
    (hhandler : ∀ op st k, (inside : Protocol _ (AsgiOp.Reply (LimiterOp.Reply Rep)) _ _).may k op →
      (doors token scope).Follows (handler op st) k (fun _ k' => k' = k)) (st : S) :
    (doors token scope).Follows
      (do Server.event (.called scope); (app scope).interpret handler st) k (fun _ _ => True) := by
  refine .bind (.perform ⟨rfl, h.called, h.authenticated, h.admitted⟩ (fun r k' hk' => ?_))
  cases r with
  | error e => trivial
  | ok u =>
    have hcalled : k'.called = true := by rw [show k' = _ from hk']
    have hinside : (inside : Protocol _ (AsgiOp.Reply (LimiterOp.Reply Rep)) _ _).Follows
        (app scope) k' (fun _ k'' => k'' = k') :=
      .of_still happ (fun op hop => ⟨⟨hcalled, hop⟩, fun _ _ => id⟩)
    exact (Protocol.Follows.interpret hhandler hinside st).mono (fun _ _ _ => trivial)

theorem follows_call (sha256 : Bytes → Str) (ttl : ℕ) (h : Through token scope k)
    (happ : Unlimited (app scope)) :
    (doors token scope).Follows (IdempotencyMiddleware.call sha256 ttl app scope) k
      (fun _ _ => True) := by
  unfold IdempotencyMiddleware.call
  cases IdempotencyMiddleware.keyOf scope with
  | none => exact follows_application h happ (fun _ st _ hop => keeps_passOn hop st) ()
  | some key =>
    refine .bind (.perform trivial (fun r k' hk' => ?_))
    cases hk'
    cases r with
    | error e => trivial
    | ok body =>
      refine .bind (.perform trivial (fun r k' hk' => ?_))
      cases hk'
      cases r with
      | error e => trivial
      | ok cached =>
        cases cached with
        | none =>
          exact follows_application h happ
            (fun _ c _ hop => keeps_replayAndCapture body _ ttl hop c) {}
        | some cached =>
          apply (follows_neutral ?_).mono (fun _ _ _ => trivial)
          by_cases hbody : cached.body_hash = sha256 body
          · rw [IdempotencyMiddleware.settle_replay ttl app hbody]
            exact neutral_answer _ _ _
          · rw [IdempotencyMiddleware.settle_conflict ttl app hbody]
            exact neutral_answer _ _ _

theorem follows_callNext (web : Starlette) (edit : Headers → Headers)
    {inner : ServerProgram (LimiterOp ω) (LimiterOp.Reply Rep) Unit}
    {post : Except PyError Unit → Passage → Prop} (h : (doors token scope).Follows inner k post) :
    (doors token scope).Follows (BaseHTTPMiddleware.callNext web edit inner) k post := by
  refine Protocol.Follows.interpret (fun op relay k hmay => ?_) h _
  cases op with
  | send m =>
    exact follows_neutral (Program.only_bind
      (Program.only_forM (fun _ _ => Program.only_perform ⟨nofun, nofun⟩)) (fun _ => trivial))
  | receive | collectBody | get | put | event | own => exact Protocol.Follows.handOn hmay relay

theorem follows_limit (web : Starlette)
    {inner : ServerProgram (LimiterOp ω) (LimiterOp.Reply Rep) Unit}
    (hadmitted : k.admitted = none) (hcalled : k.called = false)
    (hinner : ∀ k', k'.called = false → (limited scope ≠ none → k'.admitted ≠ none) →
      (doors token scope).Follows inner k' (fun _ _ => True)) :
    (doors token scope).Follows (RateLimitMiddleware.call web scope inner) k (fun _ _ => True) := by
  unfold RateLimitMiddleware.call
  by_cases hhttp : scope.type = .http
  · rw [if_neg (not_not.mpr hhttp)]
    cases hkey : limitedAs scope with
    | none =>
      have hfree : limited scope = none := by rw [limited, if_pos hhttp, hkey]
      exact follows_callNext web id (hinner k hcalled (fun h => absurd hfree h))
    | some key =>
      have hlimited : limited scope = some key := by rw [limited, if_pos hhttp, hkey]
      refine .bind (.perform ⟨hlimited, hadmitted, hcalled⟩ (fun r k' hk' => ?_))
      cases r with
      | error e => trivial
      | ok retry =>
        cases retry with
        | some retry =>
          exact (follows_neutral (neutral_respond web _)).mono (fun _ _ _ => trivial)
        | none =>
          obtain ⟨reading, rfl⟩ := hk'
          exact follows_callNext web id (hinner _ hcalled (fun _ => nofun))
  · rw [if_pos hhttp]
    have hfree : limited scope = none := if_neg hhttp
    exact hinner k hcalled (fun h => absurd hfree h)

theorem follows_tenancy (web : Starlette) (fresh : Str)
    {inner : ServerProgram (LimiterOp ω) (LimiterOp.Reply Rep) Unit}
    (hinner : Authenticated token scope → (doors token scope).Follows inner k (fun _ _ => True)) :
    (doors token scope).Follows (TenancyMiddleware.call web token fresh scope inner) k
      (fun _ _ => True) := by
  unfold TenancyMiddleware.call
  by_cases hhttp : scope.type = .http
  · rw [if_neg (not_not.mpr hhttp)]
    by_cases hexempt : scope.url_path ∈ unauthenticatedPaths
    · simp only [if_pos hexempt]
      exact follows_callNext web _ (hinner (fun _ => .inl hexempt))
    · simp only [if_neg hexempt]
      cases hrefusal : TenancyMiddleware.refusal token scope.headers
          (TenancyMiddleware.requestId fresh scope.headers) with
      | some response => exact (follows_neutral (neutral_respond web _)).mono (fun _ _ _ => trivial)
      | none => exact follows_callNext web _ (hinner (fun _ => .inr (passed_of_refusal hrefusal)))
  · rw [if_pos hhttp]
    exact hinner (fun h => absurd h hhttp)

/-- A request of the stack keeps to the order of the doors. -/
theorem follows_stack (d : Deployment) (happ : Unlimited (app scope)) (fresh : Str) :
    (doors d.dev_bearer_token scope).Follows (d.stack app fresh scope) {} (fun _ _ => True) := by
  apply follows_tenancy d.web fresh
  intro hauthenticated
  apply follows_limit d.web rfl rfl
  exact fun k' hcalled hadmitted => follows_call _ _ ⟨hcalled, hauthenticated, hadmitted⟩ happ

end Protocol

namespace RateLimiter

/-- Over any window of time, as the limiter answers calls that come in order. -/
theorem allowedBetween_le {n : ℤ} (hn : 1 ≤ n) {first : ℚ} {calls : List Call}
    (hfirst : ∀ t ∈ calls.map Call.now, first ≤ t)
    (hsorted : (calls.map Call.now).Pairwise (· ≤ ·)) (k : UUID × EndpointClass)
    (start : ℚ) {T : ℚ} (hT : 0 ≤ T) :
    (allowedBetween k start (start + T) (checkAll n (fun _ => none) calls).1 : ℚ) ≤
      n + n * T / 60 := by
  have hcapacity : (0 : ℚ) ≤ n := by exact_mod_cast (by omega : 0 ≤ n)
  have hfull : At n k (fun _ => none) ⟨n, first⟩ := rfl
  obtain ⟨s', hrun, -⟩ := hfull.checkAll (by omega) calls
  have htimes := callsOf_times k n (fun _ => none) calls
  have hordered : Ordered (⟨n, first⟩ : Level ℚ)
      (callsOf k (checkAll n (fun _ => none) calls).1) :=
    ⟨fun c hc => hfirst _ (htimes.subset (List.mem_map_of_mem hc)),
      List.pairwise_map.mp (hsorted.sublist htimes)⟩
  have hwindow := hrun.admitted_window_le hcapacity (by positivity) ⟨hcapacity, le_rfl⟩ hordered
    (le_add_of_nonneg_right hT : start ≤ start + T)
  rw [allowedBetween_eq]
  calc (admitted start (start + T) (callsOf k (checkAll n (fun _ => none) calls).1) : ℚ)
      ≤ n + (start + T - start) * (n / 60) := hwindow
    _ = n + n * T / 60 := by ring

end RateLimiter

/-- Distinct places of a list at which a property holds are no more than the list counts. -/
theorem length_le_countP {α : Type} {P : α → Bool} {l : List α} {places : List ℕ}
    (hdistinct : places.Nodup) (h : ∀ r ∈ places, ∃ a, l[r]? = some a ∧ P a = true) :
    places.length ≤ l.countP P := by
  have hsub : places ⊆ (List.range l.length).filter (fun r => l[r]?.any P) := by
    intro r hr
    obtain ⟨a, ha, hP⟩ := h r hr
    rw [List.mem_filter, List.mem_range, ha]
    exact ⟨(List.getElem?_eq_some_iff.mp ha).1, hP⟩
  have hcount : l.countP P = ((List.range l.length).filter (fun r => l[r]?.any P)).length := by
    have hrange : l.map some = (List.range l.length).map (fun r => l[r]?) := by
      apply List.ext_getElem? 
      intro r
      by_cases hr : r < l.length
      · simp [hr]
      · simp [hr]
    rw [← List.countP_eq_length_filter]
    calc l.countP P = (l.map some).countP (Option.any P) := by
          rw [List.countP_map]
          rfl
      _ = _ := by
          rw [hrange, List.countP_map]
          rfl
  rw [hcount]
  exact (hdistinct.subperm hsub).length_le

section Runs
variable {ι τ χ ω : Type} {Rep : ω → Type} [DecidableEq ι]
variable (n : ℤ) (monotonic : ℕ → ℚ) (token : Str) (x : Traffic ι)

/-- The checks made so far, in order, lead to the buckets, and each request that was let through has
an answer of its own among them. -/
structure Checks (checks : List RateLimiter.Call) (ks : ι → Passage)
    (s : ServerState ι (LimiterState τ)) : Prop where
  times : checks.map RateLimiter.Call.now = (List.range s.app.readings).map monotonic
  buckets : (checkAll n (fun _ => none) checks).2 = s.app.buckets
  admitted : ∀ i r, (ks i).admitted = some r → ∃ c, limited (x.scope i) = some c.key ∧
    (checkAll n (fun _ => none) checks).1[r]? = some (c, .ok none)
  distinct : ∀ i j r, (ks i).admitted = some r → (ks j).admitted = some r → i = j

/-- The calls of the application so far. -/
structure Entered (ks : ι → Passage) (s : ServerState ι (LimiterState τ)) : Prop where
  calls : ∀ c ∈ s.calls, (ks c.1).called = true ∧ c.2 = x.scope c.1 ∧ Authenticated token c.2 ∧
    (limited c.2 ≠ none → (ks c.1).admitted ≠ none)
  once : (s.calls.map Prod.fst).Nodup

def Guarded (ks : ι → Passage) (s : ServerState ι (LimiterState τ)) : Prop :=
  (∃ checks, Checks n monotonic x checks ks s) ∧ Entered token x ks s

variable {n monotonic token x} {checks : List RateLimiter.Call} {ks : ι → Passage}
variable {s s' : ServerState ι (LimiterState τ)} {i : ι} {k' : Passage}

omit [DecidableEq ι] in
theorem Checks.length (h : Checks n monotonic x checks ks s) :
    (checkAll n (fun _ => none) checks).1.length = s.app.readings := by
  have hcalls := congrArg List.length (checkAll_calls n (fun _ => none) checks)
  have htimes := congrArg List.length h.times
  rw [List.length_map] at hcalls
  rw [List.length_map, List.length_map, List.length_range] at htimes
  rw [hcalls, htimes]

omit [DecidableEq ι] in
theorem Checks.lt (h : Checks n monotonic x checks ks s) {r : ℕ} (hr : (ks i).admitted = some r) :
    r < s.app.readings := by
  obtain ⟨c, -, hanswer⟩ := h.admitted i r hr
  rw [← h.length]
  exact (List.getElem?_eq_some_iff.mp hanswer).1

/-- A check is one more of them; if it lets the request through, the answer is the last. -/
theorem Checks.checked (h : Checks n monotonic x checks ks s) {c : RateLimiter.Call}
    (hnow : c.now = monotonic s.app.readings) (hreadings : s'.app.readings = s.app.readings + 1)
    (hbuckets : s'.app.buckets = (checkCall n s.app.buckets c).2)
    (hk' : k'.admitted = none ∨ k'.admitted = some s.app.readings ∧
      limited (x.scope i) = some c.key ∧ (checkCall n s.app.buckets c).1 = .ok none) :
    Checks n monotonic x (checks ++ [c]) (Function.update ks i k') s' where
  times := by
    rw [List.map_append, h.times, hreadings, List.range_succ, List.map_append, List.map_singleton,
      List.map_singleton, hnow]
  buckets := by rw [checkAll_snoc, h.buckets, hbuckets]
  admitted := by
    intro j r hr
    rw [checkAll_snoc, h.buckets]
    by_cases hji : j = i
    · subst hji
      rw [Function.update_self] at hr
      rcases hk' with hnone | ⟨hlast, hlimited, hok⟩
      · rw [hnone] at hr
        cases hr
      · rw [hlast] at hr
        cases hr
        refine ⟨c, hlimited, ?_⟩
        rw [← h.length, List.getElem?_concat_length, hok]
    · rw [Function.update_of_ne hji] at hr
      obtain ⟨c', hlimited, hanswer⟩ := h.admitted j r hr
      refine ⟨c', hlimited, ?_⟩
      rw [List.getElem?_append_left (List.getElem?_eq_some_iff.mp hanswer).1]
      exact hanswer
  distinct := by
    have hnew : ∀ j r, j ≠ i → (ks j).admitted = some r → k'.admitted ≠ some r := by
      intro j r hji hr hk
      rcases hk' with hnone | ⟨hlast, -⟩
      · rw [hnone] at hk
        cases hk
      · rw [hlast] at hk
        cases hk
        exact absurd (h.lt hr) (lt_irrefl _)
    intro j j' r hj hj'
    by_cases hji : j = i
    · by_cases hji' : j' = i
      · rw [hji, hji']
      · subst hji
        rw [Function.update_self] at hj
        rw [Function.update_of_ne hji'] at hj'
        exact absurd hj (hnew j' r hji' hj')
    · rw [Function.update_of_ne hji] at hj
      by_cases hji' : j' = i
      · subst hji'
        rw [Function.update_self] at hj'
        exact absurd hj' (hnew j r hji hj)
      · rw [Function.update_of_ne hji'] at hj'
        exact h.distinct j j' r hj hj'

theorem Checks.still (h : Checks n monotonic x checks ks s)
    (hreadings : s'.app.readings = s.app.readings) (hbuckets : s'.app.buckets = s.app.buckets)
    (hk' : k'.admitted = (ks i).admitted) :
    Checks n monotonic x checks (Function.update ks i k') s' := by
  have hsame : ∀ j, (Function.update ks i k' j).admitted = (ks j).admitted := by
    intro j
    by_cases hji : j = i
    · subst hji
      rw [Function.update_self, hk']
    · rw [Function.update_of_ne hji]
  exact {
    times := by rw [hreadings, h.times]
    buckets := by rw [hbuckets, h.buckets]
    admitted := fun j r hr => h.admitted j r ((hsame j).symm.trans hr)
    distinct := fun j j' r hj hj' =>
      h.distinct j j' r ((hsame j).symm.trans hj) ((hsame j').symm.trans hj') }

theorem Entered.still (h : Entered token x ks s) (hcalls : s'.calls = s.calls)
    (hk' : (ks i).called = true → k' = ks i) : Entered token x (Function.update ks i k') s' := by
  refine ⟨fun c hc => ?_, by rw [hcalls]; exact h.once⟩
  rw [hcalls] at hc
  by_cases hi : c.1 = i
  · subst hi
    rw [Function.update_self, hk' (h.calls c hc).1]
    exact h.calls c hc
  · rw [Function.update_of_ne hi]
    exact h.calls c hc

/-- The application is called for a request that has not called it before. -/
theorem Entered.call (h : Entered token x ks s) (hcalled : (ks i).called = false)
    (hauthenticated : Authenticated token (x.scope i))
    (hadmitted : limited (x.scope i) ≠ none → (ks i).admitted ≠ none)
    (hcalls : s'.calls = s.calls ++ [(i, x.scope i)]) :
    Entered token x (Function.update ks i { ks i with called := true }) s' := by
  have hnew : ∀ c ∈ s.calls, c.1 ≠ i := by
    rintro c hc rfl
    rw [(h.calls c hc).1] at hcalled
    cases hcalled
  constructor
  · intro c hc
    rw [hcalls, List.mem_append] at hc
    rcases hc with hc | hc
    · rw [Function.update_of_ne (hnew c hc)]
      exact h.calls c hc
    · rw [List.mem_singleton.mp hc, Function.update_self]
      exact ⟨rfl, rfl, hauthenticated, hadmitted⟩
  · rw [hcalls, List.map_append, List.nodup_append]
    refine ⟨h.once, List.nodup_singleton _, ?_⟩
    rintro j hj j' hj' rfl
    obtain ⟨c, hc, rfl⟩ := List.mem_map.mp hj
    exact hnew c hc (List.mem_singleton.mp hj')

variable {clock : ℕ → ℚ} {backend : Environment ι χ ω Rep PyError τ}

omit [DecidableEq ι] in
theorem calls_called (s : ServerState ι τ) (i : ι) (scope : Scope) :
    (s.record i (.called scope)).calls = s.calls ++ [(i, scope)] := by
  unfold ServerState.calls ServerState.record
  rw [List.filterMap_append]
  rfl

omit [DecidableEq ι] in
theorem calls_sent (s : ServerState ι τ) (i : ι) (m : Message) :
    (s.record i (.sent m)).calls = s.calls := by
  unfold ServerState.calls ServerState.record
  rw [List.filterMap_append]
  exact List.append_nil _

theorem Guarded.still (h : Guarded n monotonic token x ks s)
    (hreadings : s'.app.readings = s.app.readings) (hbuckets : s'.app.buckets = s.app.buckets)
    (hcalls : s'.calls = s.calls) :
    Guarded n monotonic token x (Function.update ks i (ks i)) s' := by
  obtain ⟨⟨checks, hchecks⟩, hentered⟩ := h
  exact ⟨⟨checks, hchecks.still hreadings hbuckets rfl⟩, hentered.still hcalls (fun _ => rfl)⟩

/-- What a request may do next, in the order of the doors, keeps the account of all. -/
theorem kept_doors :
    Protocol.Kept (ServerState.environment clock (LimiterState.environment monotonic n backend))
      (fun i => doors token (x.scope i)) (Guarded n monotonic token x) := by
  intro ks s i choice op h hmay _
  cases op with
  | receive => exact ⟨ks i, rfl, h.still rfl rfl rfl⟩
  | collectBody => exact ⟨ks i, rfl, h.still rfl rfl rfl⟩
  | send m => exact ⟨ks i, rfl, h.still rfl rfl rfl⟩
  | get tenant_id key => exact ⟨ks i, rfl, h.still rfl rfl rfl⟩
  | put tenant_id key value => exact ⟨ks i, rfl, h.still rfl rfl rfl⟩
  | event e =>
    cases e with
    | sent m => exact ⟨ks i, rfl, h.still rfl rfl (calls_sent s i m)⟩
    | called scope =>
      obtain ⟨rfl, hcalled, hauthenticated, hadmitted⟩ := hmay
      obtain ⟨⟨checks, hchecks⟩, hentered⟩ := h
      exact ⟨{ ks i with called := true }, rfl, ⟨checks, hchecks.still rfl rfl rfl⟩,
        hentered.call hcalled hauthenticated hadmitted (calls_called s i _)⟩
  | own o =>
    cases o with
    | own o => exact ⟨ks i, rfl, h.still rfl rfl rfl⟩
    | check tenant_id endpoint_class =>
      obtain ⟨hlimited, hadmitted, hcalled⟩ := hmay
      obtain ⟨⟨checks, hchecks⟩, hentered⟩ := h
      have hnotcalled : ∀ k' : Passage, (ks i).called = true → k' = ks i := by
        intro k' htrue
        rw [hcalled] at htrue
        cases htrue
      have hstep : ∀ k' : Passage, (k'.admitted = none ∨ k'.admitted = some s.app.readings ∧
          (checkCall n s.app.buckets ⟨tenant_id, endpoint_class,
            monotonic s.app.readings⟩).1 = .ok none) →
          Guarded n monotonic token x (Function.update ks i k')
            ((ServerState.environment clock (LimiterState.environment monotonic n backend)).exec i
              choice (.own (.check tenant_id endpoint_class)) s).2 := by
        intro k' hk'
        refine ⟨⟨_, hchecks.checked
          (c := ⟨tenant_id, endpoint_class, monotonic s.app.readings⟩) rfl rfl rfl ?_⟩,
          hentered.still rfl (hnotcalled k')⟩
        exact hk'.imp_right (fun h => ⟨h.1, hlimited, h.2⟩)
      have hreply : ((ServerState.environment clock
          (LimiterState.environment monotonic n backend)).exec i choice
            (.own (.check tenant_id endpoint_class)) s).1 =
          (checkCall n s.app.buckets ⟨tenant_id, endpoint_class, monotonic s.app.readings⟩).1 :=
        rfl
      rw [hreply]
      cases hanswer : (checkCall n s.app.buckets
          ⟨tenant_id, endpoint_class, monotonic s.app.readings⟩).1 with
      | error e => exact ⟨ks i, rfl, hstep _ (.inl hadmitted)⟩
      | ok retry =>
        cases retry with
        | some retry => exact ⟨ks i, rfl, hstep _ (.inl hadmitted)⟩
        | none =>
          exact ⟨{ ks i with admitted := some s.app.readings }, ⟨_, rfl⟩,
            hstep _ (.inr ⟨rfl, hanswer⟩)⟩

omit [DecidableEq ι] in
/-- An answer that let a request through was given at its reading of the clock. -/
theorem Checks.now (h : Checks n monotonic x checks ks s) {r : ℕ} {c : RateLimiter.Call}
    {answer : Except PyError (Option ℕ)}
    (hr : (checkAll n (fun _ => none) checks).1[r]? = some (c, answer)) : c.now = monotonic r := by
  have hcall : checks[r]? = some c := by
    have hplace := congrArg (fun l => l[r]?) (checkAll_calls n (fun _ => none) checks)
    simpa [hr] using hplace.symm
  have hlt : r < s.app.readings := by
    rw [← h.length]
    exact (List.getElem?_eq_some_iff.mp hr).1
  have htime := congrArg (fun l => l[r]?) h.times
  simpa [hcall, hlt] using htime

/-- The reading of the clock at which a request was let through. -/
def admittedAt (ks : ι → Passage) (i : ι) : ℕ := (ks i).admitted.getD 0

omit [DecidableEq ι] in
theorem Entered.admittedAt (h : Entered token x ks s) {c : ι × Scope} (hc : c ∈ s.calls)
    {key : UUID × EndpointClass} (hkey : limited c.2 = some key) :
    (ks c.1).admitted = some (admittedAt ks c.1) := by
  obtain ⟨-, -, -, hadmitted⟩ := h.calls c hc
  obtain ⟨r, hr⟩ := Option.ne_none_iff_exists'.mp (hadmitted (by rw [hkey]; nofun))
  rw [hr, Hawiya.admittedAt, hr]
  rfl

/-- `checks` are the checks of the limiter so far, in order. The one at `admittedAt` is a limited
request's own, of its tenant and class, and was answered that it may pass. -/
structure LetThrough (n : ℤ) (monotonic : ℕ → ℚ) (checks : List RateLimiter.Call)
    (admittedAt : ι → ℕ) (s : ServerState ι (LimiterState τ)) : Prop where
  times : checks.map RateLimiter.Call.now = (List.range s.app.readings).map monotonic
  buckets : (checkAll n (fun _ => none) checks).2 = s.app.buckets
  answered : ∀ c ∈ s.calls, ∀ key, limited c.2 = some key →
    (checkAll n (fun _ => none) checks).1[admittedAt c.1]? =
      some (⟨key.1, key.2, monotonic (admittedAt c.1)⟩, .ok none)
  own : ∀ c ∈ s.calls, ∀ c' ∈ s.calls, limited c.2 ≠ none → limited c'.2 ≠ none →
    admittedAt c.1 = admittedAt c'.1 → c.1 = c'.1

omit [DecidableEq ι] in
theorem letThrough (hchecks : Checks n monotonic x checks ks s) (hentered : Entered token x ks s) :
    LetThrough n monotonic checks (admittedAt ks) s where
  times := hchecks.times
  buckets := hchecks.buckets
  answered := by
    intro c hc key hkey
    obtain ⟨call, hlimited, hanswer⟩ := hchecks.admitted c.1 _ (hentered.admittedAt hc hkey)
    rw [← (hentered.calls c hc).2.1, hkey] at hlimited
    have hcall : call = ⟨key.1, key.2, monotonic (admittedAt ks c.1)⟩ := by
      rw [← hchecks.now hanswer, Option.some.inj hlimited]
      rfl
    rw [hanswer, hcall]
  own := by
    intro c hc c' hc' hlimited hlimited' hsame
    obtain ⟨key, hkey⟩ := Option.ne_none_iff_exists'.mp hlimited
    obtain ⟨key', hkey'⟩ := Option.ne_none_iff_exists'.mp hlimited'
    have hr := hentered.admittedAt hc hkey
    rw [hsame] at hr
    exact hchecks.distinct _ _ _ hr (hentered.admittedAt hc' hkey')

omit [DecidableEq ι] in
theorem calls_in_window (hn : 1 ≤ n) (hmonotone : Monotone monotonic)
    (hchecks : Checks n monotonic x checks ks s) (hentered : Entered token x ks s)
    (key : UUID × EndpointClass) (start : ℚ) {T : ℚ} (hT : 0 ≤ T) :
    (s.calls.countP (fun c => limited c.2 = some key ∧ start ≤ monotonic (admittedAt ks c.1) ∧
      monotonic (admittedAt ks c.1) ≤ start + T) : ℚ) ≤ n + n * T / 60 := by
  have hfirst : ∀ t ∈ checks.map RateLimiter.Call.now, monotonic 0 ≤ t := by
    intro t ht
    rw [hchecks.times] at ht
    obtain ⟨r, -, rfl⟩ := List.mem_map.mp ht
    exact hmonotone (Nat.zero_le r)
  have hsorted : (checks.map RateLimiter.Call.now).Pairwise (· ≤ ·) := by
    rw [hchecks.times, List.pairwise_map]
    exact List.pairwise_lt_range.imp (fun h => hmonotone h.le)
  have hbound := allowedBetween_le hn hfirst hsorted key start hT
  refine le_trans (Nat.cast_le.mpr ?_) hbound
  rw [List.countP_eq_length_filter, allowedBetween, ← List.length_map (fun c => admittedAt ks c.1)]
  apply length_le_countP
  · apply List.Nodup.map_on
    · intro c hc c' hc' hsame
      obtain ⟨hcall, hwindow⟩ := List.mem_filter.mp hc
      obtain ⟨hcall', hwindow'⟩ := List.mem_filter.mp hc'
      have hr := hentered.admittedAt hcall (of_decide_eq_true hwindow).1
      have hr' := hentered.admittedAt hcall' (of_decide_eq_true hwindow').1
      have hrequest : c.1 = c'.1 := hchecks.distinct _ _ _ hr (hr'.trans (congrArg some hsame.symm))
      have hscope := (hentered.calls c hcall).2.1
      have hscope' := (hentered.calls c' hcall').2.1
      exact Prod.ext hrequest (by rw [hscope, hscope', hrequest])
    · exact (hentered.once.of_map Prod.fst).filter _
  · intro r hr
    obtain ⟨c, hc, rfl⟩ := List.mem_map.mp hr
    obtain ⟨hcall, hwindow⟩ := List.mem_filter.mp hc
    obtain ⟨hkey, hstart, hstop⟩ := of_decide_eq_true hwindow
    obtain ⟨call, hlimited, hanswer⟩ := hchecks.admitted c.1 _ (hentered.admittedAt hcall hkey)
    refine ⟨_, hanswer, ?_⟩
    have hcallkey : call.key = key := by
      have hscope := (hentered.calls c hcall).2.1
      rw [← hscope, hkey] at hlimited
      exact (Option.some.inj hlimited).symm
    rw [← hchecks.now hanswer] at hstart hstop
    exact decide_eq_true ⟨hcallkey, rfl, hstart, hstop⟩

omit [DecidableEq ι] in
theorem calls_so_far (hn : 1 ≤ n) (hmonotone : Monotone monotonic)
    (hchecks : Checks n monotonic x checks ks s) (hentered : Entered token x ks s)
    (key : UUID × EndpointClass) :
    (s.calls.countP (fun c => limited c.2 = some key) : ℚ) ≤
      n + n * (monotonic s.app.readings - monotonic 0) / 60 := by
  have helapsed : 0 ≤ monotonic s.app.readings - monotonic 0 :=
    sub_nonneg.mpr (hmonotone (Nat.zero_le _))
  refine le_trans (Nat.cast_le.mpr ?_)
    (calls_in_window hn hmonotone hchecks hentered key (monotonic 0) helapsed)
  apply List.countP_mono_left
  intro c hc hlimited
  have hkey := of_decide_eq_true hlimited
  have hlt := hchecks.lt (hentered.admittedAt hc hkey)
  exact decide_eq_true ⟨hkey, hmonotone (Nat.zero_le _), by
    rw [add_sub_cancel]
    exact hmonotone hlt.le⟩

end Runs

namespace Traffic
variable {ι τ χ ω : Type} {Rep : ω → Type} [DecidableEq ι]
variable (x : Traffic ι) (d : Deployment) (app : App (LimiterOp ω) (LimiterOp.Reply Rep))
variable (fresh : ι → Str)

/-- In any run of the stack the application is called at most once for a request, with the
request's own scope, and only for one that is authenticated or on an exempt path. Each limited call
was let through by a check of its own, and over any window of time the calls of a tenant and class
that were let through in it are at most `n` and what the window regains. -/
theorem calls_are_guarded (n : ℤ) (hn : 1 ≤ n) (clock monotonic : ℕ → ℚ)
    (hmonotone : Monotone monotonic) (backend : Environment ι χ ω Rep PyError τ)
    (happ : ∀ scope, Unlimited (app scope)) (t : τ)
    (allowed : ι → χ → ServerOp (LimiterOp ω) → ServerState ι (LimiterState τ) → Prop)
    (q : Pool ι (ServerState ι (LimiterState τ)) (ServerOp (LimiterOp ω))
      (ServerOp.Reply (LimiterOp.Reply Rep)) PyError Unit)
    (hrun : Pool.Run (ServerState.environment clock
      (LimiterState.environment monotonic n backend)) allowed (x.stackPool d app fresh t) q) :
    (q.shared.calls.map Prod.fst).Nodup ∧
    (∀ c ∈ q.shared.calls, c.2 = x.scope c.1 ∧ Authenticated d.dev_bearer_token c.2) ∧
    (∃ (checks : List RateLimiter.Call) (admittedAt : ι → ℕ),
      LetThrough n monotonic checks admittedAt q.shared ∧
      ∀ (key : UUID × EndpointClass) (start T : ℚ), 0 ≤ T →
        (q.shared.calls.countP (fun c => limited c.2 = some key ∧
          start ≤ monotonic (admittedAt c.1) ∧ monotonic (admittedAt c.1) ≤ start + T) : ℚ) ≤
            n + n * T / 60) ∧
    ∀ key : UUID × EndpointClass,
      (q.shared.calls.countP (fun c => limited c.2 = some key) : ℚ) ≤
        n + n * (monotonic q.shared.app.readings - monotonic 0) / 60 := by
  have hstart : Guarded n monotonic d.dev_bearer_token x (fun _ => {})
      (x.stackPool d app fresh t).shared := by
    refine ⟨⟨[], ⟨rfl, rfl, fun _ _ h => ?_, fun _ _ _ h => ?_⟩⟩, ⟨fun _ h => ?_, ?_⟩⟩
    · cases h
    · cases h
    · cases h
    · exact List.nodup_nil
  have hconforms : Protocol.Conforms (fun i => doors d.dev_bearer_token (x.scope i))
      (Guarded n monotonic d.dev_bearer_token x) (fun _ _ _ => True)
      (x.stackPool d app fresh t) :=
    ⟨_, hstart, fun i => follows_stack d (happ _) (fresh i)⟩
  obtain ⟨ks, ⟨⟨checks, hchecks⟩, hentered⟩, -⟩ := hconforms.run kept_doors hrun
  refine ⟨hentered.once, fun c hc => ?_,
    ⟨checks, admittedAt ks, letThrough hchecks hentered, ?_⟩, ?_⟩
  · obtain ⟨-, hscope, hauthenticated, -⟩ := hentered.calls c hc
    exact ⟨hscope, hauthenticated⟩
  · exact fun key start T hT => calls_in_window hn hmonotone hchecks hentered key start hT
  · exact calls_so_far hn hmonotone hchecks hentered

end Traffic

/-! Two requests of one tenant at one moment, at one call a minute. -/

namespace Specimen

def crowd : Traffic Bool where
  scope _ := authenticated (post "/v1/persons")
  inbox _ := [.request [1] false]

def crowdPool : Pool Bool (ServerState Bool (LimiterState ℕ)) (ServerOp (LimiterOp Unit))
    (ServerOp.Reply (LimiterOp.Reply fun _ => ℕ)) PyError Unit :=
  crowd.stackPool deployment routes (fun _ => "fresh".toList) 0

def crowdEnvironment : Environment Bool Unit (ServerOp (LimiterOp Unit))
    (ServerOp.Reply (LimiterOp.Reply fun _ => ℕ)) PyError (ServerState Bool (LimiterState ℕ)) :=
  ServerState.environment clock (LimiterState.environment (fun _ => 0) 1 counter)

theorem routes_unlimited (scope : Scope) : Unlimited (routes scope) := by
  unfold Unlimited routes
  by_cases hexempt : unauthenticatedPaths.contains scope.url_path = true
  · rw [if_pos hexempt]
    exact Program.only_bind (Program.only_perform nofun) (fun _ => Program.only_perform nofun)
  · rw [if_neg hexempt]
    exact Program.only_bind (Program.only_perform nofun) (fun _ =>
      Program.only_bind (Program.only_perform nofun) (fun _ => Program.only_perform nofun))

end Specimen

namespace Traffic
open Specimen

/-- The first request is let through, and held up while the second is sent away. -/
theorem crowd_is_guarded : ∃ q,
    Pool.Run crowdEnvironment Pool.Unrestricted crowdPool q ∧
      (q.program true).returned ∧ (q.program false).returned ∧
      q.shared.calls.map Prod.fst = [true] ∧
      ∀ key : UUID × EndpointClass,
        (q.shared.calls.countP (fun c => limited c.2 = some key) : ℚ) ≤
          (1 : ℤ) + (1 : ℤ) * (0 - 0) / 60 := by
  have hends : (Pool.runSchedule crowdEnvironment
      ((true, ()) :: List.replicate 4 (false, ()) ++ List.replicate 10 (true, ())) crowdPool).map
        (fun q => ((q.program true).returned, (q.program false).returned,
          q.shared.calls.map Prod.fst)) =
      some (true, true, [true]) := by
    decide +kernel
  obtain ⟨q, hq, hends⟩ := Option.map_eq_some_iff.mp hends
  obtain ⟨hfirst, hrest⟩ := Prod.mk.inj hends
  obtain ⟨hsecond, hcalls⟩ := Prod.mk.inj hrest
  have hrun := Pool.run_of_runSchedule hq
  obtain ⟨-, -, -, hbound⟩ := calls_are_guarded crowd deployment routes (fun _ => "fresh".toList)
    1 le_rfl clock (fun _ => 0) monotone_const counter routes_unlimited 0 _ q hrun
  exact ⟨q, hrun, hfirst, hsecond, hcalls, hbound⟩

end Traffic
end Hawiya
