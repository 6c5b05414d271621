import Hawiya.Lib.Handlers
import Hawiya.Lib.Sha256
import Hawiya.IdempotencyRuns
import Hawiya.Traffic

/-!
# Retries of a request next to each other

Requests with one tenant, key and body, and an application that always answers 2xx. If every request
but the first looks its key up when a live response is stored, the application is called once and
all get its response: the first request leads, and the others follow. A request that looks the key
up while the first is at the application is forwarded too.
-/

namespace Hawiya
open PyString Interaction IdempotencyMiddleware

variable {ι τ χ ω : Type} {Rep : ω → Type}

inductive Stage where
  | silent
  | started
  | complete

namespace Stage

def after : Stage → Message → Option Stage
  | .silent, .responseStart status _ => if cacheable status then some .started else none
  | .started, .responseBody _ more_body => some (if more_body then .started else .complete)
  | _, _ => none

/-- The messages that have been sent at a stage. -/
def Sent : Stage → List Message → Prop
  | .silent, ms => ms = []
  | .started, ms => ∃ r : Reply, cacheable r.status ∧ ms = r.unfinished
  | .complete, ms => ∃ r : Reply, cacheable r.status ∧ ms = r.messages

theorem Sent.after {stage stage' : Stage} {ms : List Message} {m : Message} (h : stage.Sent ms)
    (hafter : stage.after m = some stage') : stage'.Sent (ms ++ [m]) := by
  cases stage with
  | silent =>
    cases m with
    | responseStart status headers =>
      simp only [Stage.after] at hafter
      split_ifs at hafter with hstatus
      cases hafter
      obtain rfl : ms = [] := h
      exact ⟨⟨status, headers, [], []⟩, hstatus, rfl⟩
    | _ => cases hafter
  | started =>
    obtain ⟨r, hstatus, rfl⟩ := h
    cases m with
    | responseBody body more_body =>
      cases more_body with
      | true =>
        cases hafter
        exact ⟨{ r with chunks := r.chunks ++ [body] }, hstatus, by simp [Reply.unfinished]⟩
      | false =>
        cases hafter
        exact ⟨{ r with last := body }, hstatus, rfl⟩
    | _ => cases hafter
  | complete => cases hafter

theorem unfinished_ne_messages (r r' : Reply) : r.unfinished ≠ r'.messages := by
  intro h
  have hlast := congrArg List.getLast? h
  rw [Reply.messages, List.getLast?_concat, Reply.unfinished] at hlast
  rcases List.eq_nil_or_concat r.chunks with hchunks | ⟨chunks, c, hchunks⟩
  · simp [hchunks] at hlast
  · simp [hchunks, List.getLast?_cons] at hlast

theorem Sent.ne_messages {stage stage' : Stage} {ms : List Message} {m : Message}
    (h : stage.Sent ms) (hafter : stage.after m = some stage') (r : Reply) : ms ≠ r.messages := by
  cases stage with
  | silent =>
    obtain rfl : ms = [] := h
    exact fun hr => List.cons_ne_nil _ _ hr.symm
  | started =>
    obtain ⟨r', -, rfl⟩ := h
    exact unfinished_ne_messages r' r
  | complete => cases hafter

theorem completes_iff {stage stage' : Stage} {ms : List Message} {m : Message}
    (h : stage.Sent ms) (hafter : stage.after m = some stage') :
    (captured (ms ++ [m])).completes m ↔ stage' = .complete := by
  have hsent := h.after hafter
  cases stage with
  | silent =>
    cases m with
    | responseStart status headers =>
      simp only [Stage.after] at hafter
      split_ifs at hafter
      cases hafter
      simp [Closure.completes]
    | _ => cases hafter
  | started =>
    cases m with
    | responseBody body more_body =>
      cases more_body with
      | true =>
        cases hafter
        simp [Closure.completes]
      | false =>
        cases hafter
        obtain ⟨r, hstatus, hr⟩ := hsent
        simp [Closure.completes, hr, r.captured_messages, Reply.closure, hstatus]
    | _ => cases hafter
  | complete => cases hafter

end Stage

/-- Whatever its own operations reply, the application sends one 2xx response and ends. -/
def Answers (backend : Environment ι χ ω Rep PyError τ) (body : Bytes) :
    Stage → Bool → Program (AsgiOp ω) (AsgiOp.Reply Rep) PyError Unit → Prop
  | stage, _, .pure _ => stage = .complete
  | _, _, .throw _ => False
  | stage, sent, .call .receive next =>
      Answers backend body stage true
        (next (.ok (if sent then .disconnect else .request body false)))
  | stage, sent, .call (.send message) next =>
      ∃ stage', stage.after message = some stage' ∧
        Answers backend body stage' sent (next (.ok ()))
  | stage, sent, .call (.own op) next =>
      ∀ i choice t, Answers backend body stage sent (next (backend.exec i choice op t).1)

namespace Traffic
variable [DecidableEq ι]

/-- A request looks its key up before any other, or when a live response is stored. -/
def FirstOrLive (clock : ℕ → ℚ) : ι → χ → ServerOp ω → ServerState ι τ → Prop
  | _, _, .get tenant_id key, s => s.ticks = 0 ∨ (s.lookup clock tenant_id key).isSome
  | _, _, _, _ => True

/-- The same, by the name of the first. -/
def Led (clock : ℕ → ℚ) (leader : ι) : ι → χ → ServerOp ω → ServerState ι τ → Prop
  | i, _, .get tenant_id key, s => i = leader ∨ (s.lookup clock tenant_id key).isSome
  | _, _, _, _ => True

section Leader
variable {clock : ℕ → ℚ} {backend : Environment ι χ ω Rep PyError τ}

omit [DecidableEq ι] in
theorem led_self (i : ι) (choice : χ) (op : ServerOp ω) (s : ServerState ι τ) :
    Led clock i i choice op s := by
  cases op with
  | get => exact .inl rfl
  | receive | collectBody | send | put | event | own => trivial

omit [DecidableEq ι] in
theorem led_of_later {i : ι} {choice : χ} {op : ServerOp ω} {s : ServerState ι τ}
    (h : FirstOrLive clock i choice op s) (hticks : s.ticks ≠ 0) (leader : ι) :
    Led clock leader i choice op s := by
  cases op with
  | get => exact .inr (h.resolve_left hticks)
  | receive | collectBody | send | put | event | own => trivial

theorem led_of_unread {i : ι} {choice : χ} {op : ServerOp ω} {s : ServerState ι τ}
    (hticks : (ServerState.exec clock backend i choice op s).2.ticks = 0) (leader : ι) :
    s.ticks = 0 ∧ Led clock leader i choice op s := by
  cases op with
  | get => exact absurd hticks (Nat.succ_ne_zero _)
  | put => exact absurd hticks (Nat.succ_ne_zero _)
  | receive | collectBody | send | event | own => exact ⟨hticks, trivial⟩

/-- A run has a leader, and until the first lookup it may be anyone. -/
theorem run_led {p q : Pool ι (ServerState ι τ) (ServerOp ω) (ServerOp.Reply Rep) PyError Unit}
    (hrun : Pool.Run (ServerState.environment clock backend) (FirstOrLive clock) p q) (i₀ : ι) :
    (q.shared.ticks = 0 → ∀ leader,
        Pool.Run (ServerState.environment clock backend) (Led clock leader) p q) ∧
      ∃ leader, Pool.Run (ServerState.environment clock backend) (Led clock leader) p q := by
  induction hrun with
  | start => exact ⟨fun _ _ => .start, i₀, .start⟩
  | @next q r i choice hrun hstep hok ih =>
    obtain ⟨hunled, leader, hled⟩ := ih
    obtain ⟨op, next, hp, -, rfl⟩ := Pool.step_cases hstep
    have hallows : ∀ {leader}, Led clock leader i choice op q.shared →
        q.Allows (Led clock leader) i choice := fun h => by
      simpa only [Pool.Allows, hp] using h
    constructor
    · intro hticks leader
      obtain ⟨hbefore, hok'⟩ := led_of_unread hticks leader
      exact .next (hunled hbefore leader) hstep (hallows hok')
    · by_cases hbefore : q.shared.ticks = 0
      · exact ⟨i, .next (hunled hbefore i) hstep (hallows (led_self i choice op q.shared))⟩
      · have hok' : FirstOrLive clock i choice op q.shared := by
          simpa only [Pool.Allows, hp] using hok
        exact ⟨leader, .next hled hstep (hallows (led_of_later hok' hbefore leader))⟩

end Leader
section Flight
variable (x : Traffic ι) (leader : ι) (k : UUID × Str) (hash : Str)

def history (ms : List Message) : List (ι × AppEvent) :=
  (leader, .called (x.scope leader)) :: ms.map (fun m => (leader, .sent m))

def Done (r : Reply) (s : ServerState ι τ) : Prop := s.events = x.history leader r.messages

/-- What is stored is the response to the leader, which is whole. -/
def Sound (s : ServerState ι τ) : Prop :=
  ∀ c, s.entries k = some c → ∃ r : Reply, cacheable r.status ∧ x.Done leader r s ∧
    c = r.closure.toCached hash c.expires_at

def OneCall (s : ServerState ι τ) : Prop := s.events = [] ∨ ∃ ms, s.events = x.history leader ms

/-- What the others do to request `i`: nothing at the application, if it leads, and nothing after
the response. -/
structure Flight (i : ι) (s s' : ServerState ι τ) : Prop extends ServerState.Elsewhere i s s' where
  sound : x.Sound leader k hash s → x.Sound leader k hash s'
  done : ∀ r, x.Done leader r s → x.Done leader r s'
  led : i = leader → s'.events = s.events

def flight (clock : ℕ → ℚ) (backend : Environment ι χ ω Rep PyError τ) :
    Discipline ι χ (ServerOp ω) (ServerOp.Reply Rep) PyError (ServerState ι τ) where
  env := ServerState.environment clock backend
  allowed := Led clock leader
  rely := x.Flight leader k hash
  running i s := i = leader → x.OneCall leader s

variable {x leader k hash} {clock : ℕ → ℚ} {backend : Environment ι χ ω Rep PyError τ} {i : ι}

theorem flight_closed : (x.flight leader k hash clock backend).Closed where
  refl i s := ⟨.refl i s, id, fun _ => id, fun _ => rfl⟩
  trans _ _ _ _ h h' := ⟨h.toElsewhere.trans h'.toElsewhere, fun hs => h'.sound (h.sound hs),
    fun r hr => h'.done r (h.done r hr), fun hi => (h'.led hi).trans (h.led hi)⟩

/-- An operation that neither stores anything nor reaches the application's record. -/
def Quiet : ServerOp ω → Prop
  | .put .. | .event _ => False
  | _ => True

theorem events_quiet {op : ServerOp ω} (hop : Quiet op) (i : ι) (choice : χ)
    (s : ServerState ι τ) :
    (ServerState.exec clock backend i choice op s).2.events = s.events := by
  cases op with
  | put | event => exact hop.elim
  | receive | collectBody | send | get | own => rfl

theorem sound_quiet {op : ServerOp ω} (hop : Quiet op) (i : ι) (choice : χ)
    {s : ServerState ι τ} (h : x.Sound leader k hash s) :
    x.Sound leader k hash (ServerState.exec clock backend i choice op s).2 := by
  have hput : ∀ tenant_id key value, op ≠ .put tenant_id key value := by
    rintro tenant_id key value rfl
    exact hop
  intro c hc
  obtain ⟨r, hstatus, hdone, hr⟩ := h c (ServerState.entries_exec clock backend hput i choice s hc)
  exact ⟨r, hstatus, (events_quiet hop i choice s).trans hdone, hr⟩

theorem flight_quiet {op : ServerOp ω} (hop : Quiet op) {j : ι} (hj : j ≠ i) (choice : χ)
    (s : ServerState ι τ) :
    x.Flight leader k hash j s (ServerState.exec clock backend i choice op s).2 where
  toElsewhere := ServerState.exec_elsewhere clock backend hj choice op s
  sound := sound_quiet hop i choice
  done _ hdone := (events_quiet hop i choice s).trans hdone
  led _ := events_quiet hop i choice s

theorem triple_quiet {op : ServerOp ω} (hop : Quiet op) {P : ServerState ι τ → Prop}
    {Q : op.Reply Rep → ServerState ι τ → Prop} {E : ServerState ι τ → Prop}
    (hP : (x.flight leader k hash clock backend).Stable i P)
    (hQ : ∀ a, (x.flight leader k hash clock backend).Stable i (Q a))
    (hE : (x.flight leader k hash clock backend).Stable i E)
    (hrunning : ∀ s, P s → i = leader → x.OneCall leader s)
    (h : ∀ s choice, P s → Led clock leader i choice op s →
      (x.Sound leader k hash s →
        x.Sound leader k hash (ServerState.exec clock backend i choice op s).2) →
      Ends Q E (ServerState.exec clock backend i choice op s).1
        (ServerState.exec clock backend i choice op s).2) :
    Triple (x.flight leader k hash clock backend) i P (Server.await op) Q E :=
  Triple.perform_guaranteed hP hQ hE hrunning (fun s choice hs _ hok =>
    ⟨fun _ hj => flight_quiet hop hj choice s, h s choice hs hok (sound_quiet hop i choice)⟩)

/-- The leader has been sent `out`, and `events` is all that happened at the application. -/
structure LeaderAt (x : Traffic ι) (leader : ι) (k : UUID × Str) (hash : Str)
    (out : List Message) (events : List (ι × AppEvent)) (s : ServerState ι τ) : Prop where
  outbox : s.outbox leader = out
  events : s.events = events
  sound : x.Sound leader k hash s

variable {out ms : List Message} {events : List (ι × AppEvent)}

theorem stable_leaderAt : (x.flight leader k hash clock backend).Stable leader
    (x.LeaderAt leader k hash out events) :=
  fun _ _ hrely h => ⟨hrely.outbox.trans h.outbox, (hrely.led rfl).trans h.events,
    hrely.sound h.sound⟩

omit [DecidableEq ι] in
theorem LeaderAt.oneCall {s : ServerState ι τ}
    (h : x.LeaderAt leader k hash out (x.history leader ms) s) (i : ι) :
    i = leader → x.OneCall leader s :=
  fun _ => .inr ⟨ms, h.events⟩

omit [DecidableEq ι] in
theorem history_append (m : Message) :
    x.history leader (ms ++ [m]) = x.history leader ms ++ [(leader, .sent m)] := by
  simp [history]

theorem lead_send (m : Message) :
    Triple (x.flight leader k hash clock backend) leader
      (x.LeaderAt leader k hash out (x.history leader ms)) (Server.send m)
      (fun _ => x.LeaderAt leader k hash (out ++ [m]) (x.history leader ms)) (fun _ => False) := by
  refine triple_quiet (by trivial) stable_leaderAt (fun _ => stable_leaderAt)
    (Discipline.stable_const _) (fun s hs => hs.oneCall leader) ?_
  intro s choice hs _ hsound
  refine ⟨?_, hs.events, hsound hs.sound⟩
  exact (ServerState.outbox_deliver_self s leader m).trans (congrArg (· ++ [m]) hs.outbox)

theorem lead_event (hevents : ∀ r : Reply, events ≠ x.history leader r.messages) (e : AppEvent)
    (hone : events = [] ∨ ∃ ms, events = x.history leader ms) :
    Triple (x.flight leader k hash clock backend) leader (x.LeaderAt leader k hash out events)
      (Server.event e) (fun _ => x.LeaderAt leader k hash out (events ++ [(leader, e)]))
      (fun _ => False) := by
  refine Triple.perform_guaranteed stable_leaderAt (fun _ => stable_leaderAt)
    (Discipline.stable_const _) (fun s hs _ => by rw [OneCall, hs.events]; exact hone) ?_
  intro s choice hs _ _
  have hdone : ∀ r : Reply, ¬ x.Done leader r s := fun r hr => hevents r (hs.events.symm.trans hr)
  have hsound : x.Sound leader k hash (s.record leader e) := by
    intro c hc
    obtain ⟨r, -, hr, -⟩ := hs.sound c hc
    exact absurd hr (hdone r)
  refine ⟨fun j hj => ⟨ServerState.exec_elsewhere clock backend hj choice _ s, fun _ => hsound,
    fun r hr => absurd hr (hdone r), fun hled => absurd hled hj⟩, hs.outbox, ?_, hsound⟩
  exact congrArg (· ++ [(leader, e)]) hs.events

theorem lead_put (r : Reply) (hstatus : cacheable r.status) {tenant_id : UUID} {key : Str}
    (hk : k = (tenant_id, key)) (ttl : ℕ) :
    Triple (x.flight leader k hash clock backend) leader
      (x.LeaderAt leader k hash out (x.history leader r.messages))
      (Server.put tenant_id key (fun now => r.closure.toCached hash (now + ttl)))
      (fun _ => x.LeaderAt leader k hash out (x.history leader r.messages)) (fun _ => False) := by
  refine Triple.perform_guaranteed stable_leaderAt (fun _ => stable_leaderAt)
    (Discipline.stable_const _) (fun s hs => hs.oneCall leader) ?_
  intro s choice hs _ _
  have hsound : x.Sound leader k hash (s.afterPut clock tenant_id key
      (fun now => r.closure.toCached hash (now + ttl))) := by
    intro c hc
    subst hk
    have hvalue := (Function.update_self (β := fun _ => Option CachedResponse) ..).symm.trans hc
    refine ⟨r, hstatus, hs.events, ?_⟩
    rw [← Option.some.inj hvalue]
    rfl
  exact ⟨fun j hj => ⟨ServerState.exec_elsewhere clock backend hj choice _ s, fun _ => hsound,
    fun _ hr => hr, fun hled => absurd hled hj⟩, hs.outbox, hs.events, hsound⟩

/-- The response to the leader is whole, and request `i` has been sent all of it. -/
def Received (x : Traffic ι) (leader i : ι) (s : ServerState ι τ) : Prop :=
  ∃ r : Reply, cacheable r.status ∧ x.Done leader r s ∧
    (s.outbox i = r.messages ∨ s.outbox i = answerMessages r.status r.headers r.body)

theorem stable_received :
    (x.flight leader k hash clock backend).Stable i (x.Received leader i) := by
  rintro s s' hrely ⟨r, hstatus, hdone, hout⟩
  refine ⟨r, hstatus, hrely.done r hdone, ?_⟩
  rw [hrely.outbox]
  exact hout

theorem lead_capturingSend {stage stage' : Stage} {m : Message} (hms : stage.Sent ms)
    (hafter : stage.after m = some stage') {body : Bytes} {tenant_id : UUID} {key : Str}
    (hk : k = (tenant_id, key)) (ttl : ℕ) {c : Closure}
    (hc : c = { captured ms with sent := c.sent }) :
    Triple (x.flight leader k hash clock backend) leader
      (x.LeaderAt leader k hash ms (x.history leader ms))
      (replayAndCapture body ⟨tenant_id, key, hash⟩ ttl (.send m) c)
      (fun r s => r.2 = c.capture m ∧
        x.LeaderAt leader k hash (ms ++ [m]) (x.history leader (ms ++ [m])) s)
      (fun _ => False) := by
  have hcapture : c.capture m = { captured (ms ++ [m]) with sent := c.sent } := by
    rw [hc, capture_sent, captured_append]
  have hfalse : (x.flight leader k hash clock backend).Stable leader (fun _ => False) :=
    Discipline.stable_const _
  have hevent : Triple (x.flight leader k hash clock backend) leader
      (x.LeaderAt leader k hash ms (x.history leader ms)) (Server.event (.sent m))
      (fun _ => x.LeaderAt leader k hash ms (x.history leader (ms ++ [m]))) (fun _ => False) := by
    rw [history_append]
    refine lead_event (fun r hr => hms.ne_messages hafter r ?_) _ (.inr ⟨ms, rfl⟩)
    have hmap := List.tail_eq_of_cons_eq hr
    exact (List.map_injective_iff.mpr fun _ _ h => AppEvent.sent.inj (Prod.mk.inj h).2) hmap
  have hsend : Triple (x.flight leader k hash clock backend) leader
      (x.LeaderAt leader k hash ms (x.history leader (ms ++ [m])))
      (do Server.send m; return ((), c.capture m))
      (fun r s => r.2 = c.capture m ∧
        x.LeaderAt leader k hash (ms ++ [m]) (x.history leader (ms ++ [m])) s)
      (fun _ => False) :=
    Triple.bind flight_closed hfalse (lead_send m) (fun _ =>
      Triple.pure ((Discipline.stable_const _).and stable_leaderAt) (fun _ hs => ⟨rfl, hs⟩))
  refine Triple.bind flight_closed hfalse hevent (fun _ => ?_)
  have hcompletes := Stage.completes_iff hms hafter
  by_cases hwhole : (c.capture m).completes m
  · have hcomplete : stage' = .complete := by
      rw [hcapture, completes_sent] at hwhole
      exact hcompletes.mp hwhole
    have hsent := hms.after hafter
    rw [hcomplete] at hsent
    obtain ⟨r, hstatus, hr⟩ := hsent
    have hvalue : ∀ now, (c.capture m).toCached hash now = r.closure.toCached hash now := by
      intro now
      rw [hcapture, hr, r.captured_messages]
      rfl
    have hput : Triple (x.flight leader k hash clock backend) leader
        (x.LeaderAt leader k hash ms (x.history leader (ms ++ [m])))
        (Server.put tenant_id key (fun now => r.closure.toCached hash (now + ttl)))
        (fun _ => x.LeaderAt leader k hash ms (x.history leader (ms ++ [m])))
        (fun _ => False) := by
      rw [hr]
      exact lead_put r hstatus hk ttl
    simp only [hwhole, if_true, hvalue]
    exact Triple.bind flight_closed hfalse hput (fun _ => hsend)
  · rw [if_neg hwhole]
    exact hsend

omit [DecidableEq ι] in
theorem interpret_own (body : Bytes) (f : Fingerprint) (ttl : ℕ) (op : ω)
    (next : Except PyError (Rep op) → Program (AsgiOp ω) (AsgiOp.Reply Rep) PyError Unit)
    (c : Closure) :
    Program.interpret (replayAndCapture body f ttl) (.call (.own op) next) c =
      (.call (.own op) (fun reply => (next reply).interpret (replayAndCapture body f ttl) c) :
        ServerProgram ω Rep Unit) := by
  rw [Program.interpret]
  change Program.call _ _ = Program.call _ _
  congr 1
  funext reply
  cases reply with
  | ok a => rfl
  | error e => rfl

theorem lead_application {body : Bytes} {tenant_id : UUID} {key : Str} (hk : k = (tenant_id, key))
    (ttl : ℕ) (p : Program (AsgiOp ω) (AsgiOp.Reply Rep) PyError Unit) {stage : Stage}
    {c : Closure} (hanswers : Answers backend body stage c.sent p) (hms : stage.Sent ms)
    (hc : c = { captured ms with sent := c.sent }) :
    Triple (x.flight leader k hash clock backend) leader
      (x.LeaderAt leader k hash ms (x.history leader ms))
      (p.interpret (replayAndCapture body ⟨tenant_id, key, hash⟩ ttl) c)
      (fun _ => x.Received leader leader) (fun _ => False) := by
  induction p generalizing stage c ms with
  | pure a =>
    obtain rfl : stage = .complete := hanswers
    obtain ⟨r, hstatus, rfl⟩ := hms
    exact Triple.pure stable_received (fun s hs => ⟨r, hstatus, hs.events, .inl hs.outbox⟩)
  | throw e => exact hanswers.elim
  | call op next ih =>
    cases op with
    | receive =>
      have hnext : Answers backend body stage ({ c with sent := true } : Closure).sent
          (next (.ok (if c.sent then .disconnect else .request body false))) := hanswers
      rw [Program.interpret]
      exact ih _ hnext hms (by rw [hc])
    | send m =>
      obtain ⟨stage', hafter, hnext⟩ := hanswers
      rw [Program.interpret]
      refine Triple.handle flight_closed (lead_capturingSend hms hafter hk ttl hc) ?_
        (fun _ _ hfalse => hfalse.elim)
      rintro ⟨⟨⟩, c'⟩ s ⟨rfl, hs⟩
      have hsent : (c.capture m).sent = c.sent := sent_capture c m
      have hcapture : c.capture m = { captured (ms ++ [m]) with sent := (c.capture m).sent } := by
        rw [hsent, captured_append, hc, capture_sent]
      rw [← hsent] at hnext
      exact ih (.ok ()) hnext (hms.after hafter) hcapture s hs
    | own op =>
      rw [interpret_own]
      refine Triple.call (R := fun reply s => Answers backend body stage c.sent (next reply) ∧
        x.LeaderAt leader k hash ms (x.history leader ms) s) stable_leaderAt
        (fun s hs => hs.oneCall leader) ?_ ?_
      · intro s choice hs _ _
        have hquiet : ∀ j, j ≠ leader → x.Flight leader k hash j s
            (ServerState.exec clock backend leader choice (.own op) s).2 :=
          fun _ hj => flight_quiet (by trivial) hj choice s
        exact ⟨hquiet, hanswers leader choice s.app, hs.outbox, hs.events, hs.sound⟩
      · rintro reply s ⟨hnext, hs⟩
        exact ih reply hnext hms hc s hs

/-- Request `i` has been sent `out`, and what is stored is the response to the leader. -/
structure FollowerAt (x : Traffic ι) (leader : ι) (k : UUID × Str) (hash : Str) (i : ι)
    (out : List Message) (s : ServerState ι τ) : Prop where
  outbox : s.outbox i = out
  sound : x.Sound leader k hash s

theorem stable_followerAt : (x.flight leader k hash clock backend).Stable i
    (x.FollowerAt leader k hash i out) :=
  fun _ _ hrely h => ⟨hrely.outbox.trans h.outbox, hrely.sound h.sound⟩

omit [DecidableEq ι] in
theorem LeaderAt.lookup {s : ServerState ι τ} {tenant_id : UUID} {key : Str}
    (h : x.LeaderAt leader (tenant_id, key) hash out [] s) :
    s.lookup clock tenant_id key = none := by
  rw [Option.eq_none_iff_forall_ne_some]
  intro c hc
  obtain ⟨r, -, hdone, -⟩ := h.sound c (ServerState.lookup_entry hc)
  exact List.cons_ne_nil _ _ (hdone.symm.trans h.events)

theorem lead_get {tenant_id : UUID} {key : Str} :
    Triple (x.flight leader (tenant_id, key) hash clock backend) leader
      (x.LeaderAt leader (tenant_id, key) hash [] []) (Server.get tenant_id key)
      (fun cached s => cached = none ∧ x.LeaderAt leader (tenant_id, key) hash [] [] s)
      (fun _ => False) := by
  refine triple_quiet (by trivial) stable_leaderAt
    (fun _ => (Discipline.stable_const _).and stable_leaderAt) Discipline.stable_false
    (fun s hs _ => .inl hs.events) ?_
  intro s choice hs _ hsound
  exact ⟨hs.lookup, hs.outbox, hs.events, hsound hs.sound⟩

theorem follow_get {tenant_id : UUID} {key : Str} (hi : i ≠ leader) :
    Triple (x.flight leader (tenant_id, key) hash clock backend) i
      (x.FollowerAt leader (tenant_id, key) hash i []) (Server.get tenant_id key)
      (fun cached s => ∃ r : Reply, cacheable r.status ∧
        (∃ expires_at, cached = some (r.closure.toCached hash expires_at)) ∧ x.Done leader r s ∧
        s.outbox i = []) (fun _ => False) := by
  refine triple_quiet (by trivial) stable_followerAt (fun cached => ?_) Discipline.stable_false
    (fun _ _ hled => absurd hled hi) ?_
  · rintro s s' hrely ⟨r, hstatus, hcached, hdone, hout⟩
    exact ⟨r, hstatus, hcached, hrely.done r hdone, hrely.outbox.trans hout⟩
  · intro s choice hs hok _
    obtain ⟨c, hc⟩ := Option.isSome_iff_exists.mp (hok.resolve_left hi)
    obtain ⟨r, hstatus, hdone, hvalue⟩ := hs.sound c (ServerState.lookup_entry hc)
    exact ⟨r, hstatus, ⟨c.expires_at, hc.trans (congrArg some hvalue)⟩, hdone, hs.outbox⟩

theorem follow_answer (hi : i ≠ leader) (r : Reply) (hstatus : cacheable r.status) :
    Triple (x.flight leader k hash clock backend) i
      (fun s => x.Done leader r s ∧ s.outbox i = []) (answer r.status r.headers r.body)
      (fun _ => x.Received leader i) (fun _ => False) := by
  have hstable : ∀ out, (x.flight leader k hash clock backend).Stable i
      (fun s => x.Done leader r s ∧ s.outbox i = out) :=
    fun out s s' hrely hs => ⟨hrely.done r hs.1, hrely.outbox.trans hs.2⟩
  have hsend : ∀ out m, Triple (x.flight leader k hash clock backend) i
      (fun s => x.Done leader r s ∧ s.outbox i = out) (Server.send m)
      (fun _ s => x.Done leader r s ∧ s.outbox i = out ++ [m]) (fun _ => False) := by
    intro out m
    refine triple_quiet (by trivial) (hstable out) (fun _ => hstable _) Discipline.stable_false
      (fun _ _ hled => absurd hled hi) ?_
    intro s choice hs _ _
    exact ⟨hs.1, (ServerState.outbox_deliver_self s i m).trans (congrArg (· ++ [m]) hs.2)⟩
  refine Triple.bind flight_closed Discipline.stable_false (hsend [] _) (fun _ => ?_)
  exact (hsend _ _).conseq (fun _ => id) (fun _ s hs => ⟨r, hstatus, hs.1, .inr hs.2⟩)

/-- The request has not been read, and if it leads, nothing has happened at the application. -/
structure Waiting (x : Traffic ι) (leader : ι) (k : UUID × Str) (hash : Str) (i : ι)
    (s : ServerState ι τ) : Prop where
  inbox : s.inbox i = x.inbox i
  outbox : s.outbox i = []
  sound : x.Sound leader k hash s
  led : i = leader → s.events = []

theorem stable_waiting : (x.flight leader k hash clock backend).Stable i
    (x.Waiting leader k hash i) :=
  fun _ _ hrely h => ⟨hrely.inbox.trans h.inbox, hrely.outbox.trans h.outbox,
    hrely.sound h.sound, fun hi => (hrely.led hi).trans (h.led hi)⟩

theorem flight_collectBody :
    Triple (x.flight leader k hash clock backend) i (x.Waiting leader k hash i) Server.collectBody
      (fun body s => body = x.body i ∧ x.FollowerAt leader k hash i [] s ∧
        (i = leader → s.events = [])) (fun _ => False) := by
  refine triple_quiet (by trivial) stable_waiting (fun body => ?_) Discipline.stable_false
    (fun s hs hi => .inl (hs.led hi)) ?_
  · rintro s s' hrely ⟨hbody, hs, hled⟩
    exact ⟨hbody, stable_followerAt s s' hrely hs, fun hi => (hrely.led hi).trans (hled hi)⟩
  · intro s choice hs _ hsound
    exact ⟨congrArg (fun ms => (collectBody ms).1) hs.inbox, ⟨hs.outbox, hsound hs.sound⟩, hs.led⟩

theorem flight_call {sha256 : Bytes → Str} {tenant_id : UUID} {key : Str} {body : Bytes}
    (hkeyed : keyOf (x.scope i) = some (tenant_id, key)) (hbody : x.body i = body) (ttl : ℕ)
    (app : App ω Rep) (happ : Answers backend body .silent false (app (x.scope i))) :
    Triple (x.flight leader (tenant_id, key) (sha256 body) clock backend) i
      (x.Waiting leader (tenant_id, key) (sha256 body) i) (call sha256 ttl app (x.scope i))
      (fun _ => x.Received leader i) (fun _ => False) := by
  unfold call
  rw [hkeyed]
  refine Triple.bind flight_closed Discipline.stable_false flight_collectBody (fun body' => ?_)
  rintro s ⟨hbody', hs, hled⟩
  obtain rfl : body' = body := hbody'.trans hbody
  by_cases hi : i = leader
  · subst hi
    refine Triple.bind flight_closed Discipline.stable_false lead_get (fun cached => ?_) s
      ⟨hs.outbox, hled rfl, hs.sound⟩
    rintro s ⟨rfl, hs⟩
    refine Triple.bind flight_closed Discipline.stable_false
      (lead_event (fun r => List.cons_ne_nil _ _ ∘ Eq.symm) _ (.inl rfl)) (fun _ => ?_) s hs
    exact lead_application rfl ttl _ happ (Eq.refl []) rfl
  · refine Triple.bind flight_closed Discipline.stable_false (follow_get hi) (fun cached => ?_) s hs
    rintro s ⟨r, hstatus, ⟨expires_at, rfl⟩, hdone, hout⟩
    rw [settle_replay ttl app rfl]
    exact follow_answer hi r hstatus s ⟨hdone, hout⟩

omit [DecidableEq ι] in
theorem calls_history {s : ServerState ι τ} (h : s.events = x.history leader ms) :
    s.calls = [(leader, x.scope leader)] := by
  have hnone : (ms.map (fun m => (leader, AppEvent.sent m))).filterMap
      (fun e => e.2.scope?.map (fun scope => (e.1, scope))) = [] := by
    simp [AppEvent.scope?]
  rw [ServerState.calls, h, history]
  exact congrArg (List.cons _) hnone

omit [DecidableEq ι] in
theorem appSent_history {s : ServerState ι τ} (h : s.events = x.history leader ms) :
    s.appSent = ms := by
  rw [ServerState.appSent, h, history, List.filterMap_cons]
  simp only [AppEvent.message?, List.filterMap_map]
  exact List.filterMap_some

end Flight

/-- Retries of which each looks its key up first of all or when a live response is stored: the
application is called at most once, none of them fails, and each that is through has received all
of the application's response, which is one. -/
theorem retries_share_one_call (clock : ℕ → ℚ) (backend : Environment ι χ ω Rep PyError τ)
    (sha256 : Bytes → Str) (ttl : ℕ) (app : App ω Rep) (x : Traffic ι) (k : UUID × Str)
    (body : Bytes) (hkeyed : ∀ i, keyOf (x.scope i) = some k) (hbody : ∀ i, x.body i = body)
    (happ : ∀ i, Answers backend body .silent false (app (x.scope i))) (t : τ)
    (q : Pool ι (ServerState ι τ) (ServerOp ω) (ServerOp.Reply Rep) PyError Unit)
    (hrun : Pool.Run (ServerState.environment clock backend) (FirstOrLive clock)
      (x.pool sha256 ttl app t) q) (i : ι) :
    q.shared.calls.length ≤ 1 ∧ (∀ e, q.program i ≠ .throw e) ∧
      ((q.program i).returned → q.shared.calls.length = 1 ∧ Whole (q.shared.outbox i) ∧
        captured (q.shared.outbox i) = captured q.shared.appSent) := by
  obtain ⟨leader, hled⟩ := (run_led hrun i).2
  have hstart : ∀ j, x.Waiting leader k (sha256 body) j (ServerState.start x.inbox t) := fun j =>
    ⟨rfl, rfl, fun c h => (Option.some_ne_none c h.symm).elim, fun _ => rfl⟩
  have hcall : ∀ j, Triple (x.flight leader k (sha256 body) clock backend) j
      (x.Waiting leader k (sha256 body) j) (call sha256 ttl app (x.scope j))
      (fun _ => x.Received leader j) (fun _ => False) :=
    fun j => flight_call (hkeyed j) (hbody j) ttl app (happ j)
  have hdone : ∀ r, x.Done leader r q.shared → q.shared.calls.length = 1 := fun r h => by
    rw [calls_history h]
    rfl
  refine ⟨?_, fun e he => ?_, fun hreturned => ?_⟩
  · rcases Triple.run flight_closed hcall hstart hled leader with ⟨_, -, r, -, h, -⟩ | ⟨_, _, h⟩ |
      ⟨h, -⟩
    · exact (hdone r h).le
    · exact h.elim
    · rcases h rfl with h | ⟨ms, h⟩
      · simp [ServerState.calls, h]
      · rw [calls_history h]
        exact le_rfl
  · exact Triple.run_throw flight_closed hcall hstart hled he
  · obtain ⟨a, ha⟩ := Program.returned_iff.mp hreturned
    obtain ⟨r, hstatus, h, hout⟩ := Triple.run_pure flight_closed hcall hstart hled ha
    have hwhole : Whole (q.shared.outbox i) ∧ captured (q.shared.outbox i) = r.closure := by
      rcases hout with hout | hout
      · rw [hout]
        exact ⟨r.whole_messages hstatus, r.captured_messages⟩
      · rw [hout, ← r.joined_messages]
        exact ⟨Reply.whole_messages hstatus, r.joined.captured_messages⟩
    rw [appSent_history h, r.captured_messages]
    exact ⟨hdone r h, hwhole⟩

end Traffic

namespace Specimen

def retries : Traffic Bool where
  scope _ := post "/v1/persons"
  inbox _ := [.request [1] false]

def retryPool : Pool Bool (ServerState Bool ℕ) (ServerOp Unit) (ServerOp.Reply fun _ => ℕ) PyError
    Unit :=
  retries.pool Sha256.hexdigest 7200 echo 0

theorem echo_answers (scope : Scope) :
    Answers (counter (ι := Bool)) [1] .silent false (echo scope) :=
  fun _ _ _ => ⟨_, rfl, _, rfl, _, rfl, rfl⟩

def firstOrLive (op : ServerOp Unit) (s : ServerState Bool ℕ) : Bool :=
  match op with
  | .get tenant_id key => s.ticks = 0 ∨ (s.lookup clock tenant_id key).isSome
  | _ => true

end Specimen

namespace Traffic
open Specimen

/-- A retry after the response gets the response. -/
theorem retry_shares_call : ∃ q,
    Pool.Run (ServerState.environment clock counter) (FirstOrLive clock) retryPool q ∧
      q.shared.calls.length = 1 ∧
      captured (q.shared.outbox true) = captured (q.shared.outbox false) := by
  have hok : ∀ (i : Bool) (choice : Unit) (op : ServerOp Unit) (s : ServerState Bool ℕ),
      firstOrLive op s = true → FirstOrLive clock i choice op s := by
    intro i choice op s h
    cases op with
    | get tenant_id key =>
      have hlookup : s.ticks = 0 ∨ (s.lookup clock tenant_id key).isSome := by
        simpa [firstOrLive] using h
      exact hlookup
    | receive | collectBody | send | put | event | own => trivial
  have hends : (Pool.runChecked (ServerState.environment clock counter) (fun _ _ => firstOrLive)
      (List.replicate 11 (true, ()) ++ List.replicate 4 (false, ())) retryPool).map
        (fun q => ((q.program true).returned, (q.program false).returned)) =
      some (true, true) := by
    decide +kernel
  obtain ⟨q, hq, hends⟩ := Option.map_eq_some_iff.mp hends
  obtain ⟨hfirst, hsecond⟩ := Prod.mk.inj hends
  have hrun := Pool.run_of_runChecked hok hq
  have hkeyed : ∀ i, keyOf (retries.scope i) = some (1, ['k']) := fun _ => keyOf_post _
  obtain ⟨-, -, hretry⟩ := retries_share_one_call clock counter Sha256.hexdigest 7200 echo retries
    (1, ['k']) [1] hkeyed (fun _ => rfl) (fun _ => echo_answers _) 0 q hrun true
  obtain ⟨-, -, hretry'⟩ := retries_share_one_call clock counter Sha256.hexdigest 7200 echo retries
    (1, ['k']) [1] hkeyed (fun _ => rfl) (fun _ => echo_answers _) 0 q hrun false
  obtain ⟨hone, -, hresponse⟩ := hretry hfirst
  exact ⟨q, hrun, hone, hresponse.trans (hretry' hsecond).2.2.symm⟩

/-- A retry before the response is a call of its own, and gets another response. -/
theorem overlapping_retries_call_twice :
    (∀ i, keyOf (retries.scope i) = some (1, ['k'])) ∧ (∀ i, retries.body i = [1]) ∧
      (∀ i, Answers (counter (ι := Bool)) [1] .silent false (echo (retries.scope i))) ∧
      ∃ q, Pool.Run (ServerState.environment clock counter) Pool.Unrestricted retryPool q ∧
        (∀ i, (q.program i).returned) ∧ q.shared.calls.length = 2 ∧
        captured (q.shared.outbox true) ≠ captured (q.shared.outbox false) := by
  refine ⟨fun _ => keyOf_post _, fun _ => rfl, fun _ => echo_answers _, ?_⟩
  have hends : (Pool.runSchedule (ServerState.environment clock counter)
      (List.replicate 2 (true, ()) ++ List.replicate 2 (false, ()) ++ List.replicate 9 (true, ()) ++
        List.replicate 9 (false, ())) retryPool).map
        (fun q => ((q.program true).returned, (q.program false).returned, q.shared.calls.length,
          (captured (q.shared.outbox true)).body, (captured (q.shared.outbox false)).body)) =
      some (true, true, 2, [1, 48], [1, 49]) := by
    decide +kernel
  obtain ⟨q, hq, hends⟩ := Option.map_eq_some_iff.mp hends
  simp only [Prod.mk.injEq] at hends
  obtain ⟨hfirst, hsecond, hcalls, hbody, hbody'⟩ := hends
  refine ⟨q, Pool.run_of_runSchedule hq, fun i => ?_, hcalls, fun h => ?_⟩
  · cases i with
    | true => exact hfirst
    | false => exact hsecond
  · rw [h, hbody'] at hbody
    exact absurd hbody (by decide)

end Traffic
end Hawiya
