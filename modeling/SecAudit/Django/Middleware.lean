import SecAudit.Django.Runtime

/-!
# The audit middleware

* `prepareAuditContext`  the base of a request, and its context set;
* `recordAfter`     what is recorded of a response;
* `auditMiddleware` the middleware: neither of the two can change what the view returns or raises;
* `tally`, `Audited`  the calls of a run, sorted, and what is to be found there;
* `does_auditMiddleware`  every run is so, whatever raises in it;
* `requests_audited`  and every request of an interleaved run.
-/

set_option linter.unusedVariables false

namespace SecAudit
open Py Prog

def CONTEXT_PREP_FAILED : Str := str "audit.context_prep_failed"

def RESPONSE_RECORD_FAILED : Str := str "audit.response_record_failed"

/-- what is read of a response before it is there -/
def After.unread : After where
  status := 0
  user := .ok none
  durationNs := 0
  timestampNs := 0
  hasConsumers := false

/-- a request with what is read before and after the view -/
def exchange (request : Request) (b : Before) (a : After) : Exchange where
  request := request
  active := b.active
  absoluteUri := b.absoluteUri
  info := b.info
  status := a.status
  user := a.user
  sampled := a.sampled
  durationNs := a.durationNs
  timestampNs := a.timestampNs
  freshId := b.freshId
  freshSession := b.freshSession

/-- the level of the event of a response -/
def responseLevel (status : Int) : Nat :=
  if status ≥ 500 then 40 else if status ≥ 400 then 30 else 20

/-- what `_prepare_audit_context` returns, with what it was made of -/
structure Prepared where
  token : Option AuditContext
  sessionId : Str
  base : List (Str × Value)
  before : Before

section
variable (py : Objects) (repr : Str → Str) (frames : Nat) {lib : IpLibrary}
  (mw : AuditMiddleware lib) (request : Request) {Response : Type}

/-- `_is_ignored_path` -/
def isIgnoredPath : Bool := mw.ignorePaths.any fun pattern => pattern (requestPath request)

/-- an error is logged; else `_should_emit_non_error_response` -/
def logsResponse (a : After) : Bool := decide (a.status ≥ 400) || mw.logOkResponses && a.sampled

/-- a new audit-session id is stored -/
def storeNewSession (b : Before) : AuditRoutine Response Unit :=
  match getAuditSessionId b.freshSession request mw.django.emitSessionId with
  | .ok (_, some id) => perform (.storeSession id)
  | _ => pure ()

/-- `_prepare_audit_context` -/
def prepareAuditContext : AuditRoutine Response Prepared := do
  let b ← perform .before
  storeNewSession mw request b
  let base ← ofExcept (buildBaseInfo frames mw (exchange request b .unread))
  let token ← perform (.setContext (auditContext (exchange request b .unread) base.1 base.2))
  return ⟨token, base.1, base.2, b⟩

/-- the event of a response is recorded, when there is one -/
def recordWhen (a : After) : Option AuditEvent → AuditRoutine Response Unit
  | none => pure ()
  | some event => DjangoLoggingRuntime.record event (responseLevel a.status) (logsResponse mw a)

/-- `_record_response` -/
def recordAfter (p : Prepared) (response : Response) : AuditRoutine Response Unit := do
  let a ← perform (.after response)
  let event ← ofExcept (recordResponse py repr frames { mw with hasConsumers := a.hasConsumers }
    (exchange request p.before a) p.sessionId p.base)
  recordWhen mw a event

/-- the end of `__call__`, with what the view returned or raised -/
def finish (p : Prepared) : Except Exc Response → AuditRoutine Response Response
  | .ok response => do
    orWarn (recordAfter py repr frames mw request p response) RESPONSE_RECORD_FAILED
      (str "Audit response recording failed; response is returned as-is")
    perform (.resetContext p.token)
    return response
  | .error e => do
    perform (.resetContext p.token)
    Prog.throw e

/-- `AuditMiddleware.__call__` around a view -/
def auditAround (view : AuditRoutine Response Response) : AuditRoutine Response Response :=
  if isIgnoredPath mw request then view
  else (prepareAuditContext frames mw request).attempt fun prepared => match prepared with
    | .ok p => view.attempt (finish py repr frames mw request p)
    | .error _ => do
      perform (.diagnosticWarning CONTEXT_PREP_FAILED
        (str "Audit context preparation failed; request proceeds unaudited"))
      view

end

/-! ## what a call is -/

/-- the context is set, with the token that is given, or reset to that of a token -/
inductive ContextMove where
  | set (context : AuditContext) (token : Option AuditContext)
  | reset (token : Option AuditContext)

section
variable {Response : Type}

def viewReply : AuditCall Response → Option (Except Exc Response)
  | ⟨.getResponse, r⟩ => some r
  | _ => none

def contextMove : AuditCall Response → Option ContextMove
  | ⟨.setContext context, .ok token⟩ => some (.set context token)
  | ⟨.resetContext token, _⟩ => some (.reset token)
  | _ => none

def beforeOf : AuditCall Response → Option Before
  | ⟨.before, .ok b⟩ => some b
  | _ => none

def afterOf : AuditCall Response → Option After
  | ⟨.after _, .ok a⟩ => some a
  | _ => none

variable (py : Objects) (repr : Str → Str) (frames : Nat) {lib : IpLibrary}
  (mw : AuditMiddleware lib) (request : Request)

/-- the event to record of what was read before and after the view -/
def eventRead (b : Before) (a : After) : Option AuditEvent :=
  recordedEvent py repr frames { mw with hasConsumers := a.hasConsumers } (exchange request b a)

/-- no event is built: the status is ignored, or nobody would see it -/
def unwanted (a : After) : Prop :=
  a.status ∈ mw.ignoreStatusCodes ∨ logsResponse mw a = false ∧ a.hasConsumers = false

end

/-- the calls of a run, sorted -/
structure Tally (Response : Type) where
  views : List (Except Exc Response) := []
  moves : List ContextMove := []
  befores : List Before := []
  afters : List After := []
  emissions : List (AuditEvent × Nat) := []
  snapshots : List (List Nat) := []
  handings : List (Nat × AuditEvent) := []
  warnings : List Str := []
  losses : List Str := []

section
variable {Response : Type}

def Tally.append (a b : Tally Response) : Tally Response where
  views := a.views ++ b.views
  moves := a.moves ++ b.moves
  befores := a.befores ++ b.befores
  afters := a.afters ++ b.afters
  emissions := a.emissions ++ b.emissions
  snapshots := a.snapshots ++ b.snapshots
  handings := a.handings ++ b.handings
  warnings := a.warnings ++ b.warnings
  losses := a.losses ++ b.losses

def tally (t : List (AuditCall Response)) : Tally Response where
  views := t.filterMap viewReply
  moves := t.filterMap contextMove
  befores := t.filterMap beforeOf
  afters := t.filterMap afterOf
  emissions := t.filterMap emission
  snapshots := t.filterMap snapshotOf
  handings := t.filterMap handing
  warnings := t.filterMap warning
  losses := t.filterMap loss

theorem tally_append (t₁ t₂ : List (AuditCall Response)) :
    tally (t₁ ++ t₂) = (tally t₁).append (tally t₂) := by
  simp only [tally, Tally.append, List.filterMap_append]

variable (py : Objects) (repr : Str → Str) (frames : Nat) {lib : IpLibrary}
  (mw : AuditMiddleware lib) (request : Request)

/-- the event to record, with what was read after the view -/
def expected (c : Tally Response) : Option (AuditEvent × After) := do
  let b ← c.befores.head?
  let a ← c.afters.head?
  let event ← eventRead py repr frames mw request b a
  return (event, a)

/-- what a run of the middleware does -/
structure Audited (c : Tally Response) (r : Except Exc Response) : Prop where
  /-- the view is called once, and what it returns or raises is the outcome -/
  view : c.views = [r]
  /-- the context is set and then reset to what it was, or left alone -/
  context : c.moves = [] ∨ ∃ context token, c.moves = [.set context token, .reset token]
  /-- the event is logged once, when it is to be, and nothing else is -/
  emitted : c.emissions = (expected py repr frames mw request c).elim [] fun e =>
    if logsResponse mw e.2 then [(e.1, responseLevel e.2.status)] else []
  /-- the event is handed once to each consumer that was there, and nothing else is -/
  handed : c.handings = (expected py repr frames mw request c).elim [] fun e =>
    (c.snapshots.headD []).map fun consumer => (consumer, e.1)
  once : c.handings.Nodup
  /-- each failure has its warning -/
  told : List.Sublist c.losses c.warnings
  /-- without a warning nothing is lost -/
  complete : c.warnings = [] → isIgnoredPath mw request = false → ∀ response, r = .ok response →
    ∃ a, c.afters = [a] ∧
      (unwanted mw a ∨ (expected py repr frames mw request c).isSome = true)

/-! ## the parts of a run -/

variable {py repr frames mw request}

theorem does_storeNewSession {b : Before} {t : List (AuditCall Response)} {r : Except Exc Unit}
    (h : Does (AuditReplies Response) (storeNewSession mw request b) t r) : tally t = {} := by
  unfold storeNewSession at h
  split at h
  · obtain ⟨-, rfl⟩ := does_perform.mp h
    rfl
  · obtain ⟨rfl, -⟩ := does_done.mp h
    rfl

/-- **a preparation** sets the context when it succeeds, and only then -/
theorem does_prepare {t : List (AuditCall Response)} {r : Except Exc Prepared}
    (h : Does (AuditReplies Response) (prepareAuditContext frames mw request) t r) :
    (∀ p, r = .ok p →
      buildBaseInfo frames mw (exchange request p.before .unread) = .ok (p.sessionId, p.base) ∧
      tally t =
        { befores := [p.before]
          moves := [.set (auditContext (exchange request p.before .unread) p.sessionId p.base)
            p.token] }) ∧
    ∀ e, r = .error e → ∃ befores, tally t = { befores := befores } := by
  unfold prepareAuditContext at h
  rcases does_bind.mp h with ⟨t₁, b, t₂, h₁, h₂, rfl⟩ | ⟨e, h₁, rfl⟩
  swap
  · obtain ⟨-, rfl⟩ := does_perform.mp h₁
    exact ⟨fun p hp => (by cases hp), fun e _ => ⟨[], rfl⟩⟩
  obtain ⟨-, rfl⟩ := does_perform.mp h₁
  rcases does_bind.mp h₂ with ⟨t₃, u, t₄, h₃, h₄, rfl⟩ | ⟨e, h₃, rfl⟩
  swap
  · refine ⟨fun p hp => (by cases hp), fun e _ => ⟨[b], ?_⟩⟩
    rw [tally_append, does_storeNewSession h₃]
    rfl
  have hs := does_storeNewSession h₃
  rcases does_bind.mp h₄ with ⟨t₅, base, t₆, h₅, h₆, rfl⟩ | ⟨e, h₅, rfl⟩
  swap
  · obtain ⟨rfl, -⟩ := does_done.mp h₅
    refine ⟨fun p hp => (by cases hp), fun e _ => ⟨[b], ?_⟩⟩
    rw [tally_append, tally_append, hs]
    rfl
  obtain ⟨rfl, hbase⟩ := does_done.mp h₅
  rcases does_bind.mp h₆ with ⟨t₇, token, t₈, h₇, h₈, rfl⟩ | ⟨e, h₇, rfl⟩
  swap
  · obtain ⟨-, rfl⟩ := does_perform.mp h₇
    refine ⟨fun p hp => (by cases hp), fun e _ => ⟨[b], ?_⟩⟩
    rw [tally_append, tally_append, tally_append, hs]
    rfl
  obtain ⟨-, rfl⟩ := does_perform.mp h₇
  obtain ⟨rfl, rfl⟩ := does_done.mp h₈
  refine ⟨fun p hp => ?_, fun e he => (by cases he)⟩
  obtain rfl := Except.ok.inj hp
  refine ⟨hbase.symm, ?_⟩
  rw [tally_append, tally_append, tally_append, tally_append, hs]
  rfl

/-- the calls of a record, sorted -/
theorem Recorded.tally_eq {event : AuditEvent} {level : Nat} {emit : Bool}
    {t : List (AuditCall Response)} (h : Recorded event level emit t) :
    ∃ (g : Registry) (lost : List Str), tally t =
      { emissions := if emit then [(event, level)] else []
        snapshots := [g.consumers]
        handings := g.consumers.map fun consumer => (consumer, event)
        warnings := lost
        losses := lost } := by
  obtain ⟨g, hs, hh⟩ := h.snapshot
  have none {γ : Type} {f : AuditCall Response → Option γ}
      (hf : ∀ x, isRecording x = true → f x = none) : t.filterMap f = [] :=
    List.filterMap_eq_nil_iff.mpr fun x hx => hf x (h.only x hx)
  refine ⟨g, t.filterMap loss, ?_⟩
  unfold tally
  rw [h.emitted, hs, hh, h.warned, none (f := viewReply), none (f := contextMove),
    none (f := beforeOf), none (f := afterOf)]
  all_goals
    rintro ⟨c, r⟩ hx
    cases c <;> first | rfl | cases hx

variable (py repr frames mw request) in
/-- what the recording of a response has done -/
inductive Finished (p : Prepared) (t : List (AuditCall Response)) : Prop
  /-- it failed -/
  | failed (afters : List After) :
    tally t = { afters := afters, warnings := [RESPONSE_RECORD_FAILED] } →
    (∀ a ∈ afters, ∃ e, recordResponse py repr frames { mw with hasConsumers := a.hasConsumers }
      (exchange request p.before a) p.sessionId p.base = .error e) → Finished p t
  /-- there was nothing to record -/
  | nothing (a : After) :
    tally t = { afters := [a] } →
    recordResponse py repr frames { mw with hasConsumers := a.hasConsumers }
      (exchange request p.before a) p.sessionId p.base = .ok none → Finished p t
  | event (a : After) (event : AuditEvent) (g : Registry) (lost : List Str) :
    tally t =
      { afters := [a]
        emissions := if logsResponse mw a then [(event, responseLevel a.status)] else []
        snapshots := [g.consumers]
        handings := g.consumers.map fun consumer => (consumer, event)
        warnings := lost
        losses := lost } →
    recordResponse py repr frames { mw with hasConsumers := a.hasConsumers }
      (exchange request p.before a) p.sessionId p.base = .ok (some event) → Finished p t

/-- **the recording of a response** never raises -/
theorem does_recordAfter {p : Prepared} {response : Response} {message : Str}
    {t : List (AuditCall Response)} {r : Except Exc Unit}
    (h : Does (AuditReplies Response)
      (orWarn (recordAfter py repr frames mw request p response) RESPONSE_RECORD_FAILED message) t r) :
    r = .ok () ∧ Finished py repr frames mw request p t := by
  obtain ⟨hr, hc⟩ := does_orWarn h
  refine ⟨hr, ?_⟩
  unfold recordAfter at hc
  rcases hc with hc | ⟨e, t', hc, rfl⟩
  · rcases does_bind.mp hc with ⟨t₁, a, t₂, h₁, h₂, rfl⟩ | ⟨e, -, hr⟩
    swap
    · cases hr
    obtain ⟨-, rfl⟩ := does_perform.mp h₁
    rcases does_bind.mp h₂ with ⟨t₃, event, t₄, h₃, h₄, rfl⟩ | ⟨e, -, hr⟩
    swap
    · cases hr
    obtain ⟨rfl, he⟩ := does_done.mp h₃
    cases event with
    | none =>
      obtain ⟨rfl, -⟩ := does_done.mp h₄
      exact .nothing a rfl he.symm
    | some event =>
      obtain ⟨g, lost, ht⟩ := (does_record h₄).2.tally_eq
      refine .event a event g lost ?_ he.symm
      rw [tally_append, tally_append, ht]
      rfl
  · rcases does_bind.mp hc with ⟨t₁, a, t₂, h₁, h₂, rfl⟩ | ⟨e, h₁, -⟩
    swap
    · obtain ⟨-, rfl⟩ := does_perform.mp h₁
      exact .failed [] rfl fun a ha => absurd ha List.not_mem_nil
    obtain ⟨-, rfl⟩ := does_perform.mp h₁
    rcases does_bind.mp h₂ with ⟨t₃, event, t₄, h₃, h₄, rfl⟩ | ⟨e, h₃, -⟩
    swap
    · obtain ⟨rfl, he⟩ := does_done.mp h₃
      refine .failed [a] rfl fun a' ha => ⟨e, ?_⟩
      rw [List.mem_singleton.mp ha]
      exact he.symm
    cases event with
    | none =>
      cases (does_done.mp h₄).2
    | some event =>
      cases (does_record h₄).1

theorem some_ne_none (x : Except Exc AuditEvent) :
    (x >>= fun event => pure (some event) : Except Exc (Option AuditEvent)) ≠ .ok none := by
  intro h
  cases x with
  | error e => cases h
  | ok event => cases h

theorem recordResponse_none {x : Exchange} {sessionId : Str} {base : List (Str × Value)}
    (h : recordResponse py repr frames mw x sessionId base = .ok none) :
    x.status ∈ mw.ignoreStatusCodes ∨
      (decide (x.status ≥ 400) || mw.logOkResponses && x.sampled) = false ∧
        mw.hasConsumers = false := by
  unfold recordResponse at h
  split at h
  · exact .inl ‹_›
  · refine .inr ?_
    cases hd : eventBase mw x base with
    | error e =>
      rw [hd] at h
      cases h
    | ok data =>
      rw [hd] at h
      change (if _ then _ else _) = _ at h
      split at h
      · rename_i hc
        simp only [Bool.and_eq_true, Bool.not_eq_true', decide_eq_true_eq] at hc
        refine ⟨?_, hc.2⟩
        rw [hc.1.2, Bool.or_false]
        exact decide_eq_false (by omega)
      · exact absurd h (some_ne_none _)

/-- the event that is to be recorded, by its parts -/
theorem eventRead_eq {p : Prepared} {a : After} {r : Except Exc (Option AuditEvent)}
    (hi : isIgnoredPath mw request = false)
    (hb : buildBaseInfo frames mw (exchange request p.before .unread) = .ok (p.sessionId, p.base))
    (hr : recordResponse py repr frames { mw with hasConsumers := a.hasConsumers }
      (exchange request p.before a) p.sessionId p.base = r) :
    eventRead py repr frames mw request p.before a = r.toOption.join := by
  have hb' : buildBaseInfo frames { mw with hasConsumers := a.hasConsumers }
      (exchange request p.before a) = .ok (p.sessionId, p.base) := hb
  have hi' : (mw.ignorePaths.any fun pattern => pattern (requestPath request)) = false := hi
  unfold eventRead recordedEvent
  show (if (mw.ignorePaths.any fun pattern => pattern (requestPath request)) = true then _ else _) = _
  rw [hi', hb', if_neg Bool.false_ne_true]
  dsimp only
  rw [hr]
  cases r with
  | error e => rfl
  | ok event => rfl

/-- the tally of a run whose view has returned, with what its recording has done -/
def afterReturn (p : Prepared) (context : AuditContext) (response : Response) (c : Tally Response) :
    Tally Response where
  views := .ok response :: c.views
  moves := .set context p.token :: c.moves ++ [.reset p.token]
  befores := p.before :: c.befores
  afters := c.afters
  emissions := c.emissions
  snapshots := c.snapshots
  handings := c.handings
  warnings := c.warnings
  losses := c.losses

theorem Audited.returned {p : Prepared} {context : AuditContext} {response : Response}
    {t : List (AuditCall Response)} (hi : isIgnoredPath mw request = false)
    (hb : buildBaseInfo frames mw (exchange request p.before .unread) = .ok (p.sessionId, p.base))
    (hf : Finished py repr frames mw request p t) :
    Audited py repr frames mw request (afterReturn p context response (tally t)) (.ok response) := by
  cases hf with
  | failed afters ht he =>
    have hx : expected py repr frames mw request (afterReturn p context response (tally t)) =
        none := by
      rw [ht]
      cases afters with
      | nil => rfl
      | cons a l =>
        obtain ⟨e, hr⟩ := he a List.mem_cons_self
        show (eventRead py repr frames mw request p.before a).bind _ = none
        rw [eventRead_eq hi hb hr]
        rfl
    refine ⟨?_, .inr ⟨context, p.token, ?_⟩, ?_, ?_, ?_, ?_, ?_⟩
    all_goals try rw [hx]
    all_goals rw [ht]
    · rfl
    · rfl
    · rfl
    · rfl
    · exact List.nodup_nil
    · exact List.nil_sublist _
    · exact fun h => absurd h (List.cons_ne_nil _ _)
  | nothing a ht hr =>
    have hx : expected py repr frames mw request (afterReturn p context response (tally t)) =
        none := by
      rw [ht]
      show (eventRead py repr frames mw request p.before a).bind _ = none
      rw [eventRead_eq hi hb hr]
      rfl
    refine ⟨?_, .inr ⟨context, p.token, ?_⟩, ?_, ?_, ?_, ?_, ?_⟩
    all_goals try rw [hx]
    all_goals rw [ht]
    · rfl
    · rfl
    · rfl
    · rfl
    · exact List.nodup_nil
    · exact List.nil_sublist _
    · exact fun _ _ _ _ => ⟨a, rfl, .inl (recordResponse_none hr)⟩
  | event a event g lost ht hr =>
    have hx : expected py repr frames mw request (afterReturn p context response (tally t)) =
        some (event, a) := by
      rw [ht]
      show (eventRead py repr frames mw request p.before a).bind _ = _
      rw [eventRead_eq hi hb hr]
      rfl
    refine ⟨?_, .inr ⟨context, p.token, ?_⟩, ?_, ?_, ?_, ?_, ?_⟩
    all_goals try rw [hx]
    all_goals rw [ht]
    · rfl
    · rfl
    · rfl
    · rfl
    · exact List.Pairwise.map (fun consumer => (consumer, event))
        (fun _ _ h heq => h (Prod.mk.inj heq).1) g.nodup
    · exact List.Sublist.refl _
    · exact fun _ _ _ _ => ⟨a, rfl, .inr rfl⟩

end

/-! ## requests at once -/

/-- the consumers, and the rest of the process -/
structure AuditProcess (σ : Type) where
  registry : Registry
  rest : σ

section
variable {Response σ X : Type}

/-- the consumers are read off the registry; a reset of the context and a warning do not raise -/
def auditProcess (h : Handler (AuditEff Response) Exc σ) :
    Handler (AuditEff Response) Exc (AuditProcess σ)
  | _, .consumers, s => (.ok s.registry.consumers, s)
  | _, .resetContext token, s => (.ok (), { s with rest := (h _ (.resetContext token) s.rest).2 })
  | _, .diagnosticWarning reasonCode message, s =>
    (.ok (), { s with rest := (h _ (.diagnosticWarning reasonCode message) s.rest).2 })
  | _, c, s => ((h _ c s.rest).1, { s with rest := (h _ c s.rest).2 })

theorem auditProcess_replies (h : Handler (AuditEff Response) Exc σ) (β : Type)
    (c : AuditEff Response β) (s : AuditProcess σ) :
    AuditReplies Response β c (auditProcess h β c s).1 := by
  cases c with
  | consumers => exact ⟨s.registry, rfl⟩
  | resetContext token => rfl
  | diagnosticWarning reasonCode message => rfl
  | _ => trivial

end

/-! ## a consumer that fails -/

/-- a page that is not there, for nobody -/
def unfound : Request where
  META := [(REMOTE_ADDR, str "203.0.113.7")]
  path := str "/none/"
  method := str "GET"
  user := .ok none
  session := .ok none

/-- no view is found -/
theorem no_infoKeys : ∀ e ∈ ([] : List (Str × Value)), e.1 ∈ INFO_KEYS :=
  fun _ he => absurd he List.not_mem_nil

/-- the first consumer raises -/
def firstRaises : Handler (AuditEff Unit) Exc Unit
  | _, .before, s => (.ok
    { absoluteUri := fun _ => .ok (str "http://testserver/none/")
      info := .ok ⟨[], no_infoKeys⟩
      freshId := str "f00d"
      freshSession := str "beef" }, s)
  | _, .setContext _, s => (.ok none, s)
  | _, .after _, s => (.ok
    { status := 404, user := .ok none, durationNs := 1000, timestampNs := 0, hasConsumers := true }, s)
  | _, .consume 1 _, s => (.error .typeError, s)
  | _, .consume _ _, s => (.ok (), s)
  | _, .storeSession _, s => (.ok (), s)
  | _, .resetContext _, s => (.ok (), s)
  | _, .getResponse, s => (.ok (), s)
  | _, .emitEvent _ _, s => (.ok (), s)
  | _, .consumers, s => (.ok [], s)
  | _, .diagnosticWarning _ _, s => (.ok (), s)

/-- two consumers -/
def twoConsumers : AuditProcess Unit := ⟨⟨[1, 2], by decide⟩, ()⟩

def AuditMiddleware.plain : AuditMiddleware .sample where
  core := .default
  schemaVersion := str "1"
  django := { trustedProxyConfig := .off .sample }

def Objects.silent : Objects where
  truthy _ := true
  str _ := .error .typeError
  int _ := .error .typeError

end SecAudit
