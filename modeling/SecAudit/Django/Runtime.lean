import SecAudit.Django.RequestInfo
import SecAudit.Prog.Steps

/-!
# Recording an event

* `AuditEff`        the calls of the audit side on what is around it;
* `Registry`        the consumers of the events;
* `DjangoLoggingRuntime.record`  log an event and hand it to the consumers;
* `emission`, `handing`, `warning`, `loss`  what a call is: a log, an event handed to a consumer, a
                    warning, or a failure that calls for one;
* `does_record`     what a record does, whatever fails.
-/

set_option linter.unusedVariables false

namespace SecAudit
open Py Prog

/-- what a request brings to the middleware, besides itself -/
structure Before where
  /-- `get_context()` -/
  active : Option AuditContext := none
  /-- `build_absolute_uri`, of a path or of none -/
  absoluteUri : Option Str → Except Exc Str
  info : Except Exc AddedInfo
  freshId : Str
  freshSession : Str

/-- what the middleware reads after the view -/
structure After where
  /-- the status of the response -/
  status : Int
  /-- `request.user` -/
  user : Except Exc (Option User)
  /-- whether a response that is no error is sampled -/
  sampled : Bool := true
  durationNs : Nat
  timestampNs : Nat
  /-- `has_rule_event_consumers()` -/
  hasConsumers : Bool

inductive AuditEff (Response : Type) : Type → Type where
  | before : AuditEff Response Before
  /-- the audit-session id is stored in the session -/
  | storeSession (id : Str) : AuditEff Response Unit
  /-- `set_context`: the token has the context before -/
  | setContext (context : AuditContext) : AuditEff Response (Option AuditContext)
  | resetContext (token : Option AuditContext) : AuditEff Response Unit
  | getResponse : AuditEff Response Response
  | after (response : Response) : AuditEff Response After
  /-- `logging.emit_event` -/
  | emitEvent (event : AuditEvent) (level : Nat) : AuditEff Response Unit
  /-- `tuple(_rule_event_consumers)` -/
  | consumers : AuditEff Response (List Nat)
  | consume (consumer : Nat) (event : AuditEvent) : AuditEff Response Unit
  | diagnosticWarning (reasonCode message : Str) : AuditEff Response Unit

abbrev AuditRoutine (Response : Type) := Prog (AuditEff Response) Exc

/-- a call and its reply -/
abbrev AuditCall (Response : Type) := Event (AuditEff Response) Exc

/-! ## the consumers -/

/-- `register_rule_event_consumer` -/
def registerConsumer (consumer : Nat) (consumers : List Nat) : List Nat :=
  if consumer ∈ consumers then consumers else consumers ++ [consumer]

/-- `unregister_rule_event_consumer` -/
def unregisterConsumer (consumer : Nat) (consumers : List Nat) : List Nat := consumers.erase consumer

theorem registerConsumer_nodup {consumer : Nat} {consumers : List Nat} (h : consumers.Nodup) :
    (registerConsumer consumer consumers).Nodup := by
  unfold registerConsumer
  split
  · exact h
  · rename_i hc
    refine List.nodup_append.mpr ⟨h, List.pairwise_singleton _ _, fun a ha b hb hab => hc ?_⟩
    rw [← List.mem_singleton.mp hb, ← hab]
    exact ha

theorem unregisterConsumer_nodup {consumer : Nat} {consumers : List Nat} (h : consumers.Nodup) :
    (unregisterConsumer consumer consumers).Nodup := h.erase _

/-- `_rule_event_consumers`: none is there twice -/
structure Registry where
  consumers : List Nat
  nodup : consumers.Nodup

def Registry.register (consumer : Nat) (g : Registry) : Registry :=
  ⟨registerConsumer consumer g.consumers, registerConsumer_nodup g.nodup⟩

def Registry.unregister (consumer : Nat) (g : Registry) : Registry :=
  ⟨unregisterConsumer consumer g.consumers, unregisterConsumer_nodup g.nodup⟩

/-- the consumers are those of a registry; their read, a reset of the context and a warning do not
raise -/
def AuditReplies (Response : Type) : Replies (AuditEff Response) Exc
  | _, .consumers, r => ∃ g : Registry, r = .ok g.consumers
  | _, .resetContext _, r => r = .ok ()
  | _, .diagnosticWarning _ _, r => r = .ok ()
  | _, _, _ => True

/-! ## recording -/

def EMIT_FAILED : Str := str "audit.emit_failed"

def CONSUMER_FAILED : Str := str "audit.consumer_failed"

section
variable {Response : Type}

/-- a call, with a warning when it raises -/
def orWarn (p : AuditRoutine Response Unit) (reasonCode message : Str) : AuditRoutine Response Unit :=
  p.catchWith fun _ => perform (.diagnosticWarning reasonCode message)

/-- `_dispatch_to_consumers`, over a snapshot of them -/
def dispatchToConsumers (event : AuditEvent) : List Nat → AuditRoutine Response Unit
  | [] => pure ()
  | consumer :: l => do
    orWarn (perform (.consume consumer event)) CONSUMER_FAILED
      (str "Audit rule-event consumer failed")
    dispatchToConsumers event l

/-- the first part of `record` -/
def logWhen (emit : Bool) (event : AuditEvent) (level : Nat) : AuditRoutine Response Unit :=
  if emit then
    orWarn (perform (.emitEvent event level)) EMIT_FAILED (str "Audit record emission failed")
  else pure ()

/-- `DjangoLoggingRuntime.record` -/
def DjangoLoggingRuntime.record (event : AuditEvent) (level : Nat) (emit : Bool) :
    AuditRoutine Response Unit := do
  logWhen emit event level
  let snapshot ← perform .consumers
  dispatchToConsumers event snapshot

/-! ## what a call is -/

/-- an event that is logged -/
def emission : AuditCall Response → Option (AuditEvent × Nat)
  | ⟨.emitEvent event level, _⟩ => some (event, level)
  | _ => none

/-- an event that is handed to a consumer -/
def handing : AuditCall Response → Option (Nat × AuditEvent)
  | ⟨.consume consumer event, _⟩ => some (consumer, event)
  | _ => none

/-- the reason code of a warning -/
def warning : AuditCall Response → Option Str
  | ⟨.diagnosticWarning reasonCode _, _⟩ => some reasonCode
  | _ => none

/-- the reason code that the failure of a record calls for -/
def loss : AuditCall Response → Option Str
  | ⟨.emitEvent _ _, .error _⟩ => some EMIT_FAILED
  | ⟨.consume _ _, .error _⟩ => some CONSUMER_FAILED
  | _ => none

/-- the list of consumers that was read -/
def snapshotOf : AuditCall Response → Option (List Nat)
  | ⟨.consumers, .ok snapshot⟩ => some snapshot
  | _ => none

/-- the calls that belong to a record, and the warnings -/
def isRecording : AuditCall Response → Bool
  | ⟨.emitEvent _ _, _⟩ => true
  | ⟨.consumers, _⟩ => true
  | ⟨.consume _ _, _⟩ => true
  | ⟨.diagnosticWarning _ _, _⟩ => true
  | _ => false

/-! ## what a record does -/

theorem does_orWarn {p : AuditRoutine Response Unit} {reasonCode message : Str}
    {t : List (AuditCall Response)} {r : Except Exc Unit}
    (h : Does (AuditReplies Response) (orWarn p reasonCode message) t r) : r = .ok () ∧
      (Does (AuditReplies Response) p t (.ok ()) ∨ ∃ e t', Does (AuditReplies Response) p t' (.error e) ∧
        t = t' ++ [⟨.diagnosticWarning reasonCode message, .ok ()⟩]) := by
  obtain ⟨t₁, r₁, t₂, h₁, h₂, rfl⟩ := does_attempt.mp h
  cases r₁ with
  | ok a =>
    obtain ⟨rfl, rfl⟩ := does_done.mp h₂
    rw [List.append_nil]
    exact ⟨rfl, .inl h₁⟩
  | error e =>
    obtain ⟨hr, rfl⟩ := does_perform.mp h₂
    obtain rfl : r = .ok () := hr
    exact ⟨rfl, .inr ⟨e, t₁, h₁, rfl⟩⟩

/-- what a record has done: the event logged when it is to be, handed once to each consumer of the
snapshot, and a warning for each of these that failed -/
structure Recorded (event : AuditEvent) (level : Nat) (emit : Bool) (t : List (AuditCall Response)) :
    Prop where
  emitted : t.filterMap emission = if emit then [(event, level)] else []
  snapshot : ∃ g : Registry, t.filterMap snapshotOf = [g.consumers] ∧
    t.filterMap handing = g.consumers.map fun consumer => (consumer, event)
  warned : t.filterMap warning = t.filterMap loss
  only : ∀ x ∈ t, isRecording x = true

theorem does_dispatch {event : AuditEvent} : ∀ {l : List Nat} {t : List (AuditCall Response)}
    {r : Except Exc Unit}, Does (AuditReplies Response) (dispatchToConsumers event l) t r →
    r = .ok () ∧ t.filterMap emission = [] ∧ t.filterMap snapshotOf = [] ∧
      t.filterMap handing = (l.map fun consumer => (consumer, event)) ∧
      t.filterMap warning = t.filterMap loss ∧ ∀ x ∈ t, isRecording x = true
  | [], t, r, h => by
    obtain ⟨rfl, rfl⟩ := does_done.mp h
    exact ⟨rfl, rfl, rfl, rfl, rfl, fun x hx => absurd hx List.not_mem_nil⟩
  | consumer :: l, t, r, h => by
    unfold dispatchToConsumers at h
    rcases does_bind.mp h with ⟨t₁, a, t₂, h₁, h₂, rfl⟩ | ⟨e, h₁, rfl⟩
    · obtain ⟨hr, he, hs, hh, hw, ho⟩ := does_dispatch h₂
      simp only [List.filterMap_append, he, hs, hh, hw, List.forall_mem_append]
      refine ⟨hr, ?_⟩
      rcases (does_orWarn h₁).2 with hc | ⟨e, t', hc, rfl⟩
      · obtain ⟨-, rfl⟩ := does_perform.mp hc
        exact ⟨rfl, rfl, rfl, rfl, by simp [isRecording], ho⟩
      · obtain ⟨-, rfl⟩ := does_perform.mp hc
        exact ⟨rfl, rfl, rfl, rfl, by simp [isRecording], ho⟩
    · cases (does_orWarn h₁).1

theorem does_logWhen {event : AuditEvent} {level : Nat} {emit : Bool}
    {t : List (AuditCall Response)} {r : Except Exc Unit}
    (h : Does (AuditReplies Response) (logWhen emit event level) t r) : r = .ok () ∧
      t.filterMap emission = (if emit then [(event, level)] else []) ∧ t.filterMap snapshotOf = [] ∧
      t.filterMap handing = [] ∧ t.filterMap warning = t.filterMap loss ∧
      ∀ x ∈ t, isRecording x = true := by
  unfold logWhen at h
  cases emit with
  | false =>
    obtain ⟨rfl, rfl⟩ := does_done.mp h
    exact ⟨rfl, rfl, rfl, rfl, rfl, fun x hx => absurd hx List.not_mem_nil⟩
  | true =>
    obtain ⟨hr, hc⟩ := does_orWarn h
    refine ⟨hr, ?_⟩
    rcases hc with hc | ⟨e, t', hc, rfl⟩
    · obtain ⟨-, rfl⟩ := does_perform.mp hc
      exact ⟨rfl, rfl, rfl, rfl, by simp [isRecording]⟩
    · obtain ⟨-, rfl⟩ := does_perform.mp hc
      exact ⟨rfl, rfl, rfl, rfl, by simp [isRecording]⟩

/-- **a record never raises**, and does all of its work, whatever fails -/
theorem does_record {event : AuditEvent} {level : Nat} {emit : Bool}
    {t : List (AuditCall Response)} {r : Except Exc Unit}
    (h : Does (AuditReplies Response) (DjangoLoggingRuntime.record event level emit) t r) :
    r = .ok () ∧ Recorded event level emit t := by
  unfold DjangoLoggingRuntime.record at h
  rcases does_bind.mp h with ⟨t₁, a, t₂, h₁, h₂, rfl⟩ | ⟨e, h₁, -⟩
  swap
  · cases (does_logWhen h₁).1
  obtain ⟨-, he₁, hs₁, hh₁, hw₁, ho₁⟩ := does_logWhen h₁
  rcases does_bind.mp h₂ with ⟨t₃, snapshot, t₄, h₃, h₄, rfl⟩ | ⟨e, h₃, -⟩
  swap
  · obtain ⟨⟨g, hg⟩, -⟩ := does_perform.mp h₃
    cases hg
  obtain ⟨⟨g, hg⟩, rfl⟩ := does_perform.mp h₃
  obtain rfl : snapshot = g.consumers := Except.ok.inj hg
  obtain ⟨hr, he, hs, hh, hw, ho⟩ := does_dispatch h₄
  refine ⟨hr, ?_, ⟨g, ?_, ?_⟩, ?_, ?_⟩
  · rw [List.filterMap_append, List.filterMap_append, he₁, he]
    exact List.append_nil _
  · rw [List.filterMap_append, List.filterMap_append, hs₁, hs]
    rfl
  · rw [List.filterMap_append, List.filterMap_append, hh₁, hh]
    rfl
  · rw [List.filterMap_append, List.filterMap_append, List.filterMap_append, List.filterMap_append,
      hw₁, hw]
    rfl
  · rw [List.forall_mem_append, List.forall_mem_append]
    exact ⟨ho₁, fun x hx => by rw [List.mem_singleton.mp hx]; rfl, ho⟩

end

end SecAudit
