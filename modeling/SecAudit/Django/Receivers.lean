import SecAudit.Django.Middleware

/-!
# The receivers of Django's signals

* `requestBase`     the base of an event, from the active context or from the request;
* `Signal`          a login, a failed login, a logout, an entry of the model log;
* `receive`         what the receiver of a signal does: it records an event, or warns;
* `does_receive`    whatever fails, it raises nothing, and no event is lost without a warning;
* `signals_received`  so does each receiver of an interleaved run.
-/

set_option linter.unusedVariables false

namespace SecAudit
open Py Prog

/-- the actor of an entry; `pkTruthy` is `bool(pk)` -/
structure LogActor where
  user : User
  pkTruthy : Bool

/-- an entry of the model log -/
structure LogEntry where
  action : Int
  /-- `model` and `app_label` of the content type, when there is one -/
  contentType : Option (Str × Str)
  /-- `str(object_pk)` -/
  objectPk : Except Exc Str
  actor : Option LogActor
  /-- empty when there is none -/
  remoteAddr : Str
  /-- the keys of `changes`, when that is a dict -/
  changes : Option (List Key)

inductive Signal where
  | login (request : Option Request) (user : Option User)
  /-- `str` of each of the credentials -/
  | loginFailed (request : Option Request) (credentials : List (Str × Except Exc Str))
  | logout (request : Option Request) (user : Option User)
  /-- `none` when the model log has failed -/
  | model (entry : Option LogEntry)

/-- the body and the type of an event, its level, and the warning in its place -/
structure SignalText where
  body : Str
  eventType : Str
  level : Nat
  reasonCode : Str
  message : Str

section
variable (py : Objects) (repr : Str → Str) (frames : Nat) {lib : IpLibrary}
  (mw : AuditMiddleware lib) {Response : Type}

/-! ## the base of an event -/

/-- the base that the active context gives -/
def contextItems (c : AuditContext) : List (Str × Value) :=
  [(str "request_id", .str c.requestId), (str "session_id", .str c.sessionId),
    (str "url", .str c.url), (str "path", .str c.path), (str "srcip", .str c.srcip),
    (str "method", .str c.method)]

/-- the base without a context -/
def freshBase (request : Request) (b : Before) (url : Str) : Except Exc (List (Str × Value)) := do
  let session ← getAuditSessionId b.freshSession request mw.django.emitSessionId
  let base ← buildRequestInfo frames none b.freshId request.method (requestPath request) url
    request.META mw.core mw.django.trustedProxyConfig none session.1
  let info ← b.info
  return updateItems base info.items

/-- `_request_base`, with the context that was active -/
def requestBase (request : Request) :
    AuditRoutine Response (Option AuditContext × List (Str × Value)) := do
  let b ← perform .before
  match b.active with
  | some c => do
    let info ← ofExcept b.info
    return (b.active, updateItems (contextItems c) info.items)
  | none => do
    let url ← ofExcept (requestUrl b.absoluteUri (requestPath request))
    storeNewSession mw request b
    let base ← ofExcept (freshBase frames mw request b url)
    return (b.active, base)

/-- `_request_base(request) if request else {}` -/
def requestBaseOrNone : Option Request →
    AuditRoutine Response (Option AuditContext × List (Str × Value))
  | some request => requestBase frames mw request
  | none => do
    let b ← perform .before
    return (b.active, [])

/-! ## the data of an event -/

/-- `str(credentials[k])` of the first of the two that is there -/
def credentialName (credentials : List (Str × Except Exc Str)) : Except Exc Str :=
  ((getItem (str "username") credentials).or (getItem (str "email") credentials)).getD (.ok [])

/-- the data of a failed login -/
def withCredentials (base : List (Str × Value)) (credentials : List (Str × Except Exc Str)) :
    Except Exc (List (Str × Value)) :=
  if mw.django.includeUsernames then do
    let username ← credentialName credentials
    return if username = [] then base else setItem (str "username") (.str username) base
  else .ok base

/-- `action_map` -/
def crudAction (action : Int) : Str :=
  if action = 0 then str "create" else if action = 1 then str "update"
  else if action = 2 then str "delete" else if action = 3 then str "access" else str "unknown"

/-- `EVENT_TYPE_MAP`, else `model.unknown` -/
def modelEventType (action : Int) : Str :=
  if action = 0 then str "model.create" else if action = 1 then str "model.update"
  else if action = 2 then str "model.delete" else if action = 3 then str "model.access"
  else str "model.unknown"

/-- the identity of an actor with this name -/
def actorItems (actorId : Option Str) (username : Str) : List (Str × Value) :=
  let items := (actorId.map fun i => (Key.str (str "id"), Value.str i)).toList ++
    if username = [] then [] else [(.str (str "name"), .str username)]
  (actorId.map fun i => (str "user_id", Value.str i)).toList ++
    if items.isEmpty then [] else [(str "actor", .mapping items)]

/-- the identity of the actor of an entry -/
def entryIdentity (entry : LogEntry) : Except Exc (List (Str × Value)) :=
  match entry.actor with
  | some actor =>
    if actor.user.truthy then
      (if mw.django.includeUsernames then actor.user.getUsername.getD (.ok []) else .ok []).map
        (actorItems (if actor.pkTruthy then actor.user.pk else actor.user.id))
    else .ok []
  | none => .ok []

/-- the changed fields of an entry -/
def changedItems (entry : LogEntry) : Except Exc (List (Str × Value)) :=
  match entry.changes with
  | some keys => (keys.mapM Key.text).map fun fields =>
    [(str "changed_fields", .seq (fields.map .str))]
  | none => .ok []

/-- the first items of the data of an entry -/
def entryItems (context : Option AuditContext) (entry : LogEntry) (objectId : Str) :
    List (Str × Value) :=
  let model := (entry.contentType.map Prod.fst).getD []
  let appLabel := (entry.contentType.map Prod.snd).getD []
  [(str "model", .str model), (str "app_label", .str appLabel), (str "object_id", .str objectId),
    (str "crud_action", .str (crudAction entry.action)),
    (str "request_id", .str ((context.map AuditContext.requestId).getD [])),
    (str "session_id", .str ((context.map AuditContext.sessionId).getD []))] ++
  if appLabel = [] ∨ model = [] then []
  else [(str "model_label", .str (appLabel ++ str "." ++ model))]

/-- the data of an entry of the model log -/
def entryData (context : Option AuditContext) (entry : LogEntry) :
    Except Exc (List (Str × Value)) := do
  let objectId ← entry.objectPk
  let identity ← entryIdentity mw entry
  let changed ← changedItems entry
  return entryItems context entry objectId ++ identity ++
    (if entry.remoteAddr = [] then [] else [(str "srcip", .str entry.remoteAddr)]) ++ changed

/-! ## the receivers -/

/-- the texts of a signal -/
def signalText : Signal → SignalText
  | .login _ _ => ⟨str "auth.login.success", str "auth.login.success", 20, str "audit.auth_login",
      str "Audit login logging failed; login proceeds"⟩
  | .loginFailed _ _ => ⟨str "auth.login.failed", str "auth.login.failed", 30,
      str "audit.auth_login_failed",
      str "Audit login-failed logging failed; login failure proceeds"⟩
  | .logout _ user => ⟨str "auth.logout",
      if user.any User.truthy then str "auth.logout.success" else str "auth.logout.unknown", 20,
      str "audit.auth_logout", str "Audit logout logging failed; logout proceeds"⟩
  | .model entry => ⟨str "model.event",
      modelEventType ((entry.map LogEntry.action).getD 0), 20, str "audit.model_forward_failed",
      str "Audit model-event forwarding failed; model operation proceeds"⟩

/-- nothing is to be recorded of the signal -/
def Signal.skipped : Signal → Bool
  | .login request user => request.isNone || !user.any User.truthy
  | .loginFailed _ _ => false
  | .logout request _ => request.isNone
  | .model entry => entry.isNone

/-- the identity of the user of a signal -/
def withUser (base : List (Str × Value)) : Option User → Except Exc (List (Str × Value))
  | some user => addUserIdentity mw.django.includeUsernames base user
  | none => .ok base

/-- the request of a signal, unless it has none -/
def Signal.request : Signal → Option Request
  | .login request _ => request
  | .loginFailed request _ => request
  | .logout request _ => request
  | .model _ => none

/-- the data of the event of a signal, from the active context and the base of its request -/
def signalData (signal : Signal) (context : Option AuditContext) (base : List (Str × Value)) :
    Except Exc (List (Str × Value)) :=
  match signal with
  | .login _ user => withUser mw base user
  | .loginFailed _ credentials => withCredentials mw base credentials
  | .logout _ user => withUser mw base user
  | .model entry => (entry.map (entryData mw context)).getD (.ok [])

/-- the event of a signal at the time `now` -/
def signalEvent (now : Nat) (signal : Signal) : AuditRoutine Response AuditEvent := do
  let x ← requestBaseOrNone frames mw signal.request
  let data ← ofExcept (signalData mw signal x.1 x.2)
  ofExcept (buildAuditEvent py x.1 repr frames now (signalText signal).body
    (signalText signal).eventType data mw.schemaVersion mw.django.includeUsernames [])

/-- `login_logger`, `login_failed_logger`, `logout_logger` and `forward_auditlog` -/
def receive (now : Nat) (signal : Signal) : AuditRoutine Response Unit :=
  if signal.skipped then pure ()
  else orWarn (do
    let event ← signalEvent py repr frames mw now signal
    DjangoLoggingRuntime.record event (signalText signal).level true)
    (signalText signal).reasonCode (signalText signal).message

/-! ## what a receiver does -/

/-- the reads of a receiver, before it records -/
def IsRead (β : Type) : AuditEff Response β → Prop
  | .before => True
  | .storeSession _ => True
  | _ => False

variable {py repr frames mw}

theorem only_storeNewSession {request : Request} {b : Before} :
    Only IsRead (storeNewSession mw request b : AuditRoutine Response Unit) := by
  unfold storeNewSession
  split
  · exact only_perform trivial
  · exact only_done _

theorem only_requestBase {request : Request} :
    Only IsRead (requestBase frames mw request : AuditRoutine Response _) := by
  unfold requestBase
  refine (only_perform trivial).bind fun b => ?_
  cases b.active with
  | some c => exact Only.ofExcept fun info _ => only_done _
  | none =>
    exact Only.ofExcept fun url _ => only_storeNewSession.bind fun _ =>
      Only.ofExcept fun base _ => only_done _

theorem only_requestBaseOrNone : ∀ {request : Option Request},
    Only IsRead (requestBaseOrNone frames mw request : AuditRoutine Response _)
  | some request => only_requestBase
  | none => (only_perform trivial).bind fun b => only_done _

theorem only_signalEvent {now : Nat} {signal : Signal} :
    Only IsRead (signalEvent py repr frames mw now signal : AuditRoutine Response _) := by
  refine only_requestBaseOrNone.bind fun x => Only.ofExcept fun data _ => ?_
  cases buildAuditEvent py x.1 repr frames now (signalText signal).body
    (signalText signal).eventType data mw.schemaVersion mw.django.includeUsernames [] <;>
  exact only_done _

variable (py repr frames mw) in
/-- what the receiver of a signal has done -/
inductive Received (now : Nat) (signal : Signal) (t : List (AuditCall Response)) : Prop
  | skipped : signal.skipped = true → t = [] → Received now signal t
  | failed (e : Exc) (t₁ : List (AuditCall Response)) :
    Does (AuditReplies Response) (signalEvent py repr frames mw now signal) t₁ (.error e) →
    t = t₁ ++ [⟨.diagnosticWarning (signalText signal).reasonCode (signalText signal).message,
      .ok ()⟩] → Received now signal t
  | recorded (event : AuditEvent) (t₁ t₂ : List (AuditCall Response)) :
    Does (AuditReplies Response) (signalEvent py repr frames mw now signal) t₁ (.ok event) →
    Recorded event (signalText signal).level true t₂ → t = t₁ ++ t₂ → Received now signal t

/-- **a receiver never raises**: it records the event of its signal, or warns that it cannot -/
theorem does_receive {now : Nat} {signal : Signal} {t : List (AuditCall Response)}
    {r : Except Exc Unit}
    (h : Does (AuditReplies Response) (receive py repr frames mw now signal) t r) :
    r = .ok () ∧ Received py repr frames mw now signal t := by
  unfold receive at h
  split at h
  · obtain ⟨rfl, rfl⟩ := does_done.mp h
    exact ⟨rfl, .skipped ‹_› rfl⟩
  obtain ⟨hr, hc⟩ := does_orWarn h
  refine ⟨hr, ?_⟩
  rcases hc with hc | ⟨e, t', hc, rfl⟩
  · rcases does_bind.mp hc with ⟨t₁, event, t₂, h₁, h₂, rfl⟩ | ⟨e, -, hr⟩
    · exact .recorded event t₁ t₂ h₁ (does_record h₂).2 rfl
    · cases hr
  · rcases does_bind.mp hc with ⟨t₁, event, t₂, -, h₂, -⟩ | ⟨e', h₁, hr⟩
    · cases (does_record h₂).1
    · cases hr
      exact .failed e t' h₁ rfl

end

/-- **the receivers of any interleaved run** -/
theorem signals_received (py : Objects) (repr : Str → Str) (frames : Nat) {lib : IpLibrary}
    (mw : AuditMiddleware lib) {Response σ X : Type} (h : Handler (AuditEff Response) Exc σ)
    (env : X → AuditProcess σ → AuditProcess σ) {s : AuditProcess σ} {as : List (Act (Nat × Signal) X)}
    {p : Pool (AuditEff Response) Exc Unit (Nat × Signal) (AuditProcess σ)}
    (hp : run (auditProcess h) (fun o => receive py repr frames mw o.1 o.2) env (Pool.idle s) as =
      some p)
    {w : Nat} {j : Job (AuditEff Response) Exc Unit (Nat × Signal)} (hj : p.jobs w = some j)
    {r : Except Exc Unit} (hr : j.rest = .done r) :
    r = .ok () ∧ Received py repr frames mw j.op.1 j.op.2 j.log.reverse := by
  have h := run_steps (auditProcess_replies h) hp w j hj
  rw [hr] at h
  exact does_receive h

/-! ## a failed login, while a consumer fails -/

def runFailedLogin : Option (Pool (AuditEff Unit) Exc Unit (Nat × Signal) (AuditProcess Unit)) :=
  run (auditProcess firstRaises) (fun o => receive .silent id 10 .plain o.1 o.2)
    (fun (_ : Unit) s => s) (Pool.idle twoConsumers)
    (.call 0 (0, .loginFailed (some unfound) []) :: List.replicate 6 (.step 0))

/-- the receiver has returned, and both consumers were asked -/
def bothTold (j : Job (AuditEff Unit) Exc Unit (Nat × Signal)) : Bool :=
  (match j.rest with
    | .done (.ok _) => true
    | _ => false) && (tally j.log.reverse).handings.length == 2

theorem signals_received_failed : ∃ p j, runFailedLogin = some p ∧ p.jobs 0 = some j ∧
    (tally j.log.reverse).handings.length = 2 ∧
    (Except.ok () : Except Exc Unit) = .ok () ∧
    Received .silent id 10 .plain j.op.1 j.op.2 j.log.reverse := by
  have h : (runFailedLogin.any fun p => (p.jobs 0).any bothTold) = true := by decide +kernel
  obtain ⟨p, hp, h⟩ := (Option.any_eq_true _ _).mp h
  obtain ⟨j, hj, h⟩ := (Option.any_eq_true _ _).mp h
  obtain ⟨hr, hl⟩ := Bool.and_eq_true_iff.mp h
  have hr : j.rest = .done (.ok ()) := by
    split at hr
    · assumption
    · cases hr
  exact ⟨p, j, hp, hj, beq_iff_eq.mp hl, signals_received .silent id 10 .plain firstRaises
    (fun (_ : Unit) s => s) hp hj hr⟩

end SecAudit
