import SecAudit.Core.Exc
import SecAudit.Django.Ip
import SecAudit.Rules.Events

/-!
# Requests

* `User`, `Request` a request as the middlewares read it;
* `readAuditSessionId`, `getAuditSessionId`  the audit-session id, and the same with one minted where
                    there is none;
* `ingressSummary`  what the enforcement knows of a request before the view.
-/

set_option linter.unusedVariables false

namespace SecAudit
open Py

structure User where
  /-- whether `is_authenticated` is true -/
  isAuthenticated : Bool
  /-- `str(pk)`, unless `pk` is `None` -/
  pk : Option Str
  /-- `str(id)`, unless `id` is `None` -/
  id : Option Str
  /-- `bool(user)` -/
  truthy : Bool := true
  /-- what `get_username()` does, when it is callable -/
  getUsername : Option (Except Exc Str) := none

/-- `user` and `session` are `None` where the request has none; a read of them may raise -/
structure Request where
  META : List (Str × Str)
  path : Str
  /-- `path_info`, when it is true -/
  pathInfo : Option Str := none
  method : Str
  user : Except Exc (Option User)
  /-- the session, with the audit-session id it stores -/
  session : Except Exc (Option (Option Str))

/-- the part of the Django settings that is read for a request -/
structure DjangoAuditConfig (lib : IpLibrary) where
  trustedProxyConfig : TrustedProxyConfig lib
  emitSessionId : Bool := false
  includeUsernames : Bool := false

/-! ## sessions -/

/-- `read_audit_session_id` -/
def readAuditSessionId (request : Request) : Except Exc Str := do
  let session ← request.session
  match session with
  | none => return []
  | some value => return value.getD []

/-- `get_audit_session_id`: the id, and the one to store when it is new -/
def getAuditSessionId (fresh : Str) (request : Request) (enabled : Bool) :
    Except Exc (Str × Option Str) :=
  if enabled then do
    let session ← request.session
    match session with
    | none => return ([], none)
    | some value =>
      match value.filter fun v => decide (v ≠ []) with
      | some value => return (value, none)
      | none => return (fresh, some fresh)
  else .ok ([], none)

/-! ## before the view -/

/-- `_user_id` -/
def ingressUserId (request : Request) : Except Exc Str := do
  let user ← request.user
  match user with
  | none => return []
  | some user => return if user.isAuthenticated then user.pk.getD [] else []

/-- an item, unless its text is empty -/
def textItem (k v : Str) : List (Str × Json) := if v = [] then [] else [(k, .string v)]

def ingressSummary {lib : IpLibrary} (config : TrustedProxyConfig lib) (emitSessionId : Bool)
    (request : Request) : Except Exc (List (Str × Json)) := do
  let client := resolveClientIp config request.META
  let sessionId ← if emitSessionId then readAuditSessionId request else .ok []
  let userId ← ingressUserId request
  return [(str "path", .string request.path), (str "method", .string request.method)]
    ++ textItem (str "srcip") client.ip ++ textItem (str "session_id") sessionId
    ++ textItem (str "user_id") userId

end SecAudit
