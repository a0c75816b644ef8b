import SecAudit.Core.Builtins
import SecAudit.Py.JsonParse

/-!
# Blocks: scopes, entries and their JSON form

* `BlockScope`      the dimension of a block: a type and a value, stripped and not blank;
* `BlockEntry`, `BlockArgs`  a block as read back, and the keywords `block` takes;
* `entryToJson`, `entryFromJson`  the text of an entry in the cache;
* `entryFromJson_entryToJson`  what was written under a scope UTF-8 can carry is read back.
-/

set_option linter.unusedVariables false

namespace SecAudit
open Py

/-! ## scopes -/

/-- a dimension to block on; no blank and no surrounding space in either part -/
structure BlockScope where
  scopeType : Str
  scopeValue : Str
  type_stripped : strip scopeType = scopeType
  value_stripped : strip scopeValue = scopeValue
  type_ne : scopeType ≠ []
  value_ne : scopeValue ≠ []
deriving DecidableEq

/-- `BlockScope(scope_type=t, scope_value=v)` -/
def BlockScope.make (t v : Str) : Except Exc BlockScope :=
  if ht : strip t = [] then .error (.valueError (str "scope_type cannot be empty."))
  else if hv : strip v = [] then .error (.valueError (str "scope_value cannot be empty."))
  else .ok ⟨strip t, strip v, strip_strip t, strip_strip v, ht, hv⟩

/-- the pair the stores compare scopes by -/
def BlockScope.pair (s : BlockScope) : Str × Str := (s.scopeType, s.scopeValue)

theorem BlockScope.pair_injective {s s' : BlockScope} (h : s.pair = s'.pair) : s = s' := by
  obtain ⟨t, v, _, _, _, _⟩ := s
  obtain ⟨t', v', _, _, _, _⟩ := s'
  obtain ⟨rfl, rfl⟩ := Prod.mk.inj h
  rfl

theorem BlockScope.make_self (s : BlockScope) : make s.scopeType s.scopeValue = .ok s := by
  unfold make
  rw [dif_neg (by rw [s.type_stripped]; exact s.type_ne),
    dif_neg (by rw [s.value_stripped]; exact s.value_ne)]
  congr 1
  exact pair_injective (Prod.ext s.type_stripped s.value_stripped)

/-- both parts have a UTF-8 form -/
def BlockScope.encodable (s : BlockScope) : Bool :=
  Py.encodable s.scopeType && Py.encodable s.scopeValue

def BlockScope.sample : BlockScope :=
  ⟨str "user", str "7", by decide, by decide, by decide, by decide⟩

/-- the address the user comes from -/
def BlockScope.sampleIp : BlockScope :=
  ⟨str "ip", str "203.0.113.9", by decide, by decide, by decide, by decide⟩

def BlockScope.sampleClient : BlockScope :=
  ⟨str "ip", str "203.0.113.7", by decide, by decide, by decide, by decide⟩

/-! ## entries -/

def defaultBlockMessage : Str := str "Request blocked by audit enforcement policy"

/-- the keywords of `block`, `ttl` apart -/
structure BlockArgs where
  reason : Str := []
  ruleName : Str := []
  statusCode : Int := 429
  message : Str := defaultBlockMessage
  metadata : List (Str × Json) := []

/-- JSON can carry the numbers among the arguments -/
def BlockArgs.writable (a : BlockArgs) : Bool :=
  (Json.int a.statusCode).writable false && Json.writableItems false a.metadata

/-- times are in milliseconds -/
structure BlockEntry where
  scope : BlockScope
  reason : Str
  ruleName : Str
  statusCode : Int
  message : Str
  createdAt : Option Int
  expiresAt : Option Int
  metadata : List (Str × Json)

def BlockEntry.make (scope : BlockScope) (a : BlockArgs) (createdAt expiresAt : Option Int) :
    BlockEntry :=
  ⟨scope, a.reason, a.ruleName, a.statusCode, a.message, createdAt, expiresAt, a.metadata⟩

/-- the keywords that write `e` again -/
def BlockEntry.args (e : BlockEntry) : BlockArgs :=
  ⟨e.reason, e.ruleName, e.statusCode, e.message, e.metadata⟩

/-! ## the text of an entry -/

section
variable (b : Builtins)

/-- `_iso` -/
def iso (t : Option Int) : Json :=
  match t with
  | some t => .string (b.isoformat t)
  | none => .null

/-- `_parse_iso` -/
def parseIso (v : Option Json) : Option Int :=
  match v with
  | some v => if truthy b v then b.fromisoformat (strOf b v) else none
  | none => none

def entryJson (e : BlockEntry) : Json := .obj [
  (str "scope_type", .string e.scope.scopeType),
  (str "scope_value", .string e.scope.scopeValue),
  (str "reason", .string e.reason),
  (str "rule_name", .string e.ruleName),
  (str "status_code", .int e.statusCode),
  (str "message", .string e.message),
  (str "created_at", iso b e.createdAt),
  (str "expires_at", iso b e.expiresAt),
  (str "metadata", .obj e.metadata)]

/-- `entry_to_json` -/
def entryToJson (e : BlockEntry) : Except Exc Str :=
  match (entryJson b e).dumps .default true with
  | some s => .ok s
  | none => .error .jsonError

/-- `data[k]` -/
def item (data : Json) (k : Str) : Except Exc Json :=
  match data with
  | .obj l => match Json.lookup k l with
    | some v => .ok v
    | none => .error (.keyError k)
  | _ => .error .typeError

/-- the entry a decoded payload describes -/
def entryOfJson (data : Json) : Except Exc BlockEntry := do
  let scopeType ← item data (str "scope_type")
  let scopeValue ← item data (str "scope_value")
  let scope ← BlockScope.make (strOf b scopeType) (strOf b scopeValue)
  let statusCode ← intOf b (orElse b (data.get (str "status_code")) (.int 429))
  return {
    scope := scope
    reason := strOf b (orElse b (data.get (str "reason")) (.string []))
    ruleName := strOf b (orElse b (data.get (str "rule_name")) (.string []))
    statusCode := statusCode
    message := strOf b (orElse b (data.get (str "message")) (.string defaultBlockMessage))
    createdAt := parseIso b (data.get (str "created_at"))
    expiresAt := parseIso b (data.get (str "expires_at"))
    metadata := match data.get (str "metadata") with
      | some (.obj l) => l
      | _ => [] }

/-- `entry_from_json` -/
def entryFromJson (payload : Str) : Except Exc BlockEntry :=
  match loads payload with
  | some data => entryOfJson b data
  | none => .error .jsonError

/-! ## reading back -/

/-- what `json.loads` makes of the text of an entry -/
theorem fuse_entryJson (e : BlockEntry) : (entryJson b e).fuse = .obj [
    (str "scope_type", .string (fuse e.scope.scopeType)),
    (str "scope_value", .string (fuse e.scope.scopeValue)),
    (str "reason", .string (fuse e.reason)),
    (str "rule_name", .string (fuse e.ruleName)),
    (str "status_code", .int e.statusCode),
    (str "message", .string (fuse e.message)),
    (str "created_at", (iso b e.createdAt).fuse),
    (str "expires_at", (iso b e.expiresAt).fuse),
    (str "metadata", .obj (Json.fuseItems e.metadata))] := by
  rfl

/-- the status code is a number, and `0` reads as the default -/
theorem intOf_orElse_int (i : Int) :
    intOf b (orElse b (some (.int i)) (.int 429)) = .ok (if i = 0 then 429 else i) := by
  unfold orElse truthy
  by_cases h : i = 0
  · subst h
    rfl
  · rw [if_neg h]
    have : (i != 0) = true := by simpa using h
    simp only [this, if_true]
    rfl

theorem entryOfJson_fuse {e : BlockEntry} (h : e.scope.encodable = true) :
    ∃ e', entryOfJson b (entryJson b e).fuse = .ok e' ∧ e'.scope = e.scope := by
  unfold BlockScope.encodable at h
  rw [Bool.and_eq_true] at h
  rw [fuse_entryJson, fuse_of_encodable h.1, fuse_of_encodable h.2]
  unfold entryOfJson
  generalize hJ : Json.obj _ = J
  have ht : item J (str "scope_type") = .ok (.string e.scope.scopeType) := by rw [← hJ]; rfl
  have hv : item J (str "scope_value") = .ok (.string e.scope.scopeValue) := by rw [← hJ]; rfl
  have hc : J.get (str "status_code") = some (.int e.statusCode) := by rw [← hJ]; rfl
  rw [ht, hv, hc, intOf_orElse_int]
  show ∃ e', (BlockScope.make e.scope.scopeType e.scope.scopeValue >>= _) = .ok e' ∧ _
  rw [BlockScope.make_self]
  exact ⟨_, rfl, rfl⟩

/-- the payload of an entry whose scope UTF-8 can carry is read back, under the same scope -/
theorem entryFromJson_entryToJson {e : BlockEntry} {p : Str} (hp : entryToJson b e = .ok p)
    (h : e.scope.encodable = true) :
    ∃ e', entryFromJson b p = .ok e' ∧ e'.scope = e.scope := by
  unfold entryToJson Json.dumps at hp
  split at hp
  · rename_i s hs
    obtain rfl := Except.ok.inj hp
    obtain ⟨hw, rfl⟩ := Option.ite_some_none_eq_some.mp hs
    unfold entryFromJson
    rw [loads_render valid_default hw]
    exact entryOfJson_fuse b h
  · cases hp

theorem entryToJson_ne_nil {e : BlockEntry} {p : Str} (hp : entryToJson b e = .ok p) : p ≠ [] := by
  unfold entryToJson Json.dumps at hp
  split at hp
  · rename_i s hs
    obtain rfl := Except.ok.inj hp
    obtain ⟨-, rfl⟩ := Option.ite_some_none_eq_some.mp hs
    exact (valueStart_render _ _).ne_nil
  · cases hp

theorem printable_entryToJson {e : BlockEntry} {p : Str} (hp : entryToJson b e = .ok p) :
    Printable p := by
  unfold entryToJson Json.dumps at hp
  split at hp
  · rename_i s hs
    obtain rfl := Except.ok.inj hp
    obtain ⟨-, rfl⟩ := Option.ite_some_none_eq_some.mp hs
    exact Json.printable_render ascii_default _
  · cases hp

theorem writable_iso (t : Option Int) : (iso b t).writable false = true := by
  cases t <;> rfl

theorem writable_entryJson (e : BlockEntry) :
    (entryJson b e).writable false = e.args.writable := by
  unfold entryJson BlockArgs.writable BlockEntry.args
  simp only [Json.writable, Json.writableItems, writable_iso, Bool.true_and, Bool.and_true]

/-- arguments that JSON can carry have a text, whatever the times -/
theorem entryToJson_of_writable {a : BlockArgs} (h : a.writable = true) (s : BlockScope)
    (createdAt expiresAt : Option Int) :
    ∃ p, entryToJson b (.make s a createdAt expiresAt) = .ok p := by
  have hw : (entryJson b (.make s a createdAt expiresAt)).writable false = true := by
    rw [writable_entryJson]
    exact h
  refine ⟨(entryJson b (.make s a createdAt expiresAt)).render .default, ?_⟩
  unfold entryToJson Json.dumps
  rw [show (!true) = false from rfl, if_pos hw]

end

end SecAudit
