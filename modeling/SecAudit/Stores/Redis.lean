import SecAudit.Stores.Backend

/-!
# `RedisBlockStore` and `PostgresBlockStore`

The methods, as programs over the backend commands.

* `RedisBlockStore.block`, `getActive`, `firstActive`, `unblock`, `scanBlocks`, and the warm
  sentinel: `readWarm`, `markWarm`, `clearWarm`;
* `Postgres.block`, `unblock`, `getActive`, `firstActive`, `activeBlocks`.

A backend failure leaves as a `BlockStoreError`; every other exception leaves as it is.
-/

set_option linter.unusedVariables false

namespace SecAudit
open Py Prog

abbrev Call := Prog Cmd Exc

/-- `except <picked> as exc: raise BlockStoreError(text) from exc` -/
def Call.wrap {α : Type} (picked : Exc → Bool) (text : Str) (p : Call α) : Call α :=
  p.catchWith fun e => if picked e then .throw (.blockStoreError text) else .throw e

def isRedisError (e : Exc) : Bool := decide (e = .redisError)

/-- the last moment a `datetime` can hold -/
def datetimeMax : Int := 253402300799999

def datetimeMin : Int := -62135596800000

/-- `t + timedelta(seconds=n)` -/
def addSeconds (t n : Int) : Except Exc Int :=
  if datetimeMin ≤ t + seconds n ∧ t + seconds n ≤ datetimeMax then .ok (t + seconds n)
  else .error .overflowError

/-- a value that is there and not empty -/
def nonEmpty (v : Option Str) : Option Str := v.filter fun s => !s.isEmpty

/-! ## Redis -/

structure RedisBlockStore where
  keyPrefix : Str
  permanentCacheTtl : Int

namespace RedisBlockStore

section
variable (b : Builtins) (st : RedisBlockStore)

def key (scope : BlockScope) : Str :=
  st.keyPrefix ++ (str ":block:" ++ (scope.scopeType ++ (str ":" ++ scope.scopeValue)))

def warmKey : Str := st.keyPrefix ++ str ":blocks:warm"

def block (scope : BlockScope) (a : BlockArgs) (ttl : Option Int) : Call BlockEntry := do
  let effectiveTtl := ttl.getD st.permanentCacheTtl
  let now ← perform .now
  let expiresAt ← ofExcept (addSeconds now effectiveTtl)
  let entry := BlockEntry.make scope a (some now) (some expiresAt)
  let payload ← ofExcept (entryToJson b entry)
  Call.wrap isRedisError (str "Redis block write failed.")
    (perform (.set (st.key scope) payload effectiveTtl))
  return entry

/-- the entry of a payload that is there -/
def decode (payload : Option Str) : Call (Option BlockEntry) :=
  match nonEmpty payload with
  | some p => do
    let entry ← ofExcept (entryFromJson b p)
    return some entry
  | none => pure none

def getActive (scope : BlockScope) : Call (Option BlockEntry) := do
  let payload ← Call.wrap isRedisError (str "Redis block read failed.")
    (perform (.get (st.key scope)))
  decode b payload

def firstActive (scopes : List BlockScope) : Call (Option BlockEntry) :=
  if scopes = [] then pure none
  else do
    let values ← Call.wrap isRedisError (str "Redis block lookup failed.")
      (perform (.mget (scopes.map st.key)))
    decode b (values.findSome? nonEmpty)

def unblock (scope : BlockScope) : Call Int :=
  Call.wrap isRedisError (str "Redis block delete failed.") (perform (.delete (st.key scope)))

/-- the loop of `scan_blocks`: one `GET` a key, malformed payloads skipped -/
def readBlocks : List Str → Call (List BlockEntry)
  | [] => pure []
  | k :: ks => do
    let payload ← perform (.get k)
    match nonEmpty payload with
    | none => readBlocks ks
    | some p =>
      match entryFromJson b p with
      | .ok entry => do
        let rest ← readBlocks ks
        return entry :: rest
      | .error e => if e.isMalformed then readBlocks ks else .throw e

def scanBlocks : Call (List BlockEntry) :=
  Call.wrap isRedisError (str "Redis block scan failed.") do
    let keys ← perform (.scan (st.keyPrefix ++ str ":block:"))
    readBlocks b keys

def readWarm : Call (Option (List (Str × Json))) := do
  let raw ← Call.wrap isRedisError (str "Redis warm read failed.") (perform (.get st.warmKey))
  match raw with
  | none => return none
  | some text =>
    match loads text with
    | none => Prog.throw (.blockStoreError (str "Malformed warm sentinel (not JSON)."))
    | some (.obj data) => return some data
    | some _ => Prog.throw (.blockStoreError (str "Malformed warm sentinel (not an object)."))

/-- `json.dumps(data)` -/
def dumpsWarm (data : List (Str × Json)) : Except Exc Str :=
  match (Json.obj data).dumps .default true with
  | some s => .ok s
  | none => .error .jsonError

def markWarm (ttl : Int) (data : List (Str × Json)) : Call Unit := do
  let payload ← ofExcept (dumpsWarm data)
  Call.wrap isRedisError (str "Redis warm mark failed.") (perform (.set st.warmKey payload ttl))

def clearWarm : Call Unit := do
  let _ ← Call.wrap isRedisError (str "Redis warm clear failed.") (perform (.delete st.warmKey))
  return ()

end

end RedisBlockStore

/-! ## keys -/

section
variable (st : RedisBlockStore)

theorem key_ne_warmKey (s : BlockScope) : st.key s ≠ st.warmKey := by
  unfold RedisBlockStore.key RedisBlockStore.warmKey
  intro h
  have h' := List.append_cancel_left h
  -- `:block:` against `:blocks`
  have : (str ":block:" ++ (s.scopeType ++ (str ":" ++ s.scopeValue)))[6]? =
      (str ":blocks:warm")[6]? := by rw [h']
  exact absurd (Option.some.inj this) (by decide)

theorem encodable_key {s : BlockScope} :
    encodable (st.key s) = true ↔ encodable st.keyPrefix = true ∧ s.encodable = true := by
  unfold RedisBlockStore.key BlockScope.encodable
  simp only [encodable_append, Bool.and_eq_true]
  have h1 : encodable (str ":block:") = true := by decide
  have h2 : encodable (str ":") = true := by decide
  simp only [h1, h2, true_and]

theorem encodable_warmKey : encodable st.warmKey = true ↔ encodable st.keyPrefix = true := by
  unfold RedisBlockStore.warmKey
  rw [encodable_append]
  have h : encodable (str ":blocks:warm") = true := by decide
  simp only [h, and_true]

/-- no `:` in the scope type -/
def NoColon (s : BlockScope) : Prop := cp ':' ∉ s.scopeType

instance (s : BlockScope) : Decidable (NoColon s) :=
  inferInstanceAs (Decidable (cp ':' ∉ s.scopeType))

/-- up to the first `:` the two texts agree -/
theorem append_colon_injective {t t' v v' : Str} (ht : cp ':' ∉ t) (ht' : cp ':' ∉ t')
    (h : t ++ (str ":" ++ v) = t' ++ (str ":" ++ v')) : t = t' ∧ v = v' := by
  induction t generalizing t' with
  | nil =>
    cases t' with
    | nil => exact ⟨rfl, List.append_cancel_left h⟩
    | cons c t' =>
      obtain ⟨rfl, -⟩ := List.cons.inj h
      exact absurd List.mem_cons_self ht'
  | cons c t ih =>
    cases t' with
    | nil =>
      obtain ⟨rfl, -⟩ := List.cons.inj h
      exact absurd List.mem_cons_self ht
    | cons c' t' =>
      obtain ⟨rfl, h'⟩ := List.cons.inj h
      obtain ⟨rfl, rfl⟩ := ih (fun hm => ht (List.mem_cons_of_mem _ hm))
        (fun hm => ht' (List.mem_cons_of_mem _ hm)) h'
      exact ⟨rfl, rfl⟩

theorem key_injective {s s' : BlockScope} (hs : NoColon s) (hs' : NoColon s')
    (h : st.key s = st.key s') : s = s' := by
  unfold RedisBlockStore.key at h
  have h' := List.append_cancel_left (List.append_cancel_left h)
  obtain ⟨ht, hv⟩ := append_colon_injective hs hs' h'
  exact BlockScope.pair_injective (Prod.ext ht hv)

end

/-! ## Postgres -/

/-- `_row_to_entry` -/
def Row.entry (r : Row) : BlockEntry := .make r.scope r.args (some r.createdAt) r.expiresAt

namespace Postgres

def wrap {α : Type} (text : Str) (p : Call α) : Call α := Call.wrap Exc.isDatabaseError text p

def expiry (ttl : Option Int) : Call (Option Int) :=
  match ttl with
  | some n => do
    let now ← perform .now
    let expiresAt ← ofExcept (addSeconds now n)
    return some expiresAt
  | none => pure none

def block (scope : BlockScope) (a : BlockArgs) (ttl : Option Int) : Call BlockEntry := do
  let expiresAt ← expiry ttl
  let now ← perform .now
  let row ← wrap (str "Postgres block write failed.") (Call.wrap (· == .integrityError)
    (str "Postgres block write failed (concurrent block).")
    (perform (.updateOrCreate scope a expiresAt now)))
  return row.entry

def unblock (scope : BlockScope) (reason revokedBy : Str) : Call Int := do
  let now ← perform .now
  wrap (str "Postgres block revoke failed.") (perform (.revoke scope reason revokedBy now))

def getActive (scope : BlockScope) : Call (Option BlockEntry) := do
  let now ← perform .now
  let row ← wrap (str "Postgres block read failed.") (perform (.activeRow scope now))
  return row.map Row.entry

/-- `by_key.get(…)`: the last row of a scope -/
def byKey (rows : List Row) (scope : BlockScope) : Option Row :=
  rows.reverse.find? fun r => decide (r.scope = scope)

def firstActive (scopes : List BlockScope) : Call (Option BlockEntry) :=
  if scopes = [] then pure none
  else do
    let now ← perform .now
    let rows ← wrap (str "Postgres block lookup failed.") (perform (.activeRows scopes now))
    return (scopes.findSome? (byKey rows)).map Row.entry

def activeBlocks : Call (List BlockEntry) := do
  let now ← perform .now
  let rows ← wrap (str "Postgres active-block scan failed.") (perform (.allActive now))
  return rows.map Row.entry

end Postgres

end SecAudit
