import SecAudit.Stores.Redis

/-!
# `TieredBlockStore`

Temporary blocks live in Redis only; permanent ones in Postgres, with a cache entry in Redis.  A
miss is answered from the warm sentinel: the set of all permanently banned scopes
(`warmPayload`), or above `warmEmbedCap` only their number and types.

* `TieredBlockStore.block`, `unblock`, `getActive`, `firstActive`;
* `answerWarmMiss`   cold: `rewarm` and look again; members: ask Postgres for a member only;
                     truncated: ask Postgres when a type matches;
* `activeBlocks`, `activeTempBlocks`  the listings of the operator tooling.
-/

set_option linter.unusedVariables false

namespace SecAudit
open Py Prog

/-! ## the sentinel -/

/-- `_WARM_EMBED_CAP` -/
def warmEmbedCap : Nat := 1000

/-- `sorted(set(texts))` -/
def sortedSet (texts : List Str) : List Str := texts.dedup.mergeSort fun a b => decide (a ≤ b)

/-- `_warm_payload`, of the scopes of all active blocks -/
def warmPayload (members : List (Str × Str)) (types : List Str) : List (Str × Json) :=
  if members.length ≤ warmEmbedCap then
    [(str "v", .int 2),
      (str "members", .arr (members.map fun m => .arr [.string m.1, .string m.2]))]
  else
    [(str "v", .int 2), (str "truncated", .bool true), (str "count", .int members.length),
      (str "types", .arr ((sortedSet types).map .string))]

/-- `iter(v)` -/
def iterJson : Json → Except Exc (List Json)
  | .arr l => .ok l
  | .string s => .ok (s.map fun c => .string [c])
  | .obj l => .ok ((l.map Prod.fst).eraseDups.map .string)
  | _ => .error .typeError

/-- `scope_type, value = v` -/
def unpackPair (v : Json) : Except Exc (Json × Json) := do
  let l ← iterJson v
  match l with
  | [x, y] => return (x, y)
  | _ => .error .conversionError

section
variable (b : Builtins)

/-- `(str(scope_type), str(value))` -/
def memberPair (v : Json) : Except Exc (Str × Str) := do
  let p ← unpackPair v
  return (strOf b p.1, strOf b p.2)

/-- `_member_set` -/
def memberSet (members : Json) : Except Exc (List (Str × Str)) := do
  let l ← iterJson members
  l.mapM (memberPair b)

/-- `hash(v)` does not raise -/
def hashable : Json → Bool
  | .arr _ => false
  | .obj _ => false
  | _ => true

/-- `set(v or ())` -/
def toSet (v : Option Json) : Except Exc (List Json) :=
  match v with
  | none => .ok []
  | some v =>
    if truthy b v then do
      let l ← iterJson v
      if l.all hashable then return l else .error .typeError
    else .ok []

/-- `text in allowed` -/
def inSet (text : Str) (allowed : List Json) : Bool :=
  allowed.any fun v => match v with
    | .string s => decide (s = text)
    | _ => false

end

/-! ## the store -/

structure TieredBlockStore where
  redis : RedisBlockStore
  /-- whether a Postgres store was given -/
  pg : Bool
  permanentCacheTtl : Int

namespace TieredBlockStore

section
variable (b : Builtins) (st : TieredBlockStore)

/-- `except BlockStoreError: pass` -/
def bestEffort (p : Call Unit) : Call Unit :=
  p.catchWith fun e => if e.isBlockStoreError then pure () else .throw e

def cacheEntry (entry : BlockEntry) : Call Unit := do
  let _ ← st.redis.block b entry.scope entry.args (some st.permanentCacheTtl)
  return ()

def cachePermanent (entry : BlockEntry) : Call Unit := bestEffort (st.cacheEntry b entry)

def invalidateWarm : Call Unit := bestEffort st.redis.clearWarm

/-- the loop of `_rewarm` -/
def cacheEach : List BlockEntry → Call Unit
  | [] => pure ()
  | entry :: rest => do
    st.cacheEntry b entry
    cacheEach rest

def rewarm : Call Unit := do
  let entries ← Postgres.activeBlocks
  st.cacheEach b entries
  st.redis.markWarm st.permanentCacheTtl
    (warmPayload (entries.map (·.scope.pair)) (entries.map (·.scope.scopeType)))

/-- the loop over the scopes, given the embedded members -/
def verifyMembers (members : List (Str × Str)) : List BlockScope → Call (Option BlockEntry)
  | [] => pure none
  | scope :: rest =>
    if scope.pair ∈ members then do
      let entry ← Postgres.getActive scope
      match entry with
      | some entry => do
        st.cachePermanent b entry
        return some entry
      | none => verifyMembers members rest
    else verifyMembers members rest

/-- the truncated branch -/
def verifyTypes (types : Option Json) (scopes : List BlockScope) : Call (Option BlockEntry) := do
  let allowed ← ofExcept (toSet b types)
  let candidates := scopes.filter fun s => inSet s.scopeType allowed
  if candidates = [] then return none
  else do
    let hit ← Postgres.firstActive candidates
    match hit with
    | some entry => do
      st.cachePermanent b entry
      return some entry
    | none => return none

/-- `repr(sorted(warm))` -/
def sortedKeys (warm : List (Str × Json)) : Str :=
  b.repr (.arr ((sortedSet (warm.map Prod.fst)).map .string))

def answerWarmMiss (scopes : List BlockScope) : Call (Option BlockEntry) := do
  let warm ← st.redis.readWarm
  match warm with
  | none => do
    st.rewarm b
    st.redis.firstActive b scopes
  | some warm =>
    match Json.lookup (str "members") warm with
    | some members => do
      let members ← ofExcept (memberSet b members)
      st.verifyMembers b members scopes
    | none =>
      if truthy b ((Json.lookup (str "truncated") warm).getD .null) then
        st.verifyTypes b (Json.lookup (str "types") warm) scopes
      else
        Prog.throw (.blockStoreError (str "Malformed warm sentinel keys: " ++ sortedKeys b warm))

def block (scope : BlockScope) (a : BlockArgs) (ttl : Option Int) : Call BlockEntry :=
  match ttl with
  | some n => st.redis.block b scope a (some n)
  | none =>
    if st.pg then do
      let entry ← Postgres.block scope a none
      st.cachePermanent b entry
      st.invalidateWarm
      return entry
    else st.redis.block b scope a (some st.permanentCacheTtl)

def getActive (scope : BlockScope) : Call (Option BlockEntry) := do
  let hit ← st.redis.getActive b scope
  match hit with
  | some entry => return some entry
  | none => if st.pg then st.answerWarmMiss b [scope] else return none

def firstActive (scopes : List BlockScope) : Call (Option BlockEntry) := do
  let hit ← st.redis.firstActive b scopes
  match hit with
  | some entry => return some entry
  | none => if st.pg = false ∨ scopes = [] then return none else st.answerWarmMiss b scopes

def unblock (scope : BlockScope) (reason revokedBy : Str) : Call Int := do
  let count ← st.redis.unblock scope
  if st.pg then do
    let revoked ← Postgres.unblock scope reason revokedBy
    st.invalidateWarm
    return count + revoked
  else return count

def activeBlocks : Call (List BlockEntry) :=
  if st.pg then Postgres.activeBlocks else pure []

def activeTempBlocks : Call (List BlockEntry) := do
  let entries ← st.redis.scanBlocks b
  if st.pg then do
    let permanent ← Postgres.activeBlocks
    return entries.filter fun e => decide (e.scope.pair ∉ permanent.map (·.scope.pair))
  else return entries

end

end TieredBlockStore

end SecAudit
