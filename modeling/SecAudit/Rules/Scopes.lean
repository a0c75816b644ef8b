import SecAudit.Rules.Events
import SecAudit.Stores.Blocks

/-!
# Scopes: what an event is counted, read back and blocked under

* `ScopeKey`, `HistoryScopeExtractor`  a scope with its key, and what finds them in a summary;
* `UserScopeExtractor`, `SessionScopeExtractor`, `IPScopeExtractor`, `RouteScopeExtractor`;
* `ScopeRegistry.scopeKeys`, `blockScopes`  the keys of a summary, and the scopes it may be
                    blocked under, in the order of the definitions;
* `mem_blockScopes` what `blockScopes` holds.
-/

set_option linter.unusedVariables false

namespace SecAudit
open Py

/-! ## keys -/

structure ScopeKey where
  scope : Str
  key : Str
  scope_stripped : strip scope = scope
  key_stripped : strip key = key
  scope_ne : scope ≠ []
  key_ne : key ≠ []

namespace ScopeKey

theorem eq_iff {a b : ScopeKey} : a = b ↔ a.scope = b.scope ∧ a.key = b.key := by
  refine ⟨fun h => h ▸ ⟨rfl, rfl⟩, fun h => ?_⟩
  cases a
  cases b
  cases h.1
  cases h.2
  rfl

instance : DecidableEq ScopeKey := fun a b => decidable_of_iff _ (@eq_iff a b).symm

/-- `ScopeKey(scope, key)` -/
def make (scope key : Str) : Except Exc ScopeKey :=
  if hs : strip scope = [] then .error (.valueError (str "scope cannot be empty."))
  else if hk : strip key = [] then .error (.valueError (str "scope key cannot be empty."))
  else .ok ⟨strip scope, strip key, strip_strip scope, strip_strip key, hs, hk⟩

def asString (k : ScopeKey) : Str := k.scope ++ str ":" ++ k.key

def pair (k : ScopeKey) : Str × Str := (k.scope, k.key)

theorem make_ok {s k : Str} (hs : strip s = s) (hne : s ≠ []) (hk : strip k = k) (hk' : k ≠ []) :
    make s k = .ok ⟨s, k, hs, hk, hne, hk'⟩ := by
  unfold make
  rw [dif_neg (by rwa [hs]), dif_neg (by rwa [hk])]
  congr 1
  simp only [ScopeKey.mk.injEq]
  exact ⟨hs, hk⟩

/-- both parts are stripped and not blank -/
def Valid (scope key : Str) : Prop :=
  (strip scope = scope ∧ scope ≠ []) ∧ strip key = key ∧ key ≠ []

instance (scope key : Str) : Decidable (Valid scope key) := inferInstanceAs (Decidable (_ ∧ _))

def of (scope key : Str) (h : Valid scope key) : ScopeKey :=
  ⟨scope, key, h.1.1, h.2.1, h.1.2, h.2.2⟩

end ScopeKey

/-- the mapping an event is looked up in -/
abbrev Summary := List (Str × Json)

structure HistoryScopeExtractor where
  scopeNames : List Str
  extract : Summary → Except Exc (List ScopeKey)

/-! ## the default extractors -/

/-- `x or y` of two cleaned keys -/
def orKey (x y : Option Str) : Option Str :=
  match x with
  | some k => some k
  | none => y

section
variable (b : Builtins)

/-- `_clean_key` -/
def cleanKey (value : Option Json) : Option Str :=
  match value with
  | none => none
  | some .null => none
  | some v => if strip (strOf b v) = [] then none else some (strip (strOf b v))

/-- `[ScopeKey(scope, key)] if key else []` -/
def keysOf (scope : Str) (key : Option Str) : Except Exc (List ScopeKey) :=
  match key with
  | some key => do
    let k ← ScopeKey.make scope key
    return [k]
  | none => return []

/-- the cleaned `id` and `name` of the actor, when it is a mapping -/
def actorKeys (summary : Summary) : Option Str × Option Str :=
  match getItem (str "actor") summary with
  | some (.obj actor) =>
    (cleanKey b (getItem (str "id") actor), cleanKey b (getItem (str "name") actor))
  | _ => (none, none)

/-- the key of the user: its id, else the actor's id, else a name -/
def userKey (summary : Summary) : Option Str :=
  orKey (cleanKey b (getItem (str "user_id") summary)) <| orKey (actorKeys b summary).1 <|
    orKey (cleanKey b (getItem (str "username") summary)) (actorKeys b summary).2

def UserScopeExtractor : HistoryScopeExtractor where
  scopeNames := [str "user"]
  extract summary := keysOf (str "user") (userKey b summary)

def SessionScopeExtractor : HistoryScopeExtractor where
  scopeNames := [str "session"]
  extract summary := keysOf (str "session") (cleanKey b (getItem (str "session_id") summary))

def IPScopeExtractor : HistoryScopeExtractor where
  scopeNames := [str "ip"]
  extract summary := keysOf (str "ip") (cleanKey b (getItem (str "srcip") summary))

def RouteScopeExtractor : HistoryScopeExtractor where
  scopeNames := [str "route"]
  extract summary := keysOf (str "route") (cleanKey b (getItem (str "route") summary))

end

/-! ## the registry -/

structure ScopeDefinition where
  name : Str
  extractor : HistoryScopeExtractor
  blockEligible : Bool := true

structure ScopeRegistry where
  definitions : List ScopeDefinition
  nodup : (definitions.map ScopeDefinition.name).Nodup

section
variable (b : Builtins)

def DEFAULT_SCOPE_DEFINITIONS : List ScopeDefinition :=
  [⟨str "user", UserScopeExtractor b, true⟩, ⟨str "session", SessionScopeExtractor b, true⟩,
    ⟨str "ip", IPScopeExtractor b, true⟩, ⟨str "route", RouteScopeExtractor b, false⟩]

def ScopeRegistry.default : ScopeRegistry where
  definitions := DEFAULT_SCOPE_DEFINITIONS b
  nodup := (by decide : [str "user", str "session", str "ip", str "route"].Nodup)

end

/-- the loop of `extract_scope_keys`, after `keys` -/
def addKeys (keys : List ScopeKey) : List ScopeKey → List ScopeKey
  | [] => keys
  | k :: l => addKeys (if k.asString ∈ keys.map ScopeKey.asString then keys else keys ++ [k]) l

/-- `extract_scope_keys` -/
def extractScopeKeys (summary : Summary) :
    List HistoryScopeExtractor → List ScopeKey → Except Exc (List ScopeKey)
  | [], keys => return keys
  | x :: l, keys => do
    let found ← x.extract summary
    extractScopeKeys summary l (addKeys keys found)

/-- `allowed is None or name in allowed` -/
def allowed (only : Option (List Str)) (name : Str) : Bool :=
  match only with
  | none => true
  | some names => decide (name ∈ names)

/-- the inner loop of `block_scopes`, after `result` -/
def addScopes (result : List BlockScope) : List ScopeKey → Except Exc (List BlockScope)
  | [] => return result
  | k :: l =>
    if k.pair ∈ result.map BlockScope.pair then addScopes result l
    else do
      let scope ← BlockScope.make k.scope k.key
      addScopes (result ++ [scope]) l

/-- the loop of `block_scopes` over the definitions, after `result` -/
def collectScopes (summary : Summary) (only : Option (List Str)) :
    List ScopeDefinition → List BlockScope → Except Exc (List BlockScope)
  | [], result => return result
  | d :: l, result =>
    if d.blockEligible && allowed only d.name then do
      let found ← d.extractor.extract summary
      let result ← addScopes result found
      collectScopes summary only l result
    else collectScopes summary only l result

namespace ScopeRegistry
variable (r : ScopeRegistry)

def extractors : List HistoryScopeExtractor := r.definitions.map ScopeDefinition.extractor

def scopeKeys (summary : Summary) : Except Exc (List ScopeKey) :=
  extractScopeKeys summary r.extractors []

def blockScopes (summary : Summary) (only : Option (List Str)) : Except Exc (List BlockScope) :=
  collectScopes summary only r.definitions []

end ScopeRegistry

/-! ## what is found -/

/-- the scope of a key -/
def ScopeKey.toScope (k : ScopeKey) : BlockScope :=
  ⟨k.scope, k.key, k.scope_stripped, k.key_stripped, k.scope_ne, k.key_ne⟩

theorem ScopeKey.make_toScope (k : ScopeKey) : BlockScope.make k.scope k.key = .ok k.toScope :=
  k.toScope.make_self

theorem ScopeKey.pair_toScope (k : ScopeKey) : k.toScope.pair = k.pair := rfl

/-- the scopes of the keys are added, each once -/
theorem addScopes_ok : ∀ (l : List ScopeKey) (result : List BlockScope),
    ∃ result', addScopes result l = .ok result' ∧
      ∀ s, s ∈ result' ↔ s ∈ result ∨ ∃ k ∈ l, k.toScope = s
  | [], result => ⟨result, rfl, fun s => by simp⟩
  | k :: l, result => by
    unfold addScopes
    by_cases h : k.pair ∈ result.map BlockScope.pair
    · obtain ⟨result', hr, hmem⟩ := addScopes_ok l result
      rw [if_pos h]
      refine ⟨result', hr, fun s => ?_⟩
      rw [hmem, List.exists_mem_cons_iff]
      obtain ⟨s', hs', he⟩ := List.mem_map.mp h
      have hk : k.toScope = s' := BlockScope.pair_injective (k.pair_toScope.trans he.symm)
      constructor
      · exact fun h' => h'.imp_right .inr
      · rintro (h' | h' | h')
        · exact .inl h'
        · exact .inl (h' ▸ hk ▸ hs')
        · exact .inr h'
    · obtain ⟨result', hr, hmem⟩ := addScopes_ok l (result ++ [k.toScope])
      rw [if_neg h, k.make_toScope]
      refine ⟨result', hr, fun s => ?_⟩
      rw [hmem, List.exists_mem_cons_iff, List.mem_append, List.mem_singleton, or_assoc,
        eq_comm (a := s)]

/-- the definitions found the keys `found` in the summary -/
def ScopeFound (summary : Summary) (only : Option (List Str)) (ds : List ScopeDefinition)
    (k : ScopeKey) : Prop :=
  ∃ d ∈ ds, d.blockEligible = true ∧ allowed only d.name = true ∧
    ∃ l, d.extractor.extract summary = .ok l ∧ k ∈ l

theorem mem_collectScopes {summary : Summary} {only : Option (List Str)} :
    ∀ {ds : List ScopeDefinition} {result result' : List BlockScope},
    collectScopes summary only ds result = .ok result' → ∀ s,
      s ∈ result' ↔ s ∈ result ∨ ∃ k, ScopeFound summary only ds k ∧ k.toScope = s
  | [], result, result', h, s => by
    cases h
    simp [ScopeFound]
  | d :: ds, result, result', h, s => by
    unfold collectScopes at h
    split at h
    · rename_i hd
      rw [Bool.and_eq_true] at hd
      obtain ⟨found, hx, h⟩ := ok_of_bind h
      obtain ⟨mid, hm, hmem⟩ := addScopes_ok found result
      simp only [bind, Except.bind, hm] at h
      rw [mem_collectScopes h s, hmem, or_assoc]
      refine or_congr_right ?_
      constructor
      · rintro (⟨k, hk, rfl⟩ | ⟨k, ⟨d', hd', hrest⟩, rfl⟩)
        · exact ⟨k, ⟨d, List.mem_cons_self, hd.1, hd.2, found, hx, hk⟩, rfl⟩
        · exact ⟨k, ⟨d', List.mem_cons_of_mem d hd', hrest⟩, rfl⟩
      · rintro ⟨k, ⟨d', hd', he, ha, l, hl, hk⟩, rfl⟩
        rcases List.mem_cons.mp hd' with rfl | hd'
        · rw [hx] at hl
          cases hl
          exact .inl ⟨k, hk, rfl⟩
        · exact .inr ⟨k, ⟨d', hd', he, ha, l, hl, hk⟩, rfl⟩
    · rename_i hd
      rw [mem_collectScopes h s]
      refine or_congr_right ?_
      constructor
      · rintro ⟨k, ⟨d', hd', hrest⟩, rfl⟩
        exact ⟨k, ⟨d', List.mem_cons_of_mem d hd', hrest⟩, rfl⟩
      · rintro ⟨k, ⟨d', hd', he, ha, hrest⟩, rfl⟩
        rcases List.mem_cons.mp hd' with rfl | hd'
        · exact absurd (by rw [he, ha]; rfl) hd
        · exact ⟨k, ⟨d', hd', he, ha, hrest⟩, rfl⟩

/-- **the scopes of a summary** are those of the keys that the eligible definitions find -/
theorem mem_blockScopes {r : ScopeRegistry} {summary : Summary} {only : Option (List Str)}
    {scopes : List BlockScope} (h : r.blockScopes summary only = .ok scopes) (s : BlockScope) :
    s ∈ scopes ↔ ∃ k, ScopeFound summary only r.definitions k ∧ k.toScope = s := by
  rw [mem_collectScopes h, or_iff_right (List.not_mem_nil)]

end SecAudit
