import SecAudit.Core.Admit
import SecAudit.Data.Added
import SecAudit.Py.JsonSort
import SecAudit.Rules.Scopes

/-!
# Restricting the scopes of a block

* `ScopeRegistry.fromSpecs`  `from_specs`: the default definitions and those of custom extractors;
* `gather`          the scopes the definitions find, repeated ones included;
* `blockScopes_eq`  `block_scopes` gives these, each in its first place;
* `OwnScopes`       every key that a definition finds has the name of the definition as its scope;
* `restricted_iff`  naming scopes picks exactly those scopes if and only if it is so.
-/

set_option linter.unusedVariables false

namespace SecAudit
open Py

/-! ## registries from specs -/

/-- a definition, or an extractor as `_build_extractor` gives it -/
inductive ScopeSpec where
  | definition (d : ScopeDefinition)
  | extractor (x : HistoryScopeExtractor)

/-- the first name that `definitions` repeat, `seen` being the names before them -/
def repeatedName (seen : List Str) : List ScopeDefinition → Option Str
  | [] => none
  | d :: l => if d.name ∈ seen then some d.name else repeatedName (d.name :: seen) l

theorem nodup_of_repeatedName : ∀ {l : List ScopeDefinition} {seen : List Str},
    repeatedName seen l = none → (l.map ScopeDefinition.name).Nodup ∧ ∀ d ∈ l, d.name ∉ seen
  | [], _, _ => ⟨List.nodup_nil, fun d hd => absurd hd List.not_mem_nil⟩
  | d :: l, seen, h => by
    unfold repeatedName at h
    by_cases hd : d.name ∈ seen
    · rw [if_pos hd] at h
      cases h
    · rw [if_neg hd] at h
      obtain ⟨hl, hout⟩ := nodup_of_repeatedName h
      have hnew : d.name ∉ l.map ScopeDefinition.name := fun hmem => by
        obtain ⟨d', hd', he⟩ := List.mem_map.mp hmem
        exact hout d' hd' (he ▸ List.mem_cons_self)
      exact ⟨List.nodup_cons.mpr ⟨hnew, hl⟩, List.forall_mem_cons.mpr
        ⟨hd, fun d' hd' hs => hout d' hd' (List.mem_cons_of_mem _ hs)⟩⟩

section
-- `repr` of an extractor, and of a string
variable (reprOf : HistoryScopeExtractor → Str) (repr : Str → Str)

/-- `ScopeRegistry(definitions)` -/
def ScopeRegistry.make (definitions : List ScopeDefinition) : Except Exc ScopeRegistry :=
  match h : repeatedName [] definitions with
  | some name => failureOf (str "Duplicate scope definition for " ++ repr name ++ str ".")
  | none => .ok ⟨definitions, (nodup_of_repeatedName h).1⟩
where
  failureOf (text : Str) : Except Exc ScopeRegistry := .error (.auditConfigurationError text)

/-- `_coerce_definition` -/
def coerceDefinition : ScopeSpec → Except Exc ScopeDefinition
  | .definition d => .ok d
  | .extractor x => match x.scopeNames.insertionSort (· ≤ ·) with
    | [] => .error (.auditConfigurationError
        (str "Scope extractor " ++ reprOf x ++ str " must define scope_names."))
    | name :: _ => .ok ⟨name, x, true⟩

/-- `ScopeRegistry.from_specs` -/
def ScopeRegistry.fromSpecs (b : Builtins) (specs : List ScopeSpec) (includeDefaults : Bool) :
    Except Exc ScopeRegistry := do
  let custom ← specs.mapM (coerceDefinition reprOf)
  ScopeRegistry.make repr ((if includeDefaults then DEFAULT_SCOPE_DEFINITIONS b else []) ++ custom)

end

/-! ## what is gathered -/

section
variable {summary : Summary} {only : Option (List Str)}

/-- the scopes that the definitions find, one after the other -/
def gather (summary : Summary) (only : Option (List Str)) :
    List ScopeDefinition → Except Exc (List BlockScope)
  | [] => .ok []
  | d :: l =>
    if d.blockEligible && allowed only d.name then do
      let found ← d.extractor.extract summary
      let rest ← gather summary only l
      return found.map ScopeKey.toScope ++ rest
    else gather summary only l

theorem addScopes_eq : ∀ (l : List ScopeKey) (result : List BlockScope),
    addScopes result l = .ok (addedKeys result (l.map ScopeKey.toScope))
  | [], result => rfl
  | k :: l, result => by
    have hiff : k.pair ∈ result.map BlockScope.pair ↔ k.toScope ∈ result := by
      rw [← k.pair_toScope]
      exact List.mem_map_of_injective fun _ _ h => BlockScope.pair_injective h
    rw [List.map_cons, addedKeys]
    unfold addScopes
    by_cases h : k.toScope ∈ result
    · rw [if_pos (hiff.mpr h), if_pos h]
      exact addScopes_eq l result
    · rw [if_neg (mt hiff.mp h), if_neg h, k.make_toScope]
      exact addScopes_eq l (result ++ [k.toScope])

theorem collectScopes_eq : ∀ (ds : List ScopeDefinition) (result : List BlockScope),
    collectScopes summary only ds result = (gather summary only ds).map (addedKeys result)
  | [], result => rfl
  | d :: ds, result => by
    unfold collectScopes gather
    split
    · rcases d.extractor.extract summary with e | found
      · rfl
      · show (addScopes result found >>= fun result => _) = _
        rw [addScopes_eq]
        show collectScopes summary only ds _ = _
        rw [collectScopes_eq]
        rcases gather summary only ds with e | rest
        · rfl
        · show Except.ok _ = Except.ok _
          rw [addedKeys_append]
    · exact collectScopes_eq ds result

/-- **`block_scopes`** gives what is gathered, each scope in its first place -/
theorem blockScopes_eq (r : ScopeRegistry) :
    r.blockScopes summary only = (gather summary only r.definitions).map (addedKeys []) :=
  collectScopes_eq r.definitions []

/-! ## restriction -/

/-- each key that an eligible definition finds has the name of the definition as its scope -/
def OwnScopes (summary : Summary) (ds : List ScopeDefinition) : Prop :=
  ∀ d ∈ ds, d.blockEligible = true → ∀ l, d.extractor.extract summary = .ok l →
    ∀ k ∈ l, k.scope = d.name

/-- the scopes of a block whose type is named -/
def ofTypes (names : List Str) (scopes : List BlockScope) : List BlockScope :=
  scopes.filter fun s => decide (s.scopeType ∈ names)

theorem gather_ofTypes {names : List Str} : ∀ {ds : List ScopeDefinition} {all : List BlockScope},
    OwnScopes summary ds → gather summary none ds = .ok all →
    gather summary (some names) ds = .ok (ofTypes names all)
  | [], all, _, h => by
    cases h
    rfl
  | d :: ds, all, hown, h => by
    have hrest : OwnScopes summary ds := fun d' hd' => hown d' (List.mem_cons_of_mem d hd')
    unfold gather at h ⊢
    by_cases he : d.blockEligible = true
    · rw [if_pos (by rw [he]; rfl)] at h
      obtain ⟨found, hfound, h⟩ := ok_of_bind h
      obtain ⟨rest, hgather, h⟩ := ok_of_bind h
      cases h
      have hscope := hown d List.mem_cons_self he found hfound
      have hall : ∀ s ∈ found.map ScopeKey.toScope, s.scopeType = d.name := fun s hs => by
        obtain ⟨k, hk, rfl⟩ := List.mem_map.mp hs
        exact hscope k hk
      have hsplit : ofTypes names (found.map ScopeKey.toScope ++ rest)
          = ofTypes names (found.map ScopeKey.toScope) ++ ofTypes names rest := List.filter_append ..
      rw [hsplit]
      by_cases hn : d.name ∈ names
      · have hkeep : ofTypes names (found.map ScopeKey.toScope) = found.map ScopeKey.toScope :=
          List.filter_eq_self.mpr fun s hs => decide_eq_true (hall s hs ▸ hn)
        rw [if_pos (by rw [he]; exact decide_eq_true hn), hfound, gather_ofTypes hrest hgather, hkeep]
        rfl
      · have hdrop : ofTypes names (found.map ScopeKey.toScope) = [] :=
          List.filter_eq_nil_iff.mpr fun s hs h => hn (hall s hs ▸ of_decide_eq_true h)
        rw [if_neg (by rw [he]; exact fun h => hn (of_decide_eq_true h)), hdrop]
        exact gather_ofTypes hrest hgather
    · rw [Bool.not_eq_true] at he
      rw [he] at h ⊢
      exact gather_ofTypes hrest h

/-- **Naming scopes picks exactly those scopes**, whatever the names, if and only if every key that
an eligible definition finds has the name of the definition as its scope; no scope comes twice. -/
theorem restricted_iff {r : ScopeRegistry} {scopes : List BlockScope}
    (h : r.blockScopes summary none = .ok scopes) :
    scopes.Nodup ∧ ((∀ names, r.blockScopes summary (some names) = .ok (ofTypes names scopes)) ↔
      OwnScopes summary r.definitions) := by
  rw [blockScopes_eq] at h
  obtain ⟨all, hall, rfl⟩ := ok_of_map h
  refine ⟨addedKeys_nodup List.nodup_nil, fun hsame d hd he l hl k hk => ?_, fun hown names => ?_⟩
  · -- the definition named alone gives all it finds
    have hmem := (mem_blockScopes (hsame [d.name]) k.toScope).mpr
      ⟨k, ⟨d, hd, he, decide_eq_true List.mem_cons_self, l, hl, hk⟩, rfl⟩
    exact List.mem_singleton.mp (of_decide_eq_true (List.mem_filter.mp hmem).2)
  · rw [blockScopes_eq, gather_ofTypes hown hall]
    exact congrArg Except.ok (filter_addedKeys _ all []).symm

end

/-! ## extractors with one name and with several -/

/-- the extractor finds keys of the scopes it declares only -/
def HistoryScopeExtractor.Declares (x : HistoryScopeExtractor) : Prop :=
  ∀ summary l, x.extract summary = .ok l → ∀ k ∈ l, k.scope ∈ x.scopeNames

/-- with such extractors naming scopes is exact -/
theorem ownScopes_of_one {ds : List ScopeDefinition}
    (h : ∀ d ∈ ds, d.extractor.Declares ∧ d.extractor.scopeNames = [d.name]) (summary : Summary) :
    OwnScopes summary ds := fun d hd _ l hl k hk => by
  obtain ⟨hdecl, hone⟩ := h d hd
  have hmem := hdecl summary l hl k hk
  rw [hone] at hmem
  exact List.mem_singleton.mp hmem

section
variable (b : Builtins)

/-- an extractor of two scopes -/
def accountExtractor : HistoryScopeExtractor where
  scopeNames := [str "tenant", str "org"]
  extract summary := do
    let tenant ← keysOf (str "tenant") (cleanKey b (getItem (str "tenant") summary))
    let org ← keysOf (str "org") (cleanKey b (getItem (str "org") summary))
    return tenant ++ org

theorem keysOf_scope {scope : Str} (hs : strip scope = scope) {key : Option Str}
    {l : List ScopeKey} (h : keysOf scope key = .ok l) : ∀ k ∈ l, k.scope = scope := by
  unfold keysOf at h
  cases key with
  | none =>
    cases h
    exact fun k hk => absurd hk List.not_mem_nil
  | some key =>
    obtain ⟨k, hk, h⟩ := ok_of_bind h
    cases h
    intro k' hk'
    rw [List.mem_singleton.mp hk']
    unfold ScopeKey.make at hk
    split at hk
    · cases hk
    split at hk
    · cases hk
    · cases hk
      exact hs

theorem accountExtractor_declares : (accountExtractor b).Declares := by
  intro summary l h k hk
  obtain ⟨tenant, ht, h⟩ := ok_of_bind h
  obtain ⟨org, ho, h⟩ := ok_of_bind h
  cases h
  rcases List.mem_append.mp hk with hk | hk
  · exact keysOf_scope (by decide) ht k hk ▸ List.mem_cons_self
  · exact keysOf_scope (by decide) ho k hk ▸ List.mem_cons_of_mem _ List.mem_cons_self

theorem default_declares : ∀ d ∈ DEFAULT_SCOPE_DEFINITIONS b,
    d.extractor.Declares ∧ d.extractor.scopeNames = [d.name] := by
  have one : ∀ (scope : Str) (key : Summary → Option Str), strip scope = scope →
      HistoryScopeExtractor.Declares ⟨[scope], fun summary => keysOf scope (key summary)⟩ :=
    fun scope key hs summary l h k hk => keysOf_scope hs h k hk ▸ List.mem_cons_self
  intro d hd
  rcases hd with _ | ⟨_, hd⟩
  · exact ⟨one _ _ (by decide), rfl⟩
  rcases hd with _ | ⟨_, hd⟩
  · exact ⟨one _ _ (by decide), rfl⟩
  rcases hd with _ | ⟨_, hd⟩
  · exact ⟨one _ _ (by decide), rfl⟩
  rcases hd with _ | ⟨_, hd⟩
  · exact ⟨one _ _ (by decide), rfl⟩
  · cases hd

end

/-- the default definitions, where an address is named -/
theorem restricted_iff_address : ∃ scopes,
    (ScopeRegistry.default .sample).blockScopes [(str "user_id", .string (str "7")),
      (str "srcip", .string (str "10.0.0.1"))] none = .ok scopes ∧
    (ScopeRegistry.default .sample).blockScopes [(str "user_id", .string (str "7")),
      (str "srcip", .string (str "10.0.0.1"))] (some [str "ip"])
      = .ok (ofTypes [str "ip"] scopes) := by
  obtain ⟨scopes, h⟩ := isOk_iff.mp (show isOk ((ScopeRegistry.default .sample).blockScopes
    [(str "user_id", .string (str "7")), (str "srcip", .string (str "10.0.0.1"))] none) = true
    by decide +kernel)
  exact ⟨scopes, h, (restricted_iff h).2.mpr (ownScopes_of_one (default_declares .sample) _)
    [str "ip"]⟩

/-- the default definitions, and that of the extractor of two scopes, which is called `org` -/
def accountRegistry : ScopeRegistry where
  definitions := DEFAULT_SCOPE_DEFINITIONS .sample
    ++ [(⟨str "org", accountExtractor .sample, true⟩ : ScopeDefinition)]
  nodup := (by decide : [str "user", str "session", str "ip", str "route", str "org"].Nodup)

theorem accountRegistry_eq : ScopeRegistry.fromSpecs (fun _ => []) id .sample
    [.extractor (accountExtractor .sample)] true = .ok accountRegistry := rfl

/-- no scope is found where `tenant` is named, though there is one -/
theorem restricted_misses : ¬ ∀ (specs : List ScopeSpec) (r : ScopeRegistry),
    ScopeRegistry.fromSpecs (fun _ => []) id .sample specs true = .ok r →
    (∀ d ∈ r.definitions, d.extractor.Declares) → ∀ summary names scopes,
      r.blockScopes summary none = .ok scopes →
      r.blockScopes summary (some names) = .ok (ofTypes names scopes) := by
  intro h
  have hdeclares : ∀ d ∈ accountRegistry.definitions, d.extractor.Declares := fun d hd => by
    rcases List.mem_append.mp hd with hd | hd
    · exact (default_declares .sample d hd).1
    · rw [List.mem_singleton.mp hd]
      exact accountExtractor_declares .sample
  have hall := h _ _ accountRegistry_eq hdeclares [(str "tenant", .string (str "t1"))]
    [str "tenant"]
  -- how many scopes come out, and how many of them are named
  have hfound : ((accountRegistry.blockScopes [(str "tenant", .string (str "t1"))] none).map
      fun scopes => (ofTypes [str "tenant"] scopes).length) = .ok 1 := by rfl
  have hnone : ((accountRegistry.blockScopes [(str "tenant", .string (str "t1"))]
      (some [str "tenant"])).map List.length) = .ok 0 := by rfl
  obtain ⟨scopes, hscopes, hone⟩ := ok_of_map hfound
  rw [hall scopes hscopes] at hnone
  have hzero : (ofTypes [str "tenant"] scopes).length = 0 := Except.ok.inj hnone
  omega

end SecAudit
