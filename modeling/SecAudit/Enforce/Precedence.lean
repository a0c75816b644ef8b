import SecAudit.Data.Precedence
import SecAudit.Enforce.Settings
import SecAudit.Stores.Interchange
import SecAudit.Stores.Transparent

/-!
# The registry of the settings, and the order of its scopes

* `buildExtractor`, `coerceSpec`, `registryFrom`  the registry of `scope_specs`;
* `buildRegistry`   the same, in the order of `block_precedence`;
* `definitions_buildRegistry`  what that order is;
* `blockScopes_perm`  the scopes of a summary, under definitions in another order;
* `precedence_denies`  whether a request is denied does not depend on the order.
-/

set_option linter.unusedVariables false

namespace SecAudit
open Py Prog

/-! ## the registry -/

section
variable (lib : SettingsLibrary)

/-- an object without `scope_names` -/
def unnamedExtractor : HistoryScopeExtractor := ⟨[], fun _ => .error .typeError⟩

/-- an object, as an extractor -/
def Instance.extractor : Instance → HistoryScopeExtractor
  | .other x => x
  | .rule _ => unnamedExtractor
  | .definition _ => unnamedExtractor

/-- `spec()` in `_build_extractor`, whatever it raises -/
def initialized (spec : Spec) : Except Exc HistoryScopeExtractor → Except Exc HistoryScopeExtractor
  | .ok x => .ok x
  | .error e => configError (str "Failed to initialize history scope extractor " ++
      lib.reprSpec spec ++ str ": " ++ lib.excText e)

/-- the end of `_build_extractor`: a class is called -/
def instantiate : Spec → Except Exc HistoryScopeExtractor
  | .ruleType make => initialized lib (.ruleType make) (make.map fun _ => unnamedExtractor)
  | .type make => initialized lib (.type make) (make.map Instance.extractor)
  | .value x => .ok x.extractor
  | .str _ => .ok unnamedExtractor
  | .pattern _ => .ok unnamedExtractor

/-- `_build_extractor` -/
def buildExtractor : Spec → Except Exc HistoryScopeExtractor
  | .str path => do
    let spec ← lib.importString path
    instantiate lib spec
  | spec => instantiate lib spec

/-- `_coerce_definition` -/
def coerceSpec : Spec → Except Exc ScopeDefinition
  | .value (.definition d) => .ok d
  | spec => do
    let x ← buildExtractor lib spec
    coerceDefinition lib.reprExtractor (.extractor x)

/-- `ScopeRegistry.from_specs` -/
def registryFrom (b : Builtins) (specs : List Spec) : Except Exc ScopeRegistry := do
  let custom ← specs.mapM (coerceSpec lib)
  ScopeRegistry.make lib.reprStr (DEFAULT_SCOPE_DEFINITIONS b ++ custom)

/-- the registry with the scopes named first -/
def preferring (names : List Str) (registry : ScopeRegistry) : Except Exc ScopeRegistry :=
  if names = [] then .ok registry
  else ScopeRegistry.make lib.reprStr (reorder ScopeDefinition.name names registry.definitions)

/-- `_build_registry` -/
def buildRegistry (b : Builtins) (config : EnforcementSettings) : Except Exc ScopeRegistry := do
  let registry ← registryFrom lib b config.scopeSpecs
  preferring lib config.blockPrecedence registry

end

section
variable {repr : Str → Str} {ds : List ScopeDefinition}

theorem repeatedName_none : ∀ {l : List ScopeDefinition} {seen : List Str},
    (l.map ScopeDefinition.name).Nodup → (∀ d ∈ l, d.name ∉ seen) → repeatedName seen l = none
  | [], _, _, _ => rfl
  | d :: l, seen, hnd, hout => by
    obtain ⟨hd, hnd⟩ := List.nodup_cons.mp hnd
    unfold repeatedName
    rw [if_neg (hout d List.mem_cons_self)]
    refine repeatedName_none hnd fun d' hd' hmem => ?_
    rcases List.mem_cons.mp hmem with e | hmem
    · exact hd (List.mem_map.mpr ⟨d', hd', e⟩)
    · exact hout d' (List.mem_cons_of_mem _ hd') hmem

/-- a registry is made of definitions with names of their own -/
theorem make_iff {r : ScopeRegistry} : ScopeRegistry.make repr ds = .ok r ↔
    (ds.map ScopeDefinition.name).Nodup ∧ r.definitions = ds := by
  unfold ScopeRegistry.make
  split
  · rename_i name h
    refine iff_of_false (fun h' => by cases h') fun hnd => ?_
    rw [repeatedName_none hnd.1 fun d _ => List.not_mem_nil] at h
    cases h
  · rename_i h
    constructor
    · intro h'
      obtain rfl := Except.ok.inj h'
      exact ⟨(nodup_of_repeatedName h).1, rfl⟩
    · rintro ⟨-, rfl⟩
      rfl

variable {lib : SettingsLibrary} {b : Builtins} {config : EnforcementSettings}

/-- **the order of the definitions**: those that `block_precedence` names, in its order, then the
others in theirs -/
theorem definitions_buildRegistry {r : ScopeRegistry} :
    buildRegistry lib b config = .ok r ↔
      ∃ plain, registryFrom lib b config.scopeSpecs = .ok plain ∧
        r.definitions = reorder ScopeDefinition.name config.blockPrecedence plain.definitions := by
  unfold buildRegistry
  cases hp : registryFrom lib b config.scopeSpecs with
  | error e => exact iff_of_false (fun h => by cases h) fun ⟨_, h, _⟩ => by cases h
  | ok plain =>
    show preferring lib config.blockPrecedence plain = _ ↔ _
    unfold preferring
    split
    · rename_i hnil
      rw [hnil]
      constructor
      · intro h
        exact ⟨plain, rfl, by rw [← Except.ok.inj h]; rfl⟩
      · rintro ⟨plain', h, hr⟩
        obtain rfl := Except.ok.inj h
        cases r
        cases hr
        rfl
    · rw [make_iff]
      have hnd : ((reorder ScopeDefinition.name config.blockPrecedence plain.definitions).map
          ScopeDefinition.name).Nodup :=
        ((reorder_perm plain.nodup).map ScopeDefinition.name).nodup_iff.mpr plain.nodup
      constructor
      · rintro ⟨-, hr⟩
        exact ⟨plain, rfl, hr⟩
      · rintro ⟨plain', h, hr⟩
        obtain rfl := Except.ok.inj h
        exact ⟨hnd, hr⟩

end

/-! ## the scopes of a summary -/

section
variable {summary : Summary} {only : Option (List Str)} {ds ds' : List ScopeDefinition}

theorem gather_cons {d : ScopeDefinition} {all : List BlockScope} :
    gather summary only (d :: ds) = .ok all ↔
      if d.blockEligible && allowed only d.name then ∃ found rest,
        d.extractor.extract summary = .ok found ∧ gather summary only ds = .ok rest ∧
          all = found.map ScopeKey.toScope ++ rest
      else gather summary only ds = .ok all := by
  conv_lhs => unfold gather
  split
  · constructor
    · intro h
      obtain ⟨found, hf, h⟩ := ok_of_bind h
      obtain ⟨rest, hr, h⟩ := ok_of_bind h
      exact ⟨found, rest, hf, hr, (Except.ok.inj h).symm⟩
    · rintro ⟨found, rest, hf, hr, rfl⟩
      rw [hf, hr]
      rfl
  · rfl

/-- definitions in another order find the same scopes -/
theorem gather_perm (h : ds.Perm ds') : ∀ {all : List BlockScope},
    gather summary only ds = .ok all → ∃ all', gather summary only ds' = .ok all' ∧
      all.Perm all' := by
  induction h with
  | nil => exact fun h => ⟨_, h, List.Perm.refl _⟩
  | cons d _ ih =>
    intro all h
    rw [gather_cons] at h
    split at h
    · rename_i hd
      obtain ⟨found, rest, hf, hr, rfl⟩ := h
      obtain ⟨rest', hr', hp⟩ := ih hr
      refine ⟨found.map ScopeKey.toScope ++ rest', ?_, hp.append_left _⟩
      rw [gather_cons, if_pos hd]
      exact ⟨found, rest', hf, hr', rfl⟩
    · rename_i hd
      obtain ⟨all', h', hp⟩ := ih h
      refine ⟨all', ?_, hp⟩
      rw [gather_cons, if_neg hd]
      exact h'
  | swap d d' l =>
    intro all h
    simp only [gather_cons] at h ⊢
    split at h
    · rename_i hd'
      obtain ⟨found', rest, hf', h, rfl⟩ := h
      split at h
      · rename_i hd
        obtain ⟨found, rest, hf, hr, rfl⟩ := h
        refine ⟨found.map ScopeKey.toScope ++ (found'.map ScopeKey.toScope ++ rest), ?_, ?_⟩
        · rw [if_pos hd]
          refine ⟨found, _, hf, ?_, rfl⟩
          rw [if_pos hd']
          exact ⟨found', rest, hf', hr, rfl⟩
        · rw [← List.append_assoc, ← List.append_assoc]
          exact List.perm_append_comm.append_right _
      · rename_i hd
        refine ⟨_, ?_, List.Perm.refl _⟩
        rw [if_neg hd, if_pos hd']
        exact ⟨found', rest, hf', h, rfl⟩
    · rename_i hd'
      split at h
      · rename_i hd
        obtain ⟨found, rest, hf, hr, rfl⟩ := h
        refine ⟨_, ?_, List.Perm.refl _⟩
        rw [if_pos hd]
        refine ⟨found, rest, hf, ?_, rfl⟩
        rw [if_neg hd']
        exact hr
      · rename_i hd
        refine ⟨all, ?_, List.Perm.refl _⟩
        rw [if_neg hd, if_neg hd']
        exact h
  | trans _ _ ih ih' =>
    intro all h
    obtain ⟨all', h', hp⟩ := ih h
    obtain ⟨all'', h'', hp'⟩ := ih' h'
    exact ⟨all'', h'', hp.trans hp'⟩

/-- **the scopes of a summary** are the same under definitions in another order -/
theorem blockScopes_perm {r r' : ScopeRegistry} (h : r.definitions.Perm r'.definitions)
    {scopes : List BlockScope} (hs : r.blockScopes summary only = .ok scopes) :
    ∃ scopes', r'.blockScopes summary only = .ok scopes' ∧ scopes.Perm scopes' := by
  rw [blockScopes_eq] at hs ⊢
  cases hg : gather summary only r.definitions with
  | error e =>
    rw [hg] at hs
    cases hs
  | ok all =>
    rw [hg] at hs
    obtain rfl := Except.ok.inj hs
    obtain ⟨all', hg', hp⟩ := gather_perm h hg
    rw [hg']
    refine ⟨_, rfl, (List.perm_ext_iff_of_nodup (addedKeys_nodup List.nodup_nil)
      (addedKeys_nodup List.nodup_nil)).mpr fun s => ?_⟩
    rw [mem_addedKeys, mem_addedKeys, hp.mem_iff]

end

/-! ## the decision -/

section
variable {b : Builtins} {st : TieredBlockStore} {w : World} {ss ss' : List BlockScope}

theorem told_isSome (h : ∀ s, s ∈ ss ↔ s ∈ ss') :
    (told b st w ss).isSome = (told b st w ss').isSome := by
  have hcached := isSome_findSome (f := cachedEntry b st w) h
  unfold told
  cases hc : ss.findSome? (cachedEntry b st w) with
  | some e =>
    rw [hc] at hcached
    obtain ⟨e', hc'⟩ := Option.isSome_iff_exists.mp hcached.symm
    rw [hc']
    rfl
  | none =>
    rw [hc] at hcached
    have hc' : ss'.findSome? (cachedEntry b st w) = none :=
      Option.not_isSome_iff_eq_none.mp (by rw [← hcached]; exact Bool.false_ne_true)
    rw [hc']
    dsimp only
    unfold tableTold firstRow
    split
    · rw [Option.isSome_map, Option.isSome_map]
      exact isSome_findSome h
    · rw [Option.isSome_map, Option.isSome_map]
      exact isSome_findSome h

namespace MemoryBlockStore
variable (m : MemoryBlockStore)

theorem getActive_fst (s : BlockScope) :
    (m.getActive s).1 = (m.entry s).filter fun e => !e.expired m.now := by
  unfold getActive
  cases m.entry s with
  | none => rfl
  | some e =>
    dsimp only
    cases h : e.expired m.now with
    | true => simp [Option.filter, h]
    | false => simp [Option.filter, h]

/-- a read changes nothing, or removes an entry that has ended -/
theorem getActive_snd (s : BlockScope) : (m.getActive s).2 = m ∨
    ∃ e, m.entry s = some e ∧ e.expired m.now = true ∧ (m.getActive s).2 = m.pop s := by
  unfold getActive
  cases he : m.entry s with
  | none => exact .inl rfl
  | some e =>
    dsimp only
    cases hx : e.expired m.now with
    | true => exact .inr ⟨e, rfl, hx, rfl⟩
    | false => exact .inl rfl

/-- a read removes nothing that is active -/
theorem getActive_later (s s' : BlockScope) :
    ((m.getActive s).2.getActive s').1 = (m.getActive s').1 := by
  rcases getActive_snd m s with h | ⟨e, he, hx, h⟩
  · rw [h]
  · rw [h, getActive_fst, getActive_fst]
    have hpop : (m.pop s).entry s' = if memoryKey s' = memoryKey s then none else m.entry s' :=
      Dict.get_pop _ _ _
    rw [hpop]
    split
    · rename_i hk
      have he' : m.entry s' = some e := by
        rw [← he]
        exact congrArg (fun k => m.blocks.get k) hk
      rw [he']
      simp [Option.filter, hx]
    · rfl

theorem firstActive_eq : ∀ (ss : List BlockScope) (m : MemoryBlockStore),
    (firstActive ss m).1 = ss.findSome? fun s => (m.getActive s).1
  | [], m => rfl
  | s :: ss, m => by
    unfold firstActive
    rw [List.findSome?_cons]
    have hlater := getActive_later m s
    generalize hr : m.getActive s = r at hlater
    obtain ⟨o, m'⟩ := r
    cases o with
    | some e => rfl
    | none =>
      dsimp only at hlater ⊢
      rw [firstActive_eq ss m']
      exact congrArg (fun f => ss.findSome? f) (funext hlater)

end MemoryBlockStore

variable {lib : SettingsLibrary} {config config' : EnforcementSettings} {r : ScopeRegistry}
  {summary : Summary}

/-- **whether a request is denied does not depend on `block_precedence`**: it only orders the scopes,
those it names first; with any other, the registry is built too, finds the same scopes in each
summary, and both stores have an active block for one of them or for none -/
theorem precedence_denies (hspecs : config'.scopeSpecs = config.scopeSpecs)
    (h : buildRegistry lib b config = .ok r) (hs : r.blockScopes summary none = .ok ss) :
    (∃ plain, registryFrom lib b config.scopeSpecs = .ok plain ∧
      r.definitions.map ScopeDefinition.name =
        preferred config.blockPrecedence (plain.definitions.map ScopeDefinition.name)) ∧
    ∃ r' ss', buildRegistry lib b config' = .ok r' ∧ r.definitions.Perm r'.definitions ∧
      r'.blockScopes summary none = .ok ss' ∧ ss.Perm ss' ∧
      (∀ m : MemoryBlockStore, (MemoryBlockStore.firstActive ss m).1.isSome =
        (MemoryBlockStore.firstActive ss' m).1.isSome) ∧
      ∀ (st : TieredBlockStore) (t : Int) (steps : List Step) (w : World), st.pg = true →
        runAlone b st (World.empty t) steps = some w → Within st w →
        (∀ s ∈ ss, s.encodable = true) → ∃ o o', (exec backend (st.firstActive b ss) w).1 = .ok o ∧
          (exec backend (st.firstActive b ss') w).1 = .ok o' ∧ o.isSome = o'.isSome := by
  obtain ⟨plain, hplain, hdef⟩ := definitions_buildRegistry.mp h
  refine ⟨⟨plain, hplain, ?_⟩, ?_⟩
  · rw [hdef]
    exact names_reorder plain.nodup
  have hperm' : (reorder ScopeDefinition.name config'.blockPrecedence plain.definitions).Perm
      plain.definitions := reorder_perm plain.nodup
  let r' : ScopeRegistry := ⟨_, (hperm'.map ScopeDefinition.name).nodup_iff.mpr plain.nodup⟩
  have hr' : buildRegistry lib b config' = .ok r' :=
    definitions_buildRegistry.mpr ⟨plain, by rw [hspecs]; exact hplain, rfl⟩
  have hperm : r.definitions.Perm r'.definitions := by
    rw [hdef]
    exact (reorder_perm plain.nodup).trans hperm'.symm
  obtain ⟨ss', hss', hp⟩ := blockScopes_perm hperm hs
  refine ⟨r', ss', hr', hperm, hss', hp, fun m => ?_, fun st t steps w hpg hrun hw henc => ?_⟩
  · rw [MemoryBlockStore.firstActive_eq, MemoryBlockStore.firstActive_eq]
    exact isSome_findSome fun s => hp.mem_iff
  · have hset := settled_run (N := fun _ => True) hpg (settled_empty b st _ t)
      (fun _ _ _ _ => trivial) hrun
    obtain ⟨o, ho, hto⟩ := firstActive_told hpg hset hw henc
    obtain ⟨o', ho', hto'⟩ := firstActive_told hpg hset hw fun s hs => henc s (hp.mem_iff.mpr hs)
    refine ⟨o, o', ho, ho', ?_⟩
    rw [← Option.isSome_map (f := BlockEntry.told), ← Option.isSome_map (f := BlockEntry.told), hto,
      hto']
    exact told_isSome fun s => hp.mem_iff

end

/-- a user, and the address the user comes from -/
def userAtAddress : Summary :=
  [(str "user_id", .string (str "7")), (str "srcip", .string (str "203.0.113.9"))]

/-- the scopes of `userAtAddress`, under these settings -/
def scopesUnder (raw : RawSettings) :
    Option (EnforcementSettings × ScopeRegistry × List BlockScope) := do
  let config ← (fromSettings .sample raw).toOption
  let registry ← (buildRegistry .sample .sample config).toOption
  let scopes ← (registry.blockScopes userAtAddress none).toOption
  return (config, registry, scopes)

/-- `block_precedence` of these names -/
def precedenceOf (names : List Str) : RawSettings :=
  .one (str "block_precedence") (.seq (names.map .str))

theorem ok_of_toOption {α : Type} {x : Except Exc α} {a : α} (h : x.toOption = some a) :
    x = .ok a := by
  cases x with
  | error e => cases h
  | ok a' => exact congrArg Except.ok (Option.some.inj h)

theorem scopesUnder_some {raw : RawSettings} {x : EnforcementSettings × ScopeRegistry × _}
    (h : scopesUnder raw = some x) :
    fromSettings .sample raw = .ok x.1 ∧ buildRegistry .sample .sample x.1 = .ok x.2.1 ∧
      x.2.1.blockScopes userAtAddress none = .ok x.2.2 := by
  obtain ⟨config, hc, h⟩ := Option.bind_eq_some_iff.mp h
  obtain ⟨r, hr, h⟩ := Option.bind_eq_some_iff.mp h
  obtain ⟨ss, hs, h⟩ := Option.bind_eq_some_iff.mp h
  obtain rfl := Option.some.inj h
  exact ⟨ok_of_toOption hc, ok_of_toOption hr, ok_of_toOption hs⟩

/-- the user is banned, the address blocked for a minute, and the key of the ban evicted -/
def banAndBlock : List Step :=
  [.call (.block .sample {} none), .call (.block .sampleIp {} (some 60)), .env (.evict sampleKey)]

/-- the address before the user, or after it as by default -/
theorem precedence_denies_address : ∃ (r r' : ScopeRegistry) (w : World)
      (o o' : Option BlockEntry), r.blockScopes userAtAddress none = .ok [.sampleIp, .sample] ∧
    r'.blockScopes userAtAddress none = .ok [.sample, .sampleIp] ∧
    (∀ m : MemoryBlockStore, (MemoryBlockStore.firstActive [.sampleIp, .sample] m).1.isSome =
      (MemoryBlockStore.firstActive [.sample, .sampleIp] m).1.isSome) ∧
    runAlone .sample .sample (World.empty 0) banAndBlock = some w ∧
    (exec backend (TieredBlockStore.sample.firstActive .sample [.sampleIp, .sample]) w).1 = .ok o ∧
    (exec backend (TieredBlockStore.sample.firstActive .sample [.sample, .sampleIp]) w).1 = .ok o' ∧
    o.isSome = o'.isSome := by
  have h : ((scopesUnder (precedenceOf [str "ip"])).any fun x =>
      decide (x.2.2 = [.sampleIp, .sample]) && x.1.scopeSpecs.isEmpty) = true := by decide +kernel
  have h' : ((scopesUnder .none).any fun x =>
      decide (x.2.2 = [.sample, .sampleIp]) && x.1.scopeSpecs.isEmpty) = true := by decide +kernel
  obtain ⟨x, hx, h⟩ := (Option.any_eq_true _ _).mp h
  obtain ⟨x', hx', h'⟩ := (Option.any_eq_true _ _).mp h'
  rw [Bool.and_eq_true, decide_eq_true_eq, List.isEmpty_iff] at h h'
  obtain ⟨-, hr, hs⟩ := scopesUnder_some hx
  obtain ⟨-, hr', hs'⟩ := scopesUnder_some hx'
  rw [h.1] at hs
  rw [h'.1] at hs'
  have hspecs : x'.1.scopeSpecs = x.1.scopeSpecs := h'.2.trans h.2.symm
  have hrun : ((runAlone .sample .sample (World.empty 0) banAndBlock).any fun w =>
      decide (Within .sample w)) = true := by decide +kernel
  obtain ⟨w, hrun, hw⟩ := (Option.any_eq_true _ _).mp hrun
  obtain ⟨-, r₁, ss₁, hr₁, -, hs₁, -, hm, ht⟩ := precedence_denies hspecs hr hs
  obtain rfl := Except.ok.inj (hr'.symm.trans hr₁)
  obtain rfl := Except.ok.inj (hs'.symm.trans hs₁)
  obtain ⟨o, o', ho, ho', heq⟩ := ht .sample 0 banAndBlock w rfl hrun (of_decide_eq_true hw)
    (by decide)
  exact ⟨x.2.1, x'.2.1, w, o, o', hs, hs', hm, hrun, ho, ho', heq⟩

end SecAudit
