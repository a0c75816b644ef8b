import SecAudit.Rules.Base
import SecAudit.Rules.Scopes

/-!
# What a registry of readers finds

* `Reader`          a scope and what reads its key off a summary;
* `readPairs`       the names and keys that readers find;
* `defaultReaders`  the scopes of the default registry;
* `default_scopeKeys`, `default_blockScopes`  what it finds: every summary has scope keys and scopes.
-/

set_option linter.unusedVariables false

namespace SecAudit
open Py

/-! ## cleaned keys -/

/-- a key that is not blank, with no space at its ends -/
def Clean (key : Option Str) : Prop := ∀ k ∈ key, strip k = k ∧ k ≠ []

theorem clean_none : Clean none := fun k hk => absurd hk (Option.not_mem_none k)

theorem Clean.orKey {x y : Option Str} (hx : Clean x) (hy : Clean y) : Clean (orKey x y) := by
  cases x with
  | none => exact hy
  | some k => exact hx

section
variable (b : Builtins)

theorem cleanKey_clean (value : Option Json) : Clean (cleanKey b value) := by
  unfold cleanKey
  split
  · exact clean_none
  · exact clean_none
  · split
    · exact clean_none
    · rename_i hne
      intro k hk
      obtain rfl := Option.mem_some_iff.mp hk
      exact ⟨strip_strip _, hne⟩

theorem actorKeys_clean (summary : Summary) :
    Clean (actorKeys b summary).1 ∧ Clean (actorKeys b summary).2 := by
  unfold actorKeys
  split
  · exact ⟨cleanKey_clean b _, cleanKey_clean b _⟩
  · exact ⟨clean_none, clean_none⟩

theorem userKey_clean (summary : Summary) : Clean (userKey b summary) :=
  (cleanKey_clean b _).orKey ((actorKeys_clean b summary).1.orKey
    ((cleanKey_clean b _).orKey (actorKeys_clean b summary).2))

end

/-! ## what names and keys make -/

/-- a scope and what reads its key off a summary -/
abbrev Reader := Str × (Summary → Option Str)

/-- the extractor of a reader -/
def Reader.extractor (x : Reader) : HistoryScopeExtractor :=
  ⟨[x.1], fun summary => keysOf x.1 (x.2 summary)⟩

/-- the pairs that the readers find -/
def readPairs (l : List Reader) (summary : Summary) : List (Str × Str) :=
  l.flatMap fun x => (x.2 summary).toList.map fun k => (x.1, k)

theorem mem_readPairs {l : List Reader} {summary : Summary} {p : Str × Str} :
    p ∈ readPairs l summary ↔ ∃ x ∈ l, x.1 = p.1 ∧ p.2 ∈ x.2 summary := by
  obtain ⟨name, k⟩ := p
  unfold readPairs
  rw [List.mem_flatMap]
  refine exists_congr fun x => and_congr_right fun _ => ?_
  rw [List.mem_map]
  constructor
  · rintro ⟨k', hk', he⟩
    obtain ⟨rfl, rfl⟩ := Prod.mk.inj he
    exact ⟨rfl, Option.mem_toList.mp hk'⟩
  · rintro ⟨rfl, hk⟩
    exact ⟨k, Option.mem_toList.mpr hk, rfl⟩

theorem readPairs_cons (x : Reader) (l : List Reader) (summary : Summary) :
    readPairs (x :: l) summary = readPairs [x] summary ++ readPairs l summary := by
  unfold readPairs
  rw [List.flatMap_cons, List.flatMap_singleton]

theorem readPairs_filter (l : List Reader) (summary : Summary) (q : Str → Bool) :
    (readPairs l summary).filter (fun p => q p.1) = readPairs (l.filter fun x => q x.1) summary := by
  induction l with
  | nil => rfl
  | cons x l ih =>
    rw [readPairs_cons, List.filter_append, ih, List.filter_cons]
    unfold readPairs
    rw [List.flatMap_singleton, List.filter_map]
    by_cases hq : q x.1 = true
    · rw [if_pos hq, List.flatMap_cons]
      congr 2
      exact List.filter_eq_self.mpr fun _ _ => hq
    · rw [if_neg hq]
      rw [show ((x.2 summary).toList.filter ((fun p => q p.1) ∘ fun k => (x.1, k))) = [] from
        List.filter_eq_nil_iff.mpr fun _ _ => hq]
      rfl

/-- a reader of a scope with a name, whose keys are clean -/
structure Reader.Sound (x : Reader) (summary : Summary) : Prop where
  stripped : strip x.1 = x.1
  ne : x.1 ≠ []
  clean : Clean (x.2 summary)

theorem keysOf_ok {x : Reader} {summary : Summary} (hx : x.Sound summary) :
    ∃ l, keysOf x.1 (x.2 summary) = .ok l ∧ l.length ≤ 1 ∧
      l.map ScopeKey.pair = readPairs [x] summary := by
  have hc := hx.clean
  unfold keysOf readPairs
  rw [List.flatMap_singleton]
  cases hk : x.2 summary with
  | none => exact ⟨[], rfl, Nat.zero_le 1, rfl⟩
  | some k =>
    obtain ⟨hs, hne⟩ := hc k hk
    dsimp only
    rw [ScopeKey.make_ok hx.stripped hx.ne hs hne]
    exact ⟨_, rfl, le_rfl, rfl⟩

variable {summary : Summary}

theorem asString_head (k : ScopeKey) : k.asString.head? = k.scope.head? := by
  unfold ScopeKey.asString
  cases hs : k.scope with
  | nil => exact absurd hs k.scope_ne
  | cons c s => rfl

/-- keys under other first letters are added as they are -/
theorem addKeys_fresh {keys : List ScopeKey} : ∀ {l : List ScopeKey}, l.length ≤ 1 →
    (∀ k ∈ l, ∀ k' ∈ keys, k'.scope.head? ≠ k.scope.head?) → addKeys keys l = keys ++ l
  | [], _, _ => (List.append_nil keys).symm
  | [k], _, hfresh => by
    unfold addKeys
    rw [if_neg]
    · rfl
    · intro hk
      obtain ⟨k', hk', he⟩ := List.mem_map.mp hk
      have hh := congrArg List.head? he
      rw [asString_head, asString_head] at hh
      exact hfresh k List.mem_cons_self k' hk' hh

/-- scopes of other types are added as they are -/
theorem addScopes_fresh {result : List BlockScope} : ∀ {l : List ScopeKey}, l.length ≤ 1 →
    (∀ k ∈ l, ∀ s ∈ result, s.scopeType ≠ k.scope) →
    addScopes result l = .ok (result ++ l.map ScopeKey.toScope)
  | [], _, _ => congrArg Except.ok (List.append_nil result).symm
  | [k], _, hfresh => by
    unfold addScopes
    rw [if_neg]
    · rw [k.make_toScope]
      rfl
    · intro hk
      obtain ⟨s, hs, he⟩ := List.mem_map.mp hk
      exact hfresh k List.mem_cons_self s hs (Prod.mk.inj he).1

theorem scope_of_read {x : Reader} {found : List ScopeKey}
    (h : found.map ScopeKey.pair = readPairs [x] summary) {k : ScopeKey} (hk : k ∈ found) :
    k.scope = x.1 := by
  have hmem : k.pair ∈ readPairs [x] summary := by
    rw [← h]
    exact List.mem_map_of_mem hk
  obtain ⟨y, hy, he, -⟩ := mem_readPairs.mp hmem
  rw [List.mem_singleton.mp hy] at he
  exact he.symm

/-- the readers of a registry, one after the other, under different first letters -/
theorem extractScopeKeys_readers : ∀ {l : List Reader} {keys : List ScopeKey},
    (∀ x ∈ l, x.Sound summary) → (l.map fun x => x.1.head?).Nodup →
    (∀ k ∈ keys, k.scope.head? ∉ l.map fun x => x.1.head?) →
    ∃ keys', extractScopeKeys summary (l.map Reader.extractor) keys = .ok keys' ∧
      keys'.map ScopeKey.pair = keys.map ScopeKey.pair ++ readPairs l summary
  | [], keys, _, _, _ => ⟨keys, rfl, (List.append_nil _).symm⟩
  | x :: l, keys, hsound, hnd, hfresh => by
    obtain ⟨found, hok, hlen, hpairs⟩ := keysOf_ok (hsound x List.mem_cons_self)
    rw [List.map_cons, List.nodup_cons] at hnd
    have hscope : ∀ k ∈ found, k.scope = x.1 := fun k hk => scope_of_read hpairs hk
    have hadd : addKeys keys found = keys ++ found := by
      refine addKeys_fresh hlen fun k hk k' hk' he => hfresh k' hk' ?_
      rw [he, hscope k hk]
      exact List.mem_cons_self
    obtain ⟨keys', hrun, hmap⟩ := @extractScopeKeys_readers l (keys ++ found)
      (fun y hy => hsound y (List.mem_cons_of_mem x hy)) hnd.2 (by
        intro k hk hmem
        rcases List.mem_append.mp hk with hk | hk
        · exact hfresh k hk (List.mem_cons_of_mem _ hmem)
        · rw [hscope k hk] at hmem
          exact hnd.1 hmem)
    refine ⟨keys', ?_, ?_⟩
    · rw [List.map_cons]
      unfold extractScopeKeys
      simp only [bind, Except.bind, show x.extractor.extract summary = .ok found from hok, hadd]
      exact hrun
    · rw [hmap, List.map_append, hpairs, List.append_assoc, ← readPairs_cons]

/-- the definition of a reader -/
def Reader.definition (eligible : Str → Bool) (x : Reader) : ScopeDefinition :=
  ⟨x.1, x.extractor, eligible x.1⟩

theorem collectScopes_readers {eligible : Str → Bool} {only : Option (List Str)} :
    ∀ {l : List Reader} {result : List BlockScope},
    (∀ x ∈ l, x.Sound summary) → (l.map Prod.fst).Nodup →
    (∀ s ∈ result, s.scopeType ∉ l.map Prod.fst) →
    ∃ scopes, collectScopes summary only (l.map (Reader.definition eligible)) result = .ok scopes ∧
      scopes.map BlockScope.pair = result.map BlockScope.pair ++
        readPairs (l.filter fun x => eligible x.1 && allowed only x.1) summary
  | [], result, _, _, _ => ⟨result, rfl, (List.append_nil _).symm⟩
  | x :: l, result, hsound, hnd, hfresh => by
    rw [List.map_cons, List.nodup_cons] at hnd
    rw [List.map_cons]
    unfold collectScopes
    by_cases hx : (eligible x.1 && allowed only x.1) = true
    · obtain ⟨found, hok, hlen, hpairs⟩ := keysOf_ok (hsound x List.mem_cons_self)
      have hscope : ∀ k ∈ found, k.scope = x.1 := fun k hk => scope_of_read hpairs hk
      have hadd : addScopes result found = .ok (result ++ found.map ScopeKey.toScope) := by
        refine addScopes_fresh hlen fun k hk s hs he => hfresh s hs ?_
        rw [he, hscope k hk]
        exact List.mem_cons_self
      obtain ⟨scopes, hrun, hmap⟩ := @collectScopes_readers eligible only l
        (result ++ found.map ScopeKey.toScope) (fun y hy => hsound y (List.mem_cons_of_mem x hy))
        hnd.2 (by
          intro s hs hmem
          rcases List.mem_append.mp hs with hs | hs
          · exact hfresh s hs (List.mem_cons_of_mem _ hmem)
          · obtain ⟨k, hk, rfl⟩ := List.mem_map.mp hs
            rw [show k.toScope.scopeType = k.scope from rfl, hscope k hk] at hmem
            exact hnd.1 hmem)
      refine ⟨scopes, ?_, ?_⟩
      · rw [show ((x.definition eligible).blockEligible && allowed only (x.definition eligible).name)
          = true from hx, if_pos rfl]
        simp only [bind, Except.bind,
          show (x.definition eligible).extractor.extract summary = .ok found from hok, hadd]
        exact hrun
      · rw [hmap, List.map_append, List.filter_cons, if_pos hx, List.map_map,
          show BlockScope.pair ∘ ScopeKey.toScope = ScopeKey.pair from rfl, hpairs,
          List.append_assoc, ← readPairs_cons]
    · rw [show ((x.definition eligible).blockEligible && allowed only (x.definition eligible).name)
        = (eligible x.1 && allowed only x.1) from rfl, if_neg hx, List.filter_cons, if_neg hx]
      exact collectScopes_readers (fun y hy => hsound y (List.mem_cons_of_mem x hy)) hnd.2
        fun s hs hmem => hfresh s hs (List.mem_cons_of_mem _ hmem)

/-! ## the default registry -/

section
variable (b : Builtins)

/-- the scopes of the default registry -/
def defaultReaders : List Reader :=
  [(str "user", userKey b),
    (str "session", fun summary => cleanKey b (getItem (str "session_id") summary)),
    (str "ip", fun summary => cleanKey b (getItem (str "srcip") summary)),
    (str "route", fun summary => cleanKey b (getItem (str "route") summary))]

/-- a route is not blocked -/
def defaultEligible (name : Str) : Bool := decide (name ≠ str "route")

theorem default_definitions : (ScopeRegistry.default b).definitions
    = (defaultReaders b).map (Reader.definition defaultEligible) := by
  show DEFAULT_SCOPE_DEFINITIONS b = _
  unfold DEFAULT_SCOPE_DEFINITIONS defaultReaders
  rfl

theorem defaultReaders_sound : ∀ x ∈ defaultReaders b, x.Sound summary := by
  intro x hx
  unfold defaultReaders at hx
  simp only [List.mem_cons, List.not_mem_nil, or_false] at hx
  rcases hx with rfl | rfl | rfl | rfl
  · exact ⟨(by decide : strip (str "user") = str "user"), (by decide : str "user" ≠ []),
      userKey_clean b summary⟩
  · exact ⟨(by decide : strip (str "session") = str "session"), (by decide : str "session" ≠ []),
      cleanKey_clean b _⟩
  · exact ⟨(by decide : strip (str "ip") = str "ip"), (by decide : str "ip" ≠ []),
      cleanKey_clean b _⟩
  · exact ⟨(by decide : strip (str "route") = str "route"), (by decide : str "route" ≠ []),
      cleanKey_clean b _⟩

/-- **the scope keys of a summary**, by their scopes -/
theorem default_scopeKeys : ∃ keys, (ScopeRegistry.default b).scopeKeys summary = .ok keys ∧
    keys.map ScopeKey.pair = readPairs (defaultReaders b) summary := by
  unfold ScopeRegistry.scopeKeys ScopeRegistry.extractors
  rw [default_definitions, List.map_map]
  exact extractScopeKeys_readers (defaultReaders_sound b)
    (by decide : [(str "user").head?, (str "session").head?, (str "ip").head?,
      (str "route").head?].Nodup)
    fun k hk => absurd hk List.not_mem_nil

/-- **the scopes a summary is blocked under** -/
theorem default_blockScopes (only : Option (List Str)) :
    ∃ scopes, (ScopeRegistry.default b).blockScopes summary only = .ok scopes ∧
      scopes.map BlockScope.pair
        = readPairs ((defaultReaders b).filter fun x => defaultEligible x.1 && allowed only x.1)
          summary := by
  unfold ScopeRegistry.blockScopes
  rw [default_definitions]
  exact collectScopes_readers (defaultReaders_sound b)
    (by decide : [str "user", str "session", str "ip", str "route"].Nodup)
    fun s hs => absurd hs List.not_mem_nil

end

end SecAudit
