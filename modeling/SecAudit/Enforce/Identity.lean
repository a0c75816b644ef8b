import SecAudit.Enforce.Enforcer
import SecAudit.Rules.Readers

/-!
# The identity a rule sees and the one it is blocked under

* `Worded`          an event whose identity fields hold strings;
* `SameIdentity`    the match of an event carries the keys its event is blocked under;
* `SpelledAlike`    the spellings of one field do not contradict each other;
* `same_identity`   both are the same.
-/

set_option linter.unusedVariables false

namespace SecAudit
open Py

/-! ## words -/

def isText : Json → Bool
  | .string _ => true
  | _ => false

/-- nothing, or a string -/
def Text (v : Option Json) : Prop := ∀ x ∈ v, isText x = true

instance (v : Option Json) : Decidable (Text v) :=
  match v with
  | none => isTrue fun x hx => absurd hx (Option.not_mem_none x)
  | some x => decidable_of_iff (isText x = true)
      ⟨fun h y hy => Option.mem_some_iff.mp hy ▸ h, fun h => h x rfl⟩

/-- the string, empty when there is none -/
def wordOf : Option Json → Str
  | some (.string s) => s
  | _ => []

/-- the fields that tell who it is -/
def IDENTITY_FIELDS : List Str :=
  [str "srcip", str "source.address", str "session_id", str "session.id", str "user_id",
    str "user.id"]

/-- the identity fields hold strings; the actor is a string or a mapping with strings -/
structure Worded (event : List (Str × Json)) : Prop where
  fields : ∀ k ∈ IDENTITY_FIELDS, Text (getItem k event)
  actor : ∀ v ∈ getItem (str "actor") event, isText v = true ∨
    ∃ actor, v = .obj actor ∧ Text (getItem (str "id") actor)

section
variable {b : Builtins} {v w : Option Json}

theorem Text.cases (h : Text v) : v = none ∨ ∃ s, v = some (.string s) := by
  cases v with
  | none => exact .inl rfl
  | some x =>
    have hx := h x rfl
    cases x with
    | string s => exact .inr ⟨s, rfl⟩
    | _ => cases hx

theorem textOf_text (h : Text v) : RuleEvent.textOf b v = wordOf v := by
  rcases h.cases with rfl | ⟨s, rfl⟩
  · rfl
  · rfl

/-- a key, cleaned -/
def cleanWord (s : Str) : Option Str := if strip s = [] then none else some (strip s)

theorem cleanKey_text (h : Text v) : cleanKey b v = cleanWord (wordOf v) := by
  rcases h.cases with rfl | ⟨s, rfl⟩
  · rfl
  · rfl

theorem orGet_text (hv : Text v) (hw : Text w) : Text (RuleEvent.orGet b v w) ∧
    wordOf (RuleEvent.orGet b v w) = if wordOf v = [] then wordOf w else wordOf v := by
  rcases hv.cases with rfl | ⟨s, rfl⟩
  · exact ⟨hw, rfl⟩
  · cases s with
    | nil => exact ⟨hw, rfl⟩
    | cons c s => exact ⟨hv, rfl⟩

theorem filled_text {k : Str} {source : List (Str × Json)} (h : Text (getItem k source)) :
    filled k source = if wordOf (getItem k source) = [] then none else getItem k source := by
  unfold filled
  rcases h.cases with hk | ⟨s, hk⟩
  · rw [hk]
    rfl
  · rw [hk]
    cases s <;> rfl

end

/-! ## the event -/

section
variable {b : Builtins} {event : List (Str × Json)}

/-- the value that is not empty, the first before the second -/
theorem alias_text {x y : Option Json} (hx : Text x) (hy : Text y) :
    Text ((if (if wordOf x = [] then none else x).isSome then none
        else if wordOf y = [] then none else y).or x) ∧
      wordOf ((if (if wordOf x = [] then none else x).isSome then none
        else if wordOf y = [] then none else y).or x)
        = if wordOf x = [] then wordOf y else wordOf x := by
  rcases hx.cases with rfl | ⟨_ | ⟨c, r⟩, rfl⟩
  · rcases hy.cases with rfl | ⟨_ | ⟨c, o⟩, rfl⟩
    · exact ⟨hx, rfl⟩
    · exact ⟨hx, rfl⟩
    · exact ⟨hy, rfl⟩
  · rcases hy.cases with rfl | ⟨_ | ⟨c, o⟩, rfl⟩
    · exact ⟨hx, rfl⟩
    · exact ⟨hx, rfl⟩
    · exact ⟨hy, rfl⟩
  · exact ⟨hx, rfl⟩

/-- a raw key holds its own string, else that of its dotted key -/
theorem getItem_worded {otel raw : Str} (halias : (otel, raw) ∈ OTEL_TO_RAW_ALIASES)
    (hne : raw ≠ str "event_type") (hotel : Text (getItem otel event))
    (hraw : Text (getItem raw event)) :
    Text (getItem raw (RuleEvent.fromMapping b event).fields) ∧
      wordOf (getItem raw (RuleEvent.fromMapping b event).fields)
        = if wordOf (getItem raw event) = [] then wordOf (getItem otel event)
          else wordOf (getItem raw event) := by
  have hget : getItem raw (RuleEvent.fromMapping b event).fields
      = (if (filled raw event).isSome then none else filled otel event).or (getItem raw event) :=
    (RuleEvent.getItem_make hne).trans (getItem_normalize halias)
  rw [hget, filled_text hraw, filled_text hotel]
  exact alias_text hraw hotel

theorem getItem_unaliased {k : Str} (hk : k ∉ OTEL_TO_RAW_ALIASES.map Prod.snd)
    (hne : k ≠ str "event_type") :
    getItem k (RuleEvent.fromMapping b event).fields = getItem k event :=
  (RuleEvent.getItem_make hne).trans (getItem_normalize_other hk)

end

/-! ## the statement -/

/-- the keys under a scope -/
def keysUnder (scope : Str) (keys : List ScopeKey) : List Str :=
  (keys.filter fun k => decide (k.scope = scope)).map ScopeKey.key

/-- the scopes that are not on a user -/
def userless (scopes : List BlockScope) : List BlockScope :=
  scopes.filter fun s => decide (s.scopeType ≠ str "user")

/-- what the match `m` of the event `e` carries is what the event is blocked under; the sink, which
sees the match alone, blocks the same addresses and sessions as the consumer -/
structure SameIdentity (b : Builtins) (e : RuleEvent) (m : RuleMatch) : Prop where
  ip : strip (orEmpty m.srcip) ≠ [] → ∃ keys,
    (ScopeRegistry.default b).scopeKeys e.toDict = .ok keys ∧
      keysUnder (str "ip") keys = [strip (orEmpty m.srcip)]
  user : strip (orEmpty m.userId) ≠ [] → ∃ keys,
    (ScopeRegistry.default b).scopeKeys e.toDict = .ok keys ∧
      keysUnder (str "user") keys = [strip (orEmpty m.userId)]
  session : strip (orEmpty m.sessionId) ≠ [] → ∃ keys,
    (ScopeRegistry.default b).scopeKeys e.toDict = .ok keys ∧
      keysUnder (str "session") keys = [strip (orEmpty m.sessionId)]
  blocks : ∀ only, ∃ sink egress,
    (ScopeRegistry.default b).blockScopes (Enforcer.matchSummary m) only = .ok sink ∧
      (ScopeRegistry.default b).blockScopes e.toDict only = .ok egress ∧
      userless sink = userless egress

/-- the raw string, else the dotted one -/
def either (raw otel : Str) : Str := if raw = [] then otel else raw

/-- the user of an event, its actor apart -/
def userWord (event : List (Str × Json)) : Str :=
  either (wordOf (getItem (str "user_id") event)) (wordOf (getItem (str "user.id") event))

/-- two spellings of the address, or of the user, name the same one -/
structure SpelledAlike (event : List (Str × Json)) : Prop where
  address : wordOf (getItem (str "srcip") event) = [] ∨
    wordOf (getItem (str "source.address") event) = [] ∨
    strip (wordOf (getItem (str "srcip") event))
      = strip (wordOf (getItem (str "source.address") event))
  user : ∀ actor, getItem (str "actor") event = some (.obj actor) →
    strip (wordOf (getItem (str "id") actor)) = [] ∨ strip (userWord event) = [] ∨
      strip (userWord event) = strip (wordOf (getItem (str "id") actor))

/-! ## what the registry finds -/

section
variable {b : Builtins} {summary : Summary}

theorem keysUnder_pairs {scope : Str} {keys : List ScopeKey} {pairs : List (Str × Str)}
    (h : keys.map ScopeKey.pair = pairs) :
    keysUnder scope keys = (pairs.filter fun p => decide (p.1 = scope)).map Prod.snd := by
  unfold keysUnder
  rw [← h, List.filter_map, List.map_map]
  rfl

/-- the keys of a summary under one scope are those its reader reads -/
theorem keysUnder_reader {scope : Str} {key : Summary → Option Str} {keys : List ScopeKey}
    (hkeys : (ScopeRegistry.default b).scopeKeys summary = .ok keys)
    (hx : (defaultReaders b).filter (fun y => decide (y.1 = scope)) = [(scope, key)]) :
    keysUnder scope keys = (key summary).toList := by
  obtain ⟨keys', hok, hpairs⟩ := @default_scopeKeys summary b
  rw [hkeys] at hok
  obtain rfl := Except.ok.inj hok
  rw [keysUnder_pairs hpairs, readPairs_filter (defaultReaders b) summary fun n => decide (n = scope),
    hx]
  unfold readPairs
  rw [List.flatMap_singleton, List.map_map]
  exact List.map_id _

/-- the key under one scope -/
theorem exists_keysUnder {scope k : Str} {key : Summary → Option Str}
    (hx : (defaultReaders b).filter (fun y => decide (y.1 = scope)) = [(scope, key)]) :
    (∃ keys, (ScopeRegistry.default b).scopeKeys summary = .ok keys ∧ keysUnder scope keys = [k]) ↔
      key summary = some k := by
  constructor
  · rintro ⟨keys, hok, hk⟩
    rw [keysUnder_reader hok hx] at hk
    exact Option.toList_eq_singleton_iff.mp hk
  · intro hk
    obtain ⟨keys, hok, -⟩ := @default_scopeKeys summary b
    exact ⟨keys, hok, by rw [keysUnder_reader hok hx, hk]; rfl⟩

theorem ip_reader : (defaultReaders b).filter (fun y => decide (y.1 = str "ip"))
    = [(str "ip", fun summary => cleanKey b (getItem (str "srcip") summary))] := rfl

theorem session_reader : (defaultReaders b).filter (fun y => decide (y.1 = str "session"))
    = [(str "session", fun summary => cleanKey b (getItem (str "session_id") summary))] := rfl

theorem user_reader : (defaultReaders b).filter (fun y => decide (y.1 = str "user"))
    = [(str "user", userKey b)] := rfl

/-- the readers that the scopes not on a user come from -/
def userlessReaders (b : Builtins) (only : Option (List Str)) : List Reader :=
  ((defaultReaders b).filter fun x => defaultEligible x.1 && allowed only x.1).filter fun x =>
    decide (x.1 ≠ str "user")

theorem userless_pairs {only : Option (List Str)} {scopes : List BlockScope}
    (h : (ScopeRegistry.default b).blockScopes summary only = .ok scopes) :
    (userless scopes).map BlockScope.pair = readPairs (userlessReaders b only) summary := by
  obtain ⟨scopes', hok, hpairs⟩ := @default_blockScopes summary b only
  rw [h] at hok
  obtain rfl := Except.ok.inj hok
  unfold userlessReaders
  rw [← readPairs_filter _ summary fun n => decide (n ≠ str "user"), ← hpairs, List.filter_map]
  rfl

theorem mem_userlessReaders {only : Option (List Str)} {x : Reader}
    (hx : x ∈ userlessReaders b only) :
    x = (str "session", fun summary => cleanKey b (getItem (str "session_id") summary)) ∨
      x = (str "ip", fun summary => cleanKey b (getItem (str "srcip") summary)) := by
  unfold userlessReaders defaultReaders at hx
  rw [List.mem_filter, List.mem_filter, Bool.and_eq_true, decide_eq_true_eq] at hx
  obtain ⟨⟨hmem, hel, -⟩, hne⟩ := hx
  simp only [List.mem_cons, List.not_mem_nil, or_false] at hmem
  rcases hmem with rfl | rfl | rfl | rfl
  · exact absurd rfl hne
  · exact .inl rfl
  · exact .inr rfl
  · exact absurd hel (by decide : ¬ defaultEligible (str "route") = true)

theorem readPairs_single {x : Reader} {s1 s2 : Summary}
    (h : readPairs [x] s1 = readPairs [x] s2) : x.2 s1 = x.2 s2 := by
  unfold readPairs at h
  rw [List.flatMap_singleton, List.flatMap_singleton] at h
  have hinj : Function.Injective (fun k : Str => (x.1, k)) := fun _ _ he => (Prod.mk.inj he).2
  have he : (x.2 s1).toList = (x.2 s2).toList := List.map_injective_iff.mpr hinj h
  rw [← @Option.head?_toList _ (x.2 s1), he, Option.head?_toList]

/-- two summaries are blocked under the same addresses and sessions -/
theorem blocks_iff {s1 s2 : Summary} : (∀ only, ∃ sink egress,
      (ScopeRegistry.default b).blockScopes s1 only = .ok sink ∧
        (ScopeRegistry.default b).blockScopes s2 only = .ok egress ∧
        userless sink = userless egress) ↔
    cleanKey b (getItem (str "session_id") s1) = cleanKey b (getItem (str "session_id") s2) ∧
      cleanKey b (getItem (str "srcip") s1) = cleanKey b (getItem (str "srcip") s2) := by
  constructor
  · intro h
    have hread : ∀ only, readPairs (userlessReaders b only) s1
        = readPairs (userlessReaders b only) s2 := by
      intro only
      obtain ⟨sink, egress, h1, h2, he⟩ := h only
      rw [← userless_pairs h1, ← userless_pairs h2, he]
    exact ⟨readPairs_single (hread (some [str "session"])),
      readPairs_single (hread (some [str "ip"]))⟩
  · rintro ⟨hs, hi⟩ only
    obtain ⟨sink, h1, -⟩ := @default_blockScopes s1 b only
    obtain ⟨egress, h2, -⟩ := @default_blockScopes s2 b only
    refine ⟨sink, egress, h1, h2, ?_⟩
    refine List.map_injective_iff.mpr (fun _ _ he => BlockScope.pair_injective he) ?_
    rw [userless_pairs h1, userless_pairs h2]
    unfold readPairs
    refine List.flatMap_congr fun x hx => ?_
    rcases mem_userlessReaders hx with rfl | rfl
    · dsimp only
      rw [hs]
    · dsimp only
      rw [hi]

end

/-! ## what the match carries -/

section
variable {b : Builtins} {event : List (Str × Json)}

theorem cleanWord_eq_iff {s t : Str} : cleanWord s = cleanWord t ↔ strip s = strip t := by
  unfold cleanWord
  constructor
  · intro h
    by_cases hs : strip s = [] <;> by_cases ht : strip t = []
    · rw [hs, ht]
    · rw [if_pos hs, if_neg ht] at h
      cases h
    · rw [if_neg hs, if_pos ht] at h
      cases h
    · rw [if_neg hs, if_neg ht] at h
      exact Option.some.inj h
  · intro h
    rw [h]

theorem cleanWord_of_ne {s : Str} (h : strip s ≠ []) : cleanWord s = some (strip s) := by
  unfold cleanWord
  rw [if_neg h]

/-- the address of the event, the session and the user apart from the actor -/
theorem event_words (hw : Worded event) :
    (cleanKey b (getItem (str "srcip") (RuleEvent.fromMapping b event).toDict)
        = cleanWord (either (wordOf (getItem (str "srcip") event))
          (wordOf (getItem (str "source.address") event)))) ∧
      ((RuleEvent.fromMapping b event).source b).address
        = either (wordOf (getItem (str "source.address") event))
          (wordOf (getItem (str "srcip") event)) := by
  have hraw := hw.fields (str "srcip") (by decide)
  have hotel := hw.fields (str "source.address") (by decide)
  obtain ⟨ht, he⟩ := @getItem_worded b event (str "source.address") (str "srcip") (by decide)
    (by decide) hotel hraw
  constructor
  · rw [RuleEvent.toDict, cleanKey_text ht, he]
    rfl
  · unfold RuleEvent.source
    dsimp only
    rw [getItem_unaliased (by decide) (by decide)]
    obtain ⟨ht', he'⟩ := @orGet_text b _ _ hotel ht
    rw [textOf_text ht', he', he]
    unfold either
    by_cases ha : wordOf (getItem (str "source.address") event) = []
    · rw [if_pos ha, if_pos ha]
      split
      · rename_i hr
        rw [ha, hr]
      · rfl
    · rw [if_neg ha, if_neg ha]

theorem session_words (hw : Worded event) :
    Text (getItem (str "session_id") (RuleEvent.fromMapping b event).fields) :=
  (@getItem_worded b event (str "session.id") (str "session_id") (by decide) (by decide)
    (hw.fields _ (by decide)) (hw.fields _ (by decide))).1

theorem user_words (hw : Worded event) :
    Text (getItem (str "user_id") (RuleEvent.fromMapping b event).fields) ∧
      wordOf (getItem (str "user_id") (RuleEvent.fromMapping b event).fields) = userWord event :=
  @getItem_worded b event (str "user.id") (str "user_id") (by decide) (by decide)
    (hw.fields _ (by decide)) (hw.fields _ (by decide))

theorem userKey_of_word {summary : Summary} (ht : Text (getItem (str "user_id") summary))
    (hne : strip (wordOf (getItem (str "user_id") summary)) ≠ []) :
    userKey b summary = some (strip (wordOf (getItem (str "user_id") summary))) := by
  unfold userKey
  rw [cleanKey_text ht, cleanWord_of_ne hne]
  rfl

theorem userKey_of_actor {summary : Summary} {actor : List (Str × Json)}
    (ht : Text (getItem (str "user_id") summary))
    (hblank : strip (wordOf (getItem (str "user_id") summary)) = [])
    (hactor : getItem (str "actor") summary = some (.obj actor))
    (hid : Text (getItem (str "id") actor)) (hne : strip (wordOf (getItem (str "id") actor)) ≠ []) :
    userKey b summary = some (strip (wordOf (getItem (str "id") actor))) := by
  have hnone : cleanWord (wordOf (getItem (str "user_id") summary)) = none := by
    unfold cleanWord
    rw [if_pos hblank]
  unfold userKey actorKeys
  rw [cleanKey_text ht, hnone, hactor]
  dsimp only
  rw [cleanKey_text hid, cleanWord_of_ne hne]
  rfl

theorem actor_unaliased : getItem (str "actor") (RuleEvent.fromMapping b event).fields
    = getItem (str "actor") event := getItem_unaliased (by decide) (by decide)

/-- the actor of an event, as the rules read it -/
theorem actor_id (hw : Worded event) : ((RuleEvent.fromMapping b event).actor b).id
    = match getItem (str "actor") event with
      | some (.obj actor) => either (wordOf (getItem (str "id") actor)) (userWord event)
      | _ => userWord event := by
  obtain ⟨ht, hu⟩ := @user_words b event hw
  have htext := @textOf_text b _ ht
  rw [hu] at htext
  unfold RuleEvent.actor
  rw [actor_unaliased]
  rcases ha : getItem (str "actor") event with _ | v
  · exact htext
  · rcases hw.actor v ha with hv | ⟨actor, rfl, hid⟩
    · cases v with
      | string s => exact htext
      | _ => cases hv
    · obtain ⟨htid, hword⟩ := @orGet_text b _ _ hid ht
      rw [hu] at hword
      dsimp only
      rw [textOf_text htid, hword]
      rfl

/-- the user of the match is the one blocked, unless its actor contradicts it -/
theorem user_same (hw : Worded event) :
    (strip ((RuleEvent.fromMapping b event).actor b).id ≠ [] →
      userKey b (RuleEvent.fromMapping b event).toDict
        = some (strip ((RuleEvent.fromMapping b event).actor b).id)) ↔
    ∀ actor, getItem (str "actor") event = some (.obj actor) →
      strip (wordOf (getItem (str "id") actor)) = [] ∨ strip (userWord event) = [] ∨
        strip (userWord event) = strip (wordOf (getItem (str "id") actor)) := by
  obtain ⟨ht, hu⟩ := @user_words b event hw
  have huser : strip (userWord event) ≠ [] →
      userKey b (RuleEvent.fromMapping b event).toDict = some (strip (userWord event)) := by
    rw [← hu]
    exact userKey_of_word ht
  rw [actor_id hw]
  rcases ha : getItem (str "actor") event with _ | v
  · exact iff_of_true huser (fun actor h0 => by cases h0)
  · rcases hw.actor v ha with hv | ⟨actor, rfl, hid⟩
    · cases v with
      | string s => exact iff_of_true huser (fun actor h0 => by cases h0)
      | _ => cases hv
    · refine Iff.trans ?_ ⟨fun h a0 h0 => by cases h0; exact h, fun h => h actor rfl⟩
      dsimp only
      unfold either
      by_cases hi : wordOf (getItem (str "id") actor) = []
      · rw [if_pos hi]
        exact iff_of_true huser (.inl (by rw [hi]; rfl))
      · rw [if_neg hi]
        constructor
        · intro h
          by_cases hni : strip (wordOf (getItem (str "id") actor)) = []
          · exact .inl hni
          · by_cases hnu : strip (userWord event) = []
            · exact .inr (.inl hnu)
            · exact .inr (.inr (Option.some.inj ((huser hnu).symm.trans (h hni))))
        · rintro (h | h | h) hne
          · exact absurd h hne
          · exact userKey_of_actor ht (by rw [← hu] at h; exact h) (actor_unaliased.trans ha) hid hne
          · rw [← h] at hne ⊢
            exact huser hne

theorem either_same {r a : Str} :
    strip (either a r) = strip (either r a) ↔ r = [] ∨ a = [] ∨ strip r = strip a := by
  unfold either
  by_cases hr : r = [] <;> by_cases ha : a = []
  · rw [hr, ha]
    exact iff_of_true rfl (.inl rfl)
  · rw [if_neg ha, if_pos hr]
    exact iff_of_true rfl (.inl hr)
  · rw [if_pos ha, if_neg hr]
    exact iff_of_true rfl (.inr (.inl ha))
  · rw [if_neg ha, if_neg hr]
    exact ⟨fun h => .inr (.inr h.symm),
      fun h => ((h.resolve_left hr).resolve_left ha).symm⟩

/-- **a rule detects the identity that is blocked**, exactly when no two spellings of the address
or of the user contradict each other -/
theorem same_identity (hw : Worded event) (ruleName : Str) (severity now : Int) (message : Str)
    (tags : List Str) (metadata : List (Key × Value)) (decision subject : Option Str) :
    SameIdentity b (RuleEvent.fromMapping b event) (makeMatch b ruleName severity now message
        (RuleEvent.fromMapping b event) tags metadata decision subject) ↔
      SpelledAlike event := by
  obtain ⟨hkey, haddr⟩ := @event_words b event hw
  have hsession := @session_words b event hw
  have hm1 : orEmpty (makeMatch b ruleName severity now message (RuleEvent.fromMapping b event) tags
      metadata decision subject).srcip = either (wordOf (getItem (str "source.address") event))
        (wordOf (getItem (str "srcip") event)) := (orEmpty_orNone _).trans haddr
  have hm2 : orEmpty (makeMatch b ruleName severity now message (RuleEvent.fromMapping b event) tags
      metadata decision subject).userId = ((RuleEvent.fromMapping b event).actor b).id :=
    orEmpty_orNone _
  have hm3 : orEmpty (makeMatch b ruleName severity now message (RuleEvent.fromMapping b event) tags
      metadata decision subject).sessionId
        = wordOf (getItem (str "session_id") (RuleEvent.fromMapping b event).fields) :=
    (orEmpty_orNone _).trans (textOf_text hsession)
  have hblocks : ∀ m : RuleMatch, cleanKey b (getItem (str "srcip") (Enforcer.matchSummary m))
        = cleanWord (orEmpty m.srcip) ∧
      cleanKey b (getItem (str "session_id") (Enforcer.matchSummary m))
        = cleanWord (orEmpty m.sessionId) := fun m => ⟨rfl, rfl⟩
  constructor
  · intro h
    refine ⟨?_, ?_⟩
    · have hip := (blocks_iff.mp h.blocks).2
      rw [(hblocks _).1, hm1, hkey, cleanWord_eq_iff] at hip
      exact either_same.mp hip
    · refine (@user_same b event hw).mp fun hne => ?_
      rw [← hm2] at hne
      obtain hk := (exists_keysUnder user_reader).mp (h.user hne)
      rw [hm2] at hk
      exact hk
  · intro h
    have hsame := either_same.mpr h.address
    refine ⟨fun hne => ?_, fun hne => ?_, fun hne => ?_, blocks_iff.mpr ⟨?_, ?_⟩⟩
    · rw [hm1] at hne ⊢
      refine (exists_keysUnder ip_reader).mpr ?_
      rw [hkey, cleanWord_eq_iff.mpr hsame.symm]
      exact cleanWord_of_ne hne
    · rw [hm2] at hne ⊢
      exact (exists_keysUnder user_reader).mpr ((@user_same b event hw).mpr h.user hne)
    · rw [hm3] at hne ⊢
      refine (exists_keysUnder session_reader).mpr ?_
      exact (cleanKey_text hsession).trans (cleanWord_of_ne hne)
    · rw [(hblocks _).2, hm3]
      exact (cleanKey_text hsession).symm
    · rw [(hblocks _).1, hm1, hkey, cleanWord_eq_iff]
      exact hsame

end

/-! ## on an event with two addresses -/

def addressed (dotted raw : String) : List (Str × Json) :=
  [(str "source.address", .string (str dotted)), (str "srcip", .string (str raw))]

theorem addressed_worded (dotted raw : String) : Worded (addressed dotted raw) where
  fields k hk := by
    simp only [IDENTITY_FIELDS, List.mem_cons, List.not_mem_nil, or_false] at hk
    rcases hk with rfl | rfl | rfl | rfl | rfl | rfl <;> intro x hx <;>
      first | (cases hx; rfl) | cases hx
  actor v hv := nomatch hv

/-- the match of such an event -/
def addressedMatch (dotted raw : String) : RuleMatch :=
  makeMatch .sample (str "burst") 8 1000 (str "found") (RuleEvent.fromMapping .sample
    (addressed dotted raw)) [] [] none none

theorem same_identity_addressed : SameIdentity .sample
    (RuleEvent.fromMapping .sample (addressed "1.1.1.1" " 1.1.1.1"))
    (addressedMatch "1.1.1.1" " 1.1.1.1") :=
  (same_identity (addressed_worded _ _) _ _ _ _ _ _ _ _).mpr
    ⟨.inr (.inr (by decide +kernel)), fun actor h => nomatch h⟩

/-- the match carries the dotted address, the event is blocked under the raw one -/
theorem identity_differs : ¬ SameIdentity .sample
    (RuleEvent.fromMapping .sample (addressed "1.1.1.1" "2.2.2.2"))
    (addressedMatch "1.1.1.1" "2.2.2.2") := by
  intro h
  have hip := (exists_keysUnder ip_reader).mp (h.ip (by decide +kernel))
  exact absurd hip (by decide +kernel)

end SecAudit
