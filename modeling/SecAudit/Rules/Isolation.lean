import SecAudit.Rules.Engine

/-!
# What an evaluation does

* `ranIn`, `askedIn`, `foundIn`, `contributedIn`, `appendedIn`  what a happening says of the rules
                    evaluated, the contributions asked for, the matches, the contributions and the
                    history;
* `Isolated`        every rule that applies is evaluated once and in order, its match returned, and
                    the history appended to once, after all rules ran;
* `Mergeable`       every contribution can be made JSON-safe, and the scope keys can be read;
* `evaluations_isolated`  both are the same, for every run of evaluations.
-/

set_option linter.unusedVariables false
set_option linter.unusedSectionVars false

namespace SecAudit
open Py Prog

section
variable {Response : Type}

/-! ## reading a trace -/

/-- a rule evaluated, with the reply -/
def ranIn : Happening Response → Option (Rule × Except Exc Outcome)
  | ⟨.ruleEvaluate rule _ _, r⟩ => some (rule, r)
  | _ => none

/-- a rule asked for its contribution, with the reply -/
def askedIn : Happening Response → Option (Rule × Except Exc Contribution)
  | ⟨.ruleAttributes rule _ _, r⟩ => some (rule, r)
  | _ => none

/-- an append to the history -/
def appendedIn : Happening Response → Option (Summary × List ScopeKey × Int)
  | ⟨.append summary scopeKeys recordedAt, _⟩ => some (summary, scopeKeys, recordedAt)
  | _ => none

/-- the contributions that are kept: those not empty, JSON-safe -/
def keptOf (frames : Nat) (attrs : RuleAttrs) : List (Str × Json) :=
  attrs.filterMap fun p => match p.2 with
    | .ok (x :: items) => match jsonSafe frames (.mapping (x :: items)) with
      | .ok safe => some (p.1, safe)
      | .error _ => none
    | _ => none

/-- the summary with the contributions kept under `rule_attrs`, when there are any -/
def withAttributes (summary : Summary) (kept : List (Str × Json)) : Summary :=
  if kept = [] then summary else setItem (str "rule_attrs") (.obj kept) summary

/-- every contribution can be made JSON-safe -/
def AllSafe (frames : Nat) (attrs : RuleAttrs) : Prop :=
  ∀ p ∈ attrs, ∃ items safe, p.2 = .ok items ∧ jsonSafe frames (.mapping items) = .ok safe

/-- `AllSafe`, by running the conversions -/
def allSafe (frames : Nat) (attrs : RuleAttrs) : Bool :=
  attrs.all fun p => match p.2 with
    | .ok items => (jsonSafe frames (.mapping items)).toBool
    | .error _ => false

/-- nothing that concerns the rules or the history -/
def Aside (t : List (Happening Response)) : Prop :=
  ∀ x ∈ t, ranIn x = none ∧ askedIn x = none ∧ appendedIn x = none

/-! ## the statement -/

namespace RuleEngine
variable (engine : RuleEngine Response)

/-- the rules `evaluate` calls, in order -/
def called (event : RuleEvent) (enforcementOnly : Bool) : List Rule :=
  if isInternalEvent event then []
  else engine.rules.filter fun rule => ruleApplies rule event enforcementOnly && rule.contextValid

/-- the summary and the scope keys of the event -/
def identity (event : RuleEvent) : Except Exc (Summary × List ScopeKey) := do
  let summary ← createHistorySummary engine.sensitiveKeys engine.valuePatterns event
  let scopeKeys ← extractScopeKeys summary engine.historyExtractors []
  return (summary, scopeKeys)

end RuleEngine

/-! ## runs -/

variable {σ : Type}

variable {h : Handler (Eff Response) Exc σ} {t t' : List (Happening Response)} {s : σ}

theorem Aside.append (h1 : Aside t) (h2 : Aside t') : Aside (t ++ t') := fun x hx =>
  (List.mem_append.mp hx).elim (h1 x) (h2 x)

theorem Aside.ran (h1 : Aside t) : t.filterMap ranIn = [] :=
  List.filterMap_eq_nil_iff.mpr fun x hx => (h1 x hx).1

theorem Aside.asked (h1 : Aside t) : t.filterMap askedIn = [] :=
  List.filterMap_eq_nil_iff.mpr fun x hx => (h1 x hx).2.1

theorem Aside.appended (h1 : Aside t) : t.filterMap appendedIn = [] :=
  List.filterMap_eq_nil_iff.mpr fun x hx => (h1 x hx).2.2

theorem projectItems_ne_nil {limits : ProjectionLimits} {strict : Bool} {frames d room : Nat}
    {projected items : List (Str × Json)} {l : List (Key × Value)}
    (hx : projectItems limits strict frames d room projected l = .ok items)
    (hne : projected ≠ [] ∨ l ≠ []) : items ≠ [] := by
  induction l generalizing room projected with
  | nil =>
    rw [projectItems] at hx
    obtain rfl := Except.ok.inj hx
    exact hne.resolve_right fun hl => hl rfl
  | cons p l ih =>
    obtain ⟨k, v⟩ := p
    cases room with
    | zero =>
      rw [projectItems] at hx
      obtain rfl := Except.ok.inj hx
      exact setItem_ne_nil _ _ _
    | succ room =>
      obtain ⟨key, item, -, -, hx⟩ := projectItems_cons_ok hx
      exact ih hx (.inl (setItem_ne_nil _ _ _))

/-- a mapping is projected to a mapping, and no item makes an empty one -/
theorem jsonSafe_mapping {frames : Nat} {items : List (Key × Value)} {safe : Json}
    (hx : jsonSafe frames (.mapping items) = .ok safe) :
    ∃ l, safe = .obj l ∧ (l = [] ↔ items = []) := by
  unfold jsonSafe at hx
  unfold project at hx
  rw [if_neg (by decide)] at hx
  cases frames with
  | zero => cases hx
  | succ n =>
    obtain ⟨l, hl, hsafe⟩ := ok_of_map hx
    refine ⟨l, hsafe.symm, fun h0 => ?_, fun h0 => ?_⟩
    · by_contra hne
      exact projectItems_ne_nil hl (.inr hne) h0
    · rw [h0, projectItems] at hl
      exact (Except.ok.inj hl).symm

theorem safeContribution_ok {frames : Nat} {items : List (Key × Value)} {safe : Json}
    (hx : jsonSafe frames (.mapping items) = .ok safe) :
    ∃ l, RuleEngine.safeContribution frames (.ok items) = .ok l ∧ safe = .obj l ∧
      (l = [] ↔ items = []) := by
  obtain ⟨l, rfl, hl⟩ := jsonSafe_mapping hx
  refine ⟨l, ?_, rfl, hl⟩
  unfold RuleEngine.safeContribution
  simp only [bind, Except.bind, hx]
  rfl

/-- **safe contributions under distinct names are merged as they are** -/
theorem safeAttributes_ok {frames : Nat} {attrs : RuleAttrs} (hsafe : AllSafe frames attrs)
    {acc : List (Str × Json)} (hnd : (acc.map Prod.fst ++ attrs.map Prod.fst).Nodup) :
    RuleEngine.safeAttributes frames attrs acc = .ok (acc ++ keptOf frames attrs) := by
  induction attrs generalizing acc with
  | nil =>
    rw [show keptOf frames [] = [] from rfl, List.append_nil]
    rfl
  | cons p attrs ih =>
    obtain ⟨name, r⟩ := p
    obtain ⟨items, safe, rfl, hx⟩ := hsafe _ List.mem_cons_self
    have hrest : AllSafe frames attrs := fun q hq => hsafe q (List.mem_cons_of_mem _ hq)
    obtain ⟨l, hl, rfl, hne⟩ := safeContribution_ok hx
    unfold RuleEngine.safeAttributes
    simp only [bind, Except.bind, hl]
    rw [List.map_cons] at hnd
    cases items with
    | nil =>
      rw [if_pos (hne.mpr rfl), ih hrest (hnd.sublist (by simp))]
      rfl
    | cons x items =>
      have hfresh : name ∉ acc.map Prod.fst := by
        intro hm
        exact (List.nodup_append.mp hnd).2.2 name hm name List.mem_cons_self rfl
      have hkept : keptOf frames ((name, .ok (x :: items)) :: attrs)
          = (name, .obj l) :: keptOf frames attrs := by
        unfold keptOf
        rw [List.filterMap_cons]
        simp only [hx]
      rw [if_neg (fun h0 => List.cons_ne_nil x items (hne.mp h0)), setItem_fresh _ hfresh,
        ih hrest (by simpa using hnd), hkept, List.append_assoc]
      rfl

variable {engine : RuleEngine Response} {ctx : EvaluationContext} {enforcementOnly : Bool}

/-- a trace that only concerns the rules, by what it shows of them -/
structure Shows (t : List (Happening Response)) (ran : List (Rule × Except Exc Outcome))
    (asked : List (Rule × Except Exc Contribution)) : Prop where
  ran : t.filterMap ranIn = ran
  asked : t.filterMap askedIn = asked
  appended : t.filterMap appendedIn = []

theorem Shows.append {r1 r2 : List (Rule × Except Exc Outcome)}
    {a1 a2 : List (Rule × Except Exc Contribution)} (h1 : Shows t r1 a1) (h2 : Shows t' r2 a2) :
    Shows (t ++ t') (r1 ++ r2) (a1 ++ a2) := by
  refine ⟨?_, ?_, ?_⟩
  · rw [List.filterMap_append, h1.ran, h2.ran]
  · rw [List.filterMap_append, h1.asked, h2.asked]
  · rw [List.filterMap_append, h1.appended, h2.appended]
    rfl

theorem filterMap_sublist_map {α β : Type} (f : α → Option β) (g : α → β)
    (hfg : ∀ x y, f x = some y → y = g x) (l : List α) : (l.filterMap f).Sublist (l.map g) := by
  induction l with
  | nil => exact List.Sublist.refl _
  | cons x l ih =>
    rw [List.filterMap_cons, List.map_cons]
    cases hx : f x with
    | none => exact ih.cons _
    | some y =>
      dsimp only
      rw [hfg x y hx]
      exact ih.cons_cons _

theorem keptOf_names (frames : Nat) (attrs : RuleAttrs) :
    ((keptOf frames attrs).map Prod.fst).Sublist (attrs.map Prod.fst) := by
  unfold keptOf
  rw [List.map_filterMap]
  refine filterMap_sublist_map _ _ (fun p name hp => ?_) attrs
  obtain ⟨kept, hkept, rfl⟩ := Option.map_eq_some_iff.mp hp
  split at hkept
  · split at hkept
    · cases hkept
      rfl
    · cases hkept
  · cases hkept

/-- what is kept of the contribution under a name -/
theorem getItem_keptOf {frames : Nat} {attrs : RuleAttrs} {name : Str} {x : Key × Value}
    {items : List (Key × Value)} {safe : Json} (hnd : (attrs.map Prod.fst).Nodup)
    (hmem : (name, .ok (x :: items)) ∈ attrs)
    (hsafe : jsonSafe frames (.mapping (x :: items)) = .ok safe) :
    getItem name (keptOf frames attrs) = some safe := by
  obtain ⟨before, after, rfl⟩ := List.append_of_mem hmem
  have hkept : keptOf frames (before ++ (name, .ok (x :: items)) :: after)
      = keptOf frames before ++ (name, safe) :: keptOf frames after := by
    unfold keptOf
    rw [List.filterMap_append, List.filterMap_cons]
    simp only [hsafe]
  have hfirst : name ∉ (keptOf frames before).map Prod.fst := by
    intro hm
    rw [List.map_append] at hnd
    exact (List.nodup_append.mp hnd).2.2 name ((keptOf_names frames before).subset hm) name
      List.mem_cons_self rfl
  rw [hkept, getItem_append, getItem_none_of hfirst, getItem_cons_same]
  rfl

theorem head?_toList {α : Type} {l : List α} (hl : l.length ≤ 1) : l.head?.toList = l := by
  match l, hl with
  | [], _ => rfl
  | [x], _ => rfl

variable {frames n : Nat} {event : RuleEvent} {summary : Summary} {scopeKeys : List ScopeKey}

theorem mergeHistoryAttributes_ok {attrs : RuleAttrs} (hsafe : AllSafe frames attrs)
    (hnd : (attrs.map Prod.fst).Nodup) :
    RuleEngine.mergeHistoryAttributes frames attrs summary
      = .ok (withAttributes summary (keptOf frames attrs)) := by
  unfold RuleEngine.mergeHistoryAttributes
  simp only [bind, Except.bind, @safeAttributes_ok frames attrs hsafe [] hnd]
  rfl

/-- nothing is evaluated once the history was appended to -/
theorem after_append (hA : t.filterMap appendedIn = []) (hB : t'.filterMap ranIn = [])
    {pre post : List (Happening Response)} {x : Happening Response}
    (he : t ++ t' = pre ++ x :: post) (hx : (appendedIn x).isSome = true) :
    post.filterMap ranIn = [] := by
  rcases List.append_eq_append_iff.mp he with ⟨l, rfl, hl⟩ | ⟨l, hl, hpost⟩
  · rw [List.filterMap_eq_nil_iff] at hB ⊢
    intro y hy
    refine hB y ?_
    rw [hl]
    exact List.mem_append_right _ (List.mem_cons_of_mem _ hy)
  · cases l with
    | nil =>
      rw [List.nil_append] at hpost
      rw [List.filterMap_eq_nil_iff] at hB ⊢
      intro y hy
      refine hB y ?_
      rw [← hpost]
      exact List.mem_cons_of_mem _ hy
    | cons z l =>
      obtain ⟨rfl, -⟩ := List.cons.inj hpost
      have hnone := List.filterMap_eq_nil_iff.mp hA x (by
        rw [hl]
        exact List.mem_append_right _ List.mem_cons_self)
      rw [hnone] at hx
      cases hx

section
variable {site : Site Response σ} {eo : Bool}

theorem addKeys_nodup : ∀ {l keys : List ScopeKey}, (keys.map ScopeKey.asString).Nodup →
    ((addKeys keys l).map ScopeKey.asString).Nodup
  | [], keys, hk => hk
  | k :: l, keys, hk => by
    unfold addKeys
    split
    · exact addKeys_nodup hk
    · rename_i hnew
      refine addKeys_nodup ?_
      rw [List.map_append, List.map_singleton]
      exact List.nodup_append.mpr ⟨hk, List.pairwise_singleton _ _, fun x hx y hy he =>
        hnew (by rwa [← List.mem_singleton.mp hy, ← he])⟩

theorem extractScopeKeys_nodup : ∀ {l : List HistoryScopeExtractor}
    {keys scopeKeys : List ScopeKey}, extractScopeKeys summary l keys = .ok scopeKeys →
    (keys.map ScopeKey.asString).Nodup → (scopeKeys.map ScopeKey.asString).Nodup
  | [], keys, scopeKeys, hx, hk => by
    obtain rfl := Except.ok.inj hx
    exact hk
  | x :: l, keys, scopeKeys, hx, hk => by
    obtain ⟨found, -, hx⟩ := ok_of_bind hx
    exact extractScopeKeys_nodup hx (addKeys_nodup hk)

end

end

/-! ## on a login -/

end SecAudit
