import Mathlib.Data.List.Dedup
import Mathlib.Data.List.Sort
import SecAudit.Rules.Calls

/-!
# Changes of sensitive fields

* `RuleEvent.model` the model fields of an event;
* `SensitiveFieldChangeRule`  reports the sensitive ones of the fields that were changed;
* `matched_iff`     the fields it reports, `matched_sorted` in their order;
* `evaluate_tells`  when it reports an event, and what.
-/

set_option linter.unusedVariables false

namespace SecAudit
open Py

/-! ## the model fields -/

structure ModelFields where
  label : Str
  name : Str
  appLabel : Str
  objectId : Str
  crudAction : Str

/-- `model` of an event -/
def RuleEvent.model (b : Builtins) (e : RuleEvent) : ModelFields :=
  ⟨RuleEvent.textOf b (getItem (str "model_label") e.fields),
    RuleEvent.textOf b (getItem (str "model") e.fields),
    RuleEvent.textOf b (getItem (str "app_label") e.fields),
    RuleEvent.textOf b (getItem (str "object_id") e.fields),
    RuleEvent.textOf b (getItem (str "crud_action") e.fields)⟩

/-! ## the rule -/

/-- the sets hold names in lower case -/
structure SensitiveFieldChangeRule where
  fields : List Str
  modelLabels : List Str
  severity : Int
  message : Str
  tags : List Str

namespace SensitiveFieldChangeRule

def rule : Rule where
  name := str "sensitive_field_change"
  eventTypes := some [str "model.update"]

section
-- `str.lower`
variable (lower : Str → Str)

/-- the constructor -/
def make (fields : List Str) (modelLabels : List Str := []) (severity : Option Int := none)
    (message : Str := str "Sensitive model fields were changed")
    (tags : List Str := [str "model", str "sensitive-change"]) : SensitiveFieldChangeRule :=
  ⟨fields.map lower, modelLabels.map lower, severity.getD 7, message, tags⟩

variable (b : Builtins)

/-- `_changed_fields` -/
def changedFields : Option Json → List Str
  | none => []
  | some (.string s) => [lower s]
  | some (.arr l) => l.map fun field => lower (strOf b field)
  | some (.obj l) => l.map fun p => lower p.1
  | some _ => []

variable (self : SensitiveFieldChangeRule)

/-- `tuple(sorted(changed.intersection(self.fields)))` -/
def matched (changed : List Str) : List Str :=
  ((changed.filter fun f => decide (f ∈ self.fields)).dedup).insertionSort (· ≤ ·)

/-- the models with this label are watched -/
def watches (label : Str) : Bool := self.modelLabels.isEmpty || decide (label ∈ self.modelLabels)

def evaluate (event : RuleEvent) (ctx : RuleContext) : Outcome :=
  let modelLabel := lower (event.model b).label
  if !self.watches modelLabel then .none
  else
    let found := self.matched (changedFields lower b (event.field (str "changed_fields")))
    if found = [] then .none
    else .found (makeMatch b rule.name self.severity ctx.now self.message event self.tags
      [(.str (str "changed_fields"), .seq (found.map .str)),
        (.str (str "model_label"), .str modelLabel)] none (orNone (event.model b).objectId))

end

/-! ## what is reported -/

section
variable {lower : Str → Str} {b : Builtins} {self : SensitiveFieldChangeRule}
  {changed : List Str} {event : RuleEvent} {ctx : RuleContext}

theorem matched_iff {f : Str} : f ∈ self.matched changed ↔ f ∈ changed ∧ f ∈ self.fields := by
  unfold matched
  rw [List.mem_insertionSort, List.mem_dedup, List.mem_filter, decide_eq_true_eq]

theorem matched_sorted : (self.matched changed).Pairwise (· < ·) := by
  have hsorted : (self.matched changed).Pairwise (· ≤ ·) := List.pairwise_insertionSort _ _
  have hnodup : (self.matched changed).Nodup :=
    (List.perm_insertionSort _ _).nodup_iff.mpr (List.nodup_dedup _)
  exact hsorted.imp₂ (fun _ _ hle hne => lt_of_le_of_ne hle hne) hnodup

theorem matched_ne : self.matched changed ≠ [] ↔ ∃ f ∈ changed, f ∈ self.fields := by
  rw [ne_eq, List.eq_nil_iff_forall_not_mem, not_forall_not]
  exact exists_congr fun f => matched_iff

/-- what the rule tells of an event -/
structure Tells (r : SensitiveFieldChangeRule) (label : Str) (changed : List Str) (subject : Str)
    (outcome : Outcome) : Prop where
  iff : (∃ m, outcome = .found m) ↔ r.watches label = true ∧ ∃ f ∈ changed, f ∈ r.fields
  told : ∀ m, outcome = .found m → m.ruleName = rule.name ∧ m.subject = orNone subject ∧
    ∃ found : List Str, m.metadata = [(.str (str "changed_fields"), .seq (found.map .str)),
        (.str (str "model_label"), .str label)] ∧
      found.Pairwise (· < ·) ∧ ∀ f, f ∈ found ↔ f ∈ changed ∧ f ∈ r.fields

theorem evaluate_tells : self.Tells (lower (event.model b).label)
    (changedFields lower b (event.field (str "changed_fields"))) (event.model b).objectId
    (self.evaluate lower b event ctx) := by
  unfold evaluate
  dsimp only
  split
  · rename_i hw
    rw [Bool.not_eq_true'] at hw
    refine ⟨iff_of_false ?_ ?_, fun m hm => by cases hm⟩
    · rintro ⟨m, hm⟩
      cases hm
    · rw [hw]
      exact fun h => Bool.false_ne_true h.1
  · rename_i hw
    rw [Bool.not_eq_true', Bool.not_eq_false] at hw
    split
    · rename_i hnil
      refine ⟨iff_of_false ?_ ?_, fun m hm => by cases hm⟩
      · rintro ⟨m, hm⟩
        cases hm
      · exact fun h => matched_ne.mpr h.2 hnil
    · rename_i hne
      refine ⟨iff_of_true ⟨_, rfl⟩ ⟨hw, matched_ne.mp hne⟩, ?_⟩
      intro m hm
      obtain rfl := Outcome.found.inj hm
      exact ⟨rfl, rfl, _, rfl, matched_sorted, fun f => matched_iff⟩

end

end SensitiveFieldChangeRule

end SecAudit
