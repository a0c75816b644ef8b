import SecAudit.Core.Projection

/-!
# Which values the scrubber and the projection get through

* `admits`          a value with no set, no unreadable container and no unreadable key outside what
                    is redacted, nested no deeper than the stack allows;
* `presents`        the same for the projection: what is beyond its limits is not looked at, and in
                    strict mode only JSON has a form;
* `scrub_ok_iff`, `project_ok_iff`  these are the values they return something for.
-/

set_option linter.unusedVariables false

namespace SecAudit
open Py

theorem isOk_map {α β : Type} (f : α → β) (x : Except Exc α) : isOk (x.map f) = isOk x := by
  cases x <;> rfl

/-- both parts, one after the other -/
theorem isOk_bind_pure {α β γ : Type} (x : Except Exc α) (y : Except Exc β) (f : α → β → γ) :
    isOk (x.bind fun a => y.bind fun b => .ok (f a b)) = (isOk x && isOk y) := by
  cases x <;> cases y <;> rfl

/-! ## the scrubber -/

section
variable (red : Redaction)

mutual
/-- the scrubber gets through the value in `frames` nested calls -/
def admits (frames : Nat) : Value → Bool
  | .set _ => false
  | .mapping l => match frames with
    | 0 => false
    | n + 1 => admitsItems n l
  | .seq l => match frames with
    | 0 => false
    | n + 1 => admitsElems n l
  | .broken _ => false
  | _ => true

def admitsItems (frames : Nat) : List (Key × Value) → Bool
  | [] => true
  | (k, v) :: l => (match red.isSensitiveKey k with
    | .error _ => false
    | .ok sensitive => sensitive || admits frames v) && admitsItems frames l

def admitsElems (frames : Nat) : List Value → Bool
  | [] => true
  | v :: l => admits frames v && admitsElems frames l
end

variable {red}

mutual
theorem isOk_scrub : ∀ (v : Value) (n : Nat), isOk (scrub red n v) = admits red n v
  | .none, _ => rfl
  | .bool _, _ => rfl
  | .int _, _ => rfl
  | .float _, _ => rfl
  | .const _, _ => rfl
  | .str _, _ => rfl
  | .bytes _ _, _ => rfl
  | .set _, _ => rfl
  | .loop _, _ => rfl
  | .text _ _, _ => rfl
  | .enum _ _, _ => rfl
  | .object _ _, _ => rfl
  | .broken _, _ => rfl
  | .mapping l, 0 => rfl
  | .seq l, 0 => rfl
  | .mapping l, n + 1 => (isOk_map Value.mapping (scrubItems red n l)).trans (isOk_scrubItems l n)
  | .seq l, n + 1 => (isOk_map Value.seq (scrubElems red n l)).trans (isOk_scrubElems l n)

theorem isOk_scrubItems : ∀ (l : List (Key × Value)) (n : Nat),
    isOk (scrubItems red n l) = admitsItems red n l
  | [], _ => rfl
  | (k, v) :: l, n => by
    rw [scrubItems, admitsItems, ← isOk_scrubItems l n]
    rcases red.isSensitiveKey k with e | sensitive
    · rfl
    · cases sensitive with
      | true => exact isOk_bind_pure (.ok (Value.str REDACTED)) _ fun w l' => (k, w) :: l'
      | false =>
        show _ = (admits red n v && _)
        rw [← isOk_scrub v n]
        exact isOk_bind_pure (scrub red n v) _ fun w l' => (k, w) :: l'

theorem isOk_scrubElems : ∀ (l : List Value) (n : Nat),
    isOk (scrubElems red n l) = admitsElems red n l
  | [], _ => rfl
  | v :: l, n => by
    rw [scrubElems, admitsElems, ← isOk_scrub v n, ← isOk_scrubElems l n]
    exact isOk_bind_pure (scrub red n v) (scrubElems red n l) List.cons
end

theorem scrubItems_ok_iff {l : List (Key × Value)} {n : Nat} :
    (∃ l', scrubItems red n l = .ok l') ↔ admitsItems red n l = true := by
  rw [← isOk_scrubItems, isOk_iff]

end

/-! ## the projection -/

section
variable (limits : ProjectionLimits) (strict : Bool)

mutual
/-- the projection gets through the value at `depth` in `frames` nested calls -/
def presents (frames depth : Nat) (v : Value) : Bool :=
  decide (limits.maxDepth ≤ depth) || match v with
    | .const _ => !strict
    | .bytes _ mutable => !(mutable && strict)
    | .enum _ v => match frames with
      | 0 => false
      | n + 1 => presents n 0 v
    | .mapping l => match frames with
      | 0 => false
      | n + 1 => presentsItems n (depth + 1) limits.maxMappingEntries l
    | .set _ => !strict
    | .seq l => match frames with
      | 0 => false
      | n + 1 => presentsElems n (depth + 1) limits.maxSequenceLength l
    | .object _ _ => !strict
    | .broken _ => false
    | _ => true
termination_by structural v

def presentsItems (frames depth room : Nat) : List (Key × Value) → Bool
  | [] => true
  | (k, v) :: l => match room with
    | 0 => true
    | room + 1 => isOk k.text && (presents frames depth v && presentsItems frames depth room l)
termination_by structural l => l

def presentsElems (frames depth room : Nat) : List Value → Bool
  | [] => true
  | v :: l => match room with
    | 0 => true
    | room + 1 => presents frames depth v && presentsElems frames depth room l
termination_by structural l => l
end

variable {limits strict}

theorem isOk_refuse (error text : Str) : isOk (refuse strict error text) = !strict := by
  cases strict <;> rfl

mutual
theorem isOk_project : ∀ (v : Value) (n d : Nat),
    isOk (project limits strict n d v) = presents limits strict n d v
  | v, n, d => by
    unfold project presents
    by_cases hd : limits.maxDepth ≤ d
    · rw [if_pos hd, decide_eq_true hd]
      rfl
    rw [if_neg hd, decide_eq_false hd, Bool.false_or]
    cases v with
    | const c => exact isOk_refuse _ _
    | bytes data mutable =>
      cases mutable with
      | false => rfl
      | true => exact isOk_refuse _ _
    | enum name v =>
      cases n with
      | zero => rfl
      | succ n => exact isOk_project v n 0
    | mapping l =>
      cases n with
      | zero => rfl
      | succ n => exact (isOk_map ..).trans (isOk_projectItems l n (d + 1) _ [])
    | loop isMapping => cases isMapping <;> rfl
    | set name => exact isOk_refuse _ _
    | seq l =>
      cases n with
      | zero => rfl
      | succ n => exact (isOk_map ..).trans (isOk_projectElems l n (d + 1) _)
    | object module name => exact isOk_refuse _ _
    | _ => rfl

theorem isOk_projectItems : ∀ (l : List (Key × Value)) (n d room : Nat)
    (projected : List (Str × Json)),
    isOk (projectItems limits strict n d room projected l) = presentsItems limits strict n d room l
  | [], _, _, _, _ => rfl
  | (k, v) :: l, n, d, 0, projected => rfl
  | (k, v) :: l, n, d, room + 1, projected => by
    rw [projectItems, presentsItems, ← isOk_project v n d]
    rcases k.text with e | key
    · rfl
    · rcases project limits strict n d v with e | item
      · rfl
      · exact isOk_projectItems l n d room _

theorem isOk_projectElems : ∀ (l : List Value) (n d room : Nat),
    isOk (projectElems limits strict n d room l) = presentsElems limits strict n d room l
  | [], _, _, _ => rfl
  | v :: l, n, d, 0 => rfl
  | v :: l, n, d, room + 1 => by
    rw [projectElems, presentsElems, ← isOk_project v n d, ← isOk_projectElems l n d room]
    exact isOk_bind_pure _ _ List.cons
end

/-- **what the projection returns something for** -/
theorem project_ok_iff {v : Value} {n d : Nat} :
    (∃ j, project limits strict n d v = .ok j) ↔ presents limits strict n d v = true := by
  rw [← isOk_project, isOk_iff]

theorem projectItems_ok_iff {l : List (Key × Value)} {n d room : Nat}
    {projected : List (Str × Json)} :
    (∃ j, projectItems limits strict n d room projected l = .ok j) ↔
      presentsItems limits strict n d room l = true := by
  rw [← isOk_projectItems, isOk_iff]

end

end SecAudit
