import SecAudit.Core.Projection

/-!
# Values that neither the scrubber nor the projection stumble over

* `plain n v`       a tree of scalars under string keys that `n` nested calls can read;
* `depth`           the nested calls a JSON value needs;
* `scrub_plain`, `project_plain`  such a value is scrubbed, and projected, without an exception.
-/

set_option linter.unusedVariables false

namespace SecAudit
open Py

mutual
/-- scalars under string keys, not nested deeper than `n` -/
def plain (n : Nat) : Value → Bool
  | .none => true
  | .bool _ => true
  | .int _ => true
  | .float _ => true
  | .const _ => true
  | .str _ => true
  | .mapping l => match n with
    | 0 => false
    | n + 1 => plainItems n l
  | .seq l => match n with
    | 0 => false
    | n + 1 => plainElems n l
  | _ => false

def plainItems (n : Nat) : List (Key × Value) → Bool
  | [] => true
  | (.str _, v) :: l => plain n v && plainItems n l
  | (.other _, _) :: _ => false

def plainElems (n : Nat) : List Value → Bool
  | [] => true
  | v :: l => plain n v && plainElems n l
end

mutual
/-- how deep a JSON value is nested -/
def depth : Json → Nat
  | .arr l => depthElems l + 1
  | .obj l => depthItems l + 1
  | _ => 0

def depthElems : List Json → Nat
  | [] => 0
  | v :: l => max (depth v) (depthElems l)

def depthItems : List (Str × Json) → Nat
  | [] => 0
  | (_, v) :: l => max (depth v) (depthItems l)
end

mutual
theorem plain_ofJson : ∀ (v : Json) (n : Nat), depth v ≤ n → plain n (Value.ofJson v) = true
  | .null, _, _ => rfl
  | .bool _, _, _ => rfl
  | .int _, _, _ => rfl
  | .float _, _, _ => rfl
  | .const _, _, _ => rfl
  | .string _, _, _ => rfl
  | .arr l, 0, h => absurd h (Nat.not_succ_le_zero _)
  | .obj l, 0, h => absurd h (Nat.not_succ_le_zero _)
  | .arr l, n + 1, h => plain_ofElems l n (Nat.le_of_succ_le_succ h)
  | .obj l, n + 1, h => plain_ofItems l n (Nat.le_of_succ_le_succ h)

theorem plain_ofElems : ∀ (l : List Json) (n : Nat), depthElems l ≤ n →
    plainElems n (Value.ofElems l) = true
  | [], _, _ => rfl
  | v :: l, n, h => by
    show (plain n (Value.ofJson v) && plainElems n (Value.ofElems l)) = true
    rw [plain_ofJson v n ((Nat.le_max_left ..).trans h),
      plain_ofElems l n ((Nat.le_max_right ..).trans h)]
    rfl

theorem plain_ofItems : ∀ (l : List (Str × Json)) (n : Nat), depthItems l ≤ n →
    plainItems n (Value.ofItems l) = true
  | [], _, _ => rfl
  | (k, v) :: l, n, h => by
    show (plain n (Value.ofJson v) && plainItems n (Value.ofItems l)) = true
    rw [plain_ofJson v n ((Nat.le_max_left ..).trans h),
      plain_ofItems l n ((Nat.le_max_right ..).trans h)]
    rfl
end

section
variable {red : Redaction}

mutual
/-- **a plain value is scrubbed to a plain value** -/
theorem scrub_plain : ∀ (v : Value) (n : Nat), plain n v = true →
    ∃ w, scrub red n v = .ok w ∧ plain n w = true
  | .none, _, _ => ⟨_, rfl, rfl⟩
  | .bool _, _, _ => ⟨_, rfl, rfl⟩
  | .int _, _, _ => ⟨_, rfl, rfl⟩
  | .float _, _, _ => ⟨_, rfl, rfl⟩
  | .const _, _, _ => ⟨_, rfl, rfl⟩
  | .str _, _, _ => ⟨_, rfl, rfl⟩
  | .bytes _ _, _, h => by cases h
  | .set _, _, h => by cases h
  | .loop _, _, h => by cases h
  | .text _ _, _, h => by cases h
  | .enum _ _, _, h => by cases h
  | .object _ _, _, h => by cases h
  | .broken _, _, h => by cases h
  | .mapping l, 0, h => by cases h
  | .seq l, 0, h => by cases h
  | .mapping l, n + 1, h => by
    obtain ⟨l', hl, hp⟩ := scrubItems_plain l n h
    refine ⟨.mapping l', ?_, hp⟩
    show (scrubItems red n l).map _ = _
    rw [hl]
    rfl
  | .seq l, n + 1, h => by
    obtain ⟨l', hl, hp⟩ := scrubElems_plain l n h
    refine ⟨.seq l', ?_, hp⟩
    show (scrubElems red n l).map _ = _
    rw [hl]
    rfl

theorem scrubItems_plain : ∀ (l : List (Key × Value)) (n : Nat), plainItems n l = true →
    ∃ l', scrubItems red n l = .ok l' ∧ plainItems n l' = true
  | [], _, _ => ⟨_, rfl, rfl⟩
  | (.other _, _) :: _, _, h => by cases h
  | (.str k, v) :: l, n, h => by
    rw [plainItems, Bool.and_eq_true] at h
    obtain ⟨w, hw, hp⟩ := scrub_plain v n h.1
    obtain ⟨l', hl, hpl⟩ := scrubItems_plain l n h.2
    rw [scrubItems, show red.isSensitiveKey (.str k) = .ok _ from rfl]
    simp only [bind, Except.bind, hl]
    by_cases hk : red.sensitiveNorm (normalizeKey k) = true
    · simp only [if_pos hk]
      exact ⟨_, rfl, hpl⟩
    · simp only [if_neg hk, hw]
      refine ⟨_, rfl, ?_⟩
      rw [plainItems, hp, hpl]
      rfl

theorem scrubElems_plain : ∀ (l : List Value) (n : Nat), plainElems n l = true →
    ∃ l', scrubElems red n l = .ok l' ∧ plainElems n l' = true
  | [], _, _ => ⟨_, rfl, rfl⟩
  | v :: l, n, h => by
    rw [plainElems, Bool.and_eq_true] at h
    obtain ⟨w, hw, hp⟩ := scrub_plain v n h.1
    obtain ⟨l', hl, hpl⟩ := scrubElems_plain l n h.2
    rw [scrubElems, hw, hl]
    refine ⟨_, rfl, ?_⟩
    rw [plainElems, hp, hpl]
    rfl
end

end

section
variable {limits : ProjectionLimits}

theorem project_deep {strict : Bool} {n d : Nat} (v : Value) (h : limits.maxDepth ≤ d) :
    project limits strict n d v = .ok (.string TRUNCATED) := by
  unfold project
  rw [if_pos h]

mutual
/-- **a plain value has a JSON form** -/
theorem project_plain : ∀ (v : Value) (n d : Nat), plain n v = true →
    ∃ j, project limits false n d v = .ok j
  | v, n, d, h => by
    by_cases hd : limits.maxDepth ≤ d
    · exact ⟨_, project_deep v hd⟩
    unfold project
    rw [if_neg hd]
    cases v with
    | mapping l =>
      cases n with
      | zero => cases h
      | succ n =>
        obtain ⟨j, hj⟩ := projectItems_plain l n (d + 1) limits.maxMappingEntries [] h
        simp only [hj]
        exact ⟨_, rfl⟩
    | seq l =>
      cases n with
      | zero => cases h
      | succ n =>
        obtain ⟨j, hj⟩ := projectElems_plain l n (d + 1) limits.maxSequenceLength h
        simp only [hj]
        exact ⟨_, rfl⟩
    | none => exact ⟨_, rfl⟩
    | bool _ => exact ⟨_, rfl⟩
    | int _ => exact ⟨_, rfl⟩
    | float _ => exact ⟨_, rfl⟩
    | const _ => exact ⟨_, rfl⟩
    | str _ => exact ⟨_, rfl⟩
    | _ => cases h

theorem projectItems_plain : ∀ (l : List (Key × Value)) (n d room : Nat)
    (projected : List (Str × Json)), plainItems n l = true →
    ∃ j, projectItems limits false n d room projected l = .ok j
  | [], _, _, _, _, _ => ⟨_, rfl⟩
  | (.other _, _) :: _, _, _, _, _, h => by cases h
  | (.str k, v) :: l, n, d, 0, projected, h => ⟨_, rfl⟩
  | (.str k, v) :: l, n, d, room + 1, projected, h => by
    rw [plainItems, Bool.and_eq_true] at h
    obtain ⟨item, hi⟩ := project_plain v n d h.1
    rw [projectItems, show (Key.str k).text = .ok k from rfl]
    simp only [bind, Except.bind, hi]
    exact projectItems_plain l n d room _ h.2

theorem projectElems_plain : ∀ (l : List Value) (n d room : Nat), plainElems n l = true →
    ∃ j, projectElems limits false n d room l = .ok j
  | [], _, _, _, _ => ⟨_, rfl⟩
  | v :: l, n, d, 0, h => ⟨_, rfl⟩
  | v :: l, n, d, room + 1, h => by
    rw [plainElems, Bool.and_eq_true] at h
    obtain ⟨item, hi⟩ := project_plain v n d h.1
    obtain ⟨items, hs⟩ := projectElems_plain l n d room h.2
    rw [projectElems, hi, hs]
    exact ⟨_, rfl⟩
end

end

end SecAudit
