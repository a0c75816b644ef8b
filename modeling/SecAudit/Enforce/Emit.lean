import SecAudit.Enforce.Actions
import SecAudit.Stores.Blocks

/-!
# The events of the enforcement

* `Built`           an event with the level it is logged at;
* `buildAlertEvent`, `buildBlockedEvent`, `buildBlockAppliedEvent`, `buildBlockRevokedEvent`,
  `buildEvaluationFailedEvent`  the events of `audit.enforcement.*`;
* `buildEvent_ok`   they can always be built.
-/

set_option linter.unusedVariables false

namespace SecAudit
open Py

def ALERT : Str := str "audit.enforcement.alert"

def BLOCKED : Str := str "audit.enforcement.blocked"

def BLOCK_APPLIED : Str := str "audit.enforcement.block_applied"

def BLOCK_REVOKED : Str := str "audit.enforcement.block_revoked"

def EVALUATION_FAILED : Str := str "audit.enforcement.evaluation_failed"

def INFO : Nat := 20

def WARNING : Nat := 30

def ERROR : Nat := 40

/-- an event and its level -/
structure Built where
  event : AuditEvent
  level : Nat

/-- `_attrs` -/
def attrs (items : List (Str × Json)) : List (Str × Json) := items.filter fun p => !isBlank p.2

/-- `None`, or a value -/
def optional {α : Type} (f : α → Json) (v : Option α) : Json := (v.map f).getD .null

section
variable (b : Builtins) (now : Nat) (schemaVersion : Str)

/-- `repr(key)` -/
def reprOf (key : Str) : Str := b.repr (.string key)

/-- `_event`: the attributes are flat, one nested call reads them -/
def enforcementEvent (eventType : Str) (attributes : List (Str × Json)) : Except Exc AuditEvent :=
  AuditEvent.make (reprOf b) 1 eventType schemaVersion eventType (Value.ofItems attributes) now none

def buildEvent (eventType : Str) (level : Nat) (items : List (Str × Json)) : Except Exc Built := do
  let event ← enforcementEvent b now schemaVersion eventType (attrs items)
  return ⟨event, level⟩

def buildAlertEvent (m : RuleMatch) : Except Exc Built :=
  buildEvent b now schemaVersion ALERT WARNING
    [(str "security_rule.name", .string m.ruleName), (str "security_rule.severity", .int m.severity),
      (str "security_rule.description", .string m.message),
      (str "enforcement.action", .string (str "alert")),
      (str "source.address", .string (orEmpty m.srcip)),
      (str "session.id", .string (orEmpty m.sessionId)),
      (str "user.id", .string (orEmpty m.userId))]

def buildBlockedEvent (entry : BlockEntry) : Except Exc Built :=
  buildEvent b now schemaVersion BLOCKED WARNING
    [(str "scope.type", .string entry.scope.scopeType),
      (str "scope.value", .string entry.scope.scopeValue),
      (str "security_rule.name", .string entry.ruleName),
      (str "enforcement.action", .string (str "blocked")),
      (str "http.response.status_code", .int entry.statusCode)]

/-- the attributes of the event of a block that was written -/
def appliedItems (entry : BlockEntry) (actionKind : Str) (ttl : Option Int) : List (Str × Json) :=
  [(str "scope.type", .string entry.scope.scopeType),
    (str "scope.value", .string entry.scope.scopeValue),
    (str "security_rule.name", .string entry.ruleName),
    (str "enforcement.action", .string actionKind),
    (str "enforcement.ttl", optional .int ttl),
    (str "enforcement.expires_at", optional (fun t => .string (b.isoformat t)) entry.expiresAt)]

def buildBlockAppliedEvent (entry : BlockEntry) (actionKind : Str) (ttl : Option Int) :
    Except Exc Built :=
  buildEvent b now schemaVersion BLOCK_APPLIED WARNING (appliedItems b entry actionKind ttl)

/-- the attributes of the event of a block that was removed -/
def revokedItems (scope : BlockScope) (revokedBy reason : Str) : List (Str × Json) :=
  [(str "scope.type", .string scope.scopeType), (str "scope.value", .string scope.scopeValue),
    (str "enforcement.revoked_by", .string revokedBy), (str "enforcement.reason", .string reason)]

def buildBlockRevokedEvent (scope : BlockScope) (revokedBy reason : Str) : Except Exc Built :=
  buildEvent b now schemaVersion BLOCK_REVOKED INFO (revokedItems scope revokedBy reason)

/-- `type(error).__name__` -/
def errorName : Exc → Str
  | .valueError _ => str "ValueError"
  | .jsonError => str "JSONDecodeError"
  | .unicodeError => str "UnicodeEncodeError"
  | .conversionError => str "ValueError"
  | .auditConfigurationError _ => str "AuditConfigurationError"
  | .projectionError _ => str "ProjectionError"
  | .keyError _ => str "KeyError"
  | .typeError => str "TypeError"
  | .overflowError => str "OverflowError"
  | .recursionError => str "RecursionError"
  | .redisError => str "RedisError"
  | .databaseError => str "DatabaseError"
  | .integrityError => str "IntegrityError"
  | .blockStoreError _ => str "BlockStoreError"
  | .other _ => str "Exception"

def buildEvaluationFailedEvent (failMode : Str) (error : Exc) : Except Exc Built :=
  buildEvent b now schemaVersion EVALUATION_FAILED ERROR
    [(str "enforcement.fail_mode", .string failMode),
      (str "error.type", .string (errorName error))]

end

/-! ## they can always be built -/

/-- a value with no other value in it -/
def leaf : Json → Bool
  | .arr _ => false
  | .obj _ => false
  | .const _ => false
  | _ => true

theorem canonicalize_leaf {repr : Str → Str} {n : Nat} {path : Str} {v : Json}
    (h : leaf v = true) : canonicalize repr n path (Value.ofJson v) = .ok v := by
  cases v <;> first | rfl | cases h

theorem canonicalizeItems_leaves {repr : Str → Str} {n : Nat} {path : Str} :
    ∀ {l frozen : List (Str × Json)}, (∀ p ∈ l, leaf p.2 = true) →
      ((frozen ++ l).map Prod.fst).Nodup →
      canonicalizeItems repr n path frozen (Value.ofItems l) = .ok (frozen ++ l)
  | [], frozen, _, _ => by rw [List.append_nil]; rfl
  | (k, v) :: l, frozen, hl, hn => by
    have hk : hasItem k frozen = false := by
      rw [← Bool.not_eq_true, hasItem_iff]
      rw [List.map_append, List.nodup_append] at hn
      exact fun hk => hn.2.2 k hk k List.mem_cons_self rfl
    rw [Value.ofItems, canonicalizeItems, if_neg (by rw [hk]; exact Bool.false_ne_true),
      canonicalize_leaf (hl _ List.mem_cons_self)]
    show canonicalizeItems repr n path (frozen ++ [(k, v)]) (Value.ofItems l) = _
    rw [canonicalizeItems_leaves (fun p hp => hl p (List.mem_cons_of_mem _ hp)) (by simpa using hn),
      List.append_assoc]
    rfl

/-- items that an event can be built of -/
structure Flat (items : List (Str × Json)) : Prop where
  leaves : ∀ p ∈ items, leaf p.2 = true
  nodup : (items.map Prod.fst).Nodup
  type_free : str "event_type" ∉ items.map Prod.fst
  schema_free : str "schema_version" ∉ items.map Prod.fst

theorem Flat.sublist {items items' : List (Str × Json)} (h : Flat items)
    (hs : items'.Sublist items) : Flat items' where
  leaves := fun p hp => h.leaves p (hs.subset hp)
  nodup := (hs.map Prod.fst).nodup h.nodup
  type_free := fun hk => h.type_free ((hs.map Prod.fst).subset hk)
  schema_free := fun hk => h.schema_free ((hs.map Prod.fst).subset hk)

theorem validate_absent {data : List (Str × Json)} {key expected : Str}
    (h : key ∉ data.map Prod.fst) : validateAuthoritativeField data key expected = .ok () := by
  have hg : getItem key data = none := by
    rw [← Option.not_isSome_iff_eq_none, getItem_isSome, hasItem_iff]
    exact h
  unfold validateAuthoritativeField
  rw [hg]

theorem make_flat {repr : Str → Str} {n now : Nat} {eventType schemaVersion body : Str}
    {items : List (Str × Json)} (ht : eventType ≠ []) (hs : schemaVersion ≠ []) (h : Flat items) :
    ∃ e, AuditEvent.make repr (n + 1) eventType schemaVersion body (Value.ofItems items) now none
        = .ok e ∧ e.eventType = eventType ∧
      e.attributes = withAuthoritative items eventType schemaVersion := by
  have hc : canonicalizeItems repr n (str "attributes") [] (Value.ofItems items) = .ok items :=
    canonicalizeItems_leaves h.leaves h.nodup
  unfold AuditEvent.make
  rw [dif_neg ht, dif_neg hs]
  simp only
  split
  · rename_i e hd
    rw [hc] at hd
    cases hd
  · rename_i data hd
    rw [hc] at hd
    obtain rfl := Except.ok.inj hd
    simp only [validate_absent h.type_free, validate_absent h.schema_free]
    exact ⟨_, rfl, rfl, rfl⟩

section
variable {b : Builtins} {now : Nat} {schemaVersion eventType : Str} {level : Nat}
  {items : List (Str × Json)}

/-- **an event of flat items can be built** -/
theorem buildEvent_ok (hs : schemaVersion ≠ []) (ht : eventType ≠ []) (h : Flat items) :
    ∃ built, buildEvent b now schemaVersion eventType level items = .ok built ∧
      built.event.eventType = eventType ∧
      built.event.attributes = withAuthoritative (attrs items) eventType schemaVersion := by
  obtain ⟨e, he, het, hea⟩ := @make_flat (reprOf b) 0 now eventType schemaVersion eventType _ ht hs
    (h.sublist List.filter_sublist)
  refine ⟨⟨e, level⟩, ?_, het, hea⟩
  unfold buildEvent enforcementEvent attrs
  rw [he]
  rfl

theorem flat_of_leaves (hl : items.all (fun p => leaf p.2) = true)
    (hk : (items.map Prod.fst).Nodup ∧ str "event_type" ∉ items.map Prod.fst ∧
      str "schema_version" ∉ items.map Prod.fst) : Flat items :=
  ⟨List.all_eq_true.mp hl, hk.1, hk.2.1, hk.2.2⟩

theorem leaf_optional {α : Type} {f : α → Json} (hf : ∀ x, leaf (f x) = true) (v : Option α) :
    leaf (optional f v) = true := by
  cases v with
  | none => rfl
  | some x => exact hf x

theorem flat_applied (entry : BlockEntry) (kind : Str) (ttl : Option Int) :
    Flat (appliedItems b entry kind ttl) := by
  have hl : (appliedItems b entry kind ttl).all (fun p => leaf p.2) = true := by
    show (leaf _ && (leaf _ && (leaf _ && (leaf _ && (leaf _ && (leaf _ && true)))))) = true
    rw [leaf_optional (fun _ => rfl), leaf_optional (fun _ => rfl)]
    rfl
  refine flat_of_leaves hl ?_
  unfold appliedItems
  simp only [List.map_cons, List.map_nil]
  decide

theorem flat_revoked (scope : BlockScope) (revokedBy reason : Str) :
    Flat (revokedItems scope revokedBy reason) := by
  refine flat_of_leaves rfl ?_
  unfold revokedItems
  simp only [List.map_cons, List.map_nil]
  decide

variable (b now) (hs : schemaVersion ≠ [])
include hs

theorem buildBlockedEvent_ok (entry : BlockEntry) : ∃ built,
    buildBlockedEvent b now schemaVersion entry = .ok built ∧
      built.event.eventType = BLOCKED := by
  obtain ⟨built, hb, ht, -⟩ := @buildEvent_ok b now schemaVersion BLOCKED WARNING
    [(str "scope.type", .string entry.scope.scopeType),
      (str "scope.value", .string entry.scope.scopeValue),
      (str "security_rule.name", .string entry.ruleName),
      (str "enforcement.action", .string (str "blocked")),
      (str "http.response.status_code", .int entry.statusCode)] hs (by decide)
    (flat_of_leaves rfl (by
      simp only [List.map_cons, List.map_nil]
      decide))
  exact ⟨built, hb, ht⟩

theorem buildBlockAppliedEvent_ok (entry : BlockEntry) (kind : Str) (ttl : Option Int) : ∃ built,
    buildBlockAppliedEvent b now schemaVersion entry kind ttl = .ok built ∧
      built.event.eventType = BLOCK_APPLIED ∧ built.event.attributes
        = withAuthoritative (attrs (appliedItems b entry kind ttl)) BLOCK_APPLIED schemaVersion :=
  buildEvent_ok hs (by decide) (flat_applied entry kind ttl)

theorem buildBlockRevokedEvent_ok (scope : BlockScope) (revokedBy reason : Str) : ∃ built,
    buildBlockRevokedEvent b now schemaVersion scope revokedBy reason = .ok built ∧
      built.event.eventType = BLOCK_REVOKED ∧ built.event.attributes
        = withAuthoritative (attrs (revokedItems scope revokedBy reason)) BLOCK_REVOKED
          schemaVersion :=
  buildEvent_ok hs (by decide) (flat_revoked scope revokedBy reason)

theorem buildEvaluationFailedEvent_ok (failMode : Str) (error : Exc) : ∃ built,
    buildEvaluationFailedEvent b now schemaVersion failMode error = .ok built ∧
      built.event.eventType = EVALUATION_FAILED := by
  obtain ⟨built, hb, ht, -⟩ := @buildEvent_ok b now schemaVersion EVALUATION_FAILED ERROR
    [(str "enforcement.fail_mode", .string failMode),
      (str "error.type", .string (errorName error))] hs (by decide) (flat_of_leaves rfl (by
        simp only [List.map_cons, List.map_nil]
        decide))
  exact ⟨built, hb, ht⟩

end

end SecAudit
