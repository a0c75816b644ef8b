import SecAudit.Core.Value

/-!
# Audit events

* `canonicalize`    an attribute value as the JSON value it is, or why it is none;
* `Json.canonical`  no float that is not finite, and no key twice in an object;
* `AuditEvent`      an event, whose attributes are canonical and name its type and schema;
* `AuditEvent.make` the constructor.
-/

set_option linter.unusedVariables false

namespace SecAudit
open Py

mutual
/-- finite numbers, and distinct keys -/
def canonical : Json → Bool
  | .const _ => false
  | .arr l => canonicalElems l
  | .obj l => canonicalItems l
  | _ => true

def canonicalElems : List Json → Bool
  | [] => true
  | v :: l => canonical v && canonicalElems l

def canonicalItems : List (Str × Json) → Bool
  | [] => true
  | (k, v) :: l => canonical v && !hasItem k l && canonicalItems l
end

/-! ## canonicalization -/

def failure {α : Type} (text : Str) : Except Exc α := .error (.auditConfigurationError text)

section
-- `repr` of a string
variable (repr : Str → Str)

mutual
/-- `_canonicalize_value` at `path`, with `frames` nested calls to go -/
def canonicalize (frames : Nat) (path : Str) : Value → Except Exc Json
  | .none => .ok .null
  | .bool b => .ok (.bool b)
  | .int i => .ok (.int i)
  | .str s => .ok (.string s)
  | .float f => .ok (.float f)
  | .const .nan => failure (path ++ str " is NaN; audit events must be JSON-compatible.")
  | .const _ => failure (path ++ str " is infinite; audit events must be JSON-compatible.")
  | .bytes _ _ => failure (path ++ str " must not be bytes.")
  | .set _ => failure (path ++ str " must not be a set/frozenset; use list or tuple.")
  | .mapping l => match frames with
    | 0 => .error .recursionError
    | n + 1 => (canonicalizeItems n path [] l).map .obj
  | .seq l => match frames with
    | 0 => .error .recursionError
    | n + 1 => (canonicalizeElems n path 0 l).map .arr
  | .loop _ => failure (path ++ str " contains a cycle.")
  | .text name _ => failure (path ++ str " has unsupported value type " ++ name ++ str ".")
  | .enum name _ => failure (path ++ str " has unsupported value type " ++ name ++ str ".")
  | .object _ name => failure (path ++ str " has unsupported value type " ++ name ++ str ".")
  | .broken e => .error e

/-- the loop of `_canonicalize_mapping`, after `frozen` -/
def canonicalizeItems (frames : Nat) (path : Str) (frozen : List (Str × Json)) :
    List (Key × Value) → Except Exc (List (Str × Json))
  | [] => .ok frozen
  | (.other _, _) :: _ => failure (path ++ str " contains a non-string key.")
  | (.str key, v) :: l =>
    if hasItem key frozen then
      failure (path ++ str " contains duplicate key " ++ repr key ++ str ".")
    else do
      let item ← canonicalize frames (path ++ str "." ++ key) v
      canonicalizeItems frames path (frozen ++ [(key, item)]) l

/-- the loop of `_canonicalize_sequence`, from `index` -/
def canonicalizeElems (frames : Nat) (path : Str) (index : Nat) :
    List Value → Except Exc (List Json)
  | [] => .ok []
  | v :: l => do
    let item ← canonicalize frames (path ++ str "[" ++ decimal index ++ str "]") v
    let items ← canonicalizeElems frames path (index + 1) l
    return item :: items
end

end

theorem canonicalItems_append {l : List (Str × Json)} {k : Str} {v : Json}
    (hl : canonicalItems l = true) (hk : hasItem k l = false) (hv : canonical v = true) :
    canonicalItems (l ++ [(k, v)]) = true := by
  induction l with
  | nil =>
    show (canonical v && !hasItem k [] && true) = true
    rw [hv]
    rfl
  | cons p l ih =>
    obtain ⟨k', v'⟩ := p
    rw [canonicalItems, Bool.and_eq_true, Bool.and_eq_true, Bool.not_eq_true'] at hl
    obtain ⟨⟨hv', hk'⟩, hl⟩ := hl
    have hne : k' ≠ k := by
      rintro rfl
      simp [hasItem] at hk
    have hkl : hasItem k l = false := by
      unfold hasItem at hk ⊢
      rw [List.any_cons, Bool.or_eq_false_iff] at hk
      exact hk.2
    have hk'' : hasItem k' (l ++ [(k, v)]) = false := by
      unfold hasItem at hk' ⊢
      rw [List.any_append, hk', Bool.false_or, List.any_cons, List.any_nil, Bool.or_false]
      exact decide_eq_false hne.symm
    show (canonical v' && !hasItem k' (l ++ [(k, v)]) && canonicalItems (l ++ [(k, v)])) = true
    rw [hv', hk'', ih hl hkl]
    rfl

section
variable {repr : Str → Str}

mutual
theorem canonical_canonicalize : ∀ (v : Value) (frames : Nat) (path : Str) (w : Json),
    canonicalize repr frames path v = .ok w → canonical w = true
  | .none, _, _, _, h => by cases h; rfl
  | .bool _, _, _, _, h => by cases h; rfl
  | .int _, _, _, _, h => by cases h; rfl
  | .str _, _, _, _, h => by cases h; rfl
  | .float _, _, _, _, h => by cases h; rfl
  | .const c, _, _, _, h => by cases c <;> cases h
  | .bytes _ _, _, _, _, h => by cases h
  | .set _, _, _, _, h => by cases h
  | .loop _, _, _, _, h => by cases h
  | .text _ _, _, _, _, h => by cases h
  | .enum _ _, _, _, _, h => by cases h
  | .object _ _, _, _, _, h => by cases h
  | .broken _, _, _, _, h => by cases h
  | .mapping l, 0, _, _, h => by cases h
  | .seq l, 0, _, _, h => by cases h
  | .mapping l, n + 1, path, w, h => by
    obtain ⟨items, hx, rfl⟩ := ok_of_map h
    exact canonical_canonicalizeItems l n path [] items rfl hx
  | .seq l, n + 1, path, w, h => by
    obtain ⟨items, hx, rfl⟩ := ok_of_map h
    exact canonical_canonicalizeElems l n path 0 items hx

theorem canonical_canonicalizeItems : ∀ (l : List (Key × Value)) (frames : Nat) (path : Str)
    (frozen items : List (Str × Json)), canonicalItems frozen = true →
    canonicalizeItems repr frames path frozen l = .ok items → canonicalItems items = true
  | [], _, _, _, _, hf, h => by cases h; exact hf
  | (.other _, _) :: _, _, _, _, _, _, h => by cases h
  | (.str key, v) :: l, n, path, frozen, items, hf, h => by
    rw [canonicalizeItems] at h
    split at h
    · cases h
    · rename_i hk
      obtain ⟨item, hx, h⟩ := ok_of_bind h
      exact canonical_canonicalizeItems l n path _ items
        (canonicalItems_append hf (by simpa using hk) (canonical_canonicalize v n _ item hx)) h

theorem canonical_canonicalizeElems : ∀ (l : List Value) (frames : Nat) (path : Str) (index : Nat)
    (items : List Json), canonicalizeElems repr frames path index l = .ok items →
    canonicalElems items = true
  | [], _, _, _, _, h => by cases h; rfl
  | v :: l, n, path, index, items, h => by
    rw [canonicalizeElems] at h
    obtain ⟨item, hx, h⟩ := ok_of_bind h
    obtain ⟨rest, hy, h⟩ := ok_of_bind h
    obtain rfl := Except.ok.inj h
    show (canonical item && canonicalElems rest) = true
    rw [canonical_canonicalize v n _ item hx,
      canonical_canonicalizeElems l n path (index + 1) rest hy]
    rfl
end

end

/-! ## events -/

theorem schemaOne_ne : str "1.0" ≠ [] := by decide

structure AuditEvent where
  eventType : Str
  schemaVersion : Str
  body : Str
  attributes : List (Str × Json)
  timestampNs : Nat
  observedTimestampNs : Option Nat
  eventType_ne : eventType ≠ []
  schemaVersion_ne : schemaVersion ≠ []
  canonical : canonicalItems attributes = true
  type_item : getItem (str "event_type") attributes = some (.string eventType)
  schema_item : getItem (str "schema_version") attributes = some (.string schemaVersion)

/-- `_validate_authoritative_field`; `key` is shown with quotes -/
def validateAuthoritativeField (attributes : List (Str × Json)) (key expected : Str) :
    Except Exc Unit :=
  match getItem key attributes with
  | none => .ok ()
  | some .null => .ok ()
  | some (.string s) => if s = expected then .ok () else
      failure (str "attributes['" ++ key ++ str "'] conflicts with the AuditEvent " ++ key ++ str ".")
  | some _ =>
      failure (str "attributes['" ++ key ++ str "'] conflicts with the AuditEvent " ++ key ++ str ".")

/-- the attributes with the two authoritative fields -/
def withAuthoritative (data : List (Str × Json)) (eventType schemaVersion : Str) :
    List (Str × Json) :=
  setItem (str "schema_version") (.string schemaVersion)
    (setItem (str "event_type") (.string eventType) data)

theorem hasItem_setItem_of_ne {k k' : Str} {v : Json} {l : List (Str × Json)} (h : k ≠ k') :
    hasItem k (setItem k' v l) = hasItem k l := by
  rw [Bool.eq_iff_iff, hasItem_setItem]
  exact ⟨fun h' => h'.elim (absurd · h) id, .inr⟩

theorem canonicalItems_setItem {l : List (Str × Json)} {k : Str} {v : Json}
    (hl : canonicalItems l = true) (hv : canonical v = true) :
    canonicalItems (setItem k v l) = true := by
  induction l with
  | nil => exact @canonicalItems_append [] k v rfl rfl hv
  | cons p l ih =>
    obtain ⟨k', v'⟩ := p
    rw [canonicalItems, Bool.and_eq_true, Bool.and_eq_true, Bool.not_eq_true'] at hl
    obtain ⟨⟨hv', hk'⟩, hl⟩ := hl
    unfold setItem
    by_cases h : k' = k
    · rw [if_pos h]
      subst h
      show (canonical v && !hasItem k' l && canonicalItems l) = true
      rw [hv, hk', hl]
      rfl
    · rw [if_neg h]
      show (canonical v' && !hasItem k' (setItem k v l) && canonicalItems (setItem k v l)) = true
      rw [hv', hasItem_setItem_of_ne h, hk', ih hl]
      rfl

/-- `AuditEvent(event_type=…, schema_version=…, body=…, attributes=…)` -/
def AuditEvent.make (repr : Str → Str) (frames : Nat) (eventType schemaVersion body : Str)
    (attributes : List (Key × Value)) (timestampNs : Nat) (observedTimestampNs : Option Nat) :
    Except Exc AuditEvent :=
  if ht : eventType = [] then failure (str "event_type is required and must be a str.")
  else if hs : schemaVersion = [] then failure (str "schema_version is required and must be a str.")
  else match frames with
    | 0 => .error .recursionError
    | n + 1 => match hd : canonicalizeItems repr n (str "attributes") [] attributes with
      | .error e => .error e
      | .ok data =>
        match validateAuthoritativeField data (str "event_type") eventType,
          validateAuthoritativeField data (str "schema_version") schemaVersion with
        | .error e, _ => .error e
        | .ok (), .error e => .error e
        | .ok (), .ok () => .ok
          { eventType, schemaVersion, body, timestampNs, observedTimestampNs
            attributes := withAuthoritative data eventType schemaVersion
            eventType_ne := ht
            schemaVersion_ne := hs
            canonical := canonicalItems_setItem (canonicalItems_setItem
              (canonical_canonicalizeItems attributes n _ [] data rfl hd) rfl) rfl
            type_item := (getItem_setItem_other _ _ (by decide)).trans (getItem_setItem_same _ _ _)
            schema_item := getItem_setItem_same _ _ _ }

/-! ## the attributes of an event -/

section
variable {repr : Str → Str}

/-- what is frozen holds the strings that were there, and under no other keys anything -/
theorem getItem_canonicalized {n : Nat} {path : Str} {k : Str} : ∀ {l : List (Str × Value)}
    {frozen out : List (Str × Json)},
    canonicalizeItems repr n path frozen (l.map fun p => (.str p.1, p.2)) = .ok out →
    (hasItem k frozen = true → getItem k out = getItem k frozen) ∧
    (getItem k l = none → getItem k out = getItem k frozen) ∧
    (hasItem k frozen = false → ∀ s, getItem k l = some (.str s) →
      getItem k out = some (.string s))
  | [], frozen, out, h => by
    cases h
    exact ⟨fun _ => rfl, fun _ => rfl, fun _ s hs => by cases hs⟩
  | (key, v) :: l, frozen, out, h => by
    rw [List.map_cons, canonicalizeItems] at h
    split at h
    · cases h
    rename_i hfresh
    rw [Bool.not_eq_true] at hfresh
    obtain ⟨item, hv, h⟩ := ok_of_bind h
    obtain ⟨hkept, hother, hnew⟩ := @getItem_canonicalized n path k l (frozen ++ [(key, item)]) out h
    have hlast : getItem k (frozen ++ [(key, item)])
        = (getItem k frozen).or (getItem k [(key, item)]) := getItem_append k _ _
    have hhas : hasItem k (frozen ++ [(key, item)]) = (hasItem k frozen || decide (key = k)) := by
      unfold hasItem
      rw [List.any_append, List.any_cons, List.any_nil, Bool.or_false]
    refine ⟨fun hk => ?_, fun hk => ?_, fun hk s hs => ?_⟩
    · rw [hkept (by rw [hhas, hk, Bool.true_or]), hlast]
      rw [← getItem_isSome] at hk
      obtain ⟨w, hw⟩ := Option.isSome_iff_exists.mp hk
      rw [hw]
      rfl
    · have hne : key ≠ k := by
        rintro rfl
        rw [getItem_cons_same] at hk
        cases hk
      rw [getItem_cons_other _ _ hne] at hk
      rw [hother hk, hlast, getItem_cons_other _ _ hne]
      exact Option.or_none
    · by_cases he : key = k
      · subst he
        rw [getItem_cons_same] at hs
        obtain rfl : v = .str s := Option.some.inj hs
        cases hv
        have hnone : getItem key frozen = none := by
          rw [← Option.not_isSome_iff_eq_none, getItem_isSome, hk]
          exact Bool.false_ne_true
        rw [hkept (by rw [hhas, decide_eq_true rfl, Bool.or_true]), hlast, hnone,
          getItem_cons_same]
        rfl
      · rw [getItem_cons_other _ _ he] at hs
        exact hnew (by rw [hhas, hk, decide_eq_false he]; rfl) s hs

/-- the attributes of an event are the frozen ones, its type and its schema -/
theorem AuditEvent.make_attributes {frames : Nat} {eventType schemaVersion body : Str}
    {attributes : List (Key × Value)} {timestampNs : Nat} {observed : Option Nat} {e : AuditEvent}
    (h : AuditEvent.make repr frames eventType schemaVersion body attributes timestampNs observed
      = .ok e) : ∃ n data, frames = n + 1 ∧
      canonicalizeItems repr n (str "attributes") [] attributes = .ok data ∧
      e.attributes = withAuthoritative data eventType schemaVersion := by
  unfold AuditEvent.make at h
  split at h
  · cases h
  split at h
  · cases h
  cases frames with
  | zero => cases h
  | succ n =>
    dsimp only at h
    split at h
    · cases h
    · rename_i data hd
      split at h
      · cases h
      · cases h
      · cases h
        exact ⟨n, data, rfl, hd, rfl⟩

end

end SecAudit
