import SecAudit.Core.Builtins
import SecAudit.Core.Events

/-!
# Events as the rules meet them

* `RuleEvent`       the fields of an event, with its type among them;
* `normalizeScopeAliases`  fill the raw key of a scope field from its dotted key;
* `RuleEvent.fromMapping`, `fromEvent`  the event of a mapping, or of an `AuditEvent`;
* `sessionId`, `source`, `url`, `actor`, `field`  the accessors the rules use;
* `getItem_normalize`  what a key holds after the aliases.

Fields are JSON values: an array stands for a list and for the tuple it is frozen to.
-/

set_option linter.unusedVariables false

namespace SecAudit
open Py

/-! ## the aliases -/

/-- `value in (None, '')` -/
def isBlank : Json → Bool
  | .null => true
  | .string [] => true
  | _ => false

/-- `_OTEL_TO_RAW_ALIASES` -/
def OTEL_TO_RAW_ALIASES : List (Str × Str) :=
  [(str "session.id", str "session_id"), (str "user.id", str "user_id"),
    (str "source.address", str "srcip"), (str "http.route", str "route"),
    (str "http.route_name", str "route_name")]

/-- `source.get(k)`, unless it is `None` or empty -/
def filled (k : Str) (source : List (Str × Json)) : Option Json :=
  (getItem k source).filter fun v => !isBlank v

/-- the additions of the loop over the aliases -/
def aliasAdditions (source : List (Str × Json)) : List (Str × Str) → List (Str × Json)
  | [] => []
  | (otel, raw) :: l =>
    match filled raw source, filled otel source with
    | none, some v => (raw, v) :: aliasAdditions source l
    | _, _ => aliasAdditions source l

/-- `_normalize_scope_aliases` -/
def normalizeScopeAliases (source : List (Str × Json)) : List (Str × Json) :=
  updateItems source (aliasAdditions source OTEL_TO_RAW_ALIASES)

section
variable {source : List (Str × Json)}

theorem keys_aliasAdditions : ∀ l : List (Str × Str),
    (aliasAdditions source l).map Prod.fst ⊆ l.map Prod.snd
  | [] => fun _ h => h
  | (otel, raw) :: l => by
    have ih := keys_aliasAdditions l
    unfold aliasAdditions
    split
    · exact List.cons_subset_cons raw ih
    · exact fun k hk => List.mem_cons_of_mem raw (ih hk)

theorem nodup_aliasAdditions : ∀ {l : List (Str × Str)}, (l.map Prod.snd).Nodup →
    ((aliasAdditions source l).map Prod.fst).Nodup
  | [], _ => List.nodup_nil
  | (otel, raw) :: l, h => by
    rw [List.map_cons, List.nodup_cons] at h
    unfold aliasAdditions
    split
    · exact List.nodup_cons.mpr ⟨fun hk => h.1 (keys_aliasAdditions l hk),
        nodup_aliasAdditions h.2⟩
    · exact nodup_aliasAdditions h.2

theorem getItem_aliasAdditions {otel raw : Str} : ∀ {l : List (Str × Str)},
    (l.map Prod.snd).Nodup → (otel, raw) ∈ l → getItem raw (aliasAdditions source l)
      = if (filled raw source).isSome then none else filled otel source
  | (o, r) :: l, hn, h => by
    rw [List.map_cons, List.nodup_cons] at hn
    rcases List.mem_cons.mp h with he | h
    · cases he
      have hrest : getItem raw (aliasAdditions source l) = none := by
        rw [← Option.not_isSome_iff_eq_none, getItem_isSome, hasItem_iff]
        exact fun hk => hn.1 (keys_aliasAdditions l hk)
      unfold aliasAdditions
      rcases filled raw source with _ | x <;> rcases filled otel source with _ | v
      · exact hrest
      · exact getItem_cons_same raw v _
      · exact hrest
      · exact hrest
    · have hne : r ≠ raw := by
        rintro rfl
        exact hn.1 (List.mem_map.mpr ⟨_, h, rfl⟩)
      have ih := getItem_aliasAdditions hn.2 h
      unfold aliasAdditions
      split
      · rw [getItem_cons_other _ _ hne]
        exact ih
      · exact ih

/-- a raw key holds its own value when that is not blank, else that of its dotted key -/
theorem getItem_normalize {otel raw : Str} (h : (otel, raw) ∈ OTEL_TO_RAW_ALIASES) :
    getItem raw (normalizeScopeAliases source)
      = (if (filled raw source).isSome then none else filled otel source).or
        (getItem raw source) := by
  unfold normalizeScopeAliases
  rw [getItem_updateItems (nodup_aliasAdditions (by decide)),
    getItem_aliasAdditions (by decide) h]

theorem getItem_normalize_other {k : Str} (h : k ∉ OTEL_TO_RAW_ALIASES.map Prod.snd) :
    getItem k (normalizeScopeAliases source) = getItem k source :=
  getItem_updateItems_other fun hk => h (keys_aliasAdditions _ hk)

end

/-! ## events -/

structure RuleEvent where
  eventType : Str
  fields : List (Str × Json)
  type_item : getItem (str "event_type") fields = some (.string eventType)

namespace RuleEvent

/-- `RuleEvent(event_type=…, fields=…)` -/
def make (eventType : Str) (fields : List (Str × Json)) : RuleEvent :=
  ⟨eventType, setItem (str "event_type") (.string eventType) fields, getItem_setItem_same ..⟩

section
variable (b : Builtins)

/-- the event of `source`, whose own type is `eventType` -/
def ofSource (source : List (Str × Json)) (eventType : Str) : RuleEvent :=
  let source := normalizeScopeAliases source
  make (strOf b (orElse b (getItem (str "event_type") source) (.string eventType))) source

/-- `RuleEvent.from_mapping` of a mapping -/
def fromMapping (event : List (Str × Json)) : RuleEvent := ofSource b event []

/-- `RuleEvent.from_mapping` of an `AuditEvent` -/
def fromEvent (event : AuditEvent) : RuleEvent := ofSource b event.attributes event.eventType

end

def toDict (e : RuleEvent) : List (Str × Json) := e.fields

/-! ## the accessors -/

section
variable (b : Builtins)

/-- `_str` -/
def textOf : Option Json → Str
  | none => []
  | some .null => []
  | some v => strOf b v

/-- `v or w` -/
def orGet (v w : Option Json) : Option Json :=
  match v with
  | some v => if truthy b v then some v else w
  | none => w

structure SourceFields where
  address : Str
  ip : Str

structure ActorFields where
  id : Str
  name : Str

structure UrlFields where
  path : Str
  full : Str

variable (e : RuleEvent)

def requestId : Str := textOf b (getItem (str "request_id") e.fields)

def sessionId : Str := textOf b (getItem (str "session_id") e.fields)

def source : SourceFields :=
  let address := textOf b
    (orGet b (getItem (str "source.address") e.fields) (getItem (str "srcip") e.fields))
  ⟨address, textOf b (orGet b (getItem (str "source.ip") e.fields) (some (.string address)))⟩

def url : UrlFields :=
  ⟨textOf b (orGet b (getItem (str "url.path") e.fields) (getItem (str "path") e.fields)),
    textOf b (orGet b (getItem (str "url.full") e.fields) (getItem (str "url") e.fields))⟩

def actor : ActorFields :=
  match getItem (str "actor") e.fields with
  | some (.obj actor) =>
    ⟨textOf b (orGet b (getItem (str "id") actor) (getItem (str "user_id") e.fields)),
      textOf b (orGet b (getItem (str "name") actor) (getItem (str "username") e.fields))⟩
  | actor => ⟨textOf b (getItem (str "user_id") e.fields),
      textOf b (orGet b actor (getItem (str "username") e.fields))⟩

end

/-- `current[part]` for each part, unless one is not there -/
def walk : List Str → Json → Option Json
  | [], v => some v
  | part :: parts, .obj items => (getItem part items).bind (walk parts)
  | _ :: _, _ => none

/-- `field(key)`: a flat key first, then the path; `none` is `None` -/
def field (e : RuleEvent) (key : Str) : Option Json :=
  ((getItem key e.fields).or (walk (key.splitOn (cp '.')) (.obj e.fields))).filter fun v =>
    match v with
    | .null => false
    | _ => true

theorem getItem_make {eventType k : Str} {fields : List (Str × Json)} (h : k ≠ str "event_type") :
    getItem k (make eventType fields).fields = getItem k fields :=
  getItem_setItem_other _ _ h

end RuleEvent

end SecAudit
