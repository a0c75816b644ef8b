import SecAudit.Core.Legible
import SecAudit.Logging.Emission
import SecAudit.Logging.Gate

/-!
# When a valid event is reported as it is

* `restoredValue_ok_iff`  a protected field is restored when its key is not cut;
* `restore_ok_iff`, `restore_items`  what the restored attributes are made of;
* `writable_payload`  what a record that was built has to write;
* `Reported`        the record of an event is built, and printed unless it is too long;
* `reported_iff`    that is so exactly when the keys to restore are short, the stack has room for
                    the attributes, and the numbers that are shown can be written.
-/

set_option linter.unusedVariables false

namespace SecAudit
open Py

/-! ## keys that are not cut -/

section
variable {limits : ProjectionLimits}

/-- a key that does not end like one that was cut is written for itself alone -/
theorem limitKey_eq_iff {t k : Str} (hk : k.getLast? ≠ some (cp ']')) :
    limitKey limits t = k ↔ t = k ∧ k.length ≤ limits.maxStringLength := by
  unfold limitKey limitString
  by_cases h : t.length ≤ limits.maxStringLength
  · rw [if_pos h]
    exact ⟨fun he => ⟨he, he ▸ h⟩, And.left⟩
  · rw [if_neg h]
    constructor
    · rintro rfl
      exact absurd (by rw [List.getLast?_append]; rfl) hk
    · rintro ⟨rfl, hl⟩
      exact absurd hl h

theorem protected_last : ∀ k ∈ PROTECTED_ATTRIBUTES, k.getLast? ≠ some (cp ']') := by decide

theorem restored_protected : ∀ k ∈ RESTORED, k ∈ PROTECTED_ATTRIBUTES := by decide

/-- the projection finds a value that stands alone, with `frames` nested calls to go -/
def presentsAlone (limits : ProjectionLimits) (frames : Nat) (v : Json) : Bool :=
  match frames with
  | 0 => false
  | n + 1 => presents limits true n 1 (Value.ofJson v)

/-- what a restored value is -/
theorem restoredValue_eq {n : Nat} {key : Str} {v w : Json} (hkey : key ∈ RESTORED) :
    restoredValue limits (n + 1) key (.ofJson v) = .ok w ↔
      key.length ≤ limits.maxStringLength ∧ project limits true n 1 (Value.ofJson v) = .ok w := by
  have hlast := protected_last key (restored_protected key hkey)
  obtain ⟨r, hr⟩ : ∃ r, limits.maxAttributes = r + 1 :=
    ⟨_, (Nat.succ_pred_eq_of_pos limits.maxAttributes_pos).symm⟩
  unfold restoredValue projectAttributes
  rw [hr]
  dsimp only
  rw [projectItems, show (Key.str key).text = .ok key from rfl]
  rcases hj : project limits true n 1 (Value.ofJson v) with e | j
  · simp only [bind, Except.bind]
    exact iff_of_false (fun h => by cases h) fun h => by cases h.2
  have hone : projectItems limits true n 1 r (setItem (limitKey limits key) j []) []
      = .ok [(limitKey limits key, j)] := by
    cases r <;> rfl
  simp only [bind, Except.bind]
  rw [show projectItems limits true n 1 r (setItem (limitString key _) j []) [] = _ from hone]
  dsimp only
  by_cases hl : key.length ≤ limits.maxStringLength
  · have hsome : getItem key [(limitKey limits key, j)] = some j := by
      rw [(limitKey_eq_iff hlast).mpr ⟨rfl, hl⟩]
      exact getItem_cons_same key j []
    rw [hsome, and_iff_right hl]
    exact Iff.rfl
  · have hne : limitKey limits key ≠ key := fun he => hl ((limitKey_eq_iff hlast).mp he).2
    have hnone : getItem key [(limitKey limits key, j)] = none := getItem_cons_other _ _ hne
    rw [hnone]
    exact iff_of_false (fun h => by cases h) fun h => hl h.1

/-- **a protected field is restored** when its key is not cut, and the stack has room for it -/
theorem restoredValue_ok_iff {frames : Nat} {key : Str} {v : Json} (hkey : key ∈ RESTORED) :
    (∃ w, restoredValue limits frames key (.ofJson v) = .ok w) ↔
      key.length ≤ limits.maxStringLength ∧ presentsAlone limits frames v = true := by
  cases frames with
  | zero => exact iff_of_false (fun ⟨w, h⟩ => by cases h) fun h => Bool.false_ne_true h.2
  | succ n =>
    unfold presentsAlone
    rw [← project_ok_iff, ← exists_and_left]
    exact exists_congr fun w => restoredValue_eq hkey

end

/-! ## what the attributes are made of -/

section
variable {α : Type}

theorem nodup_updateItems : ∀ {e d : List (Str × α)}, (d.map Prod.fst).Nodup →
    ((updateItems d e).map Prod.fst).Nodup
  | [], d, h => h
  | p :: e, d, h => @nodup_updateItems e (setItem p.1 p.2 d) (nodup_setItem h)

/-- the items of a dict after an update -/
theorem mem_updateItems {x : Str × α} : ∀ {e d : List (Str × α)}, (d.map Prod.fst).Nodup →
    (e.map Prod.fst).Nodup → (x ∈ updateItems d e ↔ x ∈ e ∨ x ∈ d ∧ x.1 ∉ e.map Prod.fst)
  | [], d, _, _ => by simp [updateItems]
  | p :: e, d, hd, he => by
    rw [List.map_cons, List.nodup_cons] at he
    show x ∈ updateItems (setItem p.1 p.2 d) e ↔ _
    rw [mem_updateItems (nodup_setItem hd) he.2, mem_setItem hd, List.mem_cons, List.map_cons,
      List.mem_cons, not_or]
    constructor
    · rintro (h | ⟨rfl | ⟨h, hne⟩, hn⟩)
      · exact .inl (.inr h)
      · exact .inl (.inl rfl)
      · exact .inr ⟨h, hne, hn⟩
    · rintro ((rfl | h) | ⟨h, hne, hn⟩)
      · exact .inr ⟨.inl rfl, he.1⟩
      · exact .inl h
      · exact .inr ⟨.inr ⟨h, hne⟩, hn⟩

end

section
variable {limits : ProjectionLimits} {frames : Nat} {ev : List (Str × Json)}

/-- the keys the projection writes -/
theorem projectItems_keys {strict : Bool} {n d : Nat} : ∀ {l : List (Str × Value)} {room : Nat}
    {projected out : List (Str × Json)},
    projectItems limits strict n d room projected (l.map strItem) = .ok out →
    ∀ t ∈ out.map Prod.fst, t ∈ projected.map Prod.fst ∨
      t ∈ l.map (fun e => limitKey limits e.1) ∨ t = str "_truncated"
  | [], room, projected, out, h => by
    have ho : out = projected := by
      cases room <;> cases h <;> rfl
    rw [ho]
    exact fun t ht => .inl ht
  | e :: l, 0, projected, out, h => by
    cases h
    intro t ht
    rw [← hasItem_iff, hasItem_setItem, hasItem_iff] at ht
    exact ht.elim (fun h => .inr (.inr h)) .inl
  | (k, v) :: l, room + 1, projected, out, h => by
    obtain ⟨t', j, ht', -, h⟩ := projectItems_cons_ok h
    obtain rfl := Except.ok.inj ht'
    intro t ht
    rw [List.map_cons, List.mem_cons]
    rcases projectItems_keys h t ht with h | h | h
    · rw [← hasItem_iff, hasItem_setItem, hasItem_iff] at h
      exact h.elim (fun h => .inr (.inl (.inl h))) .inl
    · exact .inr (.inl (.inr h))
    · exact .inr (.inr h)

/-- when all fields are restored -/
theorem restore_ok_iff : ∀ {keys : List Str} {l : List (Str × Json)},
    (∃ m, restore limits frames (heldItem ev) keys l = .ok m) ↔ ∀ key ∈ keys, ∀ v,
      getItem key ev = some v → ∃ w, restoredValue limits frames key (.ofJson v) = .ok w
  | [], l => iff_of_true ⟨l, rfl⟩ fun key hk => absurd hk List.not_mem_nil
  | key :: keys, l => by
    rw [List.forall_mem_cons]
    rcases hv : getItem key ev with _ | v
    · rw [restore_none hv, restore_ok_iff]
      exact (and_iff_right fun v hv => by cases hv).symm
    · rcases hw : restoredValue limits frames key (.ofJson v) with e | w
      · rw [restore_error hv hw]
        refine iff_of_false (fun ⟨m, h⟩ => by cases h) fun h => ?_
        obtain ⟨w, hw'⟩ := h.1 v rfl
        rw [hw] at hw'
        cases hw'
      · rw [restore_ok hv hw, restore_ok_iff]
        refine (and_iff_right fun v' hv' => ?_).symm
        cases hv'
        exact ⟨w, hw⟩

/-- the items of the restored attributes -/
theorem restore_items : ∀ {keys : List Str} {l m : List (Str × Json)},
    restore limits frames (heldItem ev) keys l = .ok m → (l.map Prod.fst).Nodup →
    (∀ e ∈ m, e ∈ l ∨ ∃ key ∈ keys, ∃ v, getItem key ev = some v ∧
      restoredValue limits frames key (.ofJson v) = .ok e.2) ∧
    ∀ e ∈ l, e.1 ∉ keys → e ∈ m
  | [], l, m, h, _ => by
    cases h
    exact ⟨fun e he => .inl he, fun e he _ => he⟩
  | key :: keys, l, m, h, hnd => by
    rcases hv : getItem key ev with _ | v
    · rw [restore_none hv] at h
      obtain ⟨hfrom, hto⟩ := restore_items h hnd
      refine ⟨fun e he => (hfrom e he).imp_right ?_, fun e he hk => hto e he ?_⟩
      · rintro ⟨key', hkey', h⟩
        exact ⟨key', List.mem_cons_of_mem key hkey', h⟩
      · exact fun h => hk (List.mem_cons_of_mem key h)
    · rcases hw : restoredValue limits frames key (.ofJson v) with e | w
      · rw [restore_error hv hw] at h
        cases h
      rw [restore_ok hv hw] at h
      obtain ⟨hfrom, hto⟩ := restore_items h (nodup_setItem hnd)
      refine ⟨fun e he => ?_, fun e he hk => ?_⟩
      · rcases hfrom e he with he | ⟨key', hkey', h⟩
        · rcases (mem_setItem hnd).mp he with rfl | ⟨he, -⟩
          · exact .inr ⟨key, List.mem_cons_self, v, hv, hw⟩
          · exact .inl he
        · exact .inr ⟨key', List.mem_cons_of_mem key hkey', h⟩
      · rw [List.mem_cons, not_or] at hk
        exact hto e ((mem_setItem hnd).mpr (.inr ⟨he, hk.1⟩)) hk.2

end

/-! ## what a record that was built has to write -/

/-- JSON items as values -/
def jsonItems (l : List (Str × Json)) : List (Str × Value) := l.map fun e => (e.1, .ofJson e.2)

theorem ofItems_eq (l : List (Str × Json)) : Value.ofItems l = (jsonItems l).map strItem := by
  rw [Value.ofItems_eq_map, jsonItems, List.map_map]
  rfl

/-- the additions that are not protected -/
def unprotectedItems (l : List (Str × Json)) : List (Str × Json) :=
  l.filter fun e => decide (e.1 ∉ PROTECTED_ATTRIBUTES)

theorem unprotected_ofItems (l : List (Str × Json)) :
    unprotected (Value.ofItems l) = Value.ofItems (unprotectedItems l) := by
  rw [Value.ofItems_eq_map, Value.ofItems_eq_map]
  unfold unprotected unprotectedItems
  rw [List.filter_map]
  rfl

section
variable {config : CoreAuditConfig} {limits : ProjectionLimits} {frames : Nat}

theorem sanitized_ok_iff {l : List (Str × Json)} :
    (∃ out, sanitized config limits frames (Value.ofItems l) = .ok out) ↔
      emits config.redaction limits frames (jsonItems l) = true := by
  rw [ofItems_eq]
  exact sanitize_ok_iff

/-- what the scrubber and the projection make of JSON items -/
theorem sanitized_items {l out : List (Str × Json)}
    (h : sanitized config limits frames (Value.ofItems l) = .ok out) :
    (out.map Prod.fst).Nodup ∧
    (Json.writableItems true out = true ↔
      legibleItems config.redaction limits 1 limits.maxAttributes l = true) ∧
    ∀ t ∈ out.map Prod.fst, t ∈ l.map (fun e => limitKey limits e.1) ∨ t = str "_truncated" := by
  obtain ⟨l', hs, h⟩ := ok_of_bind h
  cases frames with
  | zero => cases hs
  | succ n =>
    replace hs : scrubItems config.redaction n (Value.ofItems l) = .ok l' := hs
    replace h : projectItems limits true n 1 limits.maxAttributes [] l' = .ok out := h
    have hw := writable_projectItems l n n 1 limits.maxAttributes l' [] out hs h List.nodup_nil
    rw [ofItems_eq] at hs
    obtain ⟨m, rfl, hm⟩ := items_scrubbed (scrubItems_forall₂ hs)
    have hnd := projectItems_nodup h List.nodup_nil
    have hkeys := projectItems_keys h
    refine ⟨hnd, hw.trans (and_iff_right fun e he => absurd he List.not_mem_nil), fun t ht => ?_⟩
    have hmkeys : m.map (fun e => limitKey limits e.1) = l.map fun e => limitKey limits e.1 := by
      have hfst := congrArg (List.map fun k => limitKey limits (k.text.toOption.getD []))
        (keys_scrubbed (scrubItems_forall₂ hs))
      rw [List.map_map, List.map_map, List.map_map, jsonItems, List.map_map, List.map_map] at hfst
      exact hfst
    rw [← hmkeys]
    exact (hkeys t ht).resolve_left List.not_mem_nil

variable {event : AuditEvent} {additions base attrs : List (Str × Json)}

/-- the additions the formatter takes over -/
theorem baseAttributes_ok
    (h : baseAttributes config limits frames event.fields (Value.ofItems additions) = .ok base) :
    ∃ own added,
    sanitized config limits frames (Value.ofItems event.attributes) = .ok own ∧
    sanitized config limits frames (Value.ofItems (unprotectedItems additions)) = .ok added ∧
    base = setItem (str "schema_version") (.string event.schemaVersion)
      (setItem (str "event_type") (.string event.eventType) (updateItems own added)) := by
  rw [baseAttributes_event] at h
  obtain ⟨own, hs, h⟩ := ok_of_bind h
  rw [unprotected_ofItems] at h
  obtain ⟨added, ha, h⟩ := ok_of_bind h
  exact ⟨own, added, hs, ha, (Except.ok.inj h).symm⟩

theorem baseAttributes_ok_iff :
    (∃ base, baseAttributes config limits frames event.fields (Value.ofItems additions) = .ok base) ↔
      emits config.redaction limits frames (jsonItems event.attributes) = true ∧
      emits config.redaction limits frames (jsonItems (unprotectedItems additions)) = true := by
  rw [← sanitized_ok_iff, ← sanitized_ok_iff]
  constructor
  · rintro ⟨base, h⟩
    obtain ⟨own, added, ho, ha, -⟩ := baseAttributes_ok h
    exact ⟨⟨own, ho⟩, added, ha⟩
  · rintro ⟨⟨own, ho⟩, added, ha⟩
    rw [baseAttributes_event, unprotected_ofItems]
    simp only [bind, Except.bind, ho, ha]
    exact ⟨_, rfl⟩

/-- what was added is under no protected key -/
theorem added_unprotected {added : List (Str × Json)}
    (h : sanitized config limits frames (Value.ofItems (unprotectedItems additions)) = .ok added)
    {e : Str × Json} (he : e ∈ added) : e.1 ∉ PROTECTED_ATTRIBUTES := by
  intro hp
  rcases (sanitized_items h).2.2 e.1 (List.mem_map_of_mem he) with hk | hk
  · obtain ⟨e', he', hk⟩ := List.mem_map.mp hk
    have hne := (List.mem_filter.mp he').2
    rw [((limitKey_eq_iff (protected_last e.1 hp)).mp hk).1, decide_eq_true_eq] at hne
    exact hne hp
  · rw [hk] at hp
    exact absurd hp (by decide)

/-- **the attributes can be written when what was added can be** -/
theorem writable_attrs (hshort : shortItems 4000 event.attributes = true)
    (hb : baseAttributes config limits frames event.fields (Value.ofItems additions) = .ok base)
    (hr : restore limits frames (heldItem event.attributes) RESTORED base = .ok attrs) :
    Json.writableItems true attrs = true ↔ legibleItems config.redaction limits 1
      limits.maxAttributes (unprotectedItems additions) = true := by
  obtain ⟨own, added, ho, ha, rfl⟩ := baseAttributes_ok hb
  obtain ⟨hndo, hwo, -⟩ := sanitized_items ho
  obtain ⟨hnda, hwa, -⟩ := sanitized_items ha
  have hown := Json.writableItems_iff.mp (hwo.mpr (legibleItems_of_short (by decide) _ _ _ hshort))
  have hndu := @nodup_updateItems _ added own hndo
  have hndt := @nodup_setItem _ (str "event_type") (.string event.eventType) _ hndu
  obtain ⟨hfrom, hto⟩ := restore_items hr (nodup_setItem hndt)
  rw [← hwa, Json.writableItems_iff, Json.writableItems_iff]
  constructor
  · -- what was added is still there
    intro h e he
    have hp := added_unprotected ha he
    have hne : ∀ k ∈ PROTECTED_ATTRIBUTES, e.1 ≠ k := fun k hk hek => hp (hek ▸ hk)
    refine h e (hto e ?_ fun hk => hp (restored_protected _ hk))
    refine (mem_setItem hndt).mpr (.inr ⟨(mem_setItem hndu).mpr (.inr ⟨?_, ?_⟩), ?_⟩)
    · exact (mem_updateItems hndo hnda).mpr (.inl he)
    · exact hne _ (by decide)
    · exact hne _ (by decide)
  · intro h e he
    rcases hfrom e he with he | ⟨key, hkey, v, hv, hw⟩
    · rcases (mem_setItem hndt).mp he with rfl | ⟨he, -⟩
      · rfl
      rcases (mem_setItem hndu).mp he with rfl | ⟨he, -⟩
      · rfl
      rcases (mem_updateItems hndo hnda).mp he with he | ⟨he, -⟩
      · exact h e he
      · exact hown e he
    · -- a restored value is made of the short numbers of the event
      have hshortv : shortInts 4000 v = true := by
        unfold getItem at hv
        obtain ⟨p, hp, rfl⟩ := Option.map_eq_some_iff.mp hv
        exact shortInts_of_mem hshort (List.mem_of_find?_eq_some hp)
      cases frames with
      | zero => cases hw
      | succ n => exact writable_of_short (by decide) hshortv ((restoredValue_eq hkey).mp hw).2

end

section
variable {host : Host} {config : CoreAuditConfig} {source : Option Str} {packageName : Str}
  {record : LogRecord} {event : AuditEvent} {attrs trace : List (Str × Json)}

theorem writable_trace (h : traceContext record = .ok trace) :
    Json.writableItems true trace = true := by
  obtain ⟨l₁, l₂, l₃, ht, hs, hf, rfl⟩ := traceContext_ok h
  have hfield : ∀ {k o l}, traceField k o = .ok l → ∀ e ∈ l, e.2.writable true = true := by
    rintro k (_ | e | s) l h e he <;> cases h
    · exact absurd he List.not_mem_nil
    · rw [List.mem_singleton.mp he]
      rfl
  have hflags : ∀ e ∈ l₃, e.2.writable true = true := by
    intro e he
    rcases ho : record.otelTraceSampled with _ | e | b
    · rw [ho] at hf
      cases hf
      exact absurd he List.not_mem_nil
    · rw [ho] at hf
      cases hf
    · rw [ho] at hf
      cases hf
      rw [List.mem_singleton.mp he]
      cases b <;> decide
  rw [Json.writableItems_iff]
  intro e he
  rcases List.mem_append.mp he with he | he
  · rcases List.mem_append.mp he with he | he
    · exact hfield ht e he
    · exact hfield hs e he
  · exact hflags e he

theorem writable_severity (levelno : Int) :
    (Json.int (severityNumber levelno)).writable true = true := by
  unfold severityNumber
  repeat' split
  all_goals decide

/-- a resource and a scope are texts -/
theorem writable_resource : (resource config source).writable true = true := rfl

theorem writable_scope : (instrumentationScope host packageName).writable true = true := by
  unfold instrumentationScope
  by_cases h : host.version packageName = []
  · rw [if_pos h]
    rfl
  · rw [if_neg h]
    rfl

/-- **what a record that was built has to write** -/
theorem writable_payload (ht : traceContext record = .ok trace) :
    (Json.obj (eventItems host config source packageName record event attrs ++ trace)).writable
      true = true ↔
      (Json.int event.timestampNs).writable true = true ∧
      (Json.int (event.observedTimestampNs.getD (timestampNanos host record) : Nat)).writable true
        = true ∧ Json.writableItems true attrs = true := by
  have htext : ∀ s, (Json.string s).writable true = true := fun _ => rfl
  show Json.writableItems true _ = true ↔ _
  unfold eventItems
  simp only [List.cons_append, List.nil_append, Json.writableItems, writable_severity,
    writable_resource, writable_scope, writable_trace ht, htext, Bool.and_true, Bool.and_eq_true,
    true_and]
  exact Iff.rfl

end

/-! ## valid events -/

/-- the integers of an event have at most `n` digits -/
structure ShortEvent (n : Nat) (event : AuditEvent) : Prop where
  attributes : shortItems n event.attributes = true
  timestamp : (decimal event.timestampNs).length ≤ n
  observed : ∀ t ∈ event.observedTimestampNs, (decimal t).length ≤ n

section
variable (f : JSONLLogFormatter) (host : Host) (record : LogRecord) (event : AuditEvent)
  (additions : List (Str × Json))

/-- the record is built with the type and the schema version of the event, and it is what `format`
returns unless its text is too long -/
def Reported : Prop :=
  ∃ items attrs line,
    buildLogRecord host f.config f.source f.packageName f.limits record = .ok (.obj items) ∧
    getItem (str "attributes") items = some (.obj attrs) ∧
    getItem (str "event_type") attrs = some (.string event.eventType) ∧
    getItem (str "schema_version") attrs = some (.string event.schemaVersion) ∧
    dumpsStrict f.separators (.obj items) = .ok line ∧
    (f.format host record = .ok line ∨ ∃ n, encodedLen line = .ok n ∧ f.limits.maxRecordBytes < n)

/-- the fields to restore have keys that are not cut; the stack has room for them, for the
attributes and for the additions; the numbers that the additions show can be written, and so can
the time stamp of the record where it is needed; and the trace identifiers can be read -/
structure Reportable : Prop where
  uncut : ∀ key ∈ RESTORED, hasItem key event.attributes = true →
    key.length ≤ f.limits.maxStringLength
  alone : ∀ key ∈ RESTORED, ∀ v, getItem key event.attributes = some v →
    presentsAlone f.limits host.frames v = true
  own : emits f.config.redaction f.limits host.frames (jsonItems event.attributes) = true
  added : emits f.config.redaction f.limits host.frames
    (jsonItems (unprotectedItems additions)) = true
  legible : legibleItems f.config.redaction f.limits 1 f.limits.maxAttributes
    (unprotectedItems additions) = true
  clock : event.observedTimestampNs = none →
    (decimal (timestampNanos host record)).length ≤ maxIntDigits
  trace : isOk (traceContext record) = true

variable {f host record event additions}

/-- the record is built when nothing raises -/
theorem buildLogRecord_ok_iff (he : record.auditEvent = event.object)
    (ha : record.auditAttributes = .dict (Value.ofItems additions)) {payload : Json} :
    buildLogRecord host f.config f.source f.packageName f.limits record = .ok payload ↔
      ∃ base attrs trace,
        baseAttributes f.config f.limits host.frames event.fields (Value.ofItems additions)
          = .ok base ∧
        restore f.limits host.frames (heldItem event.attributes) RESTORED base = .ok attrs ∧
        traceContext record = .ok trace ∧
        payload = .obj (eventItems host f.config (sourceOf f.source record) f.packageName record
          event attrs ++ trace) := by
  have hfields : recordAuditFields record = .ok (event.fields, Value.ofItems additions) := by
    unfold recordAuditFields
    rw [he, ha]
    rfl
  rw [build_of_fields hfields]
  constructor
  · intro h
    obtain ⟨base, hb, h⟩ := ok_of_bind h
    obtain ⟨attrs, hr, h⟩ := ok_of_bind h
    obtain ⟨trace, ht, h⟩ := ok_of_bind h
    exact ⟨base, attrs, trace, hb, hr, ht, (Except.ok.inj h).symm⟩
  · rintro ⟨base, attrs, trace, hb, hr, ht, rfl⟩
    simp only [bind, Except.bind, hb, hr, ht]
    rfl

/-- what `format` does with a record that can be written -/
theorem format_of_writable {payload : Json}
    (hb : buildLogRecord host f.config f.source f.packageName f.limits record = .ok payload)
    (hw : payload.writable true = true) :
    f.format host record = .ok (payload.render f.separators) ∨
      ∃ n, encodedLen (payload.render f.separators) = .ok n ∧ f.limits.maxRecordBytes < n := by
  have hlen := encodedLen_printable (Json.printable_render f.ascii payload)
  by_cases hn : (payload.render f.separators).length ≤ f.limits.maxRecordBytes
  · left
    obtain ⟨line, hline⟩ := ownLine_of_fits (f := f) ⟨payload, hb, hw, hn⟩
    obtain ⟨payload', hb', -, rfl, -⟩ := ownLine_some hline
    rw [hb] at hb'
    cases hb'
    rw [format_eq, hline]
    rfl
  · exact .inr ⟨_, hlen, Nat.lt_of_not_le hn⟩

/-- the fields of the event are restored -/
theorem restore_iff {base : List (Str × Json)} :
    (∃ attrs, restore f.limits host.frames (heldItem event.attributes) RESTORED base = .ok attrs) ↔
      (∀ key ∈ RESTORED, hasItem key event.attributes = true →
        key.length ≤ f.limits.maxStringLength) ∧
      ∀ key ∈ RESTORED, ∀ v, getItem key event.attributes = some v →
        presentsAlone f.limits host.frames v = true := by
  rw [restore_ok_iff]
  constructor
  · intro h
    refine ⟨fun key hkey hitem => ?_, fun key hkey v hv => ?_⟩
    · rw [← getItem_isSome] at hitem
      obtain ⟨v, hv⟩ := Option.isSome_iff_exists.mp hitem
      exact ((restoredValue_ok_iff hkey).mp (h key hkey v hv)).1
    · exact ((restoredValue_ok_iff hkey).mp (h key hkey v hv)).2
  · rintro ⟨hcut, halone⟩ key hkey v hv
    refine (restoredValue_ok_iff hkey).mpr ⟨hcut key hkey ?_, halone key hkey v hv⟩
    rw [← getItem_isSome, hv]
    rfl

/-- what the attributes say about the event -/
theorem names_attrs {base attrs : List (Str × Json)}
    (hb : baseAttributes f.config f.limits host.frames event.fields (Value.ofItems additions)
      = .ok base)
    (hr : restore f.limits host.frames (heldItem event.attributes) RESTORED base = .ok attrs) :
    getItem (str "event_type") attrs = some (.string event.eventType) ∧
    getItem (str "schema_version") attrs = some (.string event.schemaVersion) := by
  obtain ⟨own, added, -, -, rfl⟩ := baseAttributes_ok hb
  constructor
  · rw [restore_other (by decide) hr, getItem_setItem_other _ _ (by decide),
      getItem_setItem_same]
  · rw [restore_other (by decide) hr, getItem_setItem_same]

/-- the number of an event, as far as it is its own -/
theorem writable_nat {n : Nat} :
    (Json.int (n : Int)).writable true = true ↔ (decimal n).length ≤ maxIntDigits := by
  show decide _ = true ↔ _
  rw [decide_eq_true_eq, Int.natAbs_natCast]

/-- the time stamp it was observed at -/
theorem writable_observed (hshort : ShortEvent 4000 event) :
    (Json.int (event.observedTimestampNs.getD (timestampNanos host record) : Nat)).writable true
      = true ↔ (event.observedTimestampNs = none →
        (decimal (timestampNanos host record)).length ≤ maxIntDigits) := by
  rw [writable_nat]
  rcases ho : event.observedTimestampNs with _ | t
  · exact ⟨fun h _ => h, fun h => h rfl⟩
  · exact iff_of_true ((hshort.observed t ho).trans (by decide)) (fun h => by cases h)

end

/-- **a valid event is reported as it is exactly when its keys to restore are not cut and the stack
and the digits suffice** -/
theorem reported_iff (f : JSONLLogFormatter) (host : Host) (record : LogRecord) (event : AuditEvent)
    (additions : List (Str × Json)) (he : record.auditEvent = event.object)
    (ha : record.auditAttributes = .dict (Value.ofItems additions))
    (hshort : ShortEvent 4000 event) :
    Reported f host record event ↔ Reportable f host record event additions := by
  have hts : (Json.int event.timestampNs).writable true = true :=
    writable_nat.mpr (hshort.timestamp.trans (by decide))
  constructor
  · rintro ⟨items, attrs, line, hb, -, -, -, hd, -⟩
    obtain ⟨base, attrs', trace, hbase, hr, ht, hp⟩ := (buildLogRecord_ok_iff he ha).mp hb
    obtain ⟨hw, -⟩ := dumpsStrict_ok hd
    rw [hp, writable_payload ht, writable_observed hshort,
      writable_attrs hshort.attributes hbase hr] at hw
    obtain ⟨hown, hadded⟩ := baseAttributes_ok_iff.mp ⟨base, hbase⟩
    obtain ⟨hcut, halone⟩ := restore_iff.mp ⟨attrs', hr⟩
    exact ⟨hcut, halone, hown, hadded, hw.2.2, hw.2.1, isOk_iff.mpr ⟨trace, ht⟩⟩
  · intro h
    obtain ⟨base, hbase⟩ := baseAttributes_ok_iff.mpr ⟨h.own, h.added⟩
    obtain ⟨attrs, hr⟩ := (@restore_iff f host event base).mpr ⟨h.uncut, h.alone⟩
    obtain ⟨trace, ht⟩ := isOk_iff.mp h.trace
    have hb := (buildLogRecord_ok_iff he ha).mpr ⟨base, attrs, trace, hbase, hr, ht, rfl⟩
    have hw : (Json.obj (eventItems host f.config (sourceOf f.source record) f.packageName record
        event attrs ++ trace)).writable true = true :=
      (writable_payload ht).mpr ⟨hts, (writable_observed hshort).mpr h.clock,
        (writable_attrs hshort.attributes hbase hr).mpr h.legible⟩
    obtain ⟨htype, hschema⟩ := names_attrs hbase hr
    exact ⟨_, attrs, _, hb, rfl, htype, hschema, dumpsStrict_of_writable hw,
      format_of_writable hb hw⟩

/-- the record of a request, to which nothing was added -/
def LogRecord.ofRequestAlone (id : Str) : LogRecord :=
  { LogRecord.ofRequest id [] with auditAttributes := .dict (Value.ofItems []) }

theorem shortEvent_ofRequest {id : Str} : ShortEvent 4000 (.ofRequest id []) where
  attributes := rfl
  timestamp := (by decide : (decimal 0).length ≤ 4000)
  observed := fun t ht => absurd ht (Option.not_mem_none t)

/-- with the default limits the request identifier is restored -/
theorem reported_iff_request :
    Reported {} .sample (.ofRequestAlone (str "r-1")) (.ofRequest (str "r-1") []) :=
  (reported_iff {} .sample _ _ [] rfl rfl shortEvent_ofRequest).mpr
    { uncut := by decide
      alone := by
        intro key hkey v hv
        rcases List.mem_cons.mp hkey with rfl | hkey
        · cases hv
          rfl
        · have hnone : ∀ k ∈ [str "session.id", str "source.address"],
              (getItem k (AuditEvent.ofRequest (str "r-1") []).attributes).isNone := by decide
          have hn := hnone key hkey
          rw [hv] at hn
          cases hn
      own := rfl
      added := rfl
      legible := rfl
      clock := fun _ => by decide
      trace := rfl }

/-- a limit that is shorter than a key to restore -/
def ProjectionLimits.short : ProjectionLimits := { ProjectionLimits.default with
  maxStringLength := 9
  maxStringLength_pos := by decide }

/-- the key of a request identifier is cut, and the record cannot be built -/
theorem reported_cut :
    emitEvent 100 .default .short {} 0 20 (.ofRequest (str "r-1") [])
      = .ok [⟨20, [], (AuditEvent.ofRequest (str "r-1") []).observed 0, []⟩] ∧
    ¬ Reported { limits := .short } .sample (.ofRequestAlone (str "r-1"))
      (.ofRequest (str "r-1") []) := by
  refine ⟨rfl, ?_⟩
  rintro ⟨items, attrs, line, hb, -⟩
  have herror : buildLogRecord .sample .default none (str "sec_audit.logging") .short
      (.ofRequestAlone (str "r-1")) = .error (.keyError (str "request_id")) := rfl
  cases herror.symm.trans hb

end SecAudit
