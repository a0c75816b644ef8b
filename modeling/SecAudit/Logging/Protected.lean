import SecAudit.Core.Coverage
import SecAudit.Logging.Emission
import SecAudit.Logging.Gate

/-!
# What the additions of a record can do to the protected attributes

The filter of the formatter looks at the characters of a key, the projection writes it as
`str(key)`; a subclass of `str` can make the two differ.

* `AttributeKey`    a key of `audit_attributes`, an instance of such a subclass among them;
* `AuditRecord.build`  `build_log_record` over such keys; `build_plain`: over the others it is
                    `buildLogRecord`;
* `SameProtected`   two records of one event agree on the protected attributes, and where nothing
                    was added;
* `forged`          what is added under a protected name, if anything is;
* `same_iff_forged`  two records agree exactly when the same is forged in both, under each name that
                    the event lacks; `forged_plain`: with keys that are not of a subclass, nothing
                    is.
-/

set_option linter.unusedVariables false

namespace SecAudit
open Py

/-! ## the formatter over all keys -/

inductive AttributeKey where
  | key (k : Key)
  /-- an instance of a subclass of `str`: its characters, and what `str(key)` does -/
  | sub (chars : Str) (text : Except Exc Str)

namespace AttributeKey

/-- the key as the scrubber and the projection see it, by `str(key)` -/
def toKey : AttributeKey → Key
  | .key k => k
  | .sub _ text => .other text

/-- `isinstance(key, str) and key not in PROTECTED_ATTRIBUTES` -/
def unprotected : AttributeKey → Bool
  | .key k => k.unprotected
  | .sub chars _ => decide (chars ∉ PROTECTED_ATTRIBUTES)

end AttributeKey

/-- the additions that the formatter keeps -/
def keptAdditions (additions : List (AttributeKey × Value)) : List (Key × Value) :=
  (additions.filter fun p => p.1.unprotected).map fun p => (p.1.toKey, p.2)

/-- a record with an event and a dict of additions; the two fields of `record` that they stand for
are not read -/
structure AuditRecord where
  record : LogRecord
  event : AuditEvent
  additions : List (AttributeKey × Value)

section
variable (host : Host) (config : CoreAuditConfig) (source : Option Str) (packageName : Str)
  (limits : ProjectionLimits)

/-- `build_log_record` -/
def AuditRecord.build (r : AuditRecord) : Except Exc Json := do
  let attributes ← sanitized config limits host.frames (Value.ofItems r.event.attributes)
  let projectedAdditions ← sanitized config limits host.frames (keptAdditions r.additions)
  let attributes ← restore limits host.frames (heldItem r.event.attributes) RESTORED
    (setItem (str "schema_version") (.string r.event.schemaVersion)
      (setItem (str "event_type") (.string r.event.eventType)
        (updateItems attributes projectedAdditions)))
  let trace ← traceContext r.record
  return .obj (eventItems host config (sourceOf source r.record) packageName r.record r.event
    attributes ++ trace)

theorem keptAdditions_plain (l : List (Key × Value)) :
    keptAdditions (l.map fun p => (.key p.1, p.2)) = unprotected l := by
  unfold keptAdditions unprotected
  rw [List.filter_map, List.map_map]
  exact List.map_id'' (fun _ => rfl) _

/-- over keys that are no instances of such a subclass it is the formatter as it was -/
theorem build_plain {record : LogRecord} {event : AuditEvent} {l : List (Key × Value)}
    (he : record.auditEvent = event.object) (hl : record.auditAttributes = .dict l) :
    buildLogRecord host config source packageName limits record
      = AuditRecord.build host config source packageName limits
        ⟨record, event, l.map fun p => (.key p.1, p.2)⟩ := by
  have hf : recordAuditFields record = .ok (event.fields, l) := by
    unfold recordAuditFields
    rw [he, hl]
    rfl
  unfold buildLogRecord AuditRecord.build
  rw [hf, keptAdditions_plain]
  simp only [bind, Except.bind, baseAttributes_event, recordItems_event]
  rcases sanitized config limits host.frames (Value.ofItems event.attributes) with e | attributes
  · rfl
  · rcases sanitized config limits host.frames (unprotected l) with e | added <;> rfl

end

/-! ## what two records have to agree on -/

/-- `payload['attributes']` -/
def attributesOf : Json → List (Str × Json)
  | .obj items => match getItem (str "attributes") items with
    | some (.obj attributes) => attributes
    | _ => []
  | _ => []

section
variable (config : CoreAuditConfig) (limits : ProjectionLimits) (frames : Nat)

/-- the projected keys of the additions -/
def projectedKeys (additions : List (AttributeKey × Value)) : List Str :=
  match sanitized config limits frames (keptAdditions additions) with
  | .ok added => added.map Prod.fst
  | .error _ => []

/-- two outputs agree on the protected attributes, and on those that neither record has added -/
structure SameProtected (r r' : AuditRecord) (out out' : Json) : Prop where
  fields : ∀ k ∈ PROTECTED_ATTRIBUTES, getItem k (attributesOf out) = getItem k (attributesOf out')
  others : ∀ k, k ∉ projectedKeys config limits frames r.additions →
    k ∉ projectedKeys config limits frames r'.additions →
    getItem k (attributesOf out) = getItem k (attributesOf out')

/-- the addition that goes under `name`, as it is sanitized by itself -/
def forged (name : Str) (additions : List (AttributeKey × Value)) :
    Option (Except Exc (List (Str × Json))) :=
  (lastAs limits name limits.maxAttributes (keptAdditions additions)).map fun e =>
    sanitized config limits frames [e]

end

section
variable {config : CoreAuditConfig} {limits : ProjectionLimits} {frames : Nat} {name : Str}

/-! ## what an item is written under -/

/-- a name that is cut ends as the marker does -/
theorem limitString_eq {s : Str} {n : Nat} (hname : name.getLast? ≠ some (cp ']'))
    (h : limitString s n = name) : s = name := by
  unfold limitString at h
  split at h
  · exact h
  · rw [← h, List.getLast?_append_of_ne_nil _ (by decide)] at hname
    exact absurd rfl hname

theorem getLast_restored : ∀ k ∈ RESTORED, k.getLast? ≠ some (cp ']') ∧ k ≠ str "_truncated" := by
  decide

/-- no key is written under `name` -/
theorem lastAs_eq_none {l : List (Key × Value)} (h : ∀ e ∈ l, readsAs limits name e = false) :
    ∀ room, lastAs limits name room l = none := by
  induction l with
  | nil => exact fun room => by cases room <;> rfl
  | cons e l ih =>
    intro room
    cases room with
    | zero => rfl
    | succ room =>
      rw [lastAs, ih (fun x hx => h x (List.mem_cons_of_mem _ hx)), h e List.mem_cons_self]
      rfl

/-- an event without the field has no attribute that is written under it -/
theorem lastAs_ofItems {items : List (Str × Json)} (hname : name.getLast? ≠ some (cp ']'))
    (h : getItem name items = none) (room : Nat) :
    lastAs limits name room (Value.ofItems items) = none := by
  refine lastAs_eq_none (fun e he => ?_) room
  rw [Value.ofItems_eq_map] at he
  obtain ⟨p, hp, rfl⟩ := List.mem_map.mp he
  refine decide_eq_false fun hk => ?_
  have hmem : hasItem name items = true :=
    hasItem_iff.mpr (limitString_eq hname hk ▸ List.mem_map_of_mem hp)
  rw [← getItem_isSome, h] at hmem
  cases hmem

/-- **with plain keys nothing is forged** -/
theorem forged_plain {l : List (Key × Value)} (hname : name ∈ RESTORED) :
    forged config limits frames name (l.map fun p => (.key p.1, p.2)) = none := by
  unfold forged
  rw [keptAdditions_plain, lastAs_eq_none (fun e he => ?_), Option.map_none]
  have hu := (List.mem_filter.mp he).2
  obtain ⟨k, v⟩ := e
  cases k with
  | other t => cases hu
  | str s =>
    refine decide_eq_false fun hk => of_decide_eq_true hu ?_
    rw [limitString_eq (getLast_restored name hname).1 hk]
    exact (by decide : ∀ k ∈ RESTORED, k ∈ PROTECTED_ATTRIBUTES) name hname

/-! ## what is written under a name -/

/-- what sanitized items have under a name is the last of them, sanitized by itself -/
theorem sanitized_last (hname : name ≠ str "_truncated") {l : List (Key × Value)}
    {added : List (Str × Json)} (h : sanitized config limits frames l = .ok added) :
    (lastAs limits name limits.maxAttributes l = none → getItem name added = none) ∧
    ∀ e, lastAs limits name limits.maxAttributes l = some e → ∃ j, getItem name added = some j ∧
      sanitized config limits frames [e] = .ok [(name, j)] :=
  shown_last (fun _ => hname) h

/-! ## what the record has -/

/-- a field that the event lacks is not restored -/
theorem restore_absent {ev : List (Str × Json)} (h : getItem name ev = none) :
    ∀ {keys : List Str} {l m : List (Str × Json)},
      restore limits frames (heldItem ev) keys l = .ok m →
    getItem name m = getItem name l
  | [], l, m, hm => by
    cases hm
    rfl
  | key :: keys, l, m, hm => by
    cases hv : getItem key ev with
    | none =>
      rw [restore_none hv] at hm
      exact restore_absent h hm
    | some v =>
      cases hx : restoredValue limits frames key (.ofJson v) with
      | error x =>
        rw [restore_error hv hx] at hm
        cases hm
      | ok w =>
        rw [restore_ok hv hx] at hm
        rw [restore_absent h hm]
        refine getItem_setItem_other _ _ fun he => ?_
        rw [he, hv] at h
        cases h

end

section
variable {host : Host} {config : CoreAuditConfig} {source : Option Str} {packageName : Str}
  {limits : ProjectionLimits} {r r' : AuditRecord} {out out' : Json}

/-- the attributes of a record that was built: the event's, what is added, and on top of them the
protected ones -/
theorem build_ok (h : r.build host config source packageName limits = .ok out) :
    ∃ base added, sanitized config limits host.frames (Value.ofItems r.event.attributes) = .ok base ∧
      sanitized config limits host.frames (keptAdditions r.additions) = .ok added ∧
      restore limits host.frames (heldItem r.event.attributes) RESTORED
        (setItem (str "schema_version") (.string r.event.schemaVersion)
          (setItem (str "event_type") (.string r.event.eventType) (updateItems base added)))
        = .ok (attributesOf out) := by
  obtain ⟨base, hbase, h⟩ := ok_of_bind h
  obtain ⟨added, hadded, h⟩ := ok_of_bind h
  obtain ⟨attributes, hattributes, h⟩ := ok_of_bind h
  obtain ⟨trace, -, h⟩ := ok_of_bind h
  obtain rfl := Except.ok.inj h
  exact ⟨base, added, hbase, hadded, hattributes⟩

theorem mem_protected : ∀ k ∈ PROTECTED_ATTRIBUTES,
    k = str "event_type" ∨ k = str "schema_version" ∨ k ∈ RESTORED := by decide

/-- the two fields of the event itself -/
theorem build_authoritative (h : r.build host config source packageName limits = .ok out) :
    getItem (str "event_type") (attributesOf out) = some (.string r.event.eventType) ∧
      getItem (str "schema_version") (attributesOf out) = some (.string r.event.schemaVersion) := by
  obtain ⟨base, added, -, -, hres⟩ := build_ok h
  constructor
  · rw [restore_other (by decide) hres, getItem_setItem_other _ _ (by decide),
      getItem_setItem_same]
  · rw [restore_other (by decide) hres, getItem_setItem_same]

/-- a field that the event has is there as the event has it -/
theorem build_restored (h : r.build host config source packageName limits = .ok out) {k : Str}
    {v : Json} (hk : k ∈ RESTORED) (hv : getItem k r.event.attributes = some v) :
    ∃ w, restoredValue limits host.frames k (.ofJson v) = .ok w ∧
      getItem k (attributesOf out) = some w := by
  obtain ⟨base, added, -, -, hres⟩ := build_ok h
  exact restore_field hv (by decide) hk hres

/-- under a field that the event lacks is what was added there -/
theorem build_lacking (h : r.build host config source packageName limits = .ok out) {k : Str}
    (hk : k ∈ RESTORED) (hv : getItem k r.event.attributes = none) :
    (forged config limits host.frames k r.additions = none ∧ getItem k (attributesOf out) = none) ∨
    ∃ j, forged config limits host.frames k r.additions = some (.ok [(k, j)]) ∧
      getItem k (attributesOf out) = some j := by
  obtain ⟨base, added, hbase, hadded, hres⟩ := build_ok h
  obtain ⟨hlast, hmark⟩ := getLast_restored k hk
  have hnodup : (added.map Prod.fst).Nodup := by
    obtain ⟨l, -, hp⟩ := ok_of_bind hadded
    unfold projectAttributes at hp
    split at hp
    · cases hp
    · exact projectItems_nodup hp List.nodup_nil
  have hbase' : getItem k base = none := (sanitized_last hmark hbase).1 (lastAs_ofItems hlast hv _)
  have hne : ∀ k ∈ RESTORED, k ≠ str "event_type" ∧ k ≠ str "schema_version" := by decide
  rw [restore_absent hv hres, getItem_setItem_other _ _ (hne k hk).2,
    getItem_setItem_other _ _ (hne k hk).1, getItem_updateItems hnodup, hbase', Option.or_none]
  obtain ⟨hnone, hsome⟩ := sanitized_last hmark hadded
  unfold forged
  cases hl : lastAs limits k limits.maxAttributes (keptAdditions r.additions) with
  | none => exact .inl ⟨rfl, hnone hl⟩
  | some e =>
    obtain ⟨j, hj, hs⟩ := hsome e hl
    exact .inr ⟨j, congrArg some hs, hj⟩

/-- what was not added is as in the event -/
theorem build_other (h : r.build host config source packageName limits = .ok out) {k : Str}
    (hk : k ∉ PROTECTED_ATTRIBUTES)
    (hadd : k ∉ projectedKeys config limits host.frames r.additions) :
    ∃ base, sanitized config limits host.frames (Value.ofItems r.event.attributes) = .ok base ∧
      getItem k (attributesOf out) = getItem k base := by
  obtain ⟨base, added, hbase, hadded, hres⟩ := build_ok h
  have hp : k ∉ str "event_type" :: str "schema_version" :: RESTORED := hk
  rw [List.mem_cons, not_or, List.mem_cons, not_or] at hp
  have hnot : k ∉ added.map Prod.fst := by
    unfold projectedKeys at hadd
    rwa [hadded] at hadd
  refine ⟨base, hbase, ?_⟩
  rw [restore_other hp.2.2 hres, getItem_setItem_other _ _ hp.2.1, getItem_setItem_other _ _ hp.1,
    getItem_updateItems_other hnot]

/-- **two records of one event agree on the protected attributes exactly when both forge the same
under each name that the event lacks** -/
theorem same_iff_forged (host : Host) (config : CoreAuditConfig) (source : Option Str)
    (packageName : Str) (limits : ProjectionLimits) (r r' : AuditRecord) (out out' : Json)
    (he : r'.event = r.event) (h : r.build host config source packageName limits = .ok out)
    (h' : r'.build host config source packageName limits = .ok out') :
    SameProtected config limits host.frames r r' out out' ↔
      ∀ k ∈ RESTORED, getItem k r.event.attributes = none →
        forged config limits host.frames k r.additions
          = forged config limits host.frames k r'.additions := by
  constructor
  · intro hs k hk hv
    have hin : ∀ k ∈ RESTORED, k ∈ PROTECTED_ATTRIBUTES := by decide
    have hsame := hs.fields k (hin k hk)
    rcases build_lacking h hk hv with ⟨hf, hg⟩ | ⟨j, hf, hg⟩ <;>
      rcases build_lacking h' hk (he ▸ hv) with ⟨hf', hg'⟩ | ⟨j', hf', hg'⟩ <;>
      rw [hg, hg'] at hsame
    · rw [hf, hf']
    · cases hsame
    · cases hsame
    · rw [hf, hf', Option.some.inj hsame]
  · intro hforged
    have hfields : ∀ k ∈ PROTECTED_ATTRIBUTES,
        getItem k (attributesOf out) = getItem k (attributesOf out') := by
      intro k hk
      rcases mem_protected k hk with rfl | rfl | hk
      · rw [(build_authoritative h).1, (build_authoritative h').1, he]
      · rw [(build_authoritative h).2, (build_authoritative h').2, he]
      · cases hv : getItem k r.event.attributes with
        | some v =>
          obtain ⟨w, hw, hg⟩ := build_restored h hk hv
          obtain ⟨w', hw', hg'⟩ := build_restored h' hk (he ▸ hv)
          rw [hg, hg', Except.ok.inj (hw.symm.trans hw')]
        | none =>
          have hsame := hforged k hk hv
          rcases build_lacking h hk hv with ⟨hf, hg⟩ | ⟨j, hf, hg⟩ <;>
            rcases build_lacking h' hk (he ▸ hv) with ⟨hf', hg'⟩ | ⟨j', hf', hg'⟩ <;>
            rw [hf, hf'] at hsame
          · rw [hg, hg']
          · cases hsame
          · cases hsame
          · cases hsame
            rw [hg, hg']
    refine ⟨hfields, fun k hadd hadd' => ?_⟩
    by_cases hk : k ∈ PROTECTED_ATTRIBUTES
    · exact hfields k hk
    · obtain ⟨base, hb, hg⟩ := build_other h hk hadd
      obtain ⟨base', hb', hg'⟩ := build_other h' hk hadd'
      rw [he, hb] at hb'
      rw [hg, hg', Except.ok.inj hb']

end

/-- an event with a request identifier and no source address, with additions -/
def AuditRecord.ofRequest (additions : List (AttributeKey × Value)) : AuditRecord :=
  ⟨.bare, .ofRequest (str "r-1") [], additions⟩

/-- a near miss of a protected name, beside nothing added -/
theorem same_iff_forged_near : ∃ out out',
    (AuditRecord.ofRequest [(.key (.str (str "source.addres")), .str (str "203.0.113.9"))]).build
      .sample {} none (str "sec_audit") {} = .ok out ∧
    (AuditRecord.ofRequest []).build .sample {} none (str "sec_audit") {} = .ok out' ∧
    SameProtected {} {} Host.sample.frames
      (.ofRequest [(.key (.str (str "source.addres")), .str (str "203.0.113.9"))])
      (.ofRequest []) out out' := by
  obtain ⟨out, h⟩ := isOk_iff.mp (by decide +kernel :
    isOk ((AuditRecord.ofRequest [(.key (.str (str "source.addres")),
      .str (str "203.0.113.9"))]).build .sample {} none (str "sec_audit") {}) = true)
  obtain ⟨out', h'⟩ := isOk_iff.mp (by decide +kernel :
    isOk ((AuditRecord.ofRequest []).build .sample {} none (str "sec_audit") {}) = true)
  refine ⟨out, out', h, h', (same_iff_forged .sample {} none (str "sec_audit") {}
    (.ofRequest [(.key (.str (str "source.addres")), .str (str "203.0.113.9"))]) (.ofRequest [])
    out out' rfl h h').mpr fun k hk _ => ?_⟩
  exact (@forged_plain _ _ _ k [(.str (str "source.addres"), .str (str "203.0.113.9"))] hk).trans
    (@forged_plain _ _ _ k [] hk).symm

/-- a member `address = 'addr'` of an enumeration `source` of strings, as a key: the filter looks
at `addr`, the record has `source.address` -/
def addressMember : AttributeKey := .sub (str "addr") (.ok (str "source.address"))

/-- with it an enricher gives an address to an event that has none -/
theorem source_forged : ¬ ∀ (host : Host) (config : CoreAuditConfig) (source : Option Str)
    (packageName : Str) (limits : ProjectionLimits) (r r' : AuditRecord) (out out' : Json),
    r'.event = r.event → r.build host config source packageName limits = .ok out →
    r'.build host config source packageName limits = .ok out' →
    SameProtected config limits host.frames r r' out out' := by
  intro hall
  have hhas : ∀ {additions : List (AttributeKey × Value)} {has : Bool},
      (AuditRecord.build .sample {} none (str "sec_audit") {} (.ofRequest additions)).map
        (fun out => (getItem (str "source.address") (attributesOf out)).isSome) = .ok has →
      ∃ out, AuditRecord.build .sample {} none (str "sec_audit") {} (.ofRequest additions)
        = .ok out ∧ (getItem (str "source.address") (attributesOf out)).isSome = has :=
    fun h => ok_of_map h
  obtain ⟨out, h, hin⟩ := @hhas [(addressMember, .str (str "203.0.113.9"))] true
    (by decide +kernel)
  obtain ⟨out', h', hnot⟩ := @hhas [] false (by decide +kernel)
  have hsame := (hall .sample {} none (str "sec_audit") {} (.ofRequest [(addressMember,
    .str (str "203.0.113.9"))]) (.ofRequest []) out out' rfl h h').fields (str "source.address")
    (by decide)
  rw [hsame, hnot] at hin
  cases hin

end SecAudit
