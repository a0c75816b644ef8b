import Mathlib.Data.List.Forall2
import SecAudit.Logging.Line

/-!
# What two records that differ at hidden positions print

* `AlikeRecords`    two records that differ only where the redaction hides values;
* `SameItems`       items with the same keys and the same texts;
* `RestoredAlike`   the protected fields that the formatter restores have the same text;
* `Fits`            the record can be built and written within the limit;
* `gate_iff`        two such records print the same line exactly when the restored fields have the
                    same text, or neither record fits.
-/

set_option linter.unusedVariables false

namespace SecAudit
open Py

/-! ## records that differ only where the redaction hides -/

/-- additions that differ only at hidden positions -/
def AlikeAdditions (red : Redaction) : AuditAttributes → AuditAttributes → Prop
  | .absent, .absent => True
  | .dict l, .dict l' => AlikeItems red l l'
  | .other, .other => True
  | _, _ => False

/-- events that differ only at hidden positions; `session.id` itself is a sensitive key, and its
value is hidden only where a string matches a pattern -/
structure AlikeEvents (red : Redaction) (e e' : AuditEvent) : Prop where
  eventType : e'.eventType = e.eventType
  schemaVersion : e'.schemaVersion = e.schemaVersion
  timestampNs : e'.timestampNs = e.timestampNs
  observedTimestampNs : e'.observedTimestampNs = e.observedTimestampNs
  body : e'.body = e.body ∨ Hidden red e.body e'.body
  attributes : AlikeItems red (Value.ofItems e.attributes) (Value.ofItems e'.attributes)
  session : ∀ v v', getItem (str "session.id") e.attributes = some v →
    getItem (str "session.id") e'.attributes = some v' →
    Alike red (Value.ofJson v) (Value.ofJson v')

structure AlikeRecords (red : Redaction) (r r' : LogRecord) (e e' : AuditEvent) : Prop where
  event : r.auditEvent = e.object
  event' : r'.auditEvent = e'.object
  alike : AlikeEvents red e e'
  additions : AlikeAdditions red r.auditAttributes r'.auditAttributes
  rest : r' = { r with auditEvent := e'.object, auditAttributes := r'.auditAttributes }

section
variable {red : Redaction} {config : CoreAuditConfig} {limits : ProjectionLimits} {frames : Nat}
  {e e' : AuditEvent}

theorem unprotected_alike : ∀ {l l' : List (Key × Value)}, AlikeItems red l l' →
    AlikeItems red (unprotected l) (unprotected l')
  | [], l', h => by
    rw [show l' = [] from h]
    exact rfl
  | (k, v) :: l, l', h => by
    obtain ⟨v', t, rfl, hv, ht⟩ := h
    have ih := unprotected_alike ht
    unfold unprotected at ih ⊢
    rw [List.filter_cons, List.filter_cons]
    by_cases hk : k.unprotected = true
    · rw [if_pos hk, if_pos hk]
      exact ⟨v', _, rfl, hv, ih⟩
    · rw [if_neg hk, if_neg hk]
      exact ih

theorem sanitized_alike {l l' : List (Key × Value)} (h : AlikeItems config.redaction l l') :
    sanitized config limits frames l = sanitized config limits frames l' := by
  unfold sanitized scrubDict
  cases frames with
  | zero => rfl
  | succ n =>
    show (scrubItems _ n l).bind _ = (scrubItems _ n l').bind _
    rw [scrubItems_alike l l' n h]

/-- what is restored goes on top of the same attributes -/
theorem baseAttributes_alike (h : AlikeEvents config.redaction e e') {l l' : List (Key × Value)}
    (hl : AlikeItems config.redaction l l') :
    baseAttributes config limits frames e.fields l
      = baseAttributes config limits frames e'.fields l' := by
  rw [baseAttributes_event, baseAttributes_event, sanitized_alike h.attributes,
    sanitized_alike (unprotected_alike hl), h.eventType, h.schemaVersion]

theorem scrubBody_alike (h : AlikeEvents red e e') :
    scrubBody red e'.body = scrubBody red e.body := by
  rcases h.body with hb | ⟨hb, hb'⟩
  · rw [hb]
  · unfold scrubBody
    rw [if_pos hb, if_pos hb']

/-- the events have the same keys -/
theorem keys_alike : ∀ {l l' : List (Str × Json)},
    AlikeItems red (Value.ofItems l) (Value.ofItems l') → l'.map Prod.fst = l.map Prod.fst
  | [], [], _ => rfl
  | [], p :: l', h => by cases (show Value.ofItems (p :: l') = [] from h)
  | (k, v) :: l, [], h => by
    obtain ⟨v', t, ht, -⟩ := h
    cases ht
  | (k, v) :: l, (k', w) :: l', h => by
    obtain ⟨v', t, ht, -, hl⟩ := h
    obtain ⟨hk, rfl⟩ := List.cons.inj ht
    cases hk
    rw [List.map_cons, List.map_cons, keys_alike hl]

end

/-! ## items with the same text -/

/-- values with the same JSON text -/
def SameText (v v' : Json) : Prop := v.fuse = v'.fuse

/-- the same keys in the same order, with values of the same text -/
def SameItems (l l' : List (Str × Json)) : Prop :=
  List.Forall₂ (fun p p' => p.1 = p'.1 ∧ SameText p.2 p'.2) l l'

section
variable {l l' : List (Str × Json)} {k : Str} {v v' : Json}

theorem SameText.refl (v : Json) : SameText v v := rfl

theorem sameItems_refl : ∀ l : List (Str × Json), SameItems l l
  | [] => .nil
  | p :: l => .cons ⟨rfl, rfl⟩ (sameItems_refl l)

theorem SameItems.keys (h : SameItems l l') : l'.map Prod.fst = l.map Prod.fst := by
  induction h with
  | nil => rfl
  | cons hp _ ih => rw [List.map_cons, List.map_cons, ih, hp.1]

theorem SameItems.fuse (h : SameItems l l') : Json.fuseItems l = Json.fuseItems l' := by
  induction h with
  | nil => rfl
  | @cons p p' l l' hp _ ih =>
    obtain ⟨k, v⟩ := p
    obtain ⟨k', v'⟩ := p'
    obtain ⟨rfl, hv⟩ := hp
    rw [Json.fuseItems, Json.fuseItems, ih, show v.fuse = v'.fuse from hv]

theorem sameItems_of_fuse : ∀ {l l' : List (Str × Json)}, l'.map Prod.fst = l.map Prod.fst →
    Json.fuseItems l = Json.fuseItems l' → SameItems l l'
  | [], [], _, _ => .nil
  | [], _ :: _, hk, _ => by cases hk
  | _ :: _, [], hk, _ => by cases hk
  | (k, v) :: l, (k', v') :: l', hk, hf => by
    obtain ⟨e, hk⟩ := List.cons.inj hk
    obtain ⟨hp, hf⟩ := List.cons.inj hf
    exact .cons ⟨e.symm, (Prod.mk.inj hp).2⟩ (sameItems_of_fuse hk hf)

theorem SameItems.hasItem (h : SameItems l l') : hasItem k l' = hasItem k l := by
  rw [Bool.eq_iff_iff, hasItem_iff, hasItem_iff, h.keys]

theorem SameItems.setItem (h : SameItems l l') (hv : SameText v v') :
    SameItems (setItem k v l) (SecAudit.setItem k v' l') := by
  induction h with
  | nil => exact .cons ⟨rfl, hv⟩ .nil
  | @cons p p' l l' hp hl ih =>
    unfold SecAudit.setItem
    by_cases hk : p.1 = k
    · rw [if_pos hk, if_pos (hp.1 ▸ hk)]
      exact .cons ⟨rfl, hv⟩ hl
    · rw [if_neg hk, if_neg (hp.1 ▸ hk)]
      exact .cons hp ih

theorem SameItems.getItem (h : SameItems l l') (hv : getItem k l = some v)
    (hv' : SecAudit.getItem k l' = some v') : SameText v v' := by
  unfold SecAudit.getItem at hv hv'
  induction h with
  | nil => cases hv
  | @cons p p' l l' hp hl ih =>
    by_cases hk : p.1 = k
    · rw [List.find?_cons_of_pos (by simpa using hk)] at hv
      rw [List.find?_cons_of_pos (by simpa using hp.1 ▸ hk)] at hv'
      obtain rfl := Option.some.inj hv
      obtain rfl := Option.some.inj hv'
      exact hp.2
    · rw [List.find?_cons_of_neg (by simpa using hk)] at hv
      rw [List.find?_cons_of_neg (by simpa using hp.1 ▸ hk)] at hv'
      exact ih hv hv'

end

/-! ## the protected fields -/

/-- outcomes of the same text -/
def SameOutcome : Except Exc Json → Except Exc Json → Prop
  | .ok v, .ok v' => SameText v v'
  | .error _, .error _ => True
  | _, _ => False

/-- outcomes of the same items -/
def SameResult : Except Exc (List (Str × Json)) → Except Exc (List (Str × Json)) → Prop
  | .ok l, .ok l' => SameItems l l'
  | .error _, .error _ => True
  | _, _ => False

/-- the protected fields of both events are restored to the same text -/
def RestoredAlike (limits : ProjectionLimits) (frames : Nat) (e e' : AuditEvent) : Prop :=
  ∀ key ∈ RESTORED, ∀ v v', getItem key e.attributes = some v →
    getItem key e'.attributes = some v' →
    SameOutcome (restoredValue limits frames key (.ofJson v))
      (restoredValue limits frames key (.ofJson v'))

section
variable {limits : ProjectionLimits} {frames : Nat} {ev ev' : List (Str × Json)}

theorem SameOutcome.refl : ∀ x : Except Exc Json, SameOutcome x x
  | .ok v => SameText.refl v
  | .error _ => trivial

theorem restoredAlike_of_eq {e e' : AuditEvent} (h : e'.attributes = e.attributes) :
    RestoredAlike limits frames e e' := by
  intro key _ v v' hv hv'
  rw [h, hv] at hv'
  cases hv'
  exact SameOutcome.refl _

/-- the field is in both events or in neither -/
theorem getItem_both {k : Str} (hk : ev'.map Prod.fst = ev.map Prod.fst) :
    (getItem k ev = none ∧ getItem k ev' = none) ∨
    ∃ v v', getItem k ev = some v ∧ getItem k ev' = some v' := by
  have hs : (getItem k ev').isSome = (getItem k ev).isSome := by
    rw [getItem_isSome, getItem_isSome, Bool.eq_iff_iff, hasItem_iff, hasItem_iff, hk]
  rcases hv : getItem k ev with _ | v
  · rw [hv] at hs
    exact .inl ⟨rfl, Option.isNone_iff_eq_none.mp (Option.isSome_eq_false_iff.mp hs)⟩
  · rw [hv] at hs
    obtain ⟨v', hv'⟩ := Option.isSome_iff_exists.mp hs
    exact .inr ⟨v, v', rfl, hv'⟩

theorem restore_none {key : Str} (hv : getItem key ev = none) (keys : List Str)
    (l : List (Str × Json)) :
    restore limits frames (heldItem ev) (key :: keys) l
      = restore limits frames (heldItem ev) keys l := by
  rw [restore, heldItem, hv]
  rfl

theorem restore_error {key : Str} {v : Json} {x : Exc} (hv : getItem key ev = some v)
    (hx : restoredValue limits frames key (.ofJson v) = .error x) (keys : List Str)
    (l : List (Str × Json)) : restore limits frames (heldItem ev) (key :: keys) l = .error x := by
  rw [restore, heldItem, hv]
  simp only [bind, Except.bind, Option.map_some, hx]

theorem restore_ok {key : Str} {v w : Json} (hv : getItem key ev = some v)
    (hx : restoredValue limits frames key (.ofJson v) = .ok w) (keys : List Str)
    (l : List (Str × Json)) :
    restore limits frames (heldItem ev) (key :: keys) l
      = restore limits frames (heldItem ev) keys (setItem key w l) := by
  rw [restore, heldItem, hv]
  simp only [bind, Except.bind, Option.map_some, hx]

/-- fields of the same text are restored to items of the same text -/
theorem restore_same (hk : ev'.map Prod.fst = ev.map Prod.fst) : ∀ {keys : List Str}
    {l l' : List (Str × Json)},
    (∀ key ∈ keys, ∀ v v', getItem key ev = some v → getItem key ev' = some v' →
      SameOutcome (restoredValue limits frames key (.ofJson v))
        (restoredValue limits frames key (.ofJson v'))) →
    SameItems l l' →
    SameResult (restore limits frames (heldItem ev) keys l)
      (restore limits frames (heldItem ev') keys l')
  | [], l, l', _, hl => hl
  | key :: keys, l, l', h, hl => by
    have hrest : ∀ l l', SameItems l l' → _ := fun l l' hl =>
      restore_same hk (fun k hk => h k (List.mem_cons_of_mem key hk)) hl
    rcases getItem_both (k := key) hk with ⟨hv, hv'⟩ | ⟨v, v', hv, hv'⟩
    · rw [restore_none hv, restore_none hv']
      exact hrest l l' hl
    · have hs := h key List.mem_cons_self v v' hv hv'
      rcases hx : restoredValue limits frames key (.ofJson v) with x | w
      · rcases hx' : restoredValue limits frames key (.ofJson v') with x' | w'
        · rw [restore_error hv hx, restore_error hv' hx']
          exact trivial
        · rw [hx, hx'] at hs
          exact hs.elim
      · rcases hx' : restoredValue limits frames key (.ofJson v') with x' | w'
        · rw [hx, hx'] at hs
          exact hs.elim
        · rw [hx, hx'] at hs
          rw [restore_ok hv hx, restore_ok hv' hx']
          exact hrest _ _ (hl.setItem hs)

/-- a field of the event is restored -/
theorem restore_field {k : Str} {v : Json} (hv : getItem k ev = some v) : ∀ {keys : List Str}
    {l m : List (Str × Json)}, keys.Nodup → k ∈ keys →
    restore limits frames (heldItem ev) keys l = .ok m →
    ∃ w, restoredValue limits frames k (.ofJson v) = .ok w ∧ getItem k m = some w
  | key :: keys, l, m, hn, hk, h => by
    rw [List.nodup_cons] at hn
    rcases List.mem_cons.mp hk with rfl | hk
    · rcases hx : restoredValue limits frames k (.ofJson v) with x | w
      · rw [restore_error hv hx] at h
        cases h
      · rw [restore_ok hv hx] at h
        exact ⟨w, rfl, (restore_other hn.1 h).trans (getItem_setItem_same ..)⟩
    · rcases hv' : getItem key ev with _ | u
      · rw [restore_none hv'] at h
        exact restore_field hv hn.2 hk h
      · rcases hx : restoredValue limits frames key (.ofJson u) with x | w
        · rw [restore_error hv' hx] at h
          cases h
        · rw [restore_ok hv' hx] at h
          exact restore_field hv hn.2 hk h

/-- two events with the same fields restore them over the same items to the same keys -/
theorem restore_keys (hk : ev'.map Prod.fst = ev.map Prod.fst) : ∀ {keys : List Str}
    {l l' m m' : List (Str × Json)}, l'.map Prod.fst = l.map Prod.fst →
    restore limits frames (heldItem ev) keys l = .ok m →
    restore limits frames (heldItem ev') keys l' = .ok m' →
    m'.map Prod.fst = m.map Prod.fst
  | [], l, l', m, m', hl, h, h' => by
    cases h
    cases h'
    exact hl
  | key :: keys, l, l', m, m', hl, h, h' => by
    rcases getItem_both (k := key) hk with ⟨hv, hv'⟩ | ⟨v, v', hv, hv'⟩
    · rw [restore_none hv] at h
      rw [restore_none hv'] at h'
      exact restore_keys hk hl h h'
    · rcases hx : restoredValue limits frames key (.ofJson v) with x | w
      · rw [restore_error hv hx] at h
        cases h
      rcases hx' : restoredValue limits frames key (.ofJson v') with x' | w'
      · rw [restore_error hv' hx'] at h'
        cases h'
      rw [restore_ok hv hx] at h
      rw [restore_ok hv' hx'] at h'
      refine restore_keys hk ?_ h h'
      rw [keys_setItem, keys_setItem, hl]
      congr 1
      rw [hasItem_iff, hasItem_iff, hl]

end

/-! ## the line of the record itself -/

/-- the line of a record that was built, when it is not replaced by a fallback -/
def JSONLLogFormatter.lineOf (f : JSONLLogFormatter) : Except Exc Json → Option Str
  | .ok payload => match f.fitting payload with
    | .ok line => line
    | .error _ => none
  | .error _ => none

def JSONLLogFormatter.ownLine (f : JSONLLogFormatter) (host : Host) (record : LogRecord) :
    Option Str :=
  f.lineOf (buildLogRecord host f.config f.source f.packageName f.limits record)

section
variable {f : JSONLLogFormatter} {host : Host} {r r' : LogRecord} {e e' : AuditEvent}

theorem lineOf_ok (payload : Json) : f.lineOf (.ok payload) = match f.fitting payload with
    | .ok line => line
    | .error _ => none := rfl

/-- the record is built, over the attributes that are restored -/
theorem build_of_fields {additions : List (Key × Value)}
    (hf : recordAuditFields r = .ok (e.fields, additions)) :
    buildLogRecord host f.config f.source f.packageName f.limits r =
      (baseAttributes f.config f.limits host.frames e.fields additions >>= fun base =>
        restore f.limits host.frames (heldItem e.attributes) RESTORED base >>= fun attrs =>
          traceContext r >>= fun trace =>
            pure (Json.obj (eventItems host f.config (sourceOf f.source r) f.packageName r e attrs
              ++ trace))) := by
  unfold buildLogRecord
  rw [hf]
  simp only [bind, Except.bind, recordItems_event]
  rfl

/-- a record that does not fit is replaced by the first fallback that does -/
theorem format_eq :
    f.format host r = (f.ownLine host r).elim (f.formatFallback host r) .ok := by
  unfold JSONLLogFormatter.format JSONLLogFormatter.formatToDict JSONLLogFormatter.ownLine
  rcases buildLogRecord host f.config f.source f.packageName f.limits r with x | payload
  · show _ = f.formatFallback host r
    dsimp only
    split
    · rename_i line h
      unfold JSONLLogFormatter.formatFallback
      rw [h]
      rfl
    · rfl
  · rw [lineOf_ok]
    simp only [bind, Except.bind]
    rcases f.fitting payload with x | _ | line <;> rfl

theorem ownLine_some {line : Str} (h : f.ownLine host r = some line) :
    ∃ payload, buildLogRecord host f.config f.source f.packageName f.limits r = .ok payload ∧
      payload.writable true = true ∧ line = payload.render f.separators ∧
      line.length ≤ f.limits.maxRecordBytes := by
  unfold JSONLLogFormatter.ownLine at h
  cases hb : buildLogRecord host f.config f.source f.packageName f.limits r with
  | error x =>
    rw [hb] at h
    cases h
  | ok payload =>
    rw [hb, lineOf_ok] at h
    cases hf : f.fitting payload with
    | error x =>
      rw [hf] at h
      cases h
    | ok o =>
      rw [hf] at h
      obtain ⟨hw, hline⟩ := fitting_ok hf
      exact ⟨payload, rfl, hw, hline line h⟩

/-- a record that fits is printed itself -/
theorem ownLine_of_fits (h : f.Fits host r) : ∃ line, f.ownLine host r = some line := by
  obtain ⟨payload, hb, hw, hn⟩ := h
  refine ⟨payload.render f.separators, ?_⟩
  unfold JSONLLogFormatter.ownLine
  rw [hb, lineOf_ok, fitting_eq hw, if_pos hn]

theorem fits_of_ownLine {line : Str} (h : f.ownLine host r = some line) : f.Fits host r := by
  obtain ⟨payload, hb, hw, rfl, hn⟩ := ownLine_some h
  exact ⟨payload, hb, hw, hn⟩

theorem not_fits (h : f.ownLine host r = none) : ¬ f.Fits host r := by
  intro hf
  obtain ⟨line, hl⟩ := ownLine_of_fits hf
  rw [hl] at h
  cases h

theorem ownLine_none (h : ¬ f.Fits host r) : f.ownLine host r = none := by
  rcases hr : f.ownLine host r with _ | line
  · rfl
  · exact absurd (fits_of_ownLine hr) h

/-- an attempt depends on the text alone -/
theorem fitting_same {payload payload' : Json} (h : SameText payload payload') :
    f.fitting payload = f.fitting payload' := by
  have hd : dumpsStrict f.separators payload = dumpsStrict f.separators payload' := by
    unfold dumpsStrict Json.dumps
    rw [← Json.writable_fuse _ payload, ← Json.writable_fuse _ payload',
      ← Json.render_fuse _ payload, ← Json.render_fuse _ payload',
      show payload.fuse = payload'.fuse from h]
  unfold JSONLLogFormatter.fitting
  rw [hd]

theorem lineOf_same {payload payload' : Json} (h : SameText payload payload') :
    f.lineOf (.ok payload) = f.lineOf (.ok payload') := by
  rw [lineOf_ok, lineOf_ok, fitting_same h]

/-- texts that are the same carry attributes of the same text -/
theorem attrs_of_render {payload payload' : Json} {attrs attrs' : List (Str × Json)}
    (hc : Carries payload attrs) (hc' : Carries payload' attrs')
    (hw : payload.writable true = true) (hw' : payload'.writable true = true)
    (h : payload.render f.separators = payload'.render f.separators) :
    Json.fuseItems attrs = Json.fuseItems attrs' := by
  obtain ⟨items, hl, -, ha⟩ := loads_carries f.valid hc hw
  obtain ⟨items', hl', -, ha'⟩ := loads_carries f.valid hc' hw'
  rw [h, hl'] at hl
  obtain rfl := Json.obj.inj (Option.some.inj hl)
  exact (Json.obj.inj (Option.some.inj (ha'.symm.trans ha))).symm

/-- a fallback record carries no restored field -/
theorem formatFallback_ok {line : Str} (h : f.formatFallback host r = .ok line) :
    ∃ payload attrs, Carries payload attrs ∧ payload.writable true = true ∧
      line = payload.render f.separators ∧
      attrs.map Prod.fst ⊆ [str "event_type", str "schema_version"] := by
  obtain ⟨o, ho, h⟩ := ok_of_bind h
  cases o with
  | some l =>
    obtain rfl := Except.ok.inj h
    obtain ⟨payload, hp, hf⟩ := ok_of_bind ho
    obtain ⟨v, -, hc⟩ := carries_fallbackRecord hp
    obtain ⟨hw, hline⟩ := fitting_ok hf
    exact ⟨_, _, hc, hw, (hline l rfl).1, fun _ => id⟩
  | none =>
    obtain ⟨o', hm, h⟩ := ok_of_bind h
    cases o' with
    | some l =>
      obtain rfl := Except.ok.inj h
      obtain ⟨payload, hp, hf⟩ := ok_of_bind hm
      obtain ⟨s, -, hc⟩ := carries_minimalFallbackRecord hp
      obtain ⟨hw, hline⟩ := fitting_ok hf
      exact ⟨_, _, hc, hw, (hline l rfl).1, fun _ => id⟩
    | none =>
      obtain ⟨hw, rfl⟩ := dumpsStrict_ok h
      exact ⟨_, _, carries_lastResortRecord, hw, rfl, List.cons_subset_cons _ (List.nil_subset _)⟩

variable (h : AlikeRecords f.config.redaction r r' e e')
include h

theorem AlikeRecords.timestamp : timestampNanos host r' = timestampNanos host r := by
  rw [h.rest]
  rfl

theorem AlikeRecords.formatFallback : f.formatFallback host r' = f.formatFallback host r := by
  have hs : schemaOf r' = schemaOf r := by
    unfold schemaOf
    rw [h.event, h.event']
    exact congrArg (fun s => Except.ok (Json.string s)) h.alike.schemaVersion
  have ht : schemaTextOf r' = schemaTextOf r := by
    unfold schemaTextOf
    rw [h.event, h.event']
    exact congrArg Except.ok h.alike.schemaVersion
  unfold JSONLLogFormatter.formatFallback JSONLLogFormatter.fallback JSONLLogFormatter.minimal
    fallbackRecord minimalFallbackRecord lastResortRecord malformedItems
  rw [h.timestamp, hs, ht]

/-- both records have additions, or neither has -/
theorem AlikeRecords.fields :
    (∃ x x', recordAuditFields r = .error x ∧ recordAuditFields r' = .error x') ∨
    ∃ l l', recordAuditFields r = .ok (e.fields, l) ∧ recordAuditFields r' = .ok (e'.fields, l') ∧
      AlikeItems f.config.redaction l l' := by
  have ha := h.additions
  unfold recordAuditFields
  rw [h.event, h.event']
  rcases hl : r.auditAttributes with _ | l | _ <;>
    rcases hl' : r'.auditAttributes with _ | l' | _ <;> rw [hl, hl'] at ha
  · exact .inr ⟨[], [], rfl, rfl, rfl⟩
  · exact ha.elim
  · exact ha.elim
  · exact ha.elim
  · exact .inr ⟨l, l', rfl, rfl, ha⟩
  · exact ha.elim
  · exact ha.elim
  · exact ha.elim
  · exact .inl ⟨_, _, rfl, rfl⟩

theorem AlikeRecords.keys : e'.attributes.map Prod.fst = e.attributes.map Prod.fst :=
  keys_alike h.alike.attributes

/-- the rest of the two records is the same -/
theorem AlikeRecords.eventItems (attrs : List (Str × Json)) :
    eventItems host f.config (sourceOf f.source r') f.packageName r' e' attrs =
      SecAudit.eventItems host f.config (sourceOf f.source r) f.packageName r e attrs := by
  have hs : sourceOf f.source r' = sourceOf f.source r := by
    rw [h.rest]
    rfl
  have hn : r'.levelname = r.levelname ∧ r'.levelno = r.levelno := by
    rw [h.rest]
    exact ⟨rfl, rfl⟩
  unfold SecAudit.eventItems
  rw [h.timestamp, hs, hn.1, hn.2, h.alike.eventType, h.alike.timestampNs,
    h.alike.observedTimestampNs, scrubBody_alike h.alike]

theorem AlikeRecords.trace : traceContext r' = traceContext r := by
  rw [h.rest]
  rfl

/-- **restored fields of the same text print alike** -/
theorem AlikeRecords.ownLine (hr : RestoredAlike f.limits host.frames e e') :
    f.ownLine host r = f.ownLine host r' := by
  unfold JSONLLogFormatter.ownLine
  rcases h.fields with ⟨x, x', hf, hf'⟩ | ⟨l, l', hf, hf', hl⟩
  · unfold buildLogRecord
    rw [hf, hf']
    rfl
  rw [build_of_fields hf, build_of_fields hf', ← baseAttributes_alike h.alike hl, h.trace]
  rcases baseAttributes f.config f.limits host.frames e.fields l with x | base
  · rfl
  have hres := restore_same h.keys hr (sameItems_refl base)
  simp only [bind, Except.bind]
  generalize restore f.limits host.frames (heldItem e.attributes) RESTORED base = res at hres
  generalize restore f.limits host.frames (heldItem e'.attributes) RESTORED base = res' at hres
  rcases res with x | m <;> rcases res' with x' | m'
  · rfl
  · exact hres.elim
  · exact hres.elim
  · rcases traceContext r with x | trace
    · rfl
    refine lineOf_same (congrArg Json.obj (SameItems.fuse ?_))
    rw [h.eventItems]
    refine List.rel_append (?_ : SameItems _ _) (sameItems_refl trace)
    have hobj : SameText (.obj m) (.obj m') := congrArg Json.obj (SameItems.fuse hres)
    exact .cons ⟨rfl, rfl⟩ <| .cons ⟨rfl, rfl⟩ <| .cons ⟨rfl, rfl⟩ <| .cons ⟨rfl, rfl⟩ <|
      .cons ⟨rfl, rfl⟩ <| .cons ⟨rfl, rfl⟩ <| .cons ⟨rfl, rfl⟩ <| .cons ⟨rfl, hobj⟩ <|
      .cons ⟨rfl, rfl⟩ .nil

/-- **records printed alike have restored fields of the same text** -/
theorem AlikeRecords.restored {line : Str} (hr : f.ownLine host r = some line)
    (hr' : f.ownLine host r' = some line) : RestoredAlike f.limits host.frames e e' := by
  obtain ⟨p, hb, hw, rfl, -⟩ := ownLine_some hr
  obtain ⟨p', hb', hw', hline, -⟩ := ownLine_some hr'
  obtain ⟨e₁, l, base, attrs, items, trace, hf, hbase, hres, hi, ht, rfl⟩ := buildLogRecord_ok hb
  obtain ⟨e₂, l', base', attrs', items', trace', hf', hbase', hres', hi', ht', rfl⟩ :=
    buildLogRecord_ok hb'
  rcases h.fields with ⟨x, x', hx, -⟩ | ⟨m, m', hx, hx', hl⟩
  · rw [hx] at hf
    cases hf
  rw [hx] at hf
  rw [hx'] at hf'
  cases hf
  cases hf'
  rw [← baseAttributes_alike h.alike hl, hbase] at hbase'
  cases hbase'
  have htype := names_restore hres (baseAttributes_names hbase).1
  have hkeys := restore_keys h.keys rfl hres hres'
  have hfuse := attrs_of_render (carries_recordItems hi ht htype)
    (carries_recordItems hi' ht' (hkeys ▸ htype)) hw hw' hline
  intro key hkey v v' hv hv'
  obtain ⟨w, hw, hg⟩ := restore_field hv (by decide) hkey hres
  obtain ⟨w', hw', hg'⟩ := restore_field hv' (by decide) hkey hres'
  rw [hw, hw']
  exact (sameItems_of_fuse hkeys hfuse).getItem hg hg'

omit h in
/-- a record printed like a fallback record has no field to restore -/
theorem no_field {host' : Host} {r₁ : LogRecord} {line : Str} (he : r.auditEvent = e.object)
    (hr : f.ownLine host r = some line) (hfall : f.formatFallback host' r₁ = .ok line) {key : Str}
    (hkey : key ∈ RESTORED) : getItem key e.attributes = none := by
  obtain ⟨p, hb, hw, rfl, -⟩ := ownLine_some hr
  obtain ⟨p', attrs', hc', hw', hline, hnames⟩ := formatFallback_ok hfall
  obtain ⟨e₁, l, base, attrs, items, trace, hf, hbase, hres, hi, ht, rfl⟩ := buildLogRecord_ok hb
  have hfuse := attrs_of_render (carries_recordItems hi ht
    (names_restore hres (baseAttributes_names hbase).1)) hc' hw hw' hline
  obtain rfl := AuditObject.event.inj (he.symm.trans (recordAuditFields_ok hf))
  rcases hv : getItem key e.attributes with _ | v
  · rfl
  · -- the field would be a name of the fallback record
    obtain ⟨w, -, hg⟩ := restore_field hv (by decide) hkey hres
    have hmem : key ∈ attrs.map Prod.fst := by
      rw [← hasItem_iff, ← getItem_isSome, hg]
      rfl
    have hfkey : fuse key ∈ (Json.fuseItems attrs').map Prod.fst := by
      rw [← hfuse, fuseItems_eq_map, List.map_map]
      obtain ⟨q, hq, rfl⟩ := List.mem_map.mp hmem
      exact List.mem_map.mpr ⟨q, hq, rfl⟩
    rw [fuseItems_eq_map, List.map_map] at hfkey
    obtain ⟨q, hq, e⟩ := List.mem_map.mp hfkey
    have hq' := hnames (List.mem_map_of_mem (f := Prod.fst) hq)
    exact absurd e ((by decide : ∀ k ∈ RESTORED, ∀ k' ∈ [str "event_type", str "schema_version"],
      fuse k' ≠ fuse k) key hkey q.1 hq')

end

/-- **The gate, exactly**: two records that differ only at hidden positions print the same line if
and only if the protected fields the formatter restores from the events have the same text, or
neither record fits. -/
theorem gate_iff (f : JSONLLogFormatter) (host : Host) (r r' : LogRecord) (e e' : AuditEvent)
    (h : AlikeRecords f.config.redaction r r' e e') :
    f.format host r = f.format host r' ↔
      RestoredAlike f.limits host.frames e e' ∨
        (¬ f.Fits host r ∧ ¬ f.Fits host r') := by
  rw [format_eq, format_eq]
  constructor
  · intro heq
    rcases hr : f.ownLine host r with _ | line <;> rcases hr' : f.ownLine host r' with _ | line' <;>
      rw [hr, hr'] at heq
    · exact .inr ⟨not_fits hr, not_fits hr'⟩
    · left
      intro key hkey v v' hv hv'
      rw [no_field h.event' hr' heq hkey] at hv'
      cases hv'
    · left
      intro key hkey v v' hv hv'
      rw [no_field h.event hr heq.symm hkey] at hv
      cases hv
    · obtain rfl := Except.ok.inj heq
      exact .inl (h.restored hr hr')
  · rintro (hres | ⟨hr, hr'⟩)
    · rw [h.ownLine hres, h.formatFallback]
    · rw [ownLine_none hr, ownLine_none hr', h.formatFallback]

/-! ## an identifier that matches a pattern -/

/-- an event with a request identifier and a body -/
def AuditEvent.ofRequest (id body : Str) : AuditEvent where
  eventType := str "audit.http.request"
  schemaVersion := str "1.0"
  body
  attributes := [(str "event_type", .string (str "audit.http.request")),
    (str "schema_version", .string (str "1.0")), (str "request_id", .string id)]
  timestampNs := 0
  observedTimestampNs := none
  eventType_ne := by decide
  schemaVersion_ne := schemaOne_ne
  canonical := rfl
  type_item := rfl
  schema_item := rfl

def LogRecord.ofRequest (id body : Str) : LogRecord :=
  { LogRecord.bare with auditEvent := (AuditEvent.ofRequest id body).object }

/-- a formatter that redacts what begins with `sk-` -/
def JSONLLogFormatter.hidingKeys : JSONLLogFormatter where
  config := { CoreAuditConfig.default with
    redaction := ⟨defaultSensitiveKeys, [fun s => (str "sk-").isPrefixOf s], []⟩ }

theorem alikeRecords_ofRequest {id id' body body' : Str}
    (hid : id' = id ∨ Hidden JSONLLogFormatter.hidingKeys.config.redaction id id')
    (hbody : body' = body ∨ Hidden JSONLLogFormatter.hidingKeys.config.redaction body body') :
    AlikeRecords JSONLLogFormatter.hidingKeys.config.redaction (.ofRequest id body)
      (.ofRequest id' body') (.ofRequest id body) (.ofRequest id' body') where
  event := rfl
  event' := rfl
  alike := {
    eventType := rfl
    schemaVersion := rfl
    timestampNs := rfl
    observedTimestampNs := rfl
    body := hbody
    attributes := ⟨_, _, rfl, .inr (.inl rfl), _, _, rfl, .inr (.inl rfl), _, _, rfl,
      .inr (hid.imp (congrArg Value.str) fun h => ⟨_, rfl, h⟩), rfl⟩
    session := by
      intro v v' hv
      cases (show none = some v from hv) }
  additions := trivial
  rest := rfl

/-- a body that is hidden in both records -/
theorem gate_iff_body :
    JSONLLogFormatter.hidingKeys.format .sample (.ofRequest (str "r-1") (str "sk-1"))
      = JSONLLogFormatter.hidingKeys.format .sample (.ofRequest (str "r-1") (str "sk-2")) :=
  (gate_iff .hidingKeys .sample _ _ _ _
    (alikeRecords_ofRequest (.inl rfl) (.inr ⟨rfl, rfl⟩))).mpr
    (.inl (restoredAlike_of_eq rfl))

/-- request identifiers that are hidden everywhere else are printed -/
theorem gate_open : ¬ ∀ (f : JSONLLogFormatter) (host : Host) (r r' : LogRecord)
    (e e' : AuditEvent), AlikeRecords f.config.redaction r r' e e' →
    f.format host r = f.format host r' := by
  intro h
  have heq := h .hidingKeys .sample _ _ _ _
    (@alikeRecords_ofRequest (str "sk-1") (str "sk-2") [] [] (.inr ⟨rfl, rfl⟩) (.inl rfl))
  exact absurd heq (by decide +kernel)

end SecAudit
