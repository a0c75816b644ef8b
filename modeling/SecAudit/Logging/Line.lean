import SecAudit.Logging.Record
import SecAudit.Py.JsonParse

/-!
# Every record yields one bounded JSON line

* `Carries`         what all four records have: an event name, and attributes with an event type;
* `OneLine`         a text that is one line, parses as such an object, and is short enough;
* `fitting_line`    a record that fits gives such a line;
* `Answered`        what the fallback records read of the event outside every `try`;
* `format_line`     `format` gives such a line exactly when these reads go well.
-/

set_option linter.unusedVariables false

namespace SecAudit
open Py

/-! ## what all records carry -/

/-- the names a record may have, in their order -/
def recordNames : List Str :=
  [str "timestamp", str "observed_timestamp", str "severity_text", str "severity_number",
    str "body", str "resource", str "instrumentation_scope", str "attributes", str "event_name",
    str "trace_id", str "span_id", str "trace_flags"]

theorem nodup_recordNames : recordNames.Nodup := by decide

theorem fuse_recordName {k : Str} (h : k ∈ recordNames) : fuse k = k :=
  fuse_of_encodable ((by decide : ∀ k ∈ recordNames, encodable k = true) k h)

/-- an event name, and the attributes `attrs`, an event type among them -/
def Carries (payload : Json) (attrs : List (Str × Json)) : Prop :=
  ∃ items name, payload = .obj items ∧ (items.map Prod.fst).Sublist recordNames ∧
    (str "attributes", Json.obj attrs) ∈ items ∧ (str "event_name", name) ∈ items ∧
    str "event_type" ∈ attrs.map Prod.fst

section
variable {host : Host} {config : CoreAuditConfig} {source : Option Str} {packageName : Str}
  {record : LogRecord} {limits : ProjectionLimits}

theorem names_traceField {k : Str} {o : Option (Except Exc Str)} {l : List (Str × Json)}
    (h : traceField k o = .ok l) : (l.map Prod.fst).Sublist [k] := by
  rcases o with _ | e | s
  · cases h
    exact List.nil_sublist _
  · cases h
  · cases h
    exact List.Sublist.refl _

/-- the trace fields of a record, one after the other -/
theorem traceContext_ok {trace : List (Str × Json)} (h : traceContext record = .ok trace) :
    ∃ l₁ l₂ l₃, traceField (str "trace_id") record.otelTraceID = .ok l₁ ∧
      traceField (str "span_id") record.otelSpanID = .ok l₂ ∧
      traceFlags record.otelTraceSampled = .ok l₃ ∧ trace = l₁ ++ l₂ ++ l₃ := by
  obtain ⟨l₁, ht, h⟩ := ok_of_bind h
  obtain ⟨l₂, hs, h⟩ := ok_of_bind h
  obtain ⟨l₃, hf, h⟩ := ok_of_bind h
  exact ⟨l₁, l₂, l₃, ht, hs, hf, (Except.ok.inj h).symm⟩

theorem names_traceContext {trace : List (Str × Json)} (h : traceContext record = .ok trace) :
    (trace.map Prod.fst).Sublist [str "trace_id", str "span_id", str "trace_flags"] := by
  obtain ⟨l₁, l₂, l₃, ht, hs, hf, rfl⟩ := traceContext_ok h
  rw [List.map_append, List.map_append]
  refine ((names_traceField ht).append (names_traceField hs)).append ?_
  rcases hb : record.otelTraceSampled with _ | e | b
  · rw [hb] at hf
    cases hf
    exact List.nil_sublist _
  · rw [hb] at hf
    cases hf
  · rw [hb] at hf
    cases hf
    exact List.Sublist.refl _

theorem names_setItem {k k' : Str} {v : Json} {l : List (Str × Json)}
    (h : k ∈ l.map Prod.fst) : k ∈ (setItem k' v l).map Prod.fst :=
  hasItem_iff.mp (hasItem_setItem.mpr (.inr (hasItem_iff.mpr h)))

/-! ### the fields that are restored -/

section
variable {frames : Nat} {item : Str → Except Exc (Option Value)}

/-- the step of the loop, whether the field was there or not -/
theorem restore_cons {key : Str} {keys : List Str} {l m : List (Str × Json)}
    (h : restore limits frames item (key :: keys) l = .ok m) :
    restore limits frames item keys l = .ok m ∨
      ∃ w, restore limits frames item keys (setItem key w l) = .ok m := by
  unfold restore at h
  obtain ⟨o, -, h⟩ := ok_of_bind h
  cases o with
  | none => exact .inl h
  | some v =>
    obtain ⟨w, -, h⟩ := ok_of_bind h
    exact .inr ⟨w, h⟩

/-- restoring drops no name -/
theorem names_restore {k : Str} : ∀ {keys : List Str} {attrs attrs' : List (Str × Json)},
    restore limits frames item keys attrs = .ok attrs' → k ∈ attrs.map Prod.fst →
    k ∈ attrs'.map Prod.fst
  | [], attrs, attrs', h, hk => by
    cases h
    exact hk
  | key :: keys, attrs, attrs', h, hk => by
    rcases restore_cons h with h | ⟨w, h⟩
    · exact names_restore h hk
    · exact names_restore h (names_setItem hk)

/-- an item of another name stays as it is -/
theorem restore_other {k : Str} : ∀ {keys : List Str} {l m : List (Str × Json)}, k ∉ keys →
    restore limits frames item keys l = .ok m → getItem k m = getItem k l
  | [], l, m, _, h => by
    cases h
    rfl
  | key :: keys, l, m, hk, h => by
    rw [List.mem_cons, not_or] at hk
    rcases restore_cons h with h | ⟨w, h⟩
    · exact restore_other hk.2 h
    · rw [restore_other hk.2 h, getItem_setItem_other _ _ hk.1]

end

/-! ### the record that was built -/

/-- what a record that was built is made of -/
theorem buildLogRecord_ok {payload : Json}
    (h : buildLogRecord host config source packageName limits record = .ok payload) :
    ∃ event additions base attrs items trace,
      recordAuditFields record = .ok (event, additions) ∧
      baseAttributes config limits host.frames event additions = .ok base ∧
      restore limits host.frames event.item RESTORED base = .ok attrs ∧
      recordItems host config (sourceOf source record) packageName record event attrs = .ok items ∧
      traceContext record = .ok trace ∧ payload = .obj (items ++ trace) := by
  obtain ⟨⟨event, additions⟩, hx, h⟩ := ok_of_bind h
  obtain ⟨base, hb, h⟩ := ok_of_bind h
  obtain ⟨attrs, hr, h⟩ := ok_of_bind h
  obtain ⟨items, hi, h⟩ := ok_of_bind h
  obtain ⟨trace, ht, h⟩ := ok_of_bind h
  exact ⟨event, additions, base, attrs, items, trace, hx, hb, hr, hi, ht, (Except.ok.inj h).symm⟩

/-- the event of such a record is one -/
theorem recordAuditFields_ok {event : EventFields} {additions : List (Key × Value)}
    (h : recordAuditFields record = .ok (event, additions)) : record.auditEvent = .event event := by
  unfold recordAuditFields at h
  rcases ho : record.auditEvent with _ | e | fields
  · rw [ho] at h
    cases h
  · rw [ho] at h
    cases h
  · rw [ho] at h
    rcases ha : record.auditAttributes with _ | l | _ <;> rw [ha] at h <;> cases h <;> rfl

/-- the attributes have the type and the schema version that were read -/
theorem baseAttributes_names {frames : Nat} {event : EventFields} {additions : List (Key × Value)}
    {base : List (Str × Json)}
    (h : baseAttributes config limits frames event additions = .ok base) :
    str "event_type" ∈ base.map Prod.fst ∧
      ∃ v, event.schemaVersion = .ok v ∧ getItem (str "schema_version") base = some v := by
  obtain ⟨own, -, h⟩ := ok_of_bind h
  obtain ⟨attributes, -, h⟩ := ok_of_bind h
  obtain ⟨projected, -, h⟩ := ok_of_bind h
  obtain ⟨name, -, h⟩ := ok_of_bind h
  obtain ⟨v, hv, h⟩ := ok_of_bind h
  obtain rfl := Except.ok.inj h
  exact ⟨names_setItem (hasItem_iff.mp (hasItem_setItem.mpr (.inl rfl))), v, hv,
    getItem_setItem_same _ _ _⟩

theorem carries_recordItems {event : EventFields} {attrs items trace : List (Str × Json)}
    (hi : recordItems host config source packageName record event attrs = .ok items)
    (ht : traceContext record = .ok trace) (htype : str "event_type" ∈ attrs.map Prod.fst) :
    Carries (.obj (items ++ trace)) attrs := by
  obtain ⟨body, -, hi⟩ := ok_of_bind hi
  obtain ⟨timestamp, -, hi⟩ := ok_of_bind hi
  obtain ⟨observed, -, hi⟩ := ok_of_bind hi
  obtain ⟨name, -, hi⟩ := ok_of_bind hi
  obtain rfl := Except.ok.inj hi
  refine ⟨_, name, rfl, ?_, List.mem_append_left _ ?_, List.mem_append_left _ ?_, htype⟩
  · rw [List.map_append]
    exact (List.Sublist.refl _).append (names_traceContext ht)
  · simp
  · simp

theorem carries_buildLogRecord {payload : Json}
    (h : buildLogRecord host config source packageName limits record = .ok payload) :
    ∃ attrs, Carries payload attrs := by
  obtain ⟨event, additions, base, attrs, items, trace, -, hb, hr, hi, ht, rfl⟩ :=
    buildLogRecord_ok h
  exact ⟨attrs, carries_recordItems hi ht (names_restore hr (baseAttributes_names hb).1)⟩

/-- a record that is written has a schema version that is -/
theorem schema_of_build {payload : Json}
    (h : buildLogRecord host config source packageName limits record = .ok payload)
    (hw : payload.writable true = true) :
    ∃ v, schemaOf record = .ok v ∧ v.writable true = true := by
  obtain ⟨event, additions, base, attrs, items, trace, hf, hb, hr, hi, ht, rfl⟩ :=
    buildLogRecord_ok h
  obtain ⟨htype, v, hv, hg⟩ := baseAttributes_names hb
  obtain ⟨items', name, e, -, hattrs, -, -⟩ :=
    carries_recordItems hi ht (names_restore hr htype)
  cases e
  have hall := Json.writableItems_iff.mp hw
  rw [← restore_other (by decide) hr] at hg
  obtain ⟨p, hp, rfl⟩ := Option.map_eq_some_iff.mp hg
  refine ⟨p.2, ?_, Json.writableItems_iff.mp (hall _ hattrs) p (List.mem_of_find?_eq_some hp)⟩
  unfold schemaOf
  rw [recordAuditFields_ok hf]
  exact hv

/-- the attributes of the fallback record -/
def malformedAttributes (schema : Json) : List (Str × Json) :=
  [(str "event_type", .string MALFORMED_EVENT_TYPE), (str "schema_version", schema)]

theorem carries_fallbackRecord {payload : Json}
    (h : fallbackRecord host config source packageName record = .ok payload) :
    ∃ v, schemaOf record = .ok v ∧ Carries payload (malformedAttributes v) := by
  obtain ⟨v, hv, h⟩ := ok_of_bind h
  obtain rfl := Except.ok.inj h
  refine ⟨v, hv, _, .string MALFORMED_EVENT_TYPE, rfl, ?_, ?_, ?_, List.mem_cons_self⟩
  · show List.Sublist [str "timestamp", str "observed_timestamp", str "severity_text",
      str "severity_number", str "body", str "resource", str "instrumentation_scope",
      str "attributes", str "event_name"] recordNames
    decide
  · simp [malformedAttributes]
  · simp

theorem carries_minimalFallbackRecord {payload : Json}
    (h : minimalFallbackRecord host config source record = .ok payload) :
    ∃ s, schemaTextOf record = .ok s ∧
      Carries payload (malformedAttributes (.string (s.take FALLBACK_SCHEMA_MAX))) := by
  obtain ⟨s, hs, h⟩ := ok_of_bind h
  obtain rfl := Except.ok.inj h
  refine ⟨s, hs, _, .string MALFORMED_EVENT_TYPE, rfl, ?_, ?_, ?_, List.mem_cons_self⟩
  · show List.Sublist [str "timestamp", str "observed_timestamp", str "severity_text",
      str "severity_number", str "body", str "resource", str "attributes", str "event_name"]
      recordNames
    decide
  · simp [malformedAttributes]
  · simp

theorem carries_lastResortRecord : Carries (lastResortRecord host record)
    [(str "event_type", .string MALFORMED_EVENT_TYPE)] := by
  refine ⟨_, .string MALFORMED_EVENT_TYPE, rfl, ?_, ?_, ?_, List.mem_cons_self⟩
  · show List.Sublist [str "timestamp", str "observed_timestamp", str "severity_text",
      str "severity_number", str "body", str "attributes", str "event_name"] recordNames
    decide
  · simp
  · simp

end

/-! ## one line -/

/-- where `str.splitlines` breaks -/
def isLineBreak (c : CodePoint) : Bool :=
  (10 ≤ c.val && c.val ≤ 13) || (28 ≤ c.val && c.val ≤ 30) || c.val == 0x85 || c.val == 0x2028 ||
  c.val == 0x2029

/-- the text of an object with an event name, and with an event type among its attributes -/
def Parses (line : Str) : Prop :=
  ∃ items attrs, loads line = some (.obj items) ∧
    (Json.lookup (str "event_name") items).isSome = true ∧
    Json.lookup (str "attributes") items = some (.obj attrs) ∧
    (Json.lookup (str "event_type") attrs).isSome = true

structure OneLine (limit : Nat) (line : Str) : Prop where
  unbroken : ∀ c ∈ line, isLineBreak c = false
  parses : Parses line
  short : ∃ n, encodedLen line = .ok n ∧ n ≤ limit

theorem not_isLineBreak {c : CodePoint} (h : printable c = true) : isLineBreak c = false := by
  unfold printable at h
  unfold isLineBreak
  simp only [Bool.and_eq_true, decide_eq_true_eq] at h
  simp only [Bool.or_eq_false_iff, Bool.and_eq_false_iff, decide_eq_false_iff_not, beq_eq_false_iff_ne]
  omega

theorem encodedLen_printable {line : Str} (h : Printable line) :
    encodedLen line = .ok line.length := by
  unfold encodedLen
  rw [if_pos h.encodable]
  congr 1
  induction line with
  | nil => rfl
  | cons c line ih =>
    have hc : utf8Size c = 1 := by
      have := h c List.mem_cons_self
      unfold printable at this
      simp only [Bool.and_eq_true, decide_eq_true_eq] at this
      exact if_pos (by omega)
    rw [List.map_cons, List.sum_cons, hc, ih fun d hd => h d (List.mem_cons_of_mem c hd),
      List.length_cons, Nat.add_comm]

/-- the object a text that carries the attributes parses to -/
theorem loads_carries {q : Separators} (hq : q.Valid) {payload : Json} {attrs : List (Str × Json)}
    (hc : Carries payload attrs) (hw : payload.writable true = true) :
    ∃ items, loads (payload.render q) = some (.obj items) ∧
      (Json.lookup (str "event_name") items).isSome = true ∧
      Json.lookup (str "attributes") items = some (.obj (Json.fuseItems attrs)) := by
  obtain ⟨items, name, rfl, hnames, hattrs, hname, -⟩ := hc
  have hfuse : (Json.fuseItems items).map Prod.fst = items.map Prod.fst := by
    rw [fuseItems_eq_map, List.map_map]
    refine List.map_congr_left fun p hp => ?_
    exact fuse_recordName (hnames.subset (List.mem_map_of_mem hp))
  have hmem : (str "attributes", (Json.obj attrs).fuse) ∈ Json.fuseItems items := by
    rw [fuseItems_eq_map, List.mem_map]
    exact ⟨_, hattrs, rfl⟩
  refine ⟨Json.fuseItems items, loads_render hq (Json.writable_of_finite hw), ?_, ?_⟩
  · rw [Json.lookup_isSome, hfuse]
    exact List.mem_map_of_mem (f := Prod.fst) hname
  · refine Json.lookup_of_mem ?_ hmem
    rw [hfuse]
    exact hnames.nodup nodup_recordNames

theorem parses_render {q : Separators} (hq : q.Valid) {payload : Json} {attrs : List (Str × Json)}
    (hc : Carries payload attrs) (hw : payload.writable true = true) :
    Parses (payload.render q) := by
  obtain ⟨items, hl, hname, hattrs⟩ := loads_carries hq hc hw
  refine ⟨items, Json.fuseItems attrs, hl, hname, hattrs, ?_⟩
  obtain ⟨-, -, -, -, -, -, htype⟩ := hc
  rw [Json.lookup_isSome, fuseItems_eq_map, List.map_map]
  obtain ⟨p, hp, e⟩ := List.mem_map.mp htype
  refine List.mem_map.mpr ⟨p, hp, ?_⟩
  show fuse p.1 = str "event_type"
  rw [e]
  rfl

theorem dumpsStrict_ok {q : Separators} {v : Json} {line : Str} (h : dumpsStrict q v = .ok line) :
    v.writable true = true ∧ line = v.render q := by
  unfold dumpsStrict Json.dumps at h
  split at h
  · rename_i l hl
    split at hl
    · rename_i hw
      cases hl
      cases h
      exact ⟨hw, rfl⟩
    · cases hl
  · cases h

theorem dumpsStrict_of_writable {q : Separators} {v : Json} (h : v.writable true = true) :
    dumpsStrict q v = .ok (v.render q) := by
  unfold dumpsStrict Json.dumps
  rw [show (!false) = true from rfl, if_pos h]

/-! ## the formatter -/

section
variable {f : JSONLLogFormatter} {host : Host} {record : LogRecord}

theorem JSONLLogFormatter.valid (f : JSONLLogFormatter) : f.separators.Valid := by
  unfold separators
  split
  · exact valid_compact
  · exact valid_default

theorem JSONLLogFormatter.ascii (f : JSONLLogFormatter) : f.separators.Ascii := by
  unfold separators
  split
  · exact ascii_compact
  · exact ascii_default

/-- a record that is written and is short enough is one line -/
theorem oneLine_render {limit : Nat} {payload : Json} {attrs : List (Str × Json)}
    (hc : Carries payload attrs)
    (hw : payload.writable true = true) (hn : (payload.render f.separators).length ≤ limit) :
    OneLine limit (payload.render f.separators) where
  unbroken c hm := not_isLineBreak (Json.printable_render f.ascii payload c hm)
  parses := parses_render f.valid hc hw
  short := ⟨_, encodedLen_printable (Json.printable_render f.ascii payload), hn⟩

/-- an attempt with a record that can be written does not raise -/
theorem fitting_eq {payload : Json} (h : payload.writable true = true) :
    f.fitting payload = .ok (if (payload.render f.separators).length ≤ f.limits.maxRecordBytes
      then some (payload.render f.separators) else none) := by
  unfold JSONLLogFormatter.fitting
  rw [dumpsStrict_of_writable h]
  simp only [bind, Except.bind, encodedLen_printable (Json.printable_render f.ascii payload)]
  rfl

/-- what the outcome of an attempt says -/
theorem fitting_ok {payload : Json} {o : Option Str} (h : f.fitting payload = .ok o) :
    payload.writable true = true ∧ ∀ line, o = some line → line = payload.render f.separators ∧
      line.length ≤ f.limits.maxRecordBytes := by
  obtain ⟨line, hx, -⟩ := ok_of_bind h
  have hw := (dumpsStrict_ok hx).1
  rw [fitting_eq hw] at h
  obtain rfl := Except.ok.inj h
  refine ⟨hw, fun line hline => ?_⟩
  obtain ⟨hle, rfl⟩ := Option.ite_some_none_eq_some.mp hline
  exact ⟨rfl, hle⟩

theorem fitting_line {payload : Json} {attrs : List (Str × Json)} {line : Str}
    (hc : Carries payload attrs) (h : f.fitting payload = .ok (some line)) :
    OneLine f.limits.maxRecordBytes line := by
  obtain ⟨hw, hline⟩ := fitting_ok h
  obtain ⟨rfl, hn⟩ := hline line rfl
  exact oneLine_render hc hw hn

theorem carries_formatToDict {payload : Json} (h : f.formatToDict host record = .ok payload) :
    ∃ attrs, Carries payload attrs := by
  unfold JSONLLogFormatter.formatToDict at h
  split at h
  · rename_i p hb
    obtain rfl := Except.ok.inj h
    exact carries_buildLogRecord hb
  · obtain ⟨v, -, hc⟩ := carries_fallbackRecord h
    exact ⟨_, hc⟩

/-! ### what the fallback records need -/

/-- the record can be built and written, and its line is within the limit -/
def JSONLLogFormatter.Fits (f : JSONLLogFormatter) (host : Host) (record : LogRecord) : Prop :=
  ∃ payload, buildLogRecord host f.config f.source f.packageName f.limits record = .ok payload ∧
    payload.writable true = true ∧
    (payload.render f.separators).length ≤ f.limits.maxRecordBytes

/-- so can the first fallback record -/
def JSONLLogFormatter.FallbackFits (f : JSONLLogFormatter) (host : Host) (record : LogRecord) :
    Prop :=
  ∃ payload, f.fallback host record = .ok payload ∧ payload.writable true = true ∧
    (payload.render f.separators).length ≤ f.limits.maxRecordBytes

/-- the reads outside every `try` go well: the object can be told from an event, and the schema
version of an event can be written; it has a text as well, unless one of the first two records
fits -/
structure JSONLLogFormatter.Answered (f : JSONLLogFormatter) (host : Host) (record : LogRecord) :
    Prop where
  schema : ∃ v, schemaOf record = .ok v ∧ v.writable true = true
  text : isOk (schemaTextOf record) = true ∨ f.Fits host record ∨ f.FallbackFits host record

/-- a fallback record that is written has a schema version that is -/
theorem schema_of_fallback {payload : Json} (h : f.fallback host record = .ok payload)
    (hw : payload.writable true = true) :
    ∃ v, schemaOf record = .ok v ∧ v.writable true = true := by
  obtain ⟨v, hv, items, name, rfl, -, hattrs, -, -⟩ := carries_fallbackRecord h
  have hall := Json.writableItems_iff.mp (Json.writableItems_iff.mp hw _ hattrs)
  exact ⟨v, hv, hall (str "schema_version", v) (List.mem_cons_of_mem _ List.mem_cons_self)⟩

theorem answered_of_format {line : Str} (h : f.format host record = .ok line) :
    f.Answered host record := by
  unfold JSONLLogFormatter.format at h
  split at h
  · rename_i l hl
    obtain ⟨payload, hp, hf⟩ := ok_of_bind hl
    obtain ⟨hw, hline⟩ := fitting_ok hf
    obtain ⟨rfl, hn⟩ := hline l rfl
    unfold JSONLLogFormatter.formatToDict at hp
    split at hp
    · rename_i p hb
      obtain rfl := Except.ok.inj hp
      exact ⟨schema_of_build hb hw, .inr (.inl ⟨_, hb, hw, hn⟩)⟩
    · exact ⟨schema_of_fallback hp hw, .inr (.inr ⟨_, hp, hw, hn⟩)⟩
  · obtain ⟨o, ho, h⟩ := ok_of_bind h
    obtain ⟨payload, hp, hf⟩ := ok_of_bind ho
    obtain ⟨hw, hline⟩ := fitting_ok hf
    refine ⟨schema_of_fallback hp hw, ?_⟩
    cases o with
    | some l =>
      obtain ⟨rfl, hn⟩ := hline l rfl
      exact .inr (.inr ⟨_, hp, hw, hn⟩)
    | none =>
      obtain ⟨o, ho, -⟩ := ok_of_bind h
      obtain ⟨m, hm, -⟩ := ok_of_bind ho
      obtain ⟨s, hs, -⟩ := ok_of_bind hm
      exact .inl (isOk_iff.mpr ⟨s, hs⟩)

/-! ### the fallback records can be written -/

variable (hts : timestampNanos host record ≤ 10 ^ 20)
include hts

theorem length_timestamp : (decimal (timestampNanos host record)).length ≤ 21 := by
  unfold decimal
  rw [List.length_map]
  exact (Nat.length_toDigits_le_iff (by decide) (by decide)).mpr (by omega)

theorem writable_timestamp (finite : Bool) :
    (Json.int (timestampNanos host record)).writable finite = true := by
  show decide _ = true
  rw [decide_eq_true_eq, Int.natAbs_natCast]
  exact (length_timestamp hts).trans (by decide)

theorem writable_malformed {rest : List (Str × Json)} (h : Json.writableItems true rest = true) :
    (Json.obj (malformedItems host record ++ rest)).writable true = true := by
  have ht := writable_timestamp hts true
  have hs : (Json.int (severityNumber 40)).writable true = true := by decide
  show (_ && (_ && (true && (_ && (true && Json.writableItems true rest))))) = true
  rw [ht, hs, h]
  rfl

theorem fallback_written {v : Json} (hv : schemaOf record = .ok v)
    (hw : v.writable true = true) :
    ∃ payload, f.fallback host record = .ok payload ∧ payload.writable true = true := by
  have hi : (instrumentationScope host f.packageName).writable true = true := by
    show (true && Json.writableItems true (if host.version f.packageName = [] then []
      else [(str "version", .string (host.version f.packageName))])) = true
    split <;> rfl
  have ha : (Json.obj (malformedAttributes v)).writable true = true := by
    show (true && (v.writable true && true)) = true
    rw [hw]
    rfl
  unfold JSONLLogFormatter.fallback fallbackRecord
  rw [hv]
  refine ⟨_, rfl, writable_malformed hts ?_⟩
  show (true && (_ && ((Json.obj (malformedAttributes v)).writable true && true))) = true
  rw [hi, ha]
  rfl

theorem minimal_written {s : Str} (hs : schemaTextOf record = .ok s) :
    ∃ payload, f.minimal host record = .ok payload ∧ payload.writable true = true := by
  unfold JSONLLogFormatter.minimal minimalFallbackRecord
  rw [hs]
  exact ⟨_, rfl, writable_malformed hts rfl⟩

theorem writable_lastResort : (lastResortRecord host record).writable true = true :=
  writable_malformed hts rfl

/-- **the last resort fits the smallest limit there is** -/
theorem length_lastResort :
    ((lastResortRecord host record).render f.separators).length ≤ MIN_RECORD_BYTES := by
  let rest : List (Str × Json) := [(str "severity_text", .string (str "ERROR")),
    (str "severity_number", .int (severityNumber 40)),
    (str "body", .string MALFORMED_EVENT_TYPE),
    (str "attributes", .obj [(str "event_type", .string MALFORMED_EVENT_TYPE)]),
    (str "event_name", .string MALFORMED_EVENT_TYPE)]
  have key : ∀ q : Separators, (quoted (str "timestamp")).length + 2 * q.key.length +
      q.item.length + (quoted (str "observed_timestamp")).length +
      (Json.renderItems q false rest).length ≤ 900 →
      ((lastResortRecord host record).render q).length ≤ MIN_RECORD_BYTES := by
    intro q hq
    have hr : (lastResortRecord host record).render q = cp '{' :: (quoted (str "timestamp") ++
        q.key ++ decimalInt (timestampNanos host record) ++ (q.item ++
        quoted (str "observed_timestamp") ++ q.key ++
        decimalInt (timestampNanos host record) ++ Json.renderItems q false rest)) := rfl
    have hd : (decimalInt (timestampNanos host record)).length ≤ 21 := by
      unfold decimalInt
      rw [if_neg (by omega), Int.natAbs_natCast]
      exact length_timestamp hts
    rw [hr]
    simp only [List.length_cons, List.length_append]
    unfold MIN_RECORD_BYTES
    omega
  unfold JSONLLogFormatter.separators
  split
  · exact key .compact (by decide +kernel)
  · exact key .default (by decide +kernel)

/-- what is left when the first record does not fit -/
theorem format_of_answered (h : f.Answered host record) :
    ∃ line, f.format host record = .ok line ∧ OneLine f.limits.maxRecordBytes line := by
  unfold JSONLLogFormatter.format
  split
  · rename_i line hline
    obtain ⟨payload, hp, hf⟩ := ok_of_bind hline
    obtain ⟨attrs, hc⟩ := carries_formatToDict hp
    exact ⟨line, rfl, fitting_line hc hf⟩
  rename_i hfirst
  obtain ⟨v, hv, hw⟩ := h.schema
  obtain ⟨payload, hp, hwp⟩ := fallback_written (f := f) hts hv hw
  obtain ⟨v', -, hc⟩ := carries_fallbackRecord hp
  unfold JSONLLogFormatter.formatFallback
  rw [hp]
  simp only [bind, Except.bind, fitting_eq hwp]
  by_cases hn : (payload.render f.separators).length ≤ f.limits.maxRecordBytes
  · rw [if_pos hn]
    exact ⟨_, rfl, oneLine_render hc hwp hn⟩
  rw [if_neg hn]
  have htext : isOk (schemaTextOf record) = true := by
    rcases h.text with ht | ⟨p, hb, hwb, hnb⟩ | ⟨p, hb, -, hnb⟩
    · exact ht
    · refine (hfirst (p.render f.separators) ?_).elim
      unfold JSONLLogFormatter.formatToDict
      rw [hb]
      show f.fitting p = _
      rw [fitting_eq hwb, if_pos hnb]
    · cases hp.symm.trans hb
      exact absurd hnb hn
  obtain ⟨s, hs⟩ := isOk_iff.mp htext
  obtain ⟨small, hm, hwm⟩ := minimal_written (f := f) hts hs
  obtain ⟨s', -, hcm⟩ := carries_minimalFallbackRecord hm
  rw [hm]
  simp only [fitting_eq hwm]
  by_cases hnm : (small.render f.separators).length ≤ f.limits.maxRecordBytes
  · rw [if_pos hnm]
    exact ⟨_, rfl, oneLine_render hcm hwm hnm⟩
  · rw [if_neg hnm]
    simp only [dumpsStrict_of_writable (writable_lastResort hts)]
    refine ⟨_, rfl, oneLine_render carries_lastResortRecord (writable_lastResort hts) ?_⟩
    exact (length_lastResort (f := f) hts).trans f.limits.min_le_maxRecordBytes

end

/-- **every record yields one bounded JSON line exactly when the reads of its event that no `try`
encloses go well** -/
theorem format_line (f : JSONLLogFormatter) (host : Host) (record : LogRecord)
    (hts : timestampNanos host record ≤ 10 ^ 20) :
    (∃ line, f.format host record = .ok line ∧ OneLine f.limits.maxRecordBytes line) ↔
      f.Answered host record := by
  constructor
  · rintro ⟨line, h, -⟩
    exact answered_of_format h
  · exact format_of_answered hts

/-! ## a long schema version, and an object that raises -/

/-- a record without an event -/
def LogRecord.bare : LogRecord :=
  ⟨.other, .absent, str "INFO", 20, some 0, none, none, none, none⟩

def Host.sample : Host := ⟨100, fun _ => [], 0⟩

/-- the smallest limit there is -/
def ProjectionLimits.least : ProjectionLimits :=
  { ProjectionLimits.default with
    maxRecordBytes := MIN_RECORD_BYTES
    min_le_maxRecordBytes := le_rfl }

/-- a schema version of 1200 characters -/
def AuditEvent.versioned : AuditEvent where
  eventType := str "user.login"
  schemaVersion := List.replicate 1200 (cp 'v')
  body := str "login"
  attributes := [(str "event_type", .string (str "user.login")),
    (str "schema_version", .string (List.replicate 1200 (cp 'v'))),
    (str "request_id", .string (str "r-1"))]
  timestampNs := 7
  observedTimestampNs := none
  eventType_ne := by decide
  schemaVersion_ne := List.cons_ne_nil _ _
  canonical := rfl
  type_item := rfl
  schema_item := rfl

def LogRecord.versioned : LogRecord :=
  { LogRecord.bare with
    auditEvent := AuditEvent.versioned.object
    auditAttributes := .dict [(.str (str "tenant"), .str (str "acme"))] }

def JSONLLogFormatter.billing : JSONLLogFormatter where
  source := some (str "billing")
  compact := true
  limits := .least

/-- neither the record nor the first fallback record fits, and the line is that of the second -/
theorem format_line_versioned :
    (∃ line, JSONLLogFormatter.billing.format .sample .versioned = .ok line ∧
      OneLine MIN_RECORD_BYTES line) ∧
    JSONLLogFormatter.billing.format .sample .versioned
      = dumpsStrict .compact (.obj (malformedItems .sample .versioned ++
        [(str "resource", .obj [(str "service.name", .string (str "billing"))]),
          (str "attributes", .obj [(str "event_type", .string MALFORMED_EVENT_TYPE),
            (str "schema_version", .string (List.replicate 64 (cp 'v')))]),
          (str "event_name", .string MALFORMED_EVENT_TYPE)])) :=
  ⟨(format_line .billing .sample .versioned (by decide)).mpr ⟨⟨_, rfl, rfl⟩, .inl rfl⟩,
    by decide +kernel⟩

/-- a lazy object whose `__class__` raises what its loading raises -/
def LogRecord.lazy : LogRecord := { LogRecord.bare with auditEvent := .untold (.other 0) }

/-- the fallback records ask for the class once more -/
theorem format_untold : ¬ ∀ (f : JSONLLogFormatter) (host : Host) (record : LogRecord),
    timestampNanos host record ≤ 10 ^ 20 →
    ∃ line, f.format host record = .ok line ∧ OneLine f.limits.maxRecordBytes line := by
  intro h
  obtain ⟨line, hl, -⟩ := h {} .sample .lazy (by decide)
  have hraised : ({} : JSONLLogFormatter).format .sample .lazy = .error (.other 0) := rfl
  cases hraised.symm.trans hl

end SecAudit
