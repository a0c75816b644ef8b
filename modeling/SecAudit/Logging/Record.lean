import SecAudit.Core.Config
import SecAudit.Core.Events
import SecAudit.Core.Projection

/-!
# The formatter of audit records

* `EventFields`     what the formatter reads of an object that passes for an event;
* `LogRecord`       a record of the logging library, with any object in the place of its event;
* `buildLogRecord`  the record as a JSON object: attributes scrubbed and projected, then the
                    protected fields restored from the event;
* `JSONLLogFormatter.format`  one line: the record, or the first of three ever smaller fallback
                    records that fits the limit.
-/

set_option linter.unusedVariables false

namespace SecAudit
open Py

def PROTECTED_ATTRIBUTES : List Str :=
  [str "event_type", str "schema_version", str "request_id", str "session.id",
    str "source.address"]

def MALFORMED_EVENT_TYPE : Str := str "audit.logging.malformed_record"

def FALLBACK_SOURCE_MAX : Nat := MAX_SOURCE_LENGTH

def FALLBACK_SCHEMA_MAX : Nat := 64

/-! ## records -/

/-- `record.audit_attributes` -/
inductive AuditAttributes where
  /-- `None`, or no such attribute -/
  | absent
  | dict (items : List (Key × Value))
  | other

/-- what the formatter reads of an object that passes for an `AuditEvent`: a value as `json.dumps`
writes it inside a record, or what reading it, or writing it, raises; a read that is repeated ends
as it did before -/
structure EventFields where
  eventType : Except Exc Json
  schemaVersion : Except Exc Json
  /-- `str(event.schema_version)` -/
  schemaText : Except Exc Str
  /-- `scrub(event.body)` -/
  body : Redaction → Except Exc Json
  /-- `dict(event.attributes)` -/
  attributes : Except Exc (List (Key × Value))
  /-- `event.attributes[key]`, when `key in event.attributes` -/
  item : Str → Except Exc (Option Value)
  timestampNs : Except Exc Json
  observedTimestampNs : Except Exc (Option Json)

/-- `scrub(msg)` of a text -/
def scrubBody (red : Redaction) (body : Str) : Str :=
  if red.isSensitiveValue body then REDACTED else body

/-- `items[key]`, when the key is there -/
def heldItem (items : List (Str × Json)) (key : Str) : Except Exc (Option Value) :=
  .ok ((getItem key items).map .ofJson)

/-- an event as its constructor made it -/
def AuditEvent.fields (event : AuditEvent) : EventFields where
  eventType := .ok (.string event.eventType)
  schemaVersion := .ok (.string event.schemaVersion)
  schemaText := .ok event.schemaVersion
  body red := .ok (.string (scrubBody red event.body))
  attributes := .ok (Value.ofItems event.attributes)
  item := heldItem event.attributes
  timestampNs := .ok (.int event.timestampNs)
  observedTimestampNs := .ok (event.observedTimestampNs.map fun n => .int n)

/-- `record.audit_event` -/
inductive AuditObject where
  /-- `None`, no such attribute, or an object that is no `AuditEvent` -/
  | other
  /-- an object of which `isinstance` cannot tell: its `__class__` raises -/
  | untold (e : Exc)
  | event (fields : EventFields)

def AuditEvent.object (event : AuditEvent) : AuditObject := .event event.fields

structure LogRecord where
  auditEvent : AuditObject
  auditAttributes : AuditAttributes
  levelname : Str
  levelno : Int
  /-- `int(record.created * 1_000_000_000)`, when `created` is a finite number that is not
  negative -/
  created : Option Nat
  resourceSource : Option Str
  /-- `str(record.otelTraceID)`, when it is true -/
  otelTraceID : Option (Except Exc Str)
  otelSpanID : Option (Except Exc Str)
  /-- `bool(record.otelTraceSampled)`, when it is not `None` -/
  otelTraceSampled : Option (Except Exc Bool)

/-- what the formatter asks of the interpreter: the nested calls the stack has room for, the
version of an installed package, and `time.time_ns()` -/
structure Host where
  frames : Nat
  version : Str → Str
  timeNs : Nat

def severityNumber (levelno : Int) : Int :=
  if 50 ≤ levelno then 21
  else if 40 ≤ levelno then 17
  else if 30 ≤ levelno then 13
  else if 20 ≤ levelno then 9
  else if 10 ≤ levelno then 5
  else if 0 < levelno then 1
  else 0

def timestampNanos (host : Host) (record : LogRecord) : Nat := record.created.getD host.timeNs

/-- `source or config.source` -/
def serviceName (config : CoreAuditConfig) (source : Option Str) : Str :=
  match source with
  | some s => if s = [] then config.source else s
  | none => config.source

def resource (config : CoreAuditConfig) (source : Option Str) : Json :=
  .obj [(str "service.name", .string (serviceName config source))]

def instrumentationScope (host : Host) (packageName : Str) : Json :=
  .obj ((str "name", .string (if packageName = [] then str "sec_audit" else packageName)) ::
    if host.version packageName = [] then []
    else [(str "version", .string (host.version packageName))])

/-- the item of an identifier that is there -/
def traceField (key : Str) : Option (Except Exc Str) → Except Exc (List (Str × Json))
  | some t => t.map fun s => [(key, .string s)]
  | none => .ok []

def traceFlags : Option (Except Exc Bool) → Except Exc (List (Str × Json))
  | some sampled => sampled.map fun b => [(str "trace_flags", .int (if b then 1 else 0))]
  | none => .ok []

def traceContext (record : LogRecord) : Except Exc (List (Str × Json)) := do
  let trace ← traceField (str "trace_id") record.otelTraceID
  let span ← traceField (str "span_id") record.otelSpanID
  let flags ← traceFlags record.otelTraceSampled
  return trace ++ span ++ flags

/-- `_record_audit_fields`: the event and the additions -/
def recordAuditFields (record : LogRecord) : Except Exc (EventFields × List (Key × Value)) :=
  match record.auditEvent with
  | .other => .error .typeError
  | .untold e => .error e
  | .event event => match record.auditAttributes with
    | .absent => .ok (event, [])
    | .dict items => .ok (event, items)
    | .other => .error .typeError

/-! ## the record as JSON -/

/-- `scrub` of a dict -/
def scrubDict (red : Redaction) (frames : Nat) (l : List (Key × Value)) :
    Except Exc (List (Key × Value)) :=
  match frames with
  | 0 => .error .recursionError
  | n + 1 => scrubItems red n l

/-- `isinstance(key, str) and key not in PROTECTED_ATTRIBUTES` -/
def Key.unprotected : Key → Bool
  | .str key => decide (key ∉ PROTECTED_ATTRIBUTES)
  | .other _ => false

def unprotected (additions : List (Key × Value)) : List (Key × Value) :=
  additions.filter fun p => p.1.unprotected

/-- `project_attributes(scrub(attributes))` -/
def sanitized (config : CoreAuditConfig) (limits : ProjectionLimits) (frames : Nat)
    (attributes : List (Key × Value)) : Except Exc (List (Str × Json)) := do
  let scrubbed ← scrubDict config.redaction frames attributes
  projectAttributes limits frames scrubbed

/-- the protected fields that go into the record as the event has them -/
def RESTORED : List Str := [str "request_id", str "session.id", str "source.address"]

/-- `project_attributes({key: value})[key]` -/
def restoredValue (limits : ProjectionLimits) (frames : Nat) (key : Str) (value : Value) :
    Except Exc Json := do
  let projected ← projectAttributes limits frames [(.str key, value)]
  match getItem key projected with
  | some v => return v
  | none => .error (.keyError key)

/-- the loop over the protected fields, which `item` reads from the event -/
def restore (limits : ProjectionLimits) (frames : Nat) (item : Str → Except Exc (Option Value)) :
    List Str → List (Str × Json) → Except Exc (List (Str × Json))
  | [], attributes => .ok attributes
  | key :: keys, attributes => do
    match ← item key with
    | some value =>
      let v ← restoredValue limits frames key value
      restore limits frames item keys (setItem key v attributes)
    | none => restore limits frames item keys attributes

/-- the object that is written, without the trace context -/
def recordItems (host : Host) (config : CoreAuditConfig) (source : Option Str) (packageName : Str)
    (record : LogRecord) (event : EventFields) (attributes : List (Str × Json)) :
    Except Exc (List (Str × Json)) := do
  let body ← event.body config.redaction
  let timestamp ← event.timestampNs
  let observed ← event.observedTimestampNs
  let eventType ← event.eventType
  return [(str "timestamp", timestamp),
    (str "observed_timestamp", observed.getD (.int (timestampNanos host record))),
    (str "severity_text", .string record.levelname),
    (str "severity_number", .int (severityNumber record.levelno)),
    (str "body", body),
    (str "resource", resource config source),
    (str "instrumentation_scope", instrumentationScope host packageName),
    (str "attributes", .obj attributes),
    (str "event_name", eventType)]

/-- the sanitized attributes and additions, with the authoritative fields -/
def baseAttributes (config : CoreAuditConfig) (limits : ProjectionLimits) (frames : Nat)
    (event : EventFields) (additions : List (Key × Value)) : Except Exc (List (Str × Json)) := do
  let own ← event.attributes
  let attributes ← sanitized config limits frames own
  let projectedAdditions ← sanitized config limits frames (unprotected additions)
  let eventType ← event.eventType
  let schemaVersion ← event.schemaVersion
  return setItem (str "schema_version") schemaVersion
    (setItem (str "event_type") eventType (updateItems attributes projectedAdditions))

/-- the source given, else that of the record -/
def sourceOf (source : Option Str) (record : LogRecord) : Option Str :=
  match source with
  | some s => some s
  | none => record.resourceSource

def buildLogRecord (host : Host) (config : CoreAuditConfig) (source : Option Str)
    (packageName : Str) (limits : ProjectionLimits) (record : LogRecord) : Except Exc Json := do
  let (event, additions) ← recordAuditFields record
  let attributes ← baseAttributes config limits host.frames event additions
  let attributes ← restore limits host.frames event.item RESTORED attributes
  let items ← recordItems host config (sourceOf source record) packageName record event attributes
  let trace ← traceContext record
  return .obj (items ++ trace)

/-! ### the record of an event as its constructor made it -/

section
variable (host : Host) (config : CoreAuditConfig) (source : Option Str) (packageName : Str)
  (limits : ProjectionLimits) (record : LogRecord) (event : AuditEvent)

def eventItems (attributes : List (Str × Json)) : List (Str × Json) :=
  [(str "timestamp", .int event.timestampNs),
    (str "observed_timestamp",
      .int (event.observedTimestampNs.getD (timestampNanos host record) : Nat)),
    (str "severity_text", .string record.levelname),
    (str "severity_number", .int (severityNumber record.levelno)),
    (str "body", .string (scrubBody config.redaction event.body)),
    (str "resource", resource config source),
    (str "instrumentation_scope", instrumentationScope host packageName),
    (str "attributes", .obj attributes),
    (str "event_name", .string event.eventType)]

theorem recordItems_event (attributes : List (Str × Json)) :
    recordItems host config source packageName record event.fields attributes
      = .ok (eventItems host config source packageName record event attributes) := by
  unfold eventItems
  rcases ho : event.observedTimestampNs with _ | n <;>
    simp only [recordItems, AuditEvent.fields, ho] <;> rfl

theorem baseAttributes_event (frames : Nat) (additions : List (Key × Value)) :
    baseAttributes config limits frames event.fields additions = (do
      let attributes ← sanitized config limits frames (Value.ofItems event.attributes)
      let projectedAdditions ← sanitized config limits frames (unprotected additions)
      return setItem (str "schema_version") (.string event.schemaVersion)
        (setItem (str "event_type") (.string event.eventType)
          (updateItems attributes projectedAdditions))) := rfl

end

/-! ## the fallback records -/

/-- the schema version of the event, else `'unknown'` -/
def schemaOf (record : LogRecord) : Except Exc Json :=
  match record.auditEvent with
  | .other => .ok (.string (str "unknown"))
  | .untold e => .error e
  | .event event => event.schemaVersion

/-- `str(schema_version)` -/
def schemaTextOf (record : LogRecord) : Except Exc Str :=
  match record.auditEvent with
  | .other => .ok (str "unknown")
  | .untold e => .error e
  | .event event => event.schemaText

/-- the items every fallback record begins with -/
def malformedItems (host : Host) (record : LogRecord) : List (Str × Json) :=
  [(str "timestamp", .int (timestampNanos host record)),
    (str "observed_timestamp", .int (timestampNanos host record)),
    (str "severity_text", .string (str "ERROR")),
    (str "severity_number", .int (severityNumber 40)),
    (str "body", .string MALFORMED_EVENT_TYPE)]

def fallbackRecord (host : Host) (config : CoreAuditConfig) (source : Option Str)
    (packageName : Str) (record : LogRecord) : Except Exc Json := do
  let schemaVersion ← schemaOf record
  return .obj (malformedItems host record ++
    [(str "resource", resource config source),
      (str "instrumentation_scope", instrumentationScope host packageName),
      (str "attributes", .obj [(str "event_type", .string MALFORMED_EVENT_TYPE),
        (str "schema_version", schemaVersion)]),
      (str "event_name", .string MALFORMED_EVENT_TYPE)])

def minimalFallbackRecord (host : Host) (config : CoreAuditConfig) (source : Option Str)
    (record : LogRecord) : Except Exc Json := do
  let schemaVersion ← schemaTextOf record
  return .obj (malformedItems host record ++
    [(str "resource", .obj [(str "service.name",
        .string ((serviceName config source).take FALLBACK_SOURCE_MAX))]),
      (str "attributes", .obj [(str "event_type", .string MALFORMED_EVENT_TYPE),
        (str "schema_version", .string (schemaVersion.take FALLBACK_SCHEMA_MAX))]),
      (str "event_name", .string MALFORMED_EVENT_TYPE)])

def lastResortRecord (host : Host) (record : LogRecord) : Json :=
  .obj (malformedItems host record ++
    [(str "attributes", .obj [(str "event_type", .string MALFORMED_EVENT_TYPE)]),
      (str "event_name", .string MALFORMED_EVENT_TYPE)])

/-! ## the formatter -/

/-- the bytes of a character in UTF-8 -/
def utf8Size (c : CodePoint) : Nat :=
  if c.val < 0x80 then 1 else if c.val < 0x800 then 2 else if c.val < 0x10000 then 3 else 4

/-- `len(value.encode('utf-8'))` -/
def encodedLen (value : Str) : Except Exc Nat :=
  if encodable value then .ok (value.map utf8Size).sum else .error .unicodeError

/-- `json.dumps(v, allow_nan=False)` -/
def dumpsStrict (q : Separators) (v : Json) : Except Exc Str :=
  match v.dumps q false with
  | some line => .ok line
  | none => .error .jsonError

structure JSONLLogFormatter where
  config : CoreAuditConfig := .default
  source : Option Str := none
  compact : Bool := false
  packageName : Str := str "sec_audit.logging"
  limits : ProjectionLimits := .default

namespace JSONLLogFormatter

variable (f : JSONLLogFormatter) (host : Host) (record : LogRecord)

def separators : Separators := if f.compact then .compact else .default

def fallback : Except Exc Json := fallbackRecord host f.config f.source f.packageName record

def minimal : Except Exc Json := minimalFallbackRecord host f.config f.source record

def formatToDict : Except Exc Json :=
  match buildLogRecord host f.config f.source f.packageName f.limits record with
  | .ok payload => .ok payload
  | .error _ => f.fallback host record

/-- the line of `payload`, when it fits -/
def fitting (payload : Json) : Except Exc (Option Str) := do
  let line ← dumpsStrict f.separators payload
  let n ← encodedLen line
  return if n ≤ f.limits.maxRecordBytes then some line else none

/-- the fallback records, the first that fits -/
def formatFallback : Except Exc Str := do
  match ← f.fallback host record >>= f.fitting with
  | some line => return line
  | none =>
    match ← f.minimal host record >>= f.fitting with
    | some line => return line
    | none => dumpsStrict f.separators (lastResortRecord host record)

def format : Except Exc Str :=
  -- `except Exception: pass` is around the first attempt only
  match f.formatToDict host record >>= f.fitting with
  | .ok (some line) => .ok line
  | _ => f.formatFallback host record

end JSONLLogFormatter

end SecAudit
