import Mathlib.Data.List.Sort
import SecAudit.Django.Ip
import SecAudit.Rules.Calls

/-!
# Rules that inspect what a request carries

* `RuleEvent.proxy`, `RuleEvent.request`  the proxy headers and the body in an event;
* `SuspiciousProxyHeaderRule`  reports proxy headers that name another client;
* `proxy_finds_iff` when it does;
* `RequestBodyThresholdRule`  reports a body with too large a number;
* `body_needed`     it reports no event without a body.
-/

set_option linter.unusedVariables false

namespace SecAudit
open Py

/-! ## what an event carries -/

/-- `_mapping` -/
def mappingOf : Option Json → List (Str × Json)
  | some (.obj items) => items
  | _ => []

structure ProxyFields where
  headers : List (Str × Json)
  trustedRoute : Bool

/-- `body` is `none` when there is none -/
structure RequestFields where
  method : Str
  headers : List (Str × Json)
  body : Option Json

/-- `proxy` of an event -/
def RuleEvent.proxy (b : Builtins) (e : RuleEvent) : ProxyFields :=
  ⟨mappingOf (getItem (str "proxy_headers") e.fields),
    (getItem (str "trusted_route") e.fields).any (truthy b)⟩

/-- `request` of an event -/
def RuleEvent.request (b : Builtins) (e : RuleEvent) : RequestFields :=
  let request := mappingOf (getItem (str "request") e.fields)
  ⟨RuleEvent.textOf b (RuleEvent.orGet b (getItem (str "http.request.method") e.fields)
      (getItem (str "method") e.fields)),
    mappingOf (e.field (str "request.headers")),
    (getItem (str "request.body") e.fields).or
      ((getItem (str "body") request).or (getItem (str "body") e.fields))⟩

/-! ## proxy headers -/

/-- `re.split` at runs of separators -/
def splitRuns (sep : CodePoint → Bool) (s : Str) : List Str :=
  match s.splitOnP sep with
  | first :: rest@(_ :: _) =>
    -- between two separators of one run there is nothing
    first :: (rest.dropLast.filter fun token => decide (token ≠ [])) ++ rest.getLast?.toList
  | tokens => tokens

structure SuspiciousProxyHeaderRule where
  safeForEnforcement : Bool := false

namespace SuspiciousProxyHeaderRule

def rule (self : SuspiciousProxyHeaderRule) : Rule where
  name := str "suspicious_proxy_header"
  safeForEnforcement := self.safeForEnforcement

section
variable (lib : IpLibrary) [DecidableEq lib.Address] (b : Builtins)

/-- `str(value or '')` -/
def valueText (value : Json) : Str := strOf b (orElse b (some value) (.string []))

/-- `_ip_tokens` -/
def ipTokens (value : Json) : List lib.Address :=
  let quoting := str " \"'[]"
  (splitRuns (fun c => decide (c ∈ str ",;=") || isSpace c) (valueText b value)).filterMap
    fun token => lib.parse ((token.dropWhile fun c => decide (c ∈ quoting)).rdropWhile
      fun c => decide (c ∈ quoting))

/-- a header names no address and is not blank, or names one that is not `source` -/
def suspicious (source : Option lib.Address) (value : Json) : Bool :=
  match ipTokens lib b value with
  | [] => decide (strip (valueText b value) ≠ [])
  | tokens => match source with
    | none => true
    | some source => tokens.any fun token => decide (token ≠ source)

/-- `_suspicious_headers` -/
def suspiciousHeaders (headers : List (Str × Json)) (srcip : Str) : List Str :=
  ((headers.filter fun p => suspicious lib b (lib.parse srcip) p.2).map Prod.fst).insertionSort
    (· ≤ ·)

def evaluate (self : SuspiciousProxyHeaderRule) (event : RuleEvent) (ctx : RuleContext) : Outcome :=
  let headers := (event.proxy b).headers
  if (event.proxy b).trustedRoute then .none
  else if headers.isEmpty then .none
  else
    let found := suspiciousHeaders lib b headers (event.source b).address
    if found = [] then .none
    else .found (makeMatch b self.rule.name 6 ctx.now
      (str "Proxy headers claimed a different client identity") event
      [str "proxy", str "spoofing"] [(.str (str "header_count"), .int headers.length),
        (.str (str "suspicious_headers"), .seq (found.map .str))] none none)

variable {lib b} {self : SuspiciousProxyHeaderRule} {event : RuleEvent} {ctx : RuleContext}

theorem suspiciousHeaders_eq_nil {headers : List (Str × Json)} {srcip : Str} :
    suspiciousHeaders lib b headers srcip = [] ↔
      ∀ p ∈ headers, suspicious lib b (lib.parse srcip) p.2 = false := by
  unfold suspiciousHeaders
  rw [← List.length_eq_zero_iff, List.length_insertionSort, List.length_map,
    List.length_eq_zero_iff, List.filter_eq_nil_iff]
  simp only [Bool.not_eq_true]

/-- **what is reported**: on a route that is not trusted, a header that names another client -/
theorem proxy_finds_iff : evaluate lib b self event ctx ≠ .none ↔
    (event.proxy b).trustedRoute = false ∧ ∃ p ∈ (event.proxy b).headers,
      suspicious lib b (lib.parse (event.source b).address) p.2 = true := by
  unfold evaluate
  dsimp only
  by_cases htrusted : (event.proxy b).trustedRoute = true
  · rw [if_pos htrusted, htrusted]
    exact iff_of_false (fun h => h rfl) fun h => Bool.noConfusion h.1
  rw [if_neg htrusted]
  by_cases hempty : (event.proxy b).headers.isEmpty = true
  · rw [if_pos hempty, List.isEmpty_iff.mp hempty]
    exact iff_of_false (fun h => h rfl) fun ⟨_, p, hp, _⟩ => absurd hp List.not_mem_nil
  rw [if_neg hempty]
  by_cases hnone : suspiciousHeaders lib b (event.proxy b).headers (event.source b).address = []
  · rw [if_pos hnone]
    refine iff_of_false (fun h => h rfl) fun ⟨_, p, hp, h⟩ => ?_
    rw [suspiciousHeaders_eq_nil.mp hnone p hp] at h
    cases h
  · rw [if_neg hnone]
    refine iff_of_true Outcome.noConfusion ⟨Bool.not_eq_true _ ▸ htrusted, ?_⟩
    by_contra hall
    refine hnone (suspiciousHeaders_eq_nil.mpr fun p hp => ?_)
    by_contra h
    exact hall ⟨p, hp, Bool.not_eq_false _ ▸ h⟩

end

instance : DecidableEq IpLibrary.sample.Address := inferInstanceAs (DecidableEq Str)

/-- a forwarded address that is not the source -/
example : suspiciousHeaders .sample .sample
    [(str "Forwarded", .string (str "for=\"10.0.0.1\"; by=x")),
      (str "X-Real-Ip", .string (str "203.0.113.7"))] (str "203.0.113.7") = [str "Forwarded"] := by
  decide

end SuspiciousProxyHeaderRule

/-! ## bodies -/

/-- what is used of the module `decimal` -/
structure DecimalLibrary where
  Decimal : Type
  /-- `Decimal(text)`, unless it raises `InvalidOperation` -/
  parse : Str → Option Decimal
  /-- `<=`, which raises when it is asked for a NaN -/
  le : Decimal → Decimal → Except Exc Bool
  /-- `str(value)` -/
  text : Decimal → Str

structure RequestBodyThresholdRule (lib : DecimalLibrary) where
  field : Str := str "amount"
  threshold : lib.Decimal
  /-- each says where it is found -/
  paths : List (Str → Bool) := []
  severity : Int := 8
  message : Str := str "Request body numeric threshold exceeded"
  tags : List Str := [str "request", str "threshold"]
  decision : Option Str := some (str "block")

namespace RequestBodyThresholdRule

def rule : Rule where
  name := str "request_body_threshold"
  safeForEnforcement := true
  eventTypes := some [str "audit.http.request.pre"]

section
variable {lib : DecimalLibrary} (b : Builtins)

/-- `_decimal` -/
def decimalOf : Option Json → Option lib.Decimal
  | none => none
  | some .null => none
  | some (.string []) => none
  | some v => lib.parse (strOf b v)

def evaluate (self : RequestBodyThresholdRule lib) (event : RuleEvent) (ctx : RuleContext) :
    Except Exc Outcome :=
  let path := (event.url b).path
  if !self.paths.isEmpty && !(self.paths.any fun search => search path) then .ok .none
  else match (event.request b).body with
    | some (.obj body) => match decimalOf b (getItem self.field body) with
      | none => .ok .none
      | some value => (lib.le value self.threshold).map fun small =>
        if small then .none
        else .found (makeMatch b rule.name self.severity ctx.now self.message event self.tags
          [(.str (str "field"), .str self.field), (.str (str "value"), .str (lib.text value)),
            (.str (str "threshold"), .str (lib.text self.threshold))] self.decision none)
    | _ => .ok .none

/-- nothing is found, and nothing is raised, without a body -/
theorem body_needed {self : RequestBodyThresholdRule lib} {event : RuleEvent} {ctx : RuleContext}
    (h : (event.request b).body = none) : self.evaluate b event ctx = .ok .none := by
  unfold evaluate
  rw [h]
  dsimp only
  split <;> rfl

end

end RequestBodyThresholdRule

end SecAudit
