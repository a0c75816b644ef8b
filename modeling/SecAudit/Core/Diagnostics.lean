import Mathlib.Algebra.Order.Field.Rat
import SecAudit.Data.Limiter
import SecAudit.Py.Text

/-!
# Warnings about what was lost

* `RateLimiter`     the last warning of each reason code; `RateLimiter.allow`, whether one more is due;
* `diagnosticWarning`  `diagnostic_warning`: the line that is written, if any;
* `warned`          the reports of a run that are written;
* `warned_passed`   they are what passes a limiter by code;
* `warnings_limited`  none is held back unless one like it was written in the minute before, and no
                    more are written than minutes pass.

Several threads report at once: each reads the clock before it takes the lock, so that the reports of
a run are in the order of the lock and their times in any order.
-/

set_option linter.unusedVariables false

namespace SecAudit
open Py

/-- `_RateLimiter`; the times are those of `time.monotonic`, in seconds -/
structure RateLimiter where
  window : ℚ := 60
  last : Str → Option ℚ := fun _ => none

/-- `_RateLimiter.allow` at `now`, with the limiter after it -/
def RateLimiter.allow (limiter : RateLimiter) (now : ℚ) (reasonCode : Str) : Bool × RateLimiter :=
  let allowed :=
    (true, { limiter with last := Function.update limiter.last reasonCode (some now) })
  match limiter.last reasonCode with
  | some previous => if now - previous < limiter.window then (false, limiter) else allowed
  | none => allowed

/-- a call of `diagnostic_warning`, with the time it reads -/
structure Report where
  reasonCode : Str
  message : Str
  now : ℚ

/-- `diagnostic_warning`: the line on the internal logger, and the limiter after it -/
def diagnosticWarning (limiter : RateLimiter) (r : Report) : Option Str × RateLimiter :=
  let (allowed, limiter) := limiter.allow r.now r.reasonCode
  (if allowed then some (r.reasonCode ++ str ": " ++ r.message) else none, limiter)

/-- the limiter after a run of reports -/
def RateLimiter.afterReports (limiter : RateLimiter) (rs : List Report) : RateLimiter :=
  rs.foldl (fun limiter r => (diagnosticWarning limiter r).2) limiter

/-- the reports of a run that are written -/
def warned : RateLimiter → List Report → List Report
  | _, [] => []
  | limiter, r :: rs =>
    let (line, limiter) := diagnosticWarning limiter r
    (if line.isSome then [r] else []) ++ warned limiter rs

/-! ## a limiter by code -/

section
variable (limiter : RateLimiter) (r : Report) (rs : List Report)

theorem diagnosticWarning_isSome : (diagnosticWarning limiter r).1.isSome
    = Limiter.lets Report.reasonCode Report.now limiter.window limiter.last r := by
  unfold diagnosticWarning RateLimiter.allow Limiter.lets
  cases limiter.last r.reasonCode with
  | none => rfl
  | some previous =>
    dsimp only
    by_cases h : r.now - previous < limiter.window
    · rw [if_pos h, decide_eq_true h]
      rfl
    · rw [if_neg h, decide_eq_false h]
      rfl

theorem diagnosticWarning_last : (diagnosticWarning limiter r).2 = { limiter with
    last := Limiter.attempt Report.reasonCode Report.now limiter.window limiter.last r } := by
  unfold diagnosticWarning RateLimiter.allow Limiter.attempt Limiter.lets
  cases limiter.last r.reasonCode with
  | none => rfl
  | some previous =>
    by_cases h : r.now - previous < limiter.window
    · simp [h]
    · simp [h]

theorem afterReports_eq : limiter.afterReports rs = { limiter with
    last := Limiter.after Report.reasonCode Report.now limiter.window limiter.last rs } := by
  induction rs generalizing limiter with
  | nil => rfl
  | cons r rs ih =>
    show RateLimiter.afterReports (diagnosticWarning limiter r).2 rs = _
    rw [ih, diagnosticWarning_last]
    rfl

/-- what is written is what passes -/
theorem warned_passed :
    warned limiter rs = Limiter.passed Report.reasonCode Report.now limiter.window limiter.last rs := by
  induction rs generalizing limiter with
  | nil => rfl
  | cons r rs ih =>
    show (if (diagnosticWarning limiter r).1.isSome then [r] else []) ++
      warned (diagnosticWarning limiter r).2 rs = _
    rw [diagnosticWarning_isSome, ih, diagnosticWarning_last, Limiter.passed_cons]

end

/-! ## what is written -/

/-- the reports with a code -/
def withCode (code : Str) (rs : List Report) : List Report := rs.filter fun r => r.reasonCode = code

/-- **no more than one warning a minute for each code, and none held back without one**: after a
run of reports, at whatever times and from whatever threads, one more is written exactly when each
that was written with its code is a minute old; in `n` minutes at most `n` are written with one
code; and the codes do not hold back each other -/
theorem warnings_limited (rs : List Report) :
    (∀ r, (diagnosticWarning (RateLimiter.afterReports {} rs) r).1.isSome = true ↔
      ∀ r' ∈ warned {} rs, r'.reasonCode = r.reasonCode → r'.now + 60 ≤ r.now) ∧
    (∀ code (start : ℚ) (n : Nat),
      ((withCode code (warned {} rs)).filter
        fun r => start ≤ r.now ∧ r.now < start + n • 60).length ≤ n) ∧
    ∀ code, withCode code (warned {} rs) = warned {} (withCode code rs) := by
  have hw : (0 : ℚ) ≤ 60 := by norm_num
  refine ⟨fun r => ?_, fun code start n => ?_, fun code => ?_⟩
  · rw [diagnosticWarning_isSome, afterReports_eq, warned_passed, Limiter.lets_iff hw]
    constructor
    · exact fun h r' hr' hc => h r' (List.mem_filter.mpr ⟨hr', decide_eq_true hc⟩)
    · intro h r' hr'
      obtain ⟨hr', hc⟩ := List.mem_filter.mp hr'
      exact h r' hr' (of_decide_eq_true hc)
  · rw [warned_passed]
    exact Limiter.passed_count hw rs code start n
  · rw [warned_passed, warned_passed]
    exact Limiter.passed_apart code rs _ _ rfl

end SecAudit
