import SecAudit.Core.Exc
import SecAudit.Py.Json

/-!
# Builtins on JSON values

* `Builtins`        what `str`, `repr`, `int` and truth do on values that are neither strings nor
                    integers, and the two ends of the ISO form of a time;
* `strOf`, `truthy`, `intOf`, `orElse`  the builtins on any value.
-/

set_option linter.unusedVariables false

namespace SecAudit
open Py

/-- `str`, `repr`, `int`, truth of a float, and the two ends of the ISO form of a time -/
structure Builtins where
  str : Json → Str
  repr : Json → Str
  int : Json → Except Exc Int
  truthyFloat : FloatLit → Bool
  isoformat : Int → Str
  fromisoformat : Str → Option Int

/-- enough of the builtins for the runs on fixed inputs: whole hours of the first day, and no
value that is neither a string nor an integer -/
def Builtins.sample : Builtins where
  str _ := []
  repr _ := []
  int _ := .error .conversionError
  truthyFloat _ := true
  isoformat t := Py.str "1970-01-01T0" ++ decimal (t / 3600000).toNat ++ Py.str ":00:00+00:00"
  fromisoformat s := some (3600000 * (ofDecimal ((s.drop 12).take 1) : Int))

section
variable (b : Builtins)

/-- `str(v)` -/
def strOf : Json → Str
  | .string s => s
  | .int i => decimalInt i
  | v => b.str v

/-- `bool(v)` -/
def truthy : Json → Bool
  | .null => false
  | .bool x => x
  | .int i => i != 0
  | .float f => b.truthyFloat f
  | .const _ => true
  | .string s => !s.isEmpty
  | .arr l => !l.isEmpty
  | .obj l => !l.isEmpty

/-- `int(v)` -/
def intOf : Json → Except Exc Int
  | .int i => .ok i
  | .bool x => .ok (if x then 1 else 0)
  | .null => .error .typeError
  | .arr _ => .error .typeError
  | .obj _ => .error .typeError
  | v => b.int v

/-- `v or default` of what `data.get` gave -/
def orElse (v : Option Json) (d : Json) : Json :=
  match v with
  | some v => if truthy b v then v else d
  | none => d

end

end SecAudit
