import SecAudit.Core.Scrub

/-!
# The projection of values to JSON

* `ProjectionLimits`  the limits, with what their constructor checks;
* `project`         `_project`: a value as JSON, cut to the limits, at any depth the call stack
                    allows (`frames`);
* `projectAttributes`, `jsonSafe`  the two ways it is called;
* `projectItems_nodup`  the keys of a projected mapping are distinct.
-/

set_option linter.unusedVariables false

namespace SecAudit
open Py

def TRUNCATED : Str := str "[TRUNCATED]"

def CIRCULAR : Str := str "[CIRCULAR]"

def MIN_RECORD_BYTES : Nat := 1024

structure ProjectionLimits where
  maxDepth : Nat := 8
  maxMappingEntries : Nat := 100
  maxSequenceLength : Nat := 100
  maxStringLength : Nat := 4096
  maxAttributes : Nat := 128
  maxBytes : Nat := 64
  maxRecordBytes : Nat := 256 * 1024
  maxDepth_pos : 0 < maxDepth := by decide
  maxMappingEntries_pos : 0 < maxMappingEntries := by decide
  maxSequenceLength_pos : 0 < maxSequenceLength := by decide
  maxStringLength_pos : 0 < maxStringLength := by decide
  maxAttributes_pos : 0 < maxAttributes := by decide
  maxBytes_pos : 0 < maxBytes := by decide
  min_le_maxRecordBytes : MIN_RECORD_BYTES ≤ maxRecordBytes := by decide

def ProjectionLimits.default : ProjectionLimits := {}

/-! ## leaves -/

def limitString (value : Str) (maxLength : Nat) : Str :=
  if value.length ≤ maxLength then value else value.take maxLength ++ TRUNCATED

def base64Char (n : Nat) : CodePoint :=
  if n < 26 then Fin.ofNat 0x110000 (65 + n)
  else if n < 52 then Fin.ofNat 0x110000 (97 + (n - 26))
  else if n < 62 then Fin.ofNat 0x110000 (48 + (n - 52))
  else if n = 62 then cp '+' else cp '/'

/-- `base64.b64encode` -/
def b64encode : List (Fin 256) → Str
  | [] => []
  | [a] => [base64Char (a.val / 4), base64Char (a.val % 4 * 16), cp '=', cp '=']
  | [a, b] => [base64Char (a.val / 4), base64Char (a.val % 4 * 16 + b.val / 16),
      base64Char (b.val % 16 * 4), cp '=']
  | a :: b :: c :: l => base64Char (a.val / 4) :: base64Char (a.val % 4 * 16 + b.val / 16) ::
      base64Char (b.val % 16 * 4 + c.val / 64) :: base64Char (c.val % 64) :: b64encode l

def bytesProjection (value : List (Fin 256)) (maxBytes : Nat) : Json :=
  .obj [(str "encoding", .string (str "base64")), (str "size", .int value.length),
    (str "data", .string (b64encode (value.take maxBytes))),
    (str "truncated", .bool (decide (maxBytes < value.length)))]

/-- `str(value)` of a float that is not finite -/
def floatText : NonFinite → Str
  | .nan => str "nan"
  | .inf => str "inf"
  | .negInf => str "-inf"

/-- the marker of a value that is not JSON -/
def unserializable (module name : Str) : Str :=
  str "<unserializable:" ++ module ++ str "." ++ name ++ str ">"

/-- with `strict` an error, else the text -/
def refuse (strict : Bool) (error text : Str) : Except Exc Json :=
  if strict then .error (.projectionError error) else .ok (.string text)

/-! ## values -/

section
variable (limits : ProjectionLimits) (strict : Bool)

mutual
/-- `_project` at `depth`, with `frames` nested calls to go -/
def project (frames depth : Nat) (v : Value) : Except Exc Json :=
  if limits.maxDepth ≤ depth then .ok (.string TRUNCATED) else match v with
    | .none => .ok .null
    | .bool b => .ok (.bool b)
    | .int i => .ok (.int i)
    | .float f => .ok (.float f)
    | .const c => refuse strict (str "Non-finite floats are not valid JSON values.") (floatText c)
    | .str s => .ok (.string (limitString s limits.maxStringLength))
    | .bytes d false => .ok (bytesProjection d limits.maxBytes)
    | .bytes d true => refuse strict (str "Unsupported projection value: bytearray")
        (unserializable (str "builtins") (str "bytearray"))
    | .text _ s => .ok (.string s)
    | .enum _ v => match frames with
      | 0 => .error .recursionError
      | n + 1 => project n 0 v
    | .mapping l => match frames with
      | 0 => .error .recursionError
      | n + 1 => (projectItems n (depth + 1) limits.maxMappingEntries [] l).map .obj
    | .loop true => .ok (.obj [(str "_truncated", .string CIRCULAR)])
    | .set name => refuse strict
        (str "set/frozenset are not valid audit values; use list or tuple.")
        (unserializable (str "builtins") name)
    | .seq l => match frames with
      | 0 => .error .recursionError
      | n + 1 => (projectElems n (depth + 1) limits.maxSequenceLength l).map .arr
    | .loop false => .ok (.arr [.string CIRCULAR])
    | .object module name => refuse strict (str "Unsupported projection value: " ++ name)
        (unserializable module name)
    | .broken e => .error e
termination_by structural v

/-- the loop of `_project_mapping`, with room for `room` more items, after `projected` -/
def projectItems (frames depth room : Nat) (projected : List (Str × Json)) :
    List (Key × Value) → Except Exc (List (Str × Json))
  | [] => .ok projected
  | (k, v) :: l => match room with
    | 0 => .ok (setItem (str "_truncated") (.string TRUNCATED) projected)
    | room + 1 => do
      let key ← k.text
      let item ← project frames depth v
      projectItems frames depth room
        (setItem (limitString key limits.maxStringLength) item projected) l
termination_by structural l => l

/-- `_project_sequence`, with room for `room` more items -/
def projectElems (frames depth room : Nat) : List Value → Except Exc (List Json)
  | [] => .ok []
  | v :: l => match room with
    | 0 => .ok [.string TRUNCATED]
    | room + 1 => do
      let item ← project frames depth v
      let items ← projectElems frames depth room l
      return item :: items
termination_by structural l => l
end

/-- `project_attributes` -/
def projectAttributes (frames : Nat) (attributes : List (Key × Value)) :
    Except Exc (List (Str × Json)) :=
  match frames with
  | 0 => .error .recursionError
  | n + 1 => projectItems limits true n 1 limits.maxAttributes [] attributes

end

/-- `json_safe` -/
def jsonSafe (frames : Nat) (value : Value) : Except Exc Json := project {} false frames 0 value

theorem limitString_of_le {s : Str} {n : Nat} (h : s.length ≤ n) : limitString s n = s := if_pos h

/-! ## one item, one element -/

section
variable {limits : ProjectionLimits} {strict : Bool}

theorem projectItems_cons_ok {n d room : Nat} {k : Key} {v : Value} {l : List (Key × Value)}
    {projected out : List (Str × Json)}
    (h : projectItems limits strict n d (room + 1) projected ((k, v) :: l) = .ok out) :
    ∃ t j, k.text = .ok t ∧ project limits strict n d v = .ok j ∧
      projectItems limits strict n d room
        (setItem (limitString t limits.maxStringLength) j projected) l = .ok out := by
  rw [projectItems] at h
  obtain ⟨t, ht, h⟩ := ok_of_bind h
  obtain ⟨j, hj, h⟩ := ok_of_bind h
  exact ⟨t, j, ht, hj, h⟩

theorem projectElems_cons_ok {n d room : Nat} {v : Value} {l : List Value} {out : List Json}
    (h : projectElems limits strict n d (room + 1) (v :: l) = .ok out) :
    ∃ j t, out = j :: t ∧ project limits strict n d v = .ok j ∧
      projectElems limits strict n d room l = .ok t := by
  rw [projectElems] at h
  obtain ⟨j, hj, h⟩ := ok_of_bind h
  obtain ⟨t, ht, h⟩ := ok_of_bind h
  exact ⟨j, t, (Except.ok.inj h).symm, hj, ht⟩

/-! ## the keys of what is projected -/

theorem projectItems_nodup {n d : Nat} : ∀ {l : List (Key × Value)} {room : Nat}
    {projected out : List (Str × Json)},
    projectItems limits strict n d room projected l = .ok out → (projected.map Prod.fst).Nodup →
    (out.map Prod.fst).Nodup
  | [], room, projected, out, h, hnd => by
    cases room <;> cases h <;> exact hnd
  | (k, v) :: l, 0, projected, out, h, hnd => by
    cases h
    exact nodup_setItem hnd
  | (k, v) :: l, room + 1, projected, out, h, hnd => by
    obtain ⟨t, j, -, -, h⟩ := projectItems_cons_ok h
    exact projectItems_nodup h (nodup_setItem hnd)

end

end SecAudit
