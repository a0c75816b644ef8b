import SecAudit.Py.Text

/-!
# JSON values and `json.dumps`

* `Json`            what `json.dumps` writes and `json.loads` reads; a dict is the list of its
                    items in order, and a name looks up its last item (`Json.lookup`);
* `render`          the text of a value (`ensure_ascii`, so every character is printable ASCII:
                    `printable_render`);
* `dumps`           `render`, behind the limits `json.dumps` has: the digits of an `int` and,
                    without `allow_nan`, the non-finite floats;
* `fuse`, `Json.fuse`  what a string, a value becomes on its way through the text: a high
                    surrogate and the low one after it come back as one code point.
-/

set_option linter.unusedVariables false
set_option linter.unusedSectionVars false

namespace Py

/-- the code point of an ASCII literal -/
abbrev cp (c : Char) : CodePoint := CodePoint.ofChar c

def isDigit (c : CodePoint) : Bool := 48 ≤ c.val && c.val ≤ 57

/-! ## number tokens -/

/-- the characters a JSON number is made of -/
def isNumChar (c : CodePoint) : Bool :=
  isDigit c || c == cp '-' || c == cp '+' || c == cp '.' || c == cp 'e' || c == cp 'E'

/-- digits without a leading zero -/
def natToken (s : Str) : Bool :=
  s.all isDigit && !s.isEmpty && (s.length == 1 || s.head? != some (cp '0'))

def isNegative (s : Str) : Bool := s.head? == some (cp '-')

def unsigned (s : Str) : Str := if isNegative s then s.tail else s

def digitRun (s : Str) : Bool := s.all isDigit && !s.isEmpty

/-- an exponent after its letter: an optional sign and digits -/
def expToken (s : Str) : Bool :=
  digitRun (if s.head? == some (cp '-') || s.head? == some (cp '+') then s.tail else s)

def isExpLetter (c : CodePoint) : Bool := c == cp 'e' || c == cp 'E'

/-- a fraction, an exponent or both -/
def fracToken (s : Str) : Bool :=
  match s with
  | [] => false
  | c :: t =>
    if c = cp '.' then
      digitRun (t.takeWhile isDigit) &&
        (match t.dropWhile isDigit with
          | [] => true
          | e :: u => isExpLetter e && expToken u)
    else isExpLetter c && expToken t

/-- the text of a finite float: an integer part with a fraction, an exponent or both -/
def floatToken (s : Str) : Bool :=
  s.all isNumChar && natToken ((unsigned s).takeWhile isDigit) &&
    fracToken ((unsigned s).dropWhile isDigit)

/-- a finite float, as the text it is written in -/
structure FloatLit where
  text : Str
  token : floatToken text = true
deriving DecidableEq

inductive NonFinite where
  | nan | inf | negInf
deriving DecidableEq

def NonFinite.text : NonFinite → Str
  | .nan => str "NaN"
  | .inf => str "Infinity"
  | .negInf => str "-Infinity"

/-! ## values -/

inductive Json where
  | null
  | bool (b : Bool)
  | int (i : Int)
  | float (f : FloatLit)
  | const (c : NonFinite)
  | string (s : Str)
  | arr (l : List Json)
  | obj (l : List (Str × Json))

namespace Json

/-- the value of a name in a list of items: the last item of that name -/
def lookup (k : Str) (l : List (Str × Json)) : Option Json :=
  (l.reverse.find? fun p => decide (p.1 = k)).map Prod.snd

/-- `data.get(k)` of a dict; nothing else has names -/
def get (k : Str) : Json → Option Json
  | .obj l => lookup k l
  | _ => none

theorem lookup_cons_other {k k' : Str} {v : Json} {l : List (Str × Json)} (h : k' ≠ k) :
    lookup k ((k', v) :: l) = lookup k l := by
  unfold lookup
  rw [List.reverse_cons, List.find?_append]
  cases hf : l.reverse.find? (fun p => decide (p.1 = k)) with
  | some p => rfl
  | none => simp [h]

theorem lookup_cons_same {k : Str} {v : Json} {l : List (Str × Json)} (h : lookup k l = none) :
    lookup k ((k, v) :: l) = some v := by
  unfold lookup at *
  rw [List.reverse_cons, List.find?_append]
  cases hf : l.reverse.find? (fun p => decide (p.1 = k)) with
  | some p =>
    rw [hf] at h
    cases h
  | none => simp

end Json

/-! ## text -/

/-- the lower-case hexadecimal digit of `d` -/
def hexDigit (d : Nat) : CodePoint :=
  if d < 10 then ⟨48 + d % 10, by omega⟩ else ⟨97 + (d - 10) % 6, by omega⟩

/-- `'\\u{0:04x}'` of a number below `0x10000` -/
def escape16 (n : Nat) : Str :=
  [cp '\\', cp 'u', hexDigit (n / 4096 % 16), hexDigit (n / 256 % 16), hexDigit (n / 16 % 16),
    hexDigit (n % 16)]

/-- one character between the quotes -/
def escape (c : CodePoint) : Str :=
  if c = cp '"' then [cp '\\', cp '"']
  else if c = cp '\\' then [cp '\\', cp '\\']
  else if c.val = 10 then [cp '\\', cp 'n']
  else if c.val = 13 then [cp '\\', cp 'r']
  else if c.val = 9 then [cp '\\', cp 't']
  else if c.val = 12 then [cp '\\', cp 'f']
  else if c.val = 8 then [cp '\\', cp 'b']
  else if 32 ≤ c.val ∧ c.val ≤ 126 then [c]
  else if c.val < 0x10000 then escape16 c.val
  else escape16 (0xD800 + (c.val - 0x10000) / 0x400) ++
    escape16 (0xDC00 + (c.val - 0x10000) % 0x400)

def quoted (s : Str) : Str := cp '"' :: (s.flatMap escape ++ [cp '"'])

/-- `str(i)` -/
def decimalInt (i : Int) : Str :=
  if i < 0 then cp '-' :: decimal i.natAbs else decimal i.natAbs

/-- what stands between two items, and between a name and its value -/
structure Separators where
  item : Str
  key : Str

/-- `separators=None` -/
def Separators.default : Separators := ⟨str ", ", str ": "⟩

/-- `separators=(',', ':')` -/
def Separators.compact : Separators := ⟨str ",", str ":"⟩

mutual
def Json.render (q : Separators) : Json → Str
  | .null => str "null"
  | .bool true => str "true"
  | .bool false => str "false"
  | .int i => decimalInt i
  | .float f => f.text
  | .const c => c.text
  | .string s => quoted s
  | .arr l => cp '[' :: Json.renderElems q true l
  | .obj l => cp '{' :: Json.renderItems q true l

def Json.renderElems (q : Separators) (first : Bool) : List Json → Str
  | [] => [cp ']']
  | v :: l => (if first then [] else q.item) ++ Json.render q v ++ Json.renderElems q false l

def Json.renderItems (q : Separators) (first : Bool) : List (Str × Json) → Str
  | [] => [cp '}']
  | (k, v) :: l => (if first then [] else q.item) ++ quoted k ++ q.key ++ Json.render q v ++
      Json.renderItems q false l
end

/-! ## limits -/

/-- the most digits `int` and `str` convert -/
def maxIntDigits : Nat := 4300

mutual
/-- every `int` has few enough digits, and with `finite` every float is finite -/
def Json.writable (finite : Bool) : Json → Bool
  | .int i => (decimal i.natAbs).length ≤ maxIntDigits
  | .const _ => !finite
  | .arr l => Json.writableElems finite l
  | .obj l => Json.writableItems finite l
  | _ => true

def Json.writableElems (finite : Bool) : List Json → Bool
  | [] => true
  | v :: l => Json.writable finite v && Json.writableElems finite l

def Json.writableItems (finite : Bool) : List (Str × Json) → Bool
  | [] => true
  | (_, v) :: l => Json.writable finite v && Json.writableItems finite l
end

/-- `json.dumps(v)`; `none` is its `ValueError` -/
def Json.dumps (q : Separators) (allowNan : Bool) (v : Json) : Option Str :=
  if v.writable !allowNan then some (v.render q) else none

/-! ## through the text and back -/

def isHigh (c : CodePoint) : Bool := 0xD800 ≤ c.val && c.val ≤ 0xDBFF

def isLow (c : CodePoint) : Bool := 0xDC00 ≤ c.val && c.val ≤ 0xDFFF

/-- the code point of a surrogate pair -/
def pair (h l : CodePoint) : CodePoint :=
  ⟨0x10000 + ((h.val - 0xD800) % 0x400 * 0x400 + (l.val - 0xDC00) % 0x400), by omega⟩

def fuse : Str → Str
  | [] => []
  | [c] => [c]
  | h :: l :: s => if isHigh h && isLow l then pair h l :: fuse s else h :: fuse (l :: s)

mutual
def Json.fuse : Json → Json
  | .string s => .string (Py.fuse s)
  | .arr l => .arr (Json.fuseElems l)
  | .obj l => .obj (Json.fuseItems l)
  | v => v

def Json.fuseElems : List Json → List Json
  | [] => []
  | v :: l => Json.fuse v :: Json.fuseElems l

def Json.fuseItems : List (Str × Json) → List (Str × Json)
  | [] => []
  | (k, v) :: l => (Py.fuse k, Json.fuse v) :: Json.fuseItems l
end

theorem fuse_cons_of_not_high {c : CodePoint} (h : isHigh c = false) (s : Str) :
    fuse (c :: s) = c :: fuse s := by
  cases s with
  | nil => rfl
  | cons d s => rw [fuse, h, Bool.false_and, if_neg Bool.false_ne_true]

theorem not_high_of_not_surrogate {c : CodePoint} (h : isSurrogate c = false) :
    isHigh c = false := by
  unfold isSurrogate at h
  unfold isHigh
  simp only [Bool.and_eq_false_iff, decide_eq_false_iff_not] at h ⊢
  omega

/-- text UTF-8 can carry comes back as it was -/
theorem fuse_of_encodable {s : Str} (h : encodable s = true) : fuse s = s := by
  induction s with
  | nil => rfl
  | cons c s ih =>
    unfold encodable at h ih
    rw [List.all_cons, Bool.and_eq_true, Bool.not_eq_true'] at h
    rw [fuse_cons_of_not_high (not_high_of_not_surrogate h.1), ih h.2]

theorem fuseItems_eq_map (l : List (Str × Json)) :
    Json.fuseItems l = l.map fun p => (fuse p.1, p.2.fuse) := by
  induction l with
  | nil => rfl
  | cons p l ih =>
    rw [Json.fuseItems, ih]
    rfl

mutual
theorem Json.writable_of_finite : ∀ {v : Json}, v.writable true = true → v.writable false = true
  | .null, _ => rfl
  | .bool _, _ => rfl
  | .int _, h => h
  | .float _, _ => rfl
  | .const _, _ => rfl
  | .string _, _ => rfl
  | .arr _, h => writableElems_of_finite h
  | .obj _, h => writableItems_of_finite h

theorem Json.writableElems_of_finite : ∀ {l : List Json}, Json.writableElems true l = true →
    Json.writableElems false l = true
  | [], _ => rfl
  | v :: l, h => by
    obtain ⟨hv, hl⟩ := Bool.and_eq_true_iff.mp h
    exact Bool.and_eq_true_iff.mpr ⟨Json.writable_of_finite hv, writableElems_of_finite hl⟩

theorem Json.writableItems_of_finite : ∀ {l : List (Str × Json)},
    Json.writableItems true l = true → Json.writableItems false l = true
  | [], _ => rfl
  | (k, v) :: l, h => by
    obtain ⟨hv, hl⟩ := Bool.and_eq_true_iff.mp h
    exact Bool.and_eq_true_iff.mpr ⟨Json.writable_of_finite hv, writableItems_of_finite hl⟩
end

theorem Json.writableItems_iff {finite : Bool} {l : List (Str × Json)} :
    Json.writableItems finite l = true ↔ ∀ e ∈ l, e.2.writable finite = true := by
  induction l with
  | nil => exact iff_of_true rfl fun e he => absurd he List.not_mem_nil
  | cons e l ih =>
    rw [Json.writableItems, Bool.and_eq_true, ih, List.forall_mem_cons]

/-! ### the text stays the same -/

theorem escape_surrogate {c : CodePoint} (h : isSurrogate c = true) :
    escape c = escape16 c.val := by
  unfold isSurrogate at h
  simp only [Bool.and_eq_true, decide_eq_true_eq] at h
  have hne : ∀ d : CodePoint, d.val < 128 → c ≠ d := by
    rintro d hd rfl
    omega
  unfold escape
  rw [if_neg (hne _ (by decide)), if_neg (hne _ (by decide)), if_neg (by omega), if_neg (by omega),
    if_neg (by omega), if_neg (by omega), if_neg (by omega), if_neg (by omega), if_pos (by omega)]

theorem escape_big {c : CodePoint} (h : 0x10000 ≤ c.val) :
    escape c = escape16 (0xD800 + (c.val - 0x10000) / 0x400) ++
      escape16 (0xDC00 + (c.val - 0x10000) % 0x400) := by
  have hne : ∀ d : CodePoint, d.val < 128 → c ≠ d := by
    rintro d hd rfl
    omega
  unfold escape
  rw [if_neg (hne _ (by decide)), if_neg (hne _ (by decide)), if_neg (by omega), if_neg (by omega),
    if_neg (by omega), if_neg (by omega), if_neg (by omega), if_neg (by omega), if_neg (by omega)]

theorem escape_pair {h l : CodePoint} (hh : isHigh h = true) (hl : isLow l = true) :
    escape (pair h l) = escape h ++ escape l := by
  unfold isHigh at hh
  unfold isLow at hl
  simp only [Bool.and_eq_true, decide_eq_true_eq] at hh hl
  have surrogate : ∀ c : CodePoint, 0xD800 ≤ c.val → c.val ≤ 0xDFFF → isSurrogate c = true := by
    intro c h1 h2
    unfold isSurrogate
    simp only [Bool.and_eq_true, decide_eq_true_eq]
    exact ⟨h1, h2⟩
  rw [escape_surrogate (surrogate h (by omega) (by omega)),
    escape_surrogate (surrogate l (by omega) (by omega))]
  have hmod : (h.val - 0xD800) % 0x400 = h.val - 0xD800 := Nat.mod_eq_of_lt (by omega)
  have lmod : (l.val - 0xDC00) % 0x400 = l.val - 0xDC00 := Nat.mod_eq_of_lt (by omega)
  have hv : (pair h l).val = 0x10000 + ((h.val - 0xD800) * 0x400 + (l.val - 0xDC00)) := by
    unfold pair
    simp only [hmod, lmod]
  generalize pair h l = c at hv
  have hhigh : 0xD800 + (c.val - 0x10000) / 0x400 = h.val := by omega
  have hlow : 0xDC00 + (c.val - 0x10000) % 0x400 = l.val := by omega
  rw [escape_big (by omega), hhigh, hlow]

theorem flatMap_escape_fuse (s : Str) : (fuse s).flatMap escape = s.flatMap escape := by
  induction s using fuse.induct with
  | case1 => rfl
  | case2 c => rfl
  | case3 h l s hp ih =>
    rw [fuse, if_pos hp]
    obtain ⟨hh, hl⟩ := Bool.and_eq_true_iff.mp hp
    rw [List.flatMap_cons, ih, escape_pair hh hl, List.flatMap_cons, List.flatMap_cons,
      List.append_assoc]
  | case4 h l s hp ih =>
    rw [fuse, if_neg hp, List.flatMap_cons, ih, ← List.flatMap_cons]

theorem quoted_fuse (s : Str) : quoted (fuse s) = quoted s := by
  unfold quoted
  rw [flatMap_escape_fuse]

section
variable (q : Separators)

mutual
/-- **what comes back has the same text** -/
theorem Json.render_fuse : ∀ v : Json, v.fuse.render q = v.render q
  | .null => rfl
  | .bool _ => rfl
  | .int _ => rfl
  | .float _ => rfl
  | .const _ => rfl
  | .string s => quoted_fuse s
  | .arr l => congrArg (List.cons (cp '[')) (renderElems_fuse true l)
  | .obj l => congrArg (List.cons (cp '{')) (renderItems_fuse true l)

theorem Json.renderElems_fuse (first : Bool) : ∀ l : List Json,
    Json.renderElems q first (Json.fuseElems l) = Json.renderElems q first l
  | [] => rfl
  | v :: l => by
    rw [Json.fuseElems, Json.renderElems, Json.renderElems, Json.render_fuse v,
      Json.renderElems_fuse false l]

theorem Json.renderItems_fuse (first : Bool) : ∀ l : List (Str × Json),
    Json.renderItems q first (Json.fuseItems l) = Json.renderItems q first l
  | [] => rfl
  | (k, v) :: l => by
    rw [Json.fuseItems, Json.renderItems, Json.renderItems, quoted_fuse, Json.render_fuse v,
      Json.renderItems_fuse false l]
end

end

section
variable (finite : Bool)

mutual
theorem Json.writable_fuse : ∀ v : Json, v.fuse.writable finite = v.writable finite
  | .null => rfl
  | .bool _ => rfl
  | .int _ => rfl
  | .float _ => rfl
  | .const _ => rfl
  | .string _ => rfl
  | .arr l => writableElems_fuse l
  | .obj l => writableItems_fuse l

theorem Json.writableElems_fuse : ∀ l : List Json,
    Json.writableElems finite (Json.fuseElems l) = Json.writableElems finite l
  | [] => rfl
  | v :: l => by
    rw [Json.fuseElems, Json.writableElems, Json.writableElems, Json.writable_fuse v,
      Json.writableElems_fuse l]

theorem Json.writableItems_fuse : ∀ l : List (Str × Json),
    Json.writableItems finite (Json.fuseItems l) = Json.writableItems finite l
  | [] => rfl
  | (k, v) :: l => by
    rw [Json.fuseItems, Json.writableItems, Json.writableItems, Json.writable_fuse v,
      Json.writableItems_fuse l]
end

end

/-! ### names -/

theorem Json.lookup_isSome {k : Str} {l : List (Str × Json)} :
    (Json.lookup k l).isSome = true ↔ k ∈ l.map Prod.fst := by
  unfold Json.lookup
  rw [Option.isSome_map, List.find?_isSome, List.mem_map]
  constructor
  · rintro ⟨p, hp, he⟩
    exact ⟨p, List.mem_reverse.mp hp, of_decide_eq_true he⟩
  · rintro ⟨p, hp, he⟩
    exact ⟨p, List.mem_reverse.mpr hp, decide_eq_true he⟩

theorem Json.lookup_of_mem {k : Str} {v : Json} {l : List (Str × Json)}
    (hn : (l.map Prod.fst).Nodup) (h : (k, v) ∈ l) : Json.lookup k l = some v := by
  induction l with
  | nil => cases h
  | cons p l ih =>
    obtain ⟨k', v'⟩ := p
    rw [List.map_cons, List.nodup_cons] at hn
    rcases List.mem_cons.mp h with e | h
    · obtain ⟨rfl, rfl⟩ := Prod.mk.inj e
      refine lookup_cons_same ?_
      rw [← Option.not_isSome_iff_eq_none, lookup_isSome]
      exact hn.1
    · have hne : k' ≠ k := by
        rintro rfl
        exact hn.1 (List.mem_map.mpr ⟨_, h, rfl⟩)
      rw [lookup_cons_other hne]
      exact ih hn.2 h

/-! ## every character is printable ASCII -/

def printable (c : CodePoint) : Bool := 32 ≤ c.val && c.val ≤ 126

def Printable (s : Str) : Prop := ∀ c ∈ s, printable c = true

instance (s : Str) : Decidable (Printable s) :=
  decidable_of_iff (s.all printable = true) List.all_eq_true

theorem Printable.append {s t : Str} (hs : Printable s) (ht : Printable t) : Printable (s ++ t) := by
  intro c hc
  rcases List.mem_append.mp hc with h | h
  · exact hs c h
  · exact ht c h

theorem Printable.cons {c : CodePoint} {s : Str} (hc : printable c = true) (hs : Printable s) :
    Printable (c :: s) := by
  intro d hd
  rcases List.mem_cons.mp hd with rfl | h
  · exact hc
  · exact hs d h

theorem Printable.encodable {s : Str} (h : Printable s) : encodable s = true := by
  unfold Py.encodable
  rw [List.all_eq_true]
  intro c hc
  have := h c hc
  unfold printable at this
  unfold isSurrogate
  simp only [Bool.and_eq_true, decide_eq_true_eq] at this
  simp only [Bool.not_eq_true', Bool.and_eq_false_iff, decide_eq_false_iff_not]
  omega

theorem printable_hexDigit {d : Nat} (h : d < 16) : printable (hexDigit d) = true := by
  unfold hexDigit printable
  by_cases h10 : d < 10
  · rw [if_pos h10]
    simp only [Bool.and_eq_true, decide_eq_true_eq]
    omega
  · rw [if_neg h10]
    simp only [Bool.and_eq_true, decide_eq_true_eq]
    omega

theorem printable_escape16 (n : Nat) : Printable (escape16 n) := by
  intro c hc
  simp only [escape16, List.mem_cons, List.not_mem_nil, or_false] at hc
  rcases hc with rfl | rfl | rfl | rfl | rfl | rfl
  · decide
  · decide
  · exact printable_hexDigit (Nat.mod_lt _ (by decide))
  · exact printable_hexDigit (Nat.mod_lt _ (by decide))
  · exact printable_hexDigit (Nat.mod_lt _ (by decide))
  · exact printable_hexDigit (Nat.mod_lt _ (by decide))

theorem printable_escape (c : CodePoint) : Printable (escape c) := by
  unfold escape
  split
  · decide
  split
  · decide
  split
  · decide
  split
  · decide
  split
  · decide
  split
  · decide
  split
  · decide
  split
  · rename_i h
    intro d hd
    rw [List.mem_singleton.mp hd]
    unfold printable
    simp only [Bool.and_eq_true, decide_eq_true_eq]
    exact h
  split
  · exact printable_escape16 _
  · exact (printable_escape16 _).append (printable_escape16 _)

theorem printable_quoted (s : Str) : Printable (quoted s) := by
  unfold quoted
  refine Printable.cons (by decide) (Printable.append ?_ (by decide))
  intro c hc
  obtain ⟨d, -, hd⟩ := List.mem_flatMap.mp hc
  exact printable_escape d c hd

theorem isDigit_of_mem_decimal {n : Nat} {c : CodePoint} (h : c ∈ decimal n) :
    isDigit c = true := by
  obtain ⟨d, hd, rfl⟩ := List.mem_map.mp h
  have hdig := Nat.isDigit_of_mem_toDigits (by decide) (by decide) hd
  rw [Char.isDigit_iff_toNat] at hdig
  unfold isDigit
  rw [CodePoint.ofChar_val]
  simpa using hdig

theorem printable_of_isDigit {c : CodePoint} (h : isDigit c = true) : printable c = true := by
  unfold isDigit at h
  unfold printable
  simp only [Bool.and_eq_true, decide_eq_true_eq] at h ⊢
  omega

theorem printable_decimalInt (i : Int) : Printable (decimalInt i) := by
  have h : Printable (decimal i.natAbs) :=
    fun c hc => printable_of_isDigit (isDigit_of_mem_decimal hc)
  unfold decimalInt
  split
  · exact Printable.cons (by decide) h
  · exact h

theorem printable_of_isNumChar {c : CodePoint} (h : isNumChar c = true) : printable c = true := by
  unfold isNumChar at h
  simp only [Bool.or_eq_true, beq_iff_eq] at h
  rcases h with ((((h | rfl) | rfl) | rfl) | rfl) | rfl
  · exact printable_of_isDigit h
  all_goals decide

theorem FloatLit.isNumChar_of_mem {f : FloatLit} {c : CodePoint} (hc : c ∈ f.text) :
    isNumChar c = true := by
  have h := f.token
  unfold floatToken at h
  rw [Bool.and_eq_true, Bool.and_eq_true] at h
  exact List.all_eq_true.mp h.1.1 c hc

theorem printable_text (c : NonFinite) : Printable c.text := by
  cases c <;> decide

/-- separators of printable characters -/
structure Separators.Ascii (q : Separators) : Prop where
  item : Printable q.item
  key : Printable q.key

theorem ascii_default : Separators.default.Ascii := ⟨by decide, by decide⟩

theorem ascii_compact : Separators.compact.Ascii := ⟨by decide, by decide⟩

section
variable {q : Separators} (hq : q.Ascii)
include hq

mutual
/-- **the text of a value is printable ASCII** -/
theorem Json.printable_render : ∀ v : Json, Printable (v.render q)
  | .null => by show Printable (str "null"); decide
  | .bool true => by show Printable (str "true"); decide
  | .bool false => by show Printable (str "false"); decide
  | .int i => printable_decimalInt i
  | .float f => fun c hc => printable_of_isNumChar (f.isNumChar_of_mem hc)
  | .const c => printable_text c
  | .string s => printable_quoted s
  | .arr l => Printable.cons (by decide) (Json.printable_renderElems true l)
  | .obj l => Printable.cons (by decide) (Json.printable_renderItems true l)

theorem Json.printable_renderElems (first : Bool) : ∀ l : List Json,
    Printable (Json.renderElems q first l)
  | [] => by show Printable [cp ']']; decide
  | v :: l => by
    refine Printable.append (Printable.append ?_ (Json.printable_render v))
      (Json.printable_renderElems false l)
    split
    · exact fun c hc => absurd hc List.not_mem_nil
    · exact hq.item

theorem Json.printable_renderItems (first : Bool) : ∀ l : List (Str × Json),
    Printable (Json.renderItems q first l)
  | [] => by show Printable [cp '}']; decide
  | (k, v) :: l => by
    refine Printable.append (Printable.append (Printable.append (Printable.append ?_
      (printable_quoted k)) hq.key) (Json.printable_render v)) (Json.printable_renderItems false l)
    split
    · exact fun c hc => absurd hc List.not_mem_nil
    · exact hq.item
end

end

end Py
