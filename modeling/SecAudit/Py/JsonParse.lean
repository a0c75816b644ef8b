import SecAudit.Py.Json

/-!
# `json.loads`

* `scan`, `join`    the characters of a string literal, and the code points they stand for;
* `parseNumber`, `parseWord`  numbers and the fixed words;
* `parseValue`, `parseElems`, `parseItems`  values, by fuel; `loads` gives the length of the
                    text, which is enough for every text;
* `loads_render`    reading back a text `json.dumps` wrote gives the value, strings fused.
-/

set_option linter.unusedVariables false
set_option linter.unusedSectionVars false

namespace Py

/-! ## string literals -/

/-- a character of a string literal: as it is, or written `\uXXXX` -/
inductive Item where
  | lit (c : CodePoint)
  | esc (c : CodePoint)

def hexVal (c : CodePoint) : Option Nat :=
  if 48 ≤ c.val ∧ c.val ≤ 57 then some (c.val - 48)
  else if 97 ≤ c.val ∧ c.val ≤ 102 then some (c.val - 87)
  else if 65 ≤ c.val ∧ c.val ≤ 70 then some (c.val - 55)
  else none

/-- the code point four hexadecimal digits write -/
def hex4 (a b c d : CodePoint) : Option CodePoint :=
  match hexVal a, hexVal b, hexVal c, hexVal d with
  | some a, some b, some c, some d =>
    some ⟨(a % 16) * 4096 + (b % 16) * 256 + (c % 16) * 16 + d % 16, by omega⟩
  | _, _, _, _ => none

/-- the character after a backslash, `u` apart -/
def unescape (c : CodePoint) : Option CodePoint :=
  if c = cp '"' ∨ c = cp '\\' ∨ c = cp '/' then some c
  else if c = cp 'b' then some ⟨8, by decide⟩
  else if c = cp 'f' then some ⟨12, by decide⟩
  else if c = cp 'n' then some ⟨10, by decide⟩
  else if c = cp 'r' then some ⟨13, by decide⟩
  else if c = cp 't' then some ⟨9, by decide⟩
  else none

/-- `i` before what was scanned -/
def push (i : Item) (p : List Item × Str) : List Item × Str := (i :: p.1, p.2)

/-- the items of a literal up to its closing quote, and what is left -/
def scan : Str → Option (List Item × Str)
  | [] => none
  | c :: s =>
    if c = cp '"' then some ([], s)
    else if c = cp '\\' then
      match s with
      | [] => none
      | e :: s1 =>
        if e = cp 'u' then
          match s1 with
          | h1 :: h2 :: h3 :: h4 :: s2 =>
            match hex4 h1 h2 h3 h4 with
            | some u => (scan s2).map (push (.esc u))
            | none => none
          | _ => none
        else
          match unescape e with
          | some d => (scan s1).map (push (.lit d))
          | none => none
    else if c.val < 32 then none
    else (scan s).map (push (.lit c))

/-- two escapes that write a surrogate pair are one code point -/
def join : List Item → Str
  | [] => []
  | .lit c :: l => c :: join l
  | [.esc u] => [u]
  | .esc u :: .lit c :: l => u :: c :: join l
  | .esc u :: .esc v :: l =>
    if isHigh u && isLow v then pair u v :: join l else u :: join (.esc v :: l)

/-! ## atoms -/

def isWs (c : CodePoint) : Bool :=
  c == cp ' ' || c == cp '\t' || c == cp '\n' || c == cp '\r'

def skipWs (s : Str) : Str := s.dropWhile isWs

/-- the `int` a token writes -/
def ofDecimalInt (t : Str) : Int :=
  if isNegative t then -(ofDecimal (unsigned t) : Int) else ofDecimal (unsigned t)

def parseNumber (s : Str) : Option (Json × Str) :=
  let t := s.takeWhile isNumChar
  let r := s.dropWhile isNumChar
  if h : floatToken t = true then some (.float ⟨t, h⟩, r)
  else if natToken (unsigned t) ∧ (unsigned t).length ≤ maxIntDigits then
    some (.int (ofDecimalInt t), r)
  else none

def words : List (Str × Json) :=
  [(str "null", .null), (str "true", .bool true), (str "false", .bool false),
    (str "NaN", .const .nan), (str "Infinity", .const .inf), (str "-Infinity", .const .negInf)]

def parseWord (s : Str) : Option (Json × Str) :=
  (words.find? fun w => w.1.isPrefixOf s).map fun w => (w.2, s.drop w.1.length)

def parseAtom (s : Str) : Option (Json × Str) :=
  match parseWord s with
  | some p => some p
  | none => parseNumber s

/-! ## values -/

mutual
def parseValue : Nat → Str → Option (Json × Str)
  | 0, _ => none
  | n + 1, s =>
    match s with
    | [] => none
    | c :: t =>
      if c = cp '"' then (scan t).map fun p => (.string (join p.1), p.2)
      else if c = cp '[' then
        if (skipWs t).head? = some (cp ']') then some (.arr [], (skipWs t).tail)
        else (parseElems n (skipWs t)).map fun p => (.arr p.1, p.2)
      else if c = cp '{' then
        if (skipWs t).head? = some (cp '}') then some (.obj [], (skipWs t).tail)
        else (parseItems n (skipWs t)).map fun p => (.obj p.1, p.2)
      else parseAtom (c :: t)

/-- the rest of an array, from an element on -/
def parseElems : Nat → Str → Option (List Json × Str)
  | 0, _ => none
  | n + 1, s =>
    (parseValue n s).bind fun p =>
      match skipWs p.2 with
      | [] => none
      | c :: t =>
        if c = cp ']' then some ([p.1], t)
        else if c = cp ',' then (parseElems n (skipWs t)).map fun r => (p.1 :: r.1, r.2)
        else none

/-- the rest of an object, from a name on -/
def parseItems : Nat → Str → Option (List (Str × Json) × Str)
  | 0, _ => none
  | n + 1, s =>
    match s with
    | [] => none
    | q :: s1 =>
      if q = cp '"' then
        (scan s1).bind fun k =>
          match skipWs k.2 with
          | [] => none
          | d :: s2 =>
            if d = cp ':' then
              (parseValue n (skipWs s2)).bind fun p =>
                match skipWs p.2 with
                | [] => none
                | c :: t =>
                  if c = cp '}' then some ([(join k.1, p.1)], t)
                  else if c = cp ',' then
                    (parseItems n (skipWs t)).map fun r => ((join k.1, p.1) :: r.1, r.2)
                  else none
            else none
      else none
end

/-- `json.loads(s)`; `none` is its `ValueError` -/
def loads (s : Str) : Option Json :=
  match parseValue (s.length + 1) (skipWs s) with
  | some (v, r) => if skipWs r = [] then some v else none
  | none => none

/-! ## reading back a string -/

theorem hexVal_hexDigit (d : Fin 16) : hexVal (hexDigit d.val) = some d.val := by
  revert d
  decide

theorem hex4_hexDigit {n : Nat} (h : n < 0x10000) :
    hex4 (hexDigit (n / 4096 % 16)) (hexDigit (n / 256 % 16)) (hexDigit (n / 16 % 16))
      (hexDigit (n % 16)) = some ⟨n, by omega⟩ := by
  have hd : ∀ m, hexVal (hexDigit (m % 16)) = some (m % 16) :=
    fun m => hexVal_hexDigit ⟨m % 16, Nat.mod_lt _ (by decide)⟩
  unfold hex4
  rw [hd, hd, hd, hd]
  show some _ = some _
  congr 1
  apply Fin.ext
  show (n / 4096 % 16 % 16) * 4096 + (n / 256 % 16 % 16) * 256 + (n / 16 % 16 % 16) * 16 +
    n % 16 % 16 = n
  omega

theorem scan_escape16 {n : Nat} (h : n < 0x10000) (r : Str) :
    scan (escape16 n ++ r) = (scan r).map (push (.esc ⟨n, by omega⟩)) := by
  show scan (cp '\\' :: cp 'u' :: hexDigit _ :: hexDigit _ :: hexDigit _ :: hexDigit _ :: r) = _
  rw [scan, if_neg (by decide), if_pos rfl]
  show (if cp 'u' = cp 'u' then _ else _) = _
  rw [if_pos rfl, hex4_hexDigit h]

theorem scan_unescape {e d : CodePoint} (he : e ≠ cp 'u') (hd : unescape e = some d) (r : Str) :
    scan (cp '\\' :: e :: r) = (scan r).map (push (.lit d)) := by
  rw [scan.eq_def]
  show (if cp '\\' = cp '"' then _ else _) = _
  rw [if_neg (by decide), if_pos rfl]
  show (if e = cp 'u' then _ else _) = _
  rw [if_neg he, hd]

theorem scan_lit {c : CodePoint} (hq : c ≠ cp '"') (hb : c ≠ cp '\\') (hc : ¬ c.val < 32)
    (r : Str) : scan (c :: r) = (scan r).map (push (.lit c)) := by
  rw [scan.eq_def]
  show (if c = cp '"' then _ else _) = _
  rw [if_neg hq, if_neg hb, if_neg hc]

/-- what `escape c` is scanned as -/
def items (c : CodePoint) : List Item :=
  if c.val = 10 ∨ c.val = 13 ∨ c.val = 9 ∨ c.val = 12 ∨ c.val = 8 ∨ 32 ≤ c.val ∧ c.val ≤ 126 then
    [.lit c]
  else if c.val < 0x10000 then [.esc c]
  else [.esc ⟨0xD800 + (c.val - 0x10000) / 0x400, by omega⟩,
    .esc ⟨0xDC00 + (c.val - 0x10000) % 0x400, by omega⟩]

theorem map_push (i : Item) (o : Option (List Item × Str)) :
    o.map (push i) = o.map fun p => ([i] ++ p.1, p.2) := rfl

theorem scan_escape (c : CodePoint) (r : Str) :
    scan (escape c ++ r) = (scan r).map fun p => (items c ++ p.1, p.2) := by
  have named : ∀ {e : CodePoint} {k : Nat} (hk : k < 0x110000), c.val = k → e ≠ cp 'u' →
      unescape e = some ⟨k, hk⟩ → items c = [.lit c] →
      scan ([cp '\\', e] ++ r) = (scan r).map fun p => (items c ++ p.1, p.2) := by
    intro e k hk hc he hu hi
    rw [hi, show c = ⟨k, hk⟩ from Fin.ext hc, ← map_push]
    exact scan_unescape he hu r
  have short : c.val = 10 ∨ c.val = 13 ∨ c.val = 9 ∨ c.val = 12 ∨ c.val = 8 ∨
      32 ≤ c.val ∧ c.val ≤ 126 → items c = [.lit c] := fun h => if_pos h
  unfold escape
  by_cases h1 : c = cp '"'
  · subst h1
    rw [if_pos rfl]
    exact named (by decide) rfl (by decide) rfl (by rfl)
  by_cases h2 : c = cp '\\'
  · subst h2
    rw [if_neg h1, if_pos rfl]
    exact named (by decide) rfl (by decide) rfl (by rfl)
  rw [if_neg h1, if_neg h2]
  by_cases h3 : c.val = 10
  · rw [if_pos h3]
    exact named (by decide) h3 (by decide) rfl (short (by omega))
  rw [if_neg h3]
  by_cases h4 : c.val = 13
  · rw [if_pos h4]
    exact named (by decide) h4 (by decide) rfl (short (by omega))
  rw [if_neg h4]
  by_cases h5 : c.val = 9
  · rw [if_pos h5]
    exact named (by decide) h5 (by decide) rfl (short (by omega))
  rw [if_neg h5]
  by_cases h6 : c.val = 12
  · rw [if_pos h6]
    exact named (by decide) h6 (by decide) rfl (short (by omega))
  rw [if_neg h6]
  by_cases h7 : c.val = 8
  · rw [if_pos h7]
    exact named (by decide) h7 (by decide) rfl (short (by omega))
  rw [if_neg h7]
  by_cases h8 : 32 ≤ c.val ∧ c.val ≤ 126
  · rw [if_pos h8, short (by omega)]
    exact scan_lit h1 h2 (by omega) r
  rw [if_neg h8]
  have hlong : ¬ (c.val = 10 ∨ c.val = 13 ∨ c.val = 9 ∨ c.val = 12 ∨ c.val = 8 ∨
      32 ≤ c.val ∧ c.val ≤ 126) := by omega
  unfold items
  rw [if_neg hlong]
  by_cases h9 : c.val < 0x10000
  · rw [if_pos h9, if_pos h9]
    exact scan_escape16 h9 r
  · rw [if_neg h9, if_neg h9, List.append_assoc, scan_escape16 (by omega),
      scan_escape16 (by omega), Option.map_map]
    rfl

theorem scan_quoted (s r : Str) :
    scan (s.flatMap escape ++ cp '"' :: r) = some (s.flatMap items, r) := by
  induction s with
  | nil =>
    rw [List.flatMap_nil, List.nil_append, scan.eq_def]
    show (if cp '"' = cp '"' then _ else _) = _
    rw [if_pos rfl]
    rfl
  | cons c s ih =>
    rw [List.flatMap_cons, List.append_assoc, scan_escape, ih]
    rfl

theorem join_esc_of_not_high {c : CodePoint} (h : isHigh c = false) (l : List Item) :
    join (.esc c :: l) = c :: join l := by
  cases l with
  | nil => rfl
  | cons i l =>
    cases i with
    | lit d => rfl
    | esc d => rw [join, h, Bool.false_and, if_neg Bool.false_ne_true]

/-- an item that does not go on with a low surrogate leaves the one before it alone -/
theorem join_esc_of_not_low {c d : CodePoint} (h : isLow d = false) (l : List Item) :
    join (.esc c :: (items d ++ l)) = c :: join (items d ++ l) := by
  unfold items
  split
  · rfl
  split
  · show join (.esc c :: .esc d :: l) = _
    rw [join, h, Bool.and_false, if_neg Bool.false_ne_true]
    rfl
  · rename_i h1 h2
    have hd : isLow ⟨0xD800 + (d.val - 0x10000) / 0x400, by omega⟩ = false := by
      unfold isLow
      simp only [Bool.and_eq_false_iff, decide_eq_false_iff_not]
      omega
    show join (.esc c :: .esc _ :: _) = _
    rw [join, hd, Bool.and_false, if_neg Bool.false_ne_true]
    rfl

theorem surrogate_items {c : CodePoint} (h : isHigh c = true ∨ isLow c = true) :
    items c = [.esc c] := by
  unfold isHigh isLow at h
  simp only [Bool.and_eq_true, decide_eq_true_eq] at h
  unfold items
  rw [if_neg (by omega), if_pos (by omega)]

theorem pair_split {c : CodePoint} (h : ¬ c.val < 0x10000) :
    pair ⟨0xD800 + (c.val - 0x10000) / 0x400, by omega⟩
      ⟨0xDC00 + (c.val - 0x10000) % 0x400, by omega⟩ = c := by
  apply Fin.ext
  show 0x10000 + ((0xD800 + (c.val - 0x10000) / 0x400 - 0xD800) % 0x400 * 0x400 +
    (0xDC00 + (c.val - 0x10000) % 0x400 - 0xDC00) % 0x400) = c.val
  have := c.isLt
  omega

/-- a character that is no surrogate stands for itself -/
theorem join_items_cons {c : CodePoint} (h : isHigh c = false) (l : List Item) :
    join (items c ++ l) = c :: join l := by
  unfold items
  split
  · rfl
  split
  · exact join_esc_of_not_high h l
  · rename_i h1 h2
    show join (.esc _ :: .esc _ :: l) = _
    have hh : isHigh ⟨0xD800 + (c.val - 0x10000) / 0x400, by omega⟩ = true := by
      unfold isHigh
      simp only [Bool.and_eq_true, decide_eq_true_eq]
      omega
    have hl : isLow ⟨0xDC00 + (c.val - 0x10000) % 0x400, by omega⟩ = true := by
      unfold isLow
      simp only [Bool.and_eq_true, decide_eq_true_eq]
      omega
    rw [join, hh, hl, Bool.and_true, if_pos rfl, pair_split h2]

theorem join_items (s : Str) : join (s.flatMap items) = fuse s := by
  induction s using fuse.induct with
  | case1 => rfl
  | case2 c =>
    rw [List.flatMap_cons, List.flatMap_nil, List.append_nil]
    by_cases h : isHigh c = true
    · rw [surrogate_items (.inl h)]
      rfl
    · have := join_items_cons (Bool.eq_false_iff.mpr h) []
      rwa [List.append_nil] at this
  | case3 h l s hp ih =>
    rw [Bool.and_eq_true] at hp
    rw [List.flatMap_cons, List.flatMap_cons, surrogate_items (.inl hp.1),
      surrogate_items (.inr hp.2)]
    show join (.esc h :: .esc l :: s.flatMap items) = _
    rw [join, fuse, hp.1, hp.2, Bool.and_true, if_pos rfl, if_pos rfl, ih]
  | case4 h l s hp ih =>
    rw [fuse, if_neg hp, ← ih]
    rw [List.flatMap_cons]
    by_cases hh : isHigh h = true
    · have hl : isLow l = false := by
        cases hl : isLow l with
        | false => rfl
        | true => exact absurd (by rw [hh, hl]; rfl) hp
      rw [surrogate_items (.inl hh), List.flatMap_cons]
      exact join_esc_of_not_low hl _
    · exact join_items_cons (Bool.eq_false_iff.mpr hh) _

/-! ## reading back a number -/

/-- the text goes on with no character of a number -/
def NumEnd (r : Str) : Prop := ∀ c t, r = c :: t → isNumChar c = false

theorem numEnd_nil : NumEnd [] := fun _ _ h => by cases h

theorem numEnd_cons {c : CodePoint} {r : Str} (h : isNumChar c = false) : NumEnd (c :: r) := by
  intro d t e
  cases e
  exact h

theorem takeWhile_token {p : CodePoint → Bool} {t r : Str} (ht : ∀ c ∈ t, p c = true)
    (hr : ∀ c u, r = c :: u → p c = false) : (t ++ r).takeWhile p = t := by
  rw [List.takeWhile_append_of_pos ht]
  cases r with
  | nil => rw [List.takeWhile_nil, List.append_nil]
  | cons c u => rw [List.takeWhile_cons, hr c u rfl, if_neg Bool.false_ne_true, List.append_nil]

theorem dropWhile_token {p : CodePoint → Bool} {t r : Str} (ht : ∀ c ∈ t, p c = true)
    (hr : ∀ c u, r = c :: u → p c = false) : (t ++ r).dropWhile p = r := by
  rw [List.dropWhile_append_of_pos ht]
  cases r with
  | nil => rfl
  | cons c u => rw [List.dropWhile_cons, hr c u rfl, if_neg Bool.false_ne_true]

theorem isNumChar_of_isDigit {c : CodePoint} (h : isDigit c = true) : isNumChar c = true := by
  unfold isNumChar
  rw [h]
  rfl

/-- a numeral of a positive number does not start with `0` -/
theorem toDigits_head {n : Nat} (h : 0 < n) : (Nat.toDigits 10 n).head? ≠ some '0' := by
  induction n using Nat.strongRecOn with
  | ind n ih =>
    rw [Nat.toDigits_eq_if (by decide)]
    by_cases h10 : n < 10
    · rw [if_pos h10]
      intro hd
      have hd' : n.digitChar = '0' := Option.some.inj hd
      have : ∀ m : Fin 10, 0 < m.val → Nat.digitChar m.val ≠ '0' := by decide
      exact this ⟨n, h10⟩ h hd'
    · rw [if_neg h10, List.head?_append]
      have hne : Nat.toDigits 10 (n / 10) ≠ [] := Nat.toDigits_ne_nil
      have := ih (n / 10) (by omega) (by omega)
      cases hd : (Nat.toDigits 10 (n / 10)).head? with
      | none => exact absurd (List.head?_eq_none_iff.mp hd) hne
      | some c =>
        rw [hd] at this
        exact this

theorem ofChar_injective {a b : Char} (h : CodePoint.ofChar a = CodePoint.ofChar b) : a = b := by
  have := congrArg Fin.val h
  rw [CodePoint.ofChar_val, CodePoint.ofChar_val] at this
  exact Char.toNat_inj.mp this

theorem natToken_decimal (n : Nat) : natToken (decimal n) = true := by
  unfold natToken
  have hall : (decimal n).all isDigit = true :=
    List.all_eq_true.mpr fun c hc => isDigit_of_mem_decimal hc
  have hne : (decimal n).isEmpty = false := by
    rw [List.isEmpty_eq_false_iff]
    exact decimal_ne_nil n
  rw [hall, hne]
  show ((decimal n).length == 1 || (decimal n).head? != some (cp '0')) = true
  rw [Bool.or_eq_true]
  by_cases h0 : n = 0
  · subst h0
    exact .inl rfl
  · right
    rw [bne_iff_ne]
    intro hd
    unfold decimal at hd
    rw [List.head?_map] at hd
    obtain ⟨c, hc, hcp⟩ := Option.map_eq_some_iff.mp hd
    rw [ofChar_injective hcp] at hc
    exact toDigits_head (by omega) hc

theorem not_digit_minus : isDigit (cp '-') = false := by decide

theorem isNegative_decimal (n : Nat) : isNegative (decimal n) = false := by
  unfold isNegative
  cases hd : decimal n with
  | nil => rfl
  | cons c t =>
    have hc : isDigit c = true := isDigit_of_mem_decimal (n := n) (by rw [hd]; exact .head _)
    show (some c == some (cp '-')) = false
    rw [beq_eq_false_iff_ne]
    intro e
    rw [Option.some.inj e, not_digit_minus] at hc
    cases hc

theorem unsigned_decimalInt (i : Int) : unsigned (decimalInt i) = decimal i.natAbs := by
  unfold unsigned decimalInt
  by_cases h : i < 0
  · rw [if_pos h]
    rfl
  · rw [if_neg h, isNegative_decimal]
    rfl

theorem ofDecimalInt_decimalInt (i : Int) : ofDecimalInt (decimalInt i) = i := by
  unfold ofDecimalInt
  rw [unsigned_decimalInt, ofDecimal_decimal]
  unfold decimalInt
  by_cases h : i < 0
  · rw [if_pos h]
    show -(i.natAbs : Int) = i
    omega
  · rw [if_neg h, isNegative_decimal, if_neg Bool.false_ne_true]
    omega

theorem isNumChar_of_mem_decimalInt {i : Int} {c : CodePoint} (h : c ∈ decimalInt i) :
    isNumChar c = true := by
  unfold decimalInt at h
  split at h
  · rcases List.mem_cons.mp h with rfl | h
    · decide
    · exact isNumChar_of_isDigit (isDigit_of_mem_decimal h)
  · exact isNumChar_of_isDigit (isDigit_of_mem_decimal h)

/-- an integer numeral has nothing after its digits -/
theorem floatToken_decimalInt (i : Int) : floatToken (decimalInt i) = false := by
  unfold floatToken
  rw [unsigned_decimalInt]
  have h := dropWhile_token (p := isDigit) (t := decimal i.natAbs) (r := [])
    (fun c hc => isDigit_of_mem_decimal hc) (fun c u e => by cases e)
  rw [List.append_nil] at h
  rw [h]
  exact Bool.and_false _

theorem parseNumber_decimalInt {i : Int} {r : Str} (hr : NumEnd r)
    (hw : (decimal i.natAbs).length ≤ maxIntDigits) :
    parseNumber (decimalInt i ++ r) = some (.int i, r) := by
  unfold parseNumber
  simp only [takeWhile_token (fun c hc => isNumChar_of_mem_decimalInt hc) hr,
    dropWhile_token (fun c hc => isNumChar_of_mem_decimalInt hc) hr]
  rw [dif_neg (by rw [floatToken_decimalInt]; exact Bool.false_ne_true), unsigned_decimalInt,
    if_pos ⟨natToken_decimal _, hw⟩, ofDecimalInt_decimalInt]

theorem parseNumber_float {f : FloatLit} {r : Str} (hr : NumEnd r) :
    parseNumber (f.text ++ r) = some (.float f, r) := by
  unfold parseNumber
  simp only [takeWhile_token (fun c hc => f.isNumChar_of_mem hc) hr,
    dropWhile_token (fun c hc => f.isNumChar_of_mem hc) hr]
  rw [dif_pos f.token]

/-! ## atoms -/

/-- a digit, with or without a sign before it, starts the text -/
def NumStart (s : Str) : Prop :=
  (∃ c t, s = c :: t ∧ isDigit c = true) ∨ ∃ c t, s = cp '-' :: c :: t ∧ isDigit c = true

theorem NumStart.append {s : Str} (h : NumStart s) (r : Str) : NumStart (s ++ r) := by
  rcases h with ⟨c, t, rfl, hc⟩ | ⟨c, t, rfl, hc⟩
  · exact .inl ⟨c, t ++ r, rfl, hc⟩
  · exact .inr ⟨c, t ++ r, rfl, hc⟩

theorem numStart_of_unsigned {s : Str} {c : CodePoint} {t : Str} (h : unsigned s = c :: t)
    (hc : isDigit c = true) : NumStart s := by
  unfold unsigned isNegative at h
  split at h
  · rename_i hs
    cases s with
    | nil => cases h
    | cons d u =>
      rw [beq_iff_eq] at hs
      obtain rfl : d = cp '-' := Option.some.inj hs
      obtain rfl : u = c :: t := h
      exact .inr ⟨c, t, rfl, hc⟩
  · exact .inl ⟨c, t, h, hc⟩

theorem numStart_decimalInt (i : Int) : NumStart (decimalInt i) := by
  cases hd : decimal i.natAbs with
  | nil => exact absurd hd (decimal_ne_nil _)
  | cons c t =>
    refine numStart_of_unsigned (c := c) (t := t) (by rw [unsigned_decimalInt, hd]) ?_
    exact isDigit_of_mem_decimal (n := i.natAbs) (by rw [hd]; exact .head _)

theorem numStart_float (f : FloatLit) : NumStart f.text := by
  have h := f.token
  unfold floatToken at h
  rw [Bool.and_eq_true, Bool.and_eq_true] at h
  have hn := h.1.2
  cases hu : unsigned f.text with
  | nil =>
    rw [hu] at hn
    exact absurd hn (by decide)
  | cons c t =>
    refine numStart_of_unsigned hu ?_
    by_cases hc : isDigit c = true
    · exact hc
    · rw [hu, List.takeWhile_cons, if_neg hc] at hn
      exact absurd hn (by decide)

/-- the text starts with no number -/
def notNumber : Str → Bool
  | [] => false
  | [c] => !isDigit c && c != cp '-'
  | c :: d :: _ => !isDigit c && (c != cp '-' || !isDigit d)

theorem words_notNumber : ∀ w ∈ words, notNumber w.1 = true :=
  List.all_eq_true.mp (by decide : words.all (fun w => notNumber w.1) = true)

theorem not_prefix_number {w s : Str} (hw : notNumber w = true) (h : NumStart s) :
    w.isPrefixOf s = false := by
  rw [Bool.eq_false_iff]
  intro hp
  obtain ⟨r, rfl⟩ := List.isPrefixOf_iff_prefix.mp hp
  cases w with
  | nil => cases hw
  | cons c u =>
    cases u with
    | nil =>
      rw [notNumber, Bool.and_eq_true, Bool.not_eq_true', bne_iff_ne] at hw
      rcases h with ⟨c', t, e, hc⟩ | ⟨c', t, e, hc⟩
      · cases e
        rw [hw.1] at hc
        cases hc
      · cases e
        exact hw.2 rfl
    | cons d v =>
      rw [notNumber, Bool.and_eq_true, Bool.not_eq_true', Bool.or_eq_true, bne_iff_ne,
        Bool.not_eq_true'] at hw
      rcases h with ⟨c', t, e, hc⟩ | ⟨c', t, e, hc⟩
      · cases e
        rw [hw.1] at hc
        cases hc
      · cases e
        rcases hw.2 with hne | hd
        · exact hne rfl
        · rw [hd] at hc
          cases hc

theorem parseWord_number {s : Str} (h : NumStart s) : parseWord s = none := by
  unfold parseWord
  rw [Option.map_eq_none_iff, List.find?_eq_none]
  intro w hw
  rw [Bool.not_eq_true]
  exact not_prefix_number (words_notNumber w hw) h

theorem parseAtom_number {s : Str} (h : NumStart s) : parseAtom s = parseNumber s := by
  unfold parseAtom
  rw [parseWord_number h]

theorem parseAtom_null (r : Str) : parseAtom (str "null" ++ r) = some (.null, r) := rfl

theorem parseAtom_bool (q : Separators) (b : Bool) (r : Str) :
    parseAtom ((Json.bool b).render q ++ r) = some (.bool b, r) := by
  cases b <;> rfl

theorem parseAtom_const (c : NonFinite) (r : Str) :
    parseAtom (c.text ++ r) = some (.const c, r) := by
  cases c <;> rfl

/-! ## reading back a value -/

/-- blanks around a comma, a colon -/
structure Separators.Valid (q : Separators) : Prop where
  item : ∃ w, q.item = cp ',' :: w ∧ ∀ c ∈ w, isWs c = true
  key : ∃ w, q.key = cp ':' :: w ∧ ∀ c ∈ w, isWs c = true

theorem valid_default : Separators.default.Valid :=
  ⟨⟨str " ", rfl, by simp [str, isWs]⟩, ⟨str " ", rfl, by simp [str, isWs]⟩⟩

theorem valid_compact : Separators.compact.Valid :=
  ⟨⟨[], rfl, by simp⟩, ⟨[], rfl, by simp⟩⟩

theorem skipWs_cons {c : CodePoint} (h : isWs c = false) (s : Str) : skipWs (c :: s) = c :: s := by
  unfold skipWs
  rw [List.dropWhile_cons, h, if_neg Bool.false_ne_true]

/-- no blank in front -/
def NoWs (s : Str) : Prop := skipWs s = s

theorem skipWs_blanks {w s : Str} (hw : ∀ c ∈ w, isWs c = true) (hs : NoWs s) :
    skipWs (w ++ s) = s := by
  unfold skipWs
  rw [List.dropWhile_append_of_pos hw]
  exact hs

/-- the text of a value starts neither with a blank nor with a closing bracket -/
def ValueStart (s : Str) : Prop := ∃ c t, s = c :: t ∧ isWs c = false ∧ c ≠ cp ']'

theorem ValueStart.of_number {s : Str} (h : NumStart s) : ValueStart s := by
  have hd : ∀ {c : CodePoint}, isDigit c = true → isWs c = false ∧ c ≠ cp ']' := by
    intro c hc
    refine ⟨?_, fun e => by rw [e] at hc; exact absurd hc (by decide)⟩
    unfold isDigit at hc
    rw [Bool.and_eq_true, decide_eq_true_eq, decide_eq_true_eq] at hc
    have hval : ∀ x : Char, x.toNat < 48 → (c == cp x) = false := by
      intro x hx
      rw [beq_eq_false_iff_ne]
      intro e
      rw [e, CodePoint.ofChar_val] at hc
      omega
    unfold isWs
    rw [hval ' ' (by decide), hval '\t' (by decide), hval '\n' (by decide),
      hval '\r' (by decide)]
    rfl
  rcases h with ⟨c, t, rfl, hc⟩ | ⟨c, t, rfl, hc⟩
  · exact ⟨c, t, rfl, (hd hc).1, (hd hc).2⟩
  · exact ⟨cp '-', c :: t, rfl, by decide, by decide⟩

theorem valueStart_render (q : Separators) (v : Json) : ValueStart (v.render q) := by
  cases v with
  | null => exact ⟨cp 'n', str "ull", rfl, by decide, by decide⟩
  | bool b =>
    cases b with
    | true => exact ⟨cp 't', str "rue", rfl, by decide, by decide⟩
    | false => exact ⟨cp 'f', str "alse", rfl, by decide, by decide⟩
  | int i => exact .of_number (numStart_decimalInt i)
  | float f => exact .of_number (numStart_float f)
  | const c =>
    cases c with
    | nan => exact ⟨cp 'N', str "aN", rfl, by decide, by decide⟩
    | inf => exact ⟨cp 'I', str "nfinity", rfl, by decide, by decide⟩
    | negInf => exact ⟨cp '-', str "Infinity", rfl, by decide, by decide⟩
  | string s => exact ⟨cp '"', _, rfl, by decide, by decide⟩
  | arr l => exact ⟨cp '[', _, rfl, by decide, by decide⟩
  | obj l => exact ⟨cp '{', _, rfl, by decide, by decide⟩

theorem ValueStart.noWs {s : Str} (h : ValueStart s) (r : Str) : NoWs (s ++ r) := by
  obtain ⟨c, t, rfl, hc, -⟩ := h
  exact skipWs_cons hc _

theorem ValueStart.not_close {s : Str} (h : ValueStart s) (r : Str) :
    (s ++ r).head? ≠ some (cp ']') := by
  obtain ⟨c, t, rfl, -, hc⟩ := h
  exact fun e => hc (Option.some.inj e)

theorem ValueStart.ne_nil {s : Str} (h : ValueStart s) : s ≠ [] := by
  obtain ⟨c, t, rfl, -, -⟩ := h
  exact List.cons_ne_nil _ _

section
variable {q : Separators} (hq : q.Valid)

theorem renderElems_false (v : Json) (l : List Json) :
    Json.renderElems q false (v :: l) = q.item ++ Json.renderElems q true (v :: l) := by
  show q.item ++ v.render q ++ Json.renderElems q false l = q.item ++ ([] ++ v.render q ++ _)
  rw [List.append_assoc, List.nil_append]

theorem renderItems_false (p : Str × Json) (l : List (Str × Json)) :
    Json.renderItems q false (p :: l) = q.item ++ Json.renderItems q true (p :: l) := by
  obtain ⟨k, v⟩ := p
  show q.item ++ quoted k ++ q.key ++ v.render q ++ Json.renderItems q false l
    = q.item ++ ([] ++ quoted k ++ q.key ++ v.render q ++ _)
  simp only [List.append_assoc, List.nil_append]

theorem parseValue_string (n : Nat) (s r : Str) :
    parseValue (n + 1) (quoted s ++ r) = some (.string (fuse s), r) := by
  show parseValue (n + 1) (cp '"' :: (s.flatMap escape ++ [cp '"'] ++ r)) = _
  rw [parseValue, if_pos rfl, List.append_assoc]
  show (scan (s.flatMap escape ++ cp '"' :: r)).map _ = _
  rw [scan_quoted, Option.map_some, join_items]

/-- an atom is read as such -/
theorem parseValue_atom {n : Nat} {s : Str} {o : Option (Json × Str)} (hs : parseAtom s = o)
    (h : ∃ c t, s = c :: t ∧ c ≠ cp '"' ∧ c ≠ cp '[' ∧ c ≠ cp '{') :
    parseValue (n + 1) s = o := by
  obtain ⟨c, t, rfl, h1, h2, h3⟩ := h
  rw [parseValue, if_neg h1, if_neg h2, if_neg h3, hs]

theorem numStart_opens {s : Str} (h : NumStart s) :
    ∃ c t, s = c :: t ∧ c ≠ cp '"' ∧ c ≠ cp '[' ∧ c ≠ cp '{' := by
  rcases h with ⟨c, t, rfl, hc⟩ | ⟨c, t, rfl, hc⟩
  · refine ⟨c, t, rfl, ?_, ?_, ?_⟩ <;>
    · intro e
      rw [e] at hc
      exact absurd hc (by decide)
  · exact ⟨cp '-', _, rfl, by decide, by decide, by decide⟩

theorem parseElems_last {n : Nat} {s : Str} {v : Json} {r : Str}
    (h : parseValue n s = some (v, cp ']' :: r)) : parseElems (n + 1) s = some ([v], r) := by
  rw [parseElems, h, Option.bind_some]
  simp only [skipWs_cons (show isWs (cp ']') = false by decide)]
  rw [if_pos trivial]

theorem parseElems_more {n : Nat} {s w t r : Str} {v : Json} {l : List Json}
    (h : parseValue n s = some (v, cp ',' :: (w ++ t))) (hw : ∀ c ∈ w, isWs c = true)
    (ht : NoWs t) (hl : parseElems n t = some (l, r)) :
    parseElems (n + 1) s = some (v :: l, r) := by
  rw [parseElems, h, Option.bind_some]
  simp only [skipWs_cons (show isWs (cp ',') = false by decide)]
  rw [if_neg (by decide), if_pos trivial, skipWs_blanks hw ht, hl]
  rfl

theorem parseItems_last {n : Nat} {k s w r : Str} {v : Json} (hw : ∀ c ∈ w, isWs c = true)
    (hs : NoWs s) (h : parseValue n s = some (v, cp '}' :: r)) :
    parseItems (n + 1) (quoted k ++ (cp ':' :: (w ++ s))) = some ([(fuse k, v)], r) := by
  show parseItems (n + 1) (cp '"' :: (k.flatMap escape ++ [cp '"'] ++ (cp ':' :: (w ++ s)))) = _
  rw [parseItems, if_pos rfl, List.append_assoc, List.singleton_append, scan_quoted,
    Option.bind_some]
  simp only [skipWs_cons (show isWs (cp ':') = false by decide)]
  rw [if_pos trivial, skipWs_blanks hw hs, h, Option.bind_some, join_items]
  simp only [skipWs_cons (show isWs (cp '}') = false by decide)]
  rw [if_pos trivial]

theorem parseItems_more {n : Nat} {k s w w' t r : Str} {v : Json} {l : List (Str × Json)}
    (hw : ∀ c ∈ w, isWs c = true) (hs : NoWs s)
    (h : parseValue n s = some (v, cp ',' :: (w' ++ t))) (hw' : ∀ c ∈ w', isWs c = true)
    (ht : NoWs t) (hl : parseItems n t = some (l, r)) :
    parseItems (n + 1) (quoted k ++ (cp ':' :: (w ++ s))) = some ((fuse k, v) :: l, r) := by
  show parseItems (n + 1) (cp '"' :: (k.flatMap escape ++ [cp '"'] ++ (cp ':' :: (w ++ s)))) = _
  rw [parseItems, if_pos rfl, List.append_assoc, List.singleton_append, scan_quoted,
    Option.bind_some]
  simp only [skipWs_cons (show isWs (cp ':') = false by decide)]
  rw [if_pos trivial, skipWs_blanks hw hs, h, Option.bind_some, join_items]
  simp only [skipWs_cons (show isWs (cp ',') = false by decide)]
  rw [if_neg (by decide), if_pos trivial, skipWs_blanks hw' ht, hl]
  rfl

/-- an array, its elements given -/
theorem parseValue_arr {n : Nat} {v : Json} {l : List Json} {l' : List Json} {r : Str}
    (h : parseElems n (Json.renderElems q true (v :: l) ++ r) = some (l', r)) :
    parseValue (n + 1) ((Json.arr (v :: l)).render q ++ r) = some (.arr l', r) := by
  have hs := valueStart_render q v
  have e : Json.renderElems q true (v :: l) ++ r
      = v.render q ++ (Json.renderElems q false l ++ r) := by
    show ([] ++ v.render q ++ _) ++ r = _
    rw [List.nil_append, List.append_assoc]
  show parseValue (n + 1) (cp '[' :: (Json.renderElems q true (v :: l) ++ r)) = _
  rw [e] at h ⊢
  rw [parseValue, if_neg (by decide), if_pos rfl, hs.noWs, if_neg (hs.not_close _), h]
  rfl

theorem parseValue_obj {n : Nat} {p : Str × Json} {l l' : List (Str × Json)} {r : Str}
    (h : parseItems n (Json.renderItems q true (p :: l) ++ r) = some (l', r)) :
    parseValue (n + 1) ((Json.obj (p :: l)).render q ++ r) = some (.obj l', r) := by
  obtain ⟨k, v⟩ := p
  have hs : NoWs (Json.renderItems q true ((k, v) :: l) ++ r) := skipWs_cons (by decide) _
  have hc : (Json.renderItems q true ((k, v) :: l) ++ r).head? ≠ some (cp '}') := by
    intro e
    exact absurd (Option.some.inj e) (by decide : cp '"' ≠ cp '}')
  show parseValue (n + 1) (cp '{' :: (Json.renderItems q true ((k, v) :: l) ++ r)) = _
  rw [parseValue, if_neg (by decide), if_neg (by decide), if_pos rfl, hs, if_neg hc, h]
  rfl

theorem noWs_elems (v : Json) (l : List Json) (r : Str) :
    NoWs (Json.renderElems q true (v :: l) ++ r) := by
  show NoWs (([] ++ v.render q ++ _) ++ r)
  rw [List.nil_append, List.append_assoc]
  exact (valueStart_render q v).noWs _

theorem length_pos_render (v : Json) : 0 < (v.render q).length :=
  List.length_pos_iff.mpr (valueStart_render q v).ne_nil

include hq

theorem numEnd_elems {l : List Json} (r : Str) : NumEnd (Json.renderElems q false l ++ r) := by
  cases l with
  | nil => exact numEnd_cons (by decide)
  | cons v l =>
    obtain ⟨w, hw, -⟩ := hq.item
    rw [renderElems_false, hw]
    exact numEnd_cons (by decide)

theorem numEnd_items {l : List (Str × Json)} (r : Str) :
    NumEnd (Json.renderItems q false l ++ r) := by
  cases l with
  | nil => exact numEnd_cons (by decide)
  | cons v l =>
    obtain ⟨w, hw, -⟩ := hq.item
    rw [renderItems_false, hw]
    exact numEnd_cons (by decide)

/-- what follows an element: the end of the array, or a comma and the next element -/
theorem parseElems_cons {n : Nat} {v v' : Json} {l l' : List Json} {r : Str}
    (hv : parseValue n (v.render q ++ (Json.renderElems q false l ++ r))
      = some (v', Json.renderElems q false l ++ r))
    (hl : l ≠ [] → parseElems n (Json.renderElems q true l ++ r) = some (l', r))
    (hnil : l = [] → l' = []) :
    parseElems (n + 1) (Json.renderElems q true (v :: l) ++ r) = some (v' :: l', r) := by
  have e : Json.renderElems q true (v :: l) ++ r
      = v.render q ++ (Json.renderElems q false l ++ r) := by
    show ([] ++ v.render q ++ _) ++ r = _
    rw [List.nil_append, List.append_assoc]
  rw [e]
  cases l with
  | nil =>
    rw [hnil rfl]
    exact parseElems_last hv
  | cons u l =>
    obtain ⟨w, hw, hb⟩ := hq.item
    have e' : Json.renderElems q false (u :: l) ++ r
        = cp ',' :: (w ++ (Json.renderElems q true (u :: l) ++ r)) := by
      rw [renderElems_false, hw, List.append_assoc]
      rfl
    rw [e'] at hv ⊢
    exact parseElems_more hv hb (noWs_elems u l r) (hl (List.cons_ne_nil _ _))

theorem parseItems_cons {n : Nat} {k : Str} {v v' : Json} {l l' : List (Str × Json)} {r : Str}
    (hv : parseValue n (v.render q ++ (Json.renderItems q false l ++ r))
      = some (v', Json.renderItems q false l ++ r))
    (hl : l ≠ [] → parseItems n (Json.renderItems q true l ++ r) = some (l', r))
    (hnil : l = [] → l' = []) :
    parseItems (n + 1) (Json.renderItems q true ((k, v) :: l) ++ r)
      = some ((fuse k, v') :: l', r) := by
  obtain ⟨wk, hwk, hbk⟩ := hq.key
  have e : Json.renderItems q true ((k, v) :: l) ++ r
      = quoted k ++ (cp ':' :: (wk ++ (v.render q ++ (Json.renderItems q false l ++ r)))) := by
    show ([] ++ quoted k ++ q.key ++ v.render q ++ _) ++ r = _
    rw [hwk]
    simp only [List.append_assoc, List.nil_append, List.cons_append]
  rw [e]
  cases l with
  | nil =>
    rw [hnil rfl]
    exact parseItems_last hbk ((valueStart_render q v).noWs _) hv
  | cons p l =>
    obtain ⟨w, hw, hb⟩ := hq.item
    have e' : Json.renderItems q false (p :: l) ++ r
        = cp ',' :: (w ++ (Json.renderItems q true (p :: l) ++ r)) := by
      rw [renderItems_false, hw, List.append_assoc]
      rfl
    have hs : NoWs (Json.renderItems q true (p :: l) ++ r) := skipWs_cons (by decide) _
    rw [e'] at hv ⊢
    exact parseItems_more hbk ((valueStart_render q v).noWs _) hv hb hs
      (hl (List.cons_ne_nil _ _))

mutual
theorem parseValue_render : ∀ (v : Json) (n : Nat) (r : Str), v.writable false = true →
    (v.render q).length ≤ n → NumEnd r → parseValue n (v.render q ++ r) = some (v.fuse, r)
  | v, 0, r, _, hn, _ => absurd (length_pos_render (q := q) v) (by omega)
  | .null, n + 1, r, _, _, _ =>
    parseValue_atom (parseAtom_null r) ⟨cp 'n', _, rfl, by decide, by decide, by decide⟩
  | .bool true, n + 1, r, _, _, _ =>
    parseValue_atom (parseAtom_bool q true r) ⟨cp 't', _, rfl, by decide, by decide, by decide⟩
  | .bool false, n + 1, r, _, _, _ =>
    parseValue_atom (parseAtom_bool q false r) ⟨cp 'f', _, rfl, by decide, by decide, by decide⟩
  | .int i, n + 1, r, hw, _, hr => by
    have hs := (numStart_decimalInt i).append r
    refine parseValue_atom ((parseAtom_number hs).trans ?_) (numStart_opens hs)
    exact parseNumber_decimalInt hr (by simpa [Json.writable] using hw)
  | .float f, n + 1, r, _, _, hr => by
    have hs := (numStart_float f).append r
    exact parseValue_atom ((parseAtom_number hs).trans (parseNumber_float hr)) (numStart_opens hs)
  | .const c, n + 1, r, _, _, _ => by
    refine parseValue_atom (parseAtom_const c r) ?_
    cases c with
    | nan => exact ⟨cp 'N', _, rfl, by decide, by decide, by decide⟩
    | inf => exact ⟨cp 'I', _, rfl, by decide, by decide, by decide⟩
    | negInf => exact ⟨cp '-', _, rfl, by decide, by decide, by decide⟩
  | .string s, n + 1, r, _, _, _ => parseValue_string n s r
  | .arr [], n + 1, r, _, _, _ => by
    show parseValue (n + 1) (cp '[' :: cp ']' :: r) = _
    rw [parseValue, if_neg (by decide), if_pos rfl, skipWs_cons (by decide)]
    exact if_pos rfl
  | .arr (v :: l), n + 1, r, hw, hn, _ => by
    refine parseValue_arr (parseElems_render (v :: l) n r hw ?_ (List.cons_ne_nil _ _))
    have : ((Json.arr (v :: l)).render q).length
      = (Json.renderElems q true (v :: l)).length + 1 := rfl
    omega
  | .obj [], n + 1, r, _, _, _ => by
    show parseValue (n + 1) (cp '{' :: cp '}' :: r) = _
    rw [parseValue, if_neg (by decide), if_neg (by decide), if_pos rfl, skipWs_cons (by decide)]
    exact if_pos rfl
  | .obj (p :: l), n + 1, r, hw, hn, _ => by
    refine parseValue_obj (parseItems_render (p :: l) n r hw ?_ (List.cons_ne_nil _ _))
    have : ((Json.obj (p :: l)).render q).length
      = (Json.renderItems q true (p :: l)).length + 1 := rfl
    omega

theorem parseElems_render : ∀ (l : List Json) (n : Nat) (r : Str),
    Json.writableElems false l = true → (Json.renderElems q true l).length ≤ n → l ≠ [] →
      parseElems n (Json.renderElems q true l ++ r) = some (Json.fuseElems l, r)
  | [], _, _, _, _, h => absurd rfl h
  | v :: l, 0, _, _, hn, _ => by
    have := length_pos_render (q := q) v
    simp only [Json.renderElems, List.length_append] at hn
    omega
  | v :: l, n + 1, r, hw, hn, _ => by
    rw [Json.writableElems, Bool.and_eq_true] at hw
    have hlen : (v.render q).length + (Json.renderElems q false l).length ≤ n + 1 := by
      simpa [Json.renderElems] using hn
    have htail : 0 < (Json.renderElems q false l).length := by
      cases l with
      | nil => exact Nat.one_pos
      | cons u l =>
        obtain ⟨w, hi, -⟩ := hq.item
        rw [renderElems_false, hi]
        exact Nat.succ_pos _
    refine parseElems_cons hq (parseValue_render v n _ hw.1 (by omega) (numEnd_elems hq r)) ?_ ?_
    · intro hne
      refine parseElems_render l n r hw.2 ?_ hne
      have hv := length_pos_render (q := q) v
      cases l with
      | nil => exact absurd rfl hne
      | cons u l =>
        rw [renderElems_false, List.length_append] at hlen
        omega
    · intro e
      rw [e]
      rfl

theorem parseItems_render : ∀ (l : List (Str × Json)) (n : Nat) (r : Str),
    Json.writableItems false l = true → (Json.renderItems q true l).length ≤ n → l ≠ [] →
      parseItems n (Json.renderItems q true l ++ r) = some (Json.fuseItems l, r)
  | [], _, _, _, _, h => absurd rfl h
  | (k, v) :: l, 0, _, _, hn, _ => by
    have := length_pos_render (q := q) v
    simp only [Json.renderItems, List.length_append] at hn
    omega
  | (k, v) :: l, n + 1, r, hw, hn, _ => by
    rw [Json.writableItems, Bool.and_eq_true] at hw
    have hlen : (quoted k).length + (q.key.length + ((v.render q).length +
        (Json.renderItems q false l).length)) ≤ n + 1 := by
      simpa [Json.renderItems] using hn
    have htail : 0 < (Json.renderItems q false l).length := by
      cases l with
      | nil => exact Nat.one_pos
      | cons u l =>
        obtain ⟨w, hi, -⟩ := hq.item
        rw [renderItems_false, hi]
        exact Nat.succ_pos _
    refine parseItems_cons hq (parseValue_render v n _ hw.1 (by omega) (numEnd_items hq r)) ?_ ?_
    · intro hne
      refine parseItems_render l n r hw.2 ?_ hne
      have hv := length_pos_render (q := q) v
      cases l with
      | nil => exact absurd rfl hne
      | cons u l =>
        rw [renderItems_false, List.length_append] at hlen
        omega
    · intro e
      rw [e]
      rfl
end

/-- **`json.loads` undoes `json.dumps`**, up to surrogate pairs -/
theorem loads_render {v : Json} (hw : v.writable false = true) :
    loads (v.render q) = some v.fuse := by
  have hs : NoWs (v.render q ++ []) := (valueStart_render q v).noWs []
  rw [List.append_nil] at hs
  have h := parseValue_render hq v ((v.render q).length + 1) [] hw (Nat.le_succ _) numEnd_nil
  rw [List.append_nil] at h
  unfold loads
  rw [hs, h]
  rfl

end

end Py
