import Mathlib.Algebra.Ring.Nat
import Mathlib.Data.List.DropRight
import Mathlib.Data.List.Infix
import Mathlib.Data.List.Lex
import Mathlib.Order.Fin.Basic

/-!
# Python text: code points, strings, `strip`, decimal numerals

A Python `str` is a sequence of code points, lone surrogates included, so `Char` (which leaves
the surrogates out) is too small for it.

* `Str`          a list of code points; `str "…"` writes one down;
* `strip`        `str.strip()`: the characters with `str.isspace()` go at both ends;
* `decimal`      `str(n)` of a non-negative `int`, and `ofDecimal` the way back;
* `encodable`    no surrogate, so that the text has a UTF-8 form.
-/

set_option linter.unusedVariables false

namespace Py

/-- a code point, surrogates included -/
abbrev CodePoint := Fin 0x110000

instance codePoint_neZero : NeZero 0x110000 := ⟨by decide⟩

abbrev Str := List CodePoint

instance : LawfulBEq Str := inferInstance

instance : LawfulBEq (Str × Str) := inferInstance

def CodePoint.ofChar (c : Char) : CodePoint :=
  ⟨c.toNat, by
    have h := c.valid
    simp only [UInt32.isValidChar, Nat.isValidChar] at h
    unfold Char.toNat
    omega⟩

theorem CodePoint.ofChar_val (c : Char) : (CodePoint.ofChar c).val = c.toNat := rfl

/-- the literal `s` as a Python string -/
def str (s : String) : Str := s.toList.map CodePoint.ofChar

/-! ## stripping -/

/-- `str.isspace()` of one character -/
def isSpace (c : CodePoint) : Bool :=
  (9 ≤ c.val && c.val ≤ 13) || (28 ≤ c.val && c.val ≤ 32) || c.val == 0x85 || c.val == 0xA0 ||
  c.val == 0x1680 || (0x2000 ≤ c.val && c.val ≤ 0x200A) || c.val == 0x2028 || c.val == 0x2029 ||
  c.val == 0x202F || c.val == 0x205F || c.val == 0x3000

def strip (s : Str) : Str := (s.dropWhile isSpace).rdropWhile isSpace

theorem dropWhile_head {p : CodePoint → Bool} {s : Str} {c : CodePoint} {t : Str}
    (h : s.dropWhile p = c :: t) : p c = false := by
  induction s with
  | nil => cases h
  | cons d s ih =>
    rw [List.dropWhile_cons] at h
    by_cases hd : p d = true
    · rw [if_pos hd] at h
      exact ih h
    · rw [if_neg hd] at h
      cases h
      simpa using hd

/-- dropping at the end keeps a head that is not a space -/
theorem dropWhile_rdropWhile {p : CodePoint → Bool} {s : Str} (h : ∀ c t, s = c :: t → p c = false) :
    (s.rdropWhile p).dropWhile p = s.rdropWhile p := by
  cases hr : s.rdropWhile p with
  | nil => rfl
  | cons c t =>
    obtain ⟨r, hs⟩ := List.rdropWhile_prefix p (l := s)
    rw [hr] at hs
    have hc : p c = false := h c (t ++ r) (by rw [← hs]; rfl)
    rw [List.dropWhile_cons, if_neg (by simp [hc])]

theorem strip_strip (s : Str) : strip (strip s) = strip s := by
  have h : (strip s).dropWhile isSpace = strip s :=
    dropWhile_rdropWhile (fun c t hs => dropWhile_head hs)
  show ((strip s).dropWhile isSpace).rdropWhile isSpace = strip s
  rw [h]
  exact List.rdropWhile_idempotent ..

/-! ## decimal numerals -/

/-- `str(n)` -/
def decimal (n : Nat) : Str := (Nat.toDigits 10 n).map CodePoint.ofChar

/-- the number a run of ASCII digits denotes -/
def ofDecimal (s : Str) : Nat := s.foldl (fun n c => 10 * n + (c.val - 48)) 0

theorem foldl_ofDecimal (l : List Char) (n : Nat) :
    (l.map CodePoint.ofChar).foldl (fun n c => 10 * n + (c.val - 48)) n
      = Nat.ofDigitChars 10 l n := by
  rw [Nat.ofDigitChars_eq_foldl, List.foldl_map]
  rfl

theorem ofDecimal_decimal (n : Nat) : ofDecimal (decimal n) = n := by
  unfold ofDecimal decimal
  rw [foldl_ofDecimal]
  exact Nat.ofDigitChars_ten_toDigits

theorem decimal_ne_nil (n : Nat) : decimal n ≠ [] := by
  unfold decimal
  rw [ne_eq, List.map_eq_nil_iff]
  exact Nat.toDigits_ne_nil

/-! ## text that UTF-8 can carry -/

def isSurrogate (c : CodePoint) : Bool := 0xD800 ≤ c.val && c.val ≤ 0xDFFF

/-- `s.encode('utf-8')` does not raise -/
def encodable (s : Str) : Bool := s.all (fun c => !isSurrogate c)

theorem encodable_append {s t : Str} :
    encodable (s ++ t) = true ↔ encodable s = true ∧ encodable t = true := by
  unfold encodable
  rw [List.all_append, Bool.and_eq_true]

end Py
