import SecAudit.Py.Text

/-!
# UTF-8

* `encodeUtf8`      `s.encode('utf-8')`, for text without surrogates;
* `decodeUtf8`      `b.decode('utf-8')`: no long forms, no surrogates, nothing cut off;
* `decodeUtf8_encodeUtf8`  what was encoded is decoded.
-/

set_option linter.unusedVariables false

namespace Py

abbrev Byte := Fin 256

instance utf8Byte_neZero : NeZero 256 := ⟨by decide⟩

/-- the byte of a number below 256 -/
def byte (n : Nat) : Byte := Fin.ofNat 256 n

theorem byte_val {n : Nat} (h : n < 256) : (byte n).val = n := Nat.mod_eq_of_lt h

/-- a byte after the first of a character -/
def isTail (b : Byte) : Bool := 0x80 ≤ b.val && b.val ≤ 0xBF

def encodeChar (c : CodePoint) : List Byte :=
  if c.val < 0x80 then [byte c.val]
  else if c.val < 0x800 then [byte (0xC0 + c.val / 64), byte (0x80 + c.val % 64)]
  else if c.val < 0x10000 then
    [byte (0xE0 + c.val / 4096), byte (0x80 + c.val / 64 % 64), byte (0x80 + c.val % 64)]
  else
    [byte (0xF0 + c.val / 262144), byte (0x80 + c.val / 4096 % 64), byte (0x80 + c.val / 64 % 64),
      byte (0x80 + c.val % 64)]

/-- `s.encode('utf-8')`, when it does not raise -/
def encodeUtf8 (s : Str) : List Byte := s.flatMap encodeChar

/-- the character `n`, when it needs a form as long as that for `least` -/
def checked (least n : Nat) : Option CodePoint :=
  if h : n < 0x110000 then
    if least ≤ n ∧ isSurrogate ⟨n, h⟩ = false then some ⟨n, h⟩ else none
  else none

/-- two bytes as a character -/
def two (a b : Byte) : Option CodePoint :=
  if isTail b then checked 0x80 ((a.val - 0xC0) * 64 + (b.val - 0x80)) else none

def three (a b c : Byte) : Option CodePoint :=
  if isTail b && isTail c then
    checked 0x800 ((a.val - 0xE0) * 4096 + (b.val - 0x80) * 64 + (c.val - 0x80))
  else none

def four (a b c d : Byte) : Option CodePoint :=
  if isTail b && isTail c && isTail d then
    checked 0x10000 ((a.val - 0xF0) * 262144 + (b.val - 0x80) * 4096 + (c.val - 0x80) * 64 +
      (d.val - 0x80))
  else none

/-- a character before the rest -/
def before (c : Option CodePoint) (s : Option Str) : Option Str := c.bind fun c => s.map (c :: ·)

/-- `b.decode('utf-8')`; `none` is its `UnicodeDecodeError` -/
def decodeUtf8 : List Byte → Option Str
  | [] => some []
  | a :: l =>
    if a.val < 0x80 then before (some ⟨a.val, by omega⟩) (decodeUtf8 l)
    else if a.val < 0xC0 then none
    else if a.val < 0xE0 then match l with
      | b :: l => before (two a b) (decodeUtf8 l)
      | _ => none
    else if a.val < 0xF0 then match l with
      | b :: c :: l => before (three a b c) (decodeUtf8 l)
      | _ => none
    else if a.val < 0xF8 then match l with
      | b :: c :: d :: l => before (four a b c d) (decodeUtf8 l)
      | _ => none
    else none

/-! ## what was encoded is decoded -/

theorem isTail_byte {n : Nat} (h : n < 64) : isTail (byte (0x80 + n)) = true := by
  unfold isTail
  rw [byte_val (by omega)]
  simp only [Bool.and_eq_true, decide_eq_true_eq]
  omega

theorem checked_of {c : CodePoint} {least n : Nat} (hn : n = c.val) (hl : least ≤ c.val)
    (hs : isSurrogate c = false) : checked least n = some c := by
  subst hn
  unfold checked
  rw [dif_pos c.isLt, if_pos ⟨hl, hs⟩]

theorem decodeUtf8_char {c : CodePoint} (hs : isSurrogate c = false) (l : List Byte) :
    decodeUtf8 (encodeChar c ++ l) = (decodeUtf8 l).map (c :: ·) := by
  have hlt := c.isLt
  unfold encodeChar
  by_cases h1 : c.val < 0x80
  · rw [if_pos h1]
    show decodeUtf8 (byte c.val :: l) = _
    have hv : (byte c.val).val = c.val := byte_val (by omega)
    conv_lhs => unfold decodeUtf8
    rw [if_pos (by omega)]
    show (decodeUtf8 l).map _ = _
    rw [show (⟨(byte c.val).val, by omega⟩ : CodePoint) = c from Fin.ext hv]
  rw [if_neg h1]
  by_cases h2 : c.val < 0x800
  · rw [if_pos h2]
    show decodeUtf8 (byte (0xC0 + c.val / 64) :: byte (0x80 + c.val % 64) :: l) = _
    have ha : (byte (0xC0 + c.val / 64)).val = 0xC0 + c.val / 64 := byte_val (by omega)
    have hb : (byte (0x80 + c.val % 64)).val = 0x80 + c.val % 64 := byte_val (by omega)
    rw [decodeUtf8, if_neg (by omega), if_neg (by omega), if_pos (by omega)]
    show before (two _ _) _ = _
    unfold two
    rw [if_pos (isTail_byte (Nat.mod_lt _ (by decide))),
      checked_of (by rw [ha, hb]; omega) (by omega) hs]
    rfl
  rw [if_neg h2]
  by_cases h3 : c.val < 0x10000
  · rw [if_pos h3]
    show decodeUtf8 (byte (0xE0 + c.val / 4096) :: byte (0x80 + c.val / 64 % 64) ::
      byte (0x80 + c.val % 64) :: l) = _
    have ha : (byte (0xE0 + c.val / 4096)).val = 0xE0 + c.val / 4096 := byte_val (by omega)
    have hb : (byte (0x80 + c.val / 64 % 64)).val = 0x80 + c.val / 64 % 64 := byte_val (by omega)
    have hc : (byte (0x80 + c.val % 64)).val = 0x80 + c.val % 64 := byte_val (by omega)
    rw [decodeUtf8, if_neg (by omega), if_neg (by omega), if_neg (by omega), if_pos (by omega)]
    show before (three _ _ _) _ = _
    unfold three
    rw [isTail_byte (Nat.mod_lt _ (by decide)), isTail_byte (Nat.mod_lt _ (by decide)),
      Bool.and_self, if_pos rfl, checked_of (by rw [ha, hb, hc]; omega) (by omega) hs]
    rfl
  rw [if_neg h3]
  show decodeUtf8 (byte (0xF0 + c.val / 262144) :: byte (0x80 + c.val / 4096 % 64) ::
    byte (0x80 + c.val / 64 % 64) :: byte (0x80 + c.val % 64) :: l) = _
  have ha : (byte (0xF0 + c.val / 262144)).val = 0xF0 + c.val / 262144 := byte_val (by omega)
  have hb : (byte (0x80 + c.val / 4096 % 64)).val = 0x80 + c.val / 4096 % 64 := byte_val (by omega)
  have hc : (byte (0x80 + c.val / 64 % 64)).val = 0x80 + c.val / 64 % 64 := byte_val (by omega)
  have hd : (byte (0x80 + c.val % 64)).val = 0x80 + c.val % 64 := byte_val (by omega)
  rw [decodeUtf8, if_neg (by omega), if_neg (by omega), if_neg (by omega), if_neg (by omega),
    if_pos (by omega)]
  show before (four _ _ _ _) _ = _
  unfold four
  rw [isTail_byte (Nat.mod_lt _ (by decide)), isTail_byte (Nat.mod_lt _ (by decide)),
    isTail_byte (Nat.mod_lt _ (by decide)), Bool.and_self, Bool.and_self, if_pos rfl,
    checked_of (by rw [ha, hb, hc, hd]; omega) (by omega) hs]
  rfl

/-- **what was encoded is decoded** -/
theorem decodeUtf8_encodeUtf8 : ∀ {s : Str}, encodable s = true → decodeUtf8 (encodeUtf8 s) = some s
  | [], _ => rfl
  | c :: s, h => by
    unfold encodable at h
    rw [List.all_cons, Bool.and_eq_true, Bool.not_eq_true'] at h
    show decodeUtf8 (encodeChar c ++ encodeUtf8 s) = _
    rw [decodeUtf8_char h.1, decodeUtf8_encodeUtf8 h.2]
    rfl

end Py
