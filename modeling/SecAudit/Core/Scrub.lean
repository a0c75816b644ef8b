import SecAudit.Core.Value

/-!
# The scrubber

* `Redaction`       the sensitive keys, the value patterns and the allowlist;
* `normalizeKey`    the compacted lower-case form keys are compared in;
* `scrub`           redact the values of sensitive keys and the strings that match a pattern, at
                    any depth the call stack allows (`frames`);
* `Alike`           values that differ only where the scrubber hides them;
* `scrub_alike`     such values scrub to the same value.
-/

set_option linter.unusedVariables false

namespace SecAudit
open Py

def REDACTED : Str := str "[REDACTED]"

/-! ## keys -/

/-- the letter or digit that is left of a character of `str(value).lower()`: of the characters that
are not ASCII two have a lower-case form with an ASCII letter in it, `İ` and the Kelvin sign -/
def compactChar (c : CodePoint) : Option CodePoint :=
  if 65 ≤ c.val ∧ c.val ≤ 90 then some (Fin.ofNat 0x110000 (c.val + 32))
  else if 97 ≤ c.val ∧ c.val ≤ 122 ∨ isDigit c = true then some c
  else if c.val = 0x130 then some (cp 'i')
  else if c.val = 0x212A then some (cp 'k')
  else none

def normalizeKey (value : Str) : Str := value.filterMap compactChar

/-- what to redact; `valuePatterns` are the searches of the compiled patterns -/
structure Redaction where
  sensitiveKeys : List Str
  valuePatterns : List (Str → Bool)
  allowlist : List Str

/-- `DEFAULT_SENSITIVE_KEYS` -/
def defaultSensitiveKeys : List Str :=
  [str "password", str "passwd", str "pwd", str "passcode", str "secret", str "token",
    str "apikey", str "authorization", str "bearer", str "jwt", str "cookie", str "sessionid",
    str "csrf", str "creditcard", str "ssn"]

namespace Redaction

def default : Redaction := ⟨defaultSensitiveKeys, [], []⟩

variable (red : Redaction)

/-- the compacted allowlist -/
def allowlistNorm : List Str := (red.allowlist.map normalizeKey).filter fun n => decide (n ≠ [])

/-- `_is_sensitive_key` of a compacted key -/
def sensitiveNorm (norm : Str) : Bool :=
  decide (norm ≠ []) && decide (norm ∉ red.allowlistNorm) &&
    red.sensitiveKeys.any fun k => decide (normalizeKey k ≠ []) && decide (normalizeKey k <:+: norm)

def isSensitiveKey (key : Key) : Except Exc Bool := do
  let t ← key.text
  return red.sensitiveNorm (normalizeKey t)

def isSensitiveValue (s : Str) : Bool := red.valuePatterns.any fun p => p s

end Redaction

/-! ## values -/

section
variable (red : Redaction)

mutual
/-- `_scrub_recursive`, with `frames` nested calls to go -/
def scrub (frames : Nat) : Value → Except Exc Value
  | .set _ => .error .typeError
  | .mapping l => match frames with
    | 0 => .error .recursionError
    | n + 1 => (scrubItems n l).map .mapping
  | .seq l => match frames with
    | 0 => .error .recursionError
    | n + 1 => (scrubElems n l).map .seq
  | .loop _ => .ok (.str REDACTED)
  | .bytes _ _ => .ok (.str REDACTED)
  | .str s => .ok (.str (if red.isSensitiveValue s then REDACTED else s))
  | .broken e => .error e
  | v => .ok v

def scrubItems (frames : Nat) : List (Key × Value) → Except Exc (List (Key × Value))
  | [] => .ok []
  | (k, v) :: l => do
    let sensitive ← red.isSensitiveKey k
    let v ← if sensitive then .ok (.str REDACTED) else scrub frames v
    let l ← scrubItems frames l
    return (k, v) :: l

def scrubElems (frames : Nat) : List Value → Except Exc (List Value)
  | [] => .ok []
  | v :: l => do
    let v ← scrub frames v
    let l ← scrubElems frames l
    return v :: l
end

variable {red}

/-- one item after the scrubber -/
theorem scrubItems_cons_ok {n : Nat} {k : Key} {v : Value} {l l' : List (Key × Value)}
    (h : scrubItems red n ((k, v) :: l) = .ok l') : ∃ w t, l' = (k, w) :: t ∧
      scrubItems red n l = .ok t ∧ ((red.isSensitiveKey k = .ok true ∧ w = .str REDACTED) ∨
        (red.isSensitiveKey k = .ok false ∧ scrub red n v = .ok w)) := by
  rw [scrubItems] at h
  obtain ⟨sensitive, hs, h⟩ := ok_of_bind h
  cases sensitive with
  | true =>
    obtain ⟨t, ht, h⟩ := ok_of_bind (show (scrubItems red n l >>= _) = _ from h)
    obtain rfl := Except.ok.inj h
    exact ⟨_, t, rfl, ht, .inl ⟨hs, rfl⟩⟩
  | false =>
    obtain ⟨w, hw, h⟩ := ok_of_bind (show (scrub red n v >>= _) = _ from h)
    obtain ⟨t, ht, h⟩ := ok_of_bind h
    obtain rfl := Except.ok.inj h
    exact ⟨w, t, rfl, ht, .inr ⟨hs, hw⟩⟩

theorem scrubElems_cons_ok {n : Nat} {v : Value} {l l' : List Value}
    (h : scrubElems red n (v :: l) = .ok l') :
    ∃ w t, l' = w :: t ∧ scrub red n v = .ok w ∧ scrubElems red n l = .ok t := by
  rw [scrubElems] at h
  obtain ⟨w, hw, h⟩ := ok_of_bind h
  obtain ⟨t, ht, h⟩ := ok_of_bind h
  exact ⟨w, t, (Except.ok.inj h).symm, hw, ht⟩

variable (red)

/-! ## what the scrubber hides -/

/-- both strings match a pattern -/
def Hidden (s s' : Str) : Prop :=
  red.isSensitiveValue s = true ∧ red.isSensitiveValue s' = true

mutual
/-- values that differ at most at the values of sensitive keys and at strings that match a pattern
in both -/
def Alike : Value → Value → Prop
  | .str s, v' => v' = .str s ∨ ∃ s', v' = .str s' ∧ Hidden red s s'
  | .mapping l, v' => ∃ l', v' = .mapping l' ∧ AlikeItems l l'
  | .seq l, v' => ∃ l', v' = .seq l' ∧ AlikeElems l l'
  | v, v' => v' = v

def AlikeItems : List (Key × Value) → List (Key × Value) → Prop
  | [], l' => l' = []
  | (k, v) :: l, l' => ∃ v' t, l' = (k, v') :: t ∧
      (red.isSensitiveKey k = .ok true ∨ Alike v v') ∧ AlikeItems l t

def AlikeElems : List Value → List Value → Prop
  | [], l' => l' = []
  | v :: l, l' => ∃ v' t, l' = v' :: t ∧ Alike v v' ∧ AlikeElems l t
end

variable {red}

theorem scrub_str_alike {s : Str} {v' : Value} {n : Nat} (h : Alike red (.str s) v') :
    scrub red n (.str s) = scrub red n v' := by
  rcases h with rfl | ⟨s', rfl, hs, hs'⟩
  · rfl
  · show Except.ok (Value.str _) = Except.ok (Value.str _)
    rw [if_pos hs, if_pos hs']

mutual
/-- **what is hidden does not show**: values that are alike scrub to the same value -/
theorem scrub_alike : ∀ (v v' : Value) (n : Nat), Alike red v v' → scrub red n v = scrub red n v'
  | .str s, v', n, h => scrub_str_alike h
  | .mapping l, v', n, h => by
    obtain ⟨l', rfl, h⟩ := h
    cases n with
    | zero => rfl
    | succ n =>
      show (scrubItems red n l).map _ = (scrubItems red n l').map _
      rw [scrubItems_alike l l' n h]
  | .seq l, v', n, h => by
    obtain ⟨l', rfl, h⟩ := h
    cases n with
    | zero => rfl
    | succ n =>
      show (scrubElems red n l).map _ = (scrubElems red n l').map _
      rw [scrubElems_alike l l' n h]
  | .none, v', n, h => by rw [show v' = _ from h]
  | .bool b, v', n, h => by rw [show v' = _ from h]
  | .int i, v', n, h => by rw [show v' = _ from h]
  | .float f, v', n, h => by rw [show v' = _ from h]
  | .const c, v', n, h => by rw [show v' = _ from h]
  | .bytes d m, v', n, h => by rw [show v' = _ from h]
  | .set k, v', n, h => by rw [show v' = _ from h]
  | .loop m, v', n, h => by rw [show v' = _ from h]
  | .text k s, v', n, h => by rw [show v' = _ from h]
  | .enum k v, v', n, h => by rw [show v' = _ from h]
  | .object m k, v', n, h => by rw [show v' = _ from h]
  | .broken e, v', n, h => by rw [show v' = _ from h]

theorem scrubItems_alike : ∀ (l l' : List (Key × Value)) (n : Nat), AlikeItems red l l' →
    scrubItems red n l = scrubItems red n l'
  | [], l', n, h => by rw [show l' = _ from h]
  | (k, v) :: l, l', n, h => by
    obtain ⟨v', t, rfl, hv, ht⟩ := h
    rw [scrubItems, scrubItems, scrubItems_alike l t n ht]
    rcases hv with hk | hv
    · rw [hk]
      rfl
    · rw [scrub_alike v v' n hv]

theorem scrubElems_alike : ∀ (l l' : List Value) (n : Nat), AlikeElems red l l' →
    scrubElems red n l = scrubElems red n l'
  | [], l', n, h => by rw [show l' = _ from h]
  | v :: l, l', n, h => by
    obtain ⟨v', t, rfl, hv, ht⟩ := h
    rw [scrubElems, scrubElems, scrub_alike v v' n hv, scrubElems_alike l t n ht]
end

end

end SecAudit
