import SecAudit.Core.Frozen

/-!
# What `json_safe` returns is an audit value

* `sized`           integers of at most 4000 digits, bytes that fit in memory;
* `Safe`            canonical, no deeper than the calls that made it, and of numbers JSON can carry;
                    `safe_project`: so is all that the projection returns;
* `AuditValue`      accepted by the constructor of an event, and by `json.dumps`;
* `jsonSafe_iff`    `json_safe` returns such a value exactly when it gets through its argument;
* `presents_of_readable`  it does wherever the keys and the containers can be read, in enough calls.
-/

set_option linter.unusedVariables false

namespace SecAudit
open Py

mutual
/-- integers of at most 4000 digits, and bytes that fit in memory -/
def sized : Value → Bool
  | .int i => decide ((decimal i.natAbs).length ≤ 4000)
  | .bytes d _ => decide (d.length < 2 ^ 63)
  | .mapping l => sizedItems l
  | .seq l => sizedElems l
  | .enum _ v => sized v
  | _ => true

def sizedItems : List (Key × Value) → Bool
  | [] => true
  | (_, v) :: l => sized v && sizedItems l

def sizedElems : List Value → Bool
  | [] => true
  | v :: l => sized v && sizedElems l
end

/-! ## what the projection returns -/

/-- canonical, at most one container deeper than `n`, and of numbers that JSON can carry -/
structure Safe (n : Nat) (j : Json) : Prop where
  canonical : canonical j = true
  depth : depth j ≤ n + 1
  writable : j.writable true = true

structure SafeItems (n : Nat) (l : List (Str × Json)) : Prop where
  canonical : canonicalItems l = true
  depth : depthItems l ≤ n + 1
  writable : Json.writableItems true l = true

structure SafeElems (n : Nat) (l : List Json) : Prop where
  canonical : canonicalElems l = true
  depth : depthElems l ≤ n + 1
  writable : Json.writableElems true l = true

theorem Safe.mono {n m : Nat} {j : Json} (h : Safe n j) (hle : n ≤ m) : Safe m j :=
  ⟨h.canonical, h.depth.trans (Nat.succ_le_succ hle), h.writable⟩

theorem safe_string (n : Nat) (s : Str) : Safe n (.string s) := ⟨rfl, Nat.zero_le _, rfl⟩

theorem SafeItems.obj {n : Nat} {l : List (Str × Json)} (h : SafeItems n l) :
    Safe (n + 1) (.obj l) := ⟨h.canonical, Nat.succ_le_succ h.depth, h.writable⟩

theorem SafeElems.arr {n : Nat} {l : List Json} (h : SafeElems n l) : Safe (n + 1) (.arr l) :=
  ⟨h.canonical, Nat.succ_le_succ h.depth, h.writable⟩

theorem SafeElems.cons {n : Nat} {j : Json} {l : List Json} (hj : Safe n j) (hl : SafeElems n l) :
    SafeElems n (j :: l) where
  canonical := Bool.and_eq_true_iff.mpr ⟨hj.canonical, hl.canonical⟩
  depth := Nat.max_le.mpr ⟨hj.depth, hl.depth⟩
  writable := Bool.and_eq_true_iff.mpr ⟨hj.writable, hl.writable⟩

theorem safeElems_nil (n : Nat) : SafeElems n [] := ⟨rfl, Nat.zero_le _, rfl⟩

theorem safeItems_nil (n : Nat) : SafeItems n [] := ⟨rfl, Nat.zero_le _, rfl⟩

theorem writableItems_setItem {finite : Bool} {k : Str} {v : Json}
    (hv : v.writable finite = true) : ∀ {l : List (Str × Json)},
    Json.writableItems finite l = true → Json.writableItems finite (setItem k v l) = true
  | [], _ => Bool.and_eq_true_iff.mpr ⟨hv, rfl⟩
  | (k', v') :: l, h => by
    obtain ⟨hv', hl⟩ := Bool.and_eq_true_iff.mp h
    unfold setItem
    split
    · exact Bool.and_eq_true_iff.mpr ⟨hv, hl⟩
    · exact Bool.and_eq_true_iff.mpr ⟨hv', writableItems_setItem hv hl⟩

theorem SafeItems.setItem {n : Nat} {k : Str} {j : Json} {l : List (Str × Json)}
    (hl : SafeItems n l) (hj : Safe n j) : SafeItems n (setItem k j l) where
  canonical := canonicalItems_setItem hl.canonical hj.canonical
  depth := depthItems_setItem hj.depth hl.depth
  writable := writableItems_setItem hj.writable hl.writable

/-- the length of bytes has few digits -/
theorem writable_size {n : Nat} (h : n < 2 ^ 63) : (Json.int n).writable true = true := by
  refine decide_eq_true ?_
  show (decimal n).length ≤ maxIntDigits
  unfold decimal
  rw [List.length_map]
  refine ((Nat.length_toDigits_le_iff (by decide) (by decide)).mpr (h.trans ?_) :
    (Nat.toDigits 10 n).length ≤ 19).trans (by decide)
  decide

theorem safe_bytes {d : List (Fin 256)} (h : d.length < 2 ^ 63) (n m : Nat) :
    Safe n (bytesProjection d m) where
  canonical := by
    unfold bytesProjection
    rfl
  depth := Nat.succ_le_succ (Nat.zero_le n)
  writable := by
    unfold bytesProjection
    rw [Json.writable, Json.writableItems, Json.writableItems, writable_size h]
    rfl

section
variable {limits : ProjectionLimits} {strict : Bool}

theorem safe_refuse {error text : Str} {j : Json} {n : Nat}
    (h : refuse strict error text = .ok j) : Safe n j := by
  unfold refuse at h
  split at h
  · cases h
  · obtain rfl := Except.ok.inj h
    exact safe_string n text

mutual
/-- **what the projection returns is safe** -/
theorem safe_project : ∀ (v : Value) (n d : Nat) (j : Json), sized v = true →
    project limits strict n d v = .ok j → Safe n j
  | v, n, d, j, hv, h => by
    unfold project at h
    split at h
    · obtain rfl := Except.ok.inj h
      exact safe_string n TRUNCATED
    · cases v with
      | none => cases h; exact ⟨rfl, Nat.zero_le _, rfl⟩
      | bool b => cases h; exact ⟨rfl, Nat.zero_le _, rfl⟩
      | int i =>
        cases h
        exact ⟨rfl, Nat.zero_le _, decide_eq_true ((of_decide_eq_true hv).trans (by decide))⟩
      | float f => cases h; exact ⟨rfl, Nat.zero_le _, rfl⟩
      | const c => exact safe_refuse h
      | str s => cases h; exact safe_string n _
      | bytes data mutable =>
        cases mutable with
        | false => cases h; exact safe_bytes (of_decide_eq_true hv) n _
        | true => exact safe_refuse h
      | text name s => cases h; exact safe_string n s
      | enum name v =>
        cases n with
        | zero => cases h
        | succ n => exact (safe_project v n 0 j hv h).mono (Nat.le_succ n)
      | mapping l =>
        cases n with
        | zero => cases h
        | succ n =>
          obtain ⟨items, hitems, rfl⟩ := ok_of_map h
          exact (safe_projectItems l n (d + 1) _ [] items hv (safeItems_nil n) hitems).obj
      | loop isMapping =>
        cases isMapping <;> cases h <;> exact ⟨rfl, Nat.succ_le_succ (Nat.zero_le n), rfl⟩
      | set name => exact safe_refuse h
      | seq l =>
        cases n with
        | zero => cases h
        | succ n =>
          obtain ⟨elems, helems, rfl⟩ := ok_of_map h
          exact (safe_projectElems l n (d + 1) _ elems hv helems).arr
      | object module name => exact safe_refuse h
      | broken e => cases h

theorem safe_projectItems : ∀ (l : List (Key × Value)) (n d room : Nat)
    (projected items : List (Str × Json)), sizedItems l = true → SafeItems n projected →
    projectItems limits strict n d room projected l = .ok items → SafeItems n items
  | [], n, d, room, projected, items, _, hp, h => by
    cases room <;> cases h <;> exact hp
  | (k, v) :: l, n, d, 0, projected, items, _, hp, h => by
    cases h
    exact hp.setItem (safe_string n TRUNCATED)
  | (k, v) :: l, n, d, room + 1, projected, items, hv, hp, h => by
    obtain ⟨hv, hl⟩ := Bool.and_eq_true_iff.mp hv
    obtain ⟨key, item, -, hitem, h⟩ := projectItems_cons_ok h
    exact safe_projectItems l n d room _ items hl (hp.setItem (safe_project v n d item hv hitem)) h

theorem safe_projectElems : ∀ (l : List Value) (n d room : Nat) (elems : List Json),
    sizedElems l = true → projectElems limits strict n d room l = .ok elems → SafeElems n elems
  | [], n, d, room, elems, _, h => by
    cases room <;> cases h <;> exact safeElems_nil n
  | v :: l, n, d, 0, elems, _, h => by
    cases h
    exact (safeElems_nil n).cons (safe_string n TRUNCATED)
  | v :: l, n, d, room + 1, elems, hv, h => by
    obtain ⟨hv, hl⟩ := Bool.and_eq_true_iff.mp hv
    obtain ⟨item, items, rfl, hitem, hitems⟩ := projectElems_cons_ok h
    exact (safe_projectElems l n d room items hl hitems).cons (safe_project v n d item hv hitem)
end

end

/-! ## what `json_safe` returns -/

/-- accepted by the canonicalization of an event as it is, in one more nested call than `json_safe`
had, and by `json.dumps(…, allow_nan=False)` -/
structure AuditValue (frames : Nat) (j : Json) : Prop where
  /-- finite floats, each key once -/
  canonical : canonical j = true
  accepted : ∀ (repr : Str → Str) (path : Str) (m : Nat), frames < m →
    canonicalize repr m path (Value.ofJson j) = .ok j
  dumps : ∀ q : Separators, ∃ text, j.dumps q false = some text

theorem Safe.auditValue {n : Nat} {j : Json} (h : Safe n j) : AuditValue n j where
  canonical := h.canonical
  accepted repr path m hm := canonicalize_ofJson j m path h.canonical (h.depth.trans hm)
  dumps q := ⟨j.render q, if_pos h.writable⟩

/-- **`json_safe` returns an audit value exactly when it gets through its argument** -/
theorem jsonSafe_iff (frames : Nat) (v : Value) (h : sized v = true) :
    (∃ j, jsonSafe frames v = .ok j ∧ AuditValue frames j) ↔
      presents {} false frames 0 v = true := by
  constructor
  · rintro ⟨j, hj, -⟩
    exact project_ok_iff.mp ⟨j, hj⟩
  · intro hp
    obtain ⟨j, hj⟩ := project_ok_iff.mpr hp
    exact ⟨j, hj, (safe_project v frames 0 j h hj).auditValue⟩

/-- a mapping of a float that is not finite, bytes, a set and a cycle -/
def assorted : Value := .mapping [(.str (str "ratio"), .const .nan),
  (.str (str "raw"), .bytes [0, 255] false), (.other (.ok (str "7")), .set (str "set")),
  (.str (str "self"), .seq [.loop true, .enum (str "Level") (.int 3)])]

theorem jsonSafe_iff_assorted : ∃ j, jsonSafe 3 assorted = .ok j ∧ AuditValue 3 j :=
  (jsonSafe_iff 3 assorted (by decide)).mpr (by decide)

/-- a key whose `str()` raises -/
theorem jsonSafe_raises : ¬ ∀ (frames : Nat) (v : Value), 0 < frames → sized v = true →
    ∃ j, jsonSafe frames v = .ok j ∧ AuditValue frames j := by
  intro h
  obtain ⟨j, hj, -⟩ := h 900 (.mapping [(.other (.error .conversionError), .int 1)]) (by decide)
    (by decide)
  cases hj

/-! ## values that are readable -/

mutual
/-- every key has a text, every container can be read -/
def readable : Value → Bool
  | .mapping l => readableItems l
  | .seq l => readableElems l
  | .enum _ v => readable v
  | .broken _ => false
  | _ => true

def readableItems : List (Key × Value) → Bool
  | [] => true
  | (k, v) :: l => isOk k.text && (readable v && readableItems l)

def readableElems : List Value → Bool
  | [] => true
  | v :: l => readable v && readableElems l
end

mutual
/-- how deep enumeration members are nested in one another -/
def enumDepth : Value → Nat
  | .mapping l => enumDepthItems l
  | .seq l => enumDepthElems l
  | .enum _ v => enumDepth v + 1
  | _ => 0

def enumDepthItems : List (Key × Value) → Nat
  | [] => 0
  | (_, v) :: l => max (enumDepth v) (enumDepthItems l)

def enumDepthElems : List Value → Nat
  | [] => 0
  | v :: l => max (enumDepth v) (enumDepthElems l)
end

section
variable {limits : ProjectionLimits}

/-- the nested calls for `e` nested members, from depth `d`: the depth is counted afresh in each -/
def callsFor (limits : ProjectionLimits) (d e : Nat) : Nat :=
  limits.maxDepth - d + e * (limits.maxDepth + 1)

theorem callsFor_max {d e e' n : Nat} (h : callsFor limits d (max e e') ≤ n) :
    callsFor limits d e ≤ n ∧ callsFor limits d e' ≤ n := by
  have hle := Nat.mul_le_mul_right (limits.maxDepth + 1) (Nat.le_max_left e e')
  have hle' := Nat.mul_le_mul_right (limits.maxDepth + 1) (Nat.le_max_right e e')
  unfold callsFor at h ⊢
  omega

mutual
/-- **outside of strict mode the projection gets through every readable value** -/
theorem presents_of_readable : ∀ (v : Value) (n d : Nat), readable v = true →
    callsFor limits d (enumDepth v) ≤ n → presents limits false n d v = true
  | v, n, d, hr, hn => by
    unfold presents
    by_cases hd : limits.maxDepth ≤ d
    · rw [decide_eq_true hd, Bool.true_or]
    rw [decide_eq_false hd, Bool.false_or]
    cases v with
    | broken e => cases hr
    | bytes data mutable => cases mutable <;> rfl
    | enum name v =>
      have hcalls : callsFor limits 0 (enumDepth v) + 1 ≤ n := by
        have : callsFor limits d (enumDepth v + 1) ≤ n := hn
        unfold callsFor at this ⊢
        rw [Nat.succ_mul] at this
        omega
      cases n with
      | zero => omega
      | succ n => exact presents_of_readable v n 0 hr (Nat.le_of_succ_le_succ hcalls)
    | mapping l =>
      have hcalls : callsFor limits (d + 1) (enumDepthItems l) + 1 ≤ n := by
        have : callsFor limits d (enumDepthItems l) ≤ n := hn
        unfold callsFor at this ⊢
        omega
      cases n with
      | zero => omega
      | succ n => exact presentsItems_of_readable l n (d + 1) _ hr (Nat.le_of_succ_le_succ hcalls)
    | seq l =>
      have hcalls : callsFor limits (d + 1) (enumDepthElems l) + 1 ≤ n := by
        have : callsFor limits d (enumDepthElems l) ≤ n := hn
        unfold callsFor at this ⊢
        omega
      cases n with
      | zero => omega
      | succ n => exact presentsElems_of_readable l n (d + 1) _ hr (Nat.le_of_succ_le_succ hcalls)
    | _ => rfl

theorem presentsItems_of_readable : ∀ (l : List (Key × Value)) (n d room : Nat),
    readableItems l = true → callsFor limits d (enumDepthItems l) ≤ n →
    presentsItems limits false n d room l = true
  | [], n, d, room, _, _ => by cases room <;> rfl
  | (k, v) :: l, n, d, 0, _, _ => rfl
  | (k, v) :: l, n, d, room + 1, hr, hn => by
    obtain ⟨hk, hr⟩ := Bool.and_eq_true_iff.mp hr
    obtain ⟨hv, hl⟩ := Bool.and_eq_true_iff.mp hr
    have hle := callsFor_max hn
    rw [presentsItems, hk, presents_of_readable v n d hv hle.1,
      presentsItems_of_readable l n d room hl hle.2]
    rfl

theorem presentsElems_of_readable : ∀ (l : List Value) (n d room : Nat),
    readableElems l = true → callsFor limits d (enumDepthElems l) ≤ n →
    presentsElems limits false n d room l = true
  | [], n, d, room, _, _ => by cases room <;> rfl
  | v :: l, n, d, 0, _, _ => rfl
  | v :: l, n, d, room + 1, hr, hn => by
    obtain ⟨hv, hl⟩ := Bool.and_eq_true_iff.mp hr
    have hle := callsFor_max hn
    rw [presentsElems, presents_of_readable v n d hv hle.1,
      presentsElems_of_readable l n d room hl hle.2]
    rfl
end

end

end SecAudit
