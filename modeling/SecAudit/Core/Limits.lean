import SecAudit.Core.Legible

/-!
# Which results of the projection are within its limits

* `Marked`          a result that keeps apart what was made of `bytes`;
* `mark`            the projection with such results, and `erase_mark`: it is the projection;
* `limited`         nested at most so deep, with no list, mapping, key or text that is too long;
* `within`          the same of a value, where the texts that are not cut and what an enumeration
                    holds count as they are;
* `project_within`  a result is within the limits exactly when the value is.
-/

set_option linter.unusedVariables false

namespace SecAudit
open Py

/-! ## results -/

inductive Marked where
  /-- a text, a number, `None` or a truth value -/
  | leaf (j : Json)
  /-- what is made of `bytes` -/
  | envelope (j : Json)
  | arr (items : List Marked)
  | obj (items : List (Str × Marked))

namespace Marked

mutual
/-- the result itself -/
def erase : Marked → Json
  | .leaf j => j
  | .envelope j => j
  | .arr l => .arr (eraseElems l)
  | .obj l => .obj (eraseItems l)

def eraseElems : List Marked → List Json
  | [] => []
  | t :: l => erase t :: eraseElems l

def eraseItems : List (Str × Marked) → List (Str × Json)
  | [] => []
  | (k, t) :: l => (k, erase t) :: eraseItems l
end

theorem eraseItems_setItem (k : Str) (t : Marked) : ∀ d : List (Str × Marked),
    eraseItems (setItem k t d) = setItem k t.erase (eraseItems d)
  | [] => rfl
  | (k', t') :: d => by
    rw [setItem, eraseItems, setItem]
    by_cases h : k' = k
    · rw [if_pos h, if_pos h]
      rfl
    · rw [if_neg h, if_neg h, eraseItems, eraseItems_setItem k t d]

end Marked

section
variable (limits : ProjectionLimits) (strict : Bool)

mutual
/-- `_project`, with what was made of `bytes` kept apart -/
def mark (frames depth : Nat) (v : Value) : Except Exc Marked :=
  if limits.maxDepth ≤ depth then .ok (.leaf (.string TRUNCATED)) else match v with
    | .bytes d false => .ok (.envelope (bytesProjection d limits.maxBytes))
    | .enum _ v => match frames with
      | 0 => .error .recursionError
      | n + 1 => mark n 0 v
    | .mapping l => match frames with
      | 0 => .error .recursionError
      | n + 1 => (markItems n (depth + 1) limits.maxMappingEntries [] l).map .obj
    | .loop true => .ok (.obj [(str "_truncated", .leaf (.string CIRCULAR))])
    | .seq l => match frames with
      | 0 => .error .recursionError
      | n + 1 => (markElems n (depth + 1) limits.maxSequenceLength l).map .arr
    | .loop false => .ok (.arr [.leaf (.string CIRCULAR)])
    | v => (project limits strict frames depth v).map .leaf
termination_by structural v

def markItems (frames depth room : Nat) (projected : List (Str × Marked)) :
    List (Key × Value) → Except Exc (List (Str × Marked))
  | [] => .ok projected
  | (k, v) :: l => match room with
    | 0 => .ok (setItem (str "_truncated") (.leaf (.string TRUNCATED)) projected)
    | room + 1 => do
      let key ← k.text
      let item ← mark frames depth v
      markItems frames depth room (setItem (limitString key limits.maxStringLength) item projected) l
termination_by structural l => l

def markElems (frames depth room : Nat) : List Value → Except Exc (List Marked)
  | [] => .ok []
  | v :: l => match room with
    | 0 => .ok [.leaf (.string TRUNCATED)]
    | room + 1 => do
      let item ← mark frames depth v
      let items ← markElems frames depth room l
      return item :: items
termination_by structural l => l
end

variable {limits strict}

theorem markItems_cons_ok {n d room : Nat} {k : Key} {v : Value} {l : List (Key × Value)}
    {projected out : List (Str × Marked)}
    (h : markItems limits strict n d (room + 1) projected ((k, v) :: l) = .ok out) :
    ∃ key item, k.text = .ok key ∧ mark limits strict n d v = .ok item ∧
      markItems limits strict n d room
        (setItem (limitString key limits.maxStringLength) item projected) l = .ok out := by
  rw [markItems] at h
  obtain ⟨key, hk, h⟩ := ok_of_bind h
  obtain ⟨item, hv, h⟩ := ok_of_bind h
  exact ⟨key, item, hk, hv, h⟩

theorem markElems_cons_ok {n d room : Nat} {v : Value} {l : List Value} {out : List Marked}
    (h : markElems limits strict n d (room + 1) (v :: l) = .ok out) :
    ∃ item items, out = item :: items ∧ mark limits strict n d v = .ok item ∧
      markElems limits strict n d room l = .ok items := by
  rw [markElems] at h
  obtain ⟨item, hv, h⟩ := ok_of_bind h
  obtain ⟨items, hl, h⟩ := ok_of_bind h
  exact ⟨item, items, (Except.ok.inj h).symm, hv, hl⟩

theorem map_erase_leaf (x : Except Exc Json) : (x.map Marked.leaf).map Marked.erase = x := by
  cases x <;> rfl

mutual
/-- **the projection** is what is marked, without the marks -/
theorem erase_mark : ∀ (v : Value) (n d : Nat),
    (mark limits strict n d v).map Marked.erase = project limits strict n d v
  | v, n, d => by
    by_cases hd : limits.maxDepth ≤ d
    · unfold mark project
      rw [if_pos hd, if_pos hd]
      rfl
    cases v with
    | bytes data mutable =>
      cases mutable with
      | false =>
        unfold mark project
        rw [if_neg hd, if_neg hd]
        rfl
      | true =>
        unfold mark
        rw [if_neg hd]
        exact map_erase_leaf _
    | enum name v =>
      unfold mark project
      rw [if_neg hd, if_neg hd]
      cases n with
      | zero => rfl
      | succ n => exact erase_mark v n 0
    | mapping l =>
      unfold mark project
      rw [if_neg hd, if_neg hd]
      cases n with
      | zero => rfl
      | succ n =>
        dsimp only
        rw [show projectItems limits strict n (d + 1) _ [] l = _ from
          (erase_markItems l n (d + 1) _ []).symm]
        rcases markItems limits strict n (d + 1) limits.maxMappingEntries [] l with e | out <;> rfl
    | seq l =>
      unfold mark project
      rw [if_neg hd, if_neg hd]
      cases n with
      | zero => rfl
      | succ n =>
        dsimp only
        rw [← erase_markElems l n (d + 1) _]
        rcases markElems limits strict n (d + 1) limits.maxSequenceLength l with e | out <;> rfl
    | loop isMapping =>
      unfold mark project
      rw [if_neg hd, if_neg hd]
      cases isMapping <;> rfl
    | _ =>
      unfold mark
      rw [if_neg hd]
      exact map_erase_leaf _

theorem erase_markItems : ∀ (l : List (Key × Value)) (n d room : Nat)
    (projected : List (Str × Marked)),
    (markItems limits strict n d room projected l).map Marked.eraseItems
      = projectItems limits strict n d room (Marked.eraseItems projected) l
  | [], n, d, room, projected => by cases room <;> rfl
  | (k, v) :: l, n, d, 0, projected => by
    rw [markItems, projectItems]
    exact congrArg Except.ok (Marked.eraseItems_setItem _ _ projected)
  | (k, v) :: l, n, d, room + 1, projected => by
    rw [markItems, projectItems, ← erase_mark v n d]
    rcases k.text with e | key
    · rfl
    rcases mark limits strict n d v with e | item
    · rfl
    simp only [bind, Except.bind, Except.map]
    rw [← Marked.eraseItems_setItem]
    exact erase_markItems l n d room _

theorem erase_markElems : ∀ (l : List Value) (n d room : Nat),
    (markElems limits strict n d room l).map Marked.eraseElems
      = projectElems limits strict n d room l
  | [], n, d, room => by cases room <;> rfl
  | v :: l, n, d, 0 => rfl
  | v :: l, n, d, room + 1 => by
    rw [markElems, projectElems, ← erase_mark v n d, ← erase_markElems l n d room]
    rcases mark limits strict n d v with e | item
    · rfl
    rcases markElems limits strict n d room l with e | items <;> rfl
end

end

/-! ## limits -/

section
variable (limits : ProjectionLimits)

/-- the most characters of a text, or of a key, that was cut -/
def maxText : Nat := limits.maxStringLength + TRUNCATED.length

mutual
/-- nested at most `room` deep, with at most one item too many in a list or a mapping, and with
keys and texts that are short, up to what is made of `bytes` -/
def limited (room : Nat) : Marked → Bool
  | .leaf (.string s) => decide (s.length ≤ maxText limits)
  | .leaf _ => true
  | .envelope _ => decide (0 < room)
  | .arr l => match room with
    | 0 => false
    | r + 1 => decide (l.length ≤ limits.maxSequenceLength + 1) && limitedElems r l
  | .obj l => match room with
    | 0 => false
    | r + 1 => decide (l.length ≤ limits.maxMappingEntries + 1) && limitedItems r l

def limitedElems (room : Nat) : List Marked → Bool
  | [] => true
  | t :: l => limited room t && limitedElems room l

def limitedItems (room : Nat) : List (Str × Marked) → Bool
  | [] => true
  | (k, t) :: l => decide (k.length ≤ maxText limits) && (limited room t && limitedItems room l)
end

/-- the items of a mapping by the texts of their keys -/
def named (l : List (Key × Value)) : List (Str × Value) :=
  l.map fun e => (match e.1.text with
    | .ok t => t
    | .error _ => [], e.2)

mutual
/-- the value fits where the result may be nested `room` deep, and the code counts `depth`: the
texts that are not cut are short, and there is room for each container that is shown -/
def within (depth room : Nat) (v : Value) : Bool :=
  decide (limits.maxDepth ≤ depth) || match v with
    | .text _ s => decide (s.length ≤ maxText limits)
    | .bytes _ false => decide (0 < room)
    | .bytes _ true => true
    | .set name => decide ((unserializable (str "builtins") name).length ≤ maxText limits)
    | .object module name => decide ((unserializable module name).length ≤ maxText limits)
    | .enum _ v => within 0 room v
    | .loop _ => decide (0 < room)
    | .mapping l => match room with
      | 0 => false
      | r + 1 => withinItems (depth + 1) r limits.maxMappingEntries l
    | .seq l => match room with
      | 0 => false
      | r + 1 => withinElems (depth + 1) r limits.maxSequenceLength l
    | _ => true
termination_by structural v

/-- the items that are shown and not overwritten -/
def withinItems (depth room left : Nat) : List (Key × Value) → Bool
  | [] => true
  | (k, v) :: l => match left with
    | 0 => true
    | left + 1 => (overwritten limits left (named l) (limitKey limits (match k.text with
        | .ok t => t
        | .error _ => [])) || within depth room v) && withinItems depth room left l
termination_by structural l => l

def withinElems (depth room left : Nat) : List Value → Bool
  | [] => true
  | v :: l => match left with
    | 0 => true
    | left + 1 => within depth room v && withinElems depth room left l
termination_by structural l => l
end

variable {limits}

theorem limitString_length_le (s : Str) :
    (limitString s limits.maxStringLength).length ≤ maxText limits := by
  unfold limitString maxText
  split
  · omega
  · rw [List.length_append, List.length_take]
    omega

theorem limitedItems_iff {room : Nat} {l : List (Str × Marked)} :
    limitedItems limits room l = true ↔ (∀ e ∈ l, e.1.length ≤ maxText limits) ∧
      ∀ e ∈ l, limited limits room e.2 = true := by
  induction l with
  | nil =>
    exact iff_of_true rfl ⟨fun e he => absurd he List.not_mem_nil,
      fun e he => absurd he List.not_mem_nil⟩
  | cons e l ih =>
    rw [limitedItems, Bool.and_eq_true, Bool.and_eq_true, decide_eq_true_eq, ih,
      List.forall_mem_cons, List.forall_mem_cons]
    tauto

/-- how many items there are, and how long their keys are -/
theorem markItems_keys {strict : Bool} {n d : Nat} : ∀ {l : List (Key × Value)} {room : Nat}
    {projected out : List (Str × Marked)},
    markItems limits strict n d room projected l = .ok out → 64 ≤ limits.maxStringLength →
    (∀ e ∈ projected, e.1.length ≤ maxText limits) →
    (projected.map Prod.fst).Nodup →
    out.length ≤ projected.length + room + 1 ∧ ∀ e ∈ out, e.1.length ≤ maxText limits
  | [], room, projected, out, h, _, hkeys, _ => by
    have ho : out = projected := by
      cases room <;> cases h <;> rfl
    rw [ho]
    exact ⟨by omega, hkeys⟩
  | (k, v) :: l, 0, projected, out, h, hmax, hkeys, hnd => by
    cases h
    refine ⟨length_setItem_le .., fun e he => ?_⟩
    rcases (mem_setItem hnd).mp he with rfl | ⟨he, -⟩
    · show 10 ≤ maxText limits
      unfold maxText
      omega
    · exact hkeys e he
  | (k, v) :: l, room + 1, projected, out, h, hmax, hkeys, hnd => by
    obtain ⟨key, item, hk, hv, h⟩ := markItems_cons_ok h
    obtain ⟨hlen, hout⟩ := markItems_keys h hmax (by
      intro e he
      rcases (mem_setItem hnd).mp he with rfl | ⟨he, -⟩
      · exact limitString_length_le key
      · exact hkeys e he) (nodup_setItem hnd)
    have hle := length_setItem_le (limitString key limits.maxStringLength) item projected
    exact ⟨by omega, hout⟩

theorem markElems_length {strict : Bool} {n d : Nat} : ∀ {l : List Value} {room : Nat}
    {out : List Marked}, markElems limits strict n d room l = .ok out → out.length ≤ room + 1
  | [], room, out, h => by
    have ho : out = [] := by
      cases room <;> cases h <;> rfl
    rw [ho]
    exact Nat.zero_le _
  | v :: l, 0, out, h => by
    cases h
    exact le_rfl
  | v :: l, room + 1, out, h => by
    obtain ⟨item, items, rfl, -, hl⟩ := markElems_cons_ok h
    exact Nat.succ_le_succ (markElems_length hl)

/-- a short text of the projection itself -/
theorem limited_text {s : Str} {room : Nat} (hmax : 64 ≤ limits.maxStringLength)
    (h : s.length ≤ 75) : limited limits room (.leaf (.string s)) = true := by
  show decide _ = true
  rw [decide_eq_true_eq]
  unfold maxText
  have htrunc : TRUNCATED.length = 11 := by decide
  omega

/-- with `strict` a refused value has no form, else its text is kept -/
theorem limited_refuse {strict : Bool} {error text : Str} {room : Nat} {t : Marked}
    (h : (refuse strict error text).map Marked.leaf = .ok t) :
    limited limits room t = decide (text.length ≤ maxText limits) := by
  unfold refuse at h
  cases strict <;> cases h
  rfl

mutual
/-- **a result is within the limits exactly when the value is** -/
theorem limited_mark {strict : Bool} (hmax : 64 ≤ limits.maxStringLength) : ∀ (v : Value)
    (n d room : Nat) (t : Marked), mark limits strict n d v = .ok t →
    limited limits room t = within limits d room v
  | v, n, d, room, t, h => by
    unfold mark at h
    unfold within
    by_cases hd : limits.maxDepth ≤ d
    · rw [if_pos hd] at h
      cases h
      rw [decide_eq_true hd, Bool.true_or]
      exact limited_text hmax (by decide)
    rw [if_neg hd] at h
    rw [decide_eq_false hd, Bool.false_or]
    cases v with
    | bytes data mutable =>
      cases mutable with
      | false =>
        cases h
        rfl
      | true =>
        dsimp only at h
        unfold project at h
        rw [if_neg hd] at h
        rw [limited_refuse h]
        exact @limited_text limits (unserializable (str "builtins") (str "bytearray")) room hmax
          (by decide)
    | enum name v =>
      cases n with
      | zero => cases h
      | succ n => exact limited_mark hmax v n 0 room t h
    | mapping l =>
      cases n with
      | zero => cases h
      | succ n =>
        obtain ⟨out, hout, rfl⟩ := ok_of_map h
        cases room with
        | zero => rfl
        | succ room =>
          obtain ⟨hlen, hkeys⟩ := markItems_keys hout hmax
            (fun e he => absurd he List.not_mem_nil) List.nodup_nil
          rw [List.length_nil, Nat.zero_add] at hlen
          rw [limited, decide_eq_true hlen, Bool.true_and, Bool.eq_iff_iff, limitedItems_iff,
            and_iff_right hkeys, limited_markItems hmax l n (d + 1) _ room [] out hout
              List.nodup_nil]
          exact and_iff_right fun e he => absurd he List.not_mem_nil
    | seq l =>
      cases n with
      | zero => cases h
      | succ n =>
        obtain ⟨out, hout, rfl⟩ := ok_of_map h
        cases room with
        | zero => rfl
        | succ room =>
          rw [limited, decide_eq_true (markElems_length hout), Bool.true_and]
          exact limited_markElems hmax l n (d + 1) _ room out hout
    | loop isMapping =>
      have hmark : ∀ r, limited limits r (.leaf (.string CIRCULAR)) = true := fun r =>
        limited_text hmax (by decide)
      cases room with
      | zero => cases isMapping <;> cases h <;> rfl
      | succ room =>
        cases isMapping with
        | true =>
          cases h
          have hkey : (str "_truncated").length ≤ maxText limits := by
            show 10 ≤ _
            unfold maxText
            omega
          have hone : 1 ≤ limits.maxMappingEntries + 1 := Nat.succ_le_succ (Nat.zero_le _)
          rw [limited, limitedItems, limitedItems, hmark, decide_eq_true hkey]
          exact (Bool.and_true _).trans (decide_eq_true hone)
        | false =>
          cases h
          have hone : 1 ≤ limits.maxSequenceLength + 1 := Nat.succ_le_succ (Nat.zero_le _)
          rw [limited, limitedElems, limitedElems, hmark]
          exact (Bool.and_true _).trans (decide_eq_true hone)
    | str s =>
      dsimp only at h
      unfold project at h
      rw [if_neg hd] at h
      cases h
      exact decide_eq_true (limitString_length_le s)
    | text name s =>
      dsimp only at h
      unfold project at h
      rw [if_neg hd] at h
      cases h
      rfl
    | set name =>
      dsimp only at h
      unfold project at h
      rw [if_neg hd] at h
      exact limited_refuse h
    | object module name =>
      dsimp only at h
      unfold project at h
      rw [if_neg hd] at h
      exact limited_refuse h
    | const c =>
      dsimp only at h
      unfold project at h
      rw [if_neg hd] at h
      rw [limited_refuse h]
      have htext : (floatText c).length ≤ 75 := by
        cases c <;> decide
      exact @limited_text limits (floatText c) room hmax htext
    | broken e =>
      dsimp only at h
      unfold project at h
      rw [if_neg hd] at h
      cases h
    | _ =>
      dsimp only at h
      unfold project at h
      rw [if_neg hd] at h
      cases h
      rfl

theorem limited_markItems {strict : Bool} (hmax : 64 ≤ limits.maxStringLength) :
    ∀ (l : List (Key × Value)) (n d left room : Nat) (projected out : List (Str × Marked)),
    markItems limits strict n d left projected l = .ok out → (projected.map Prod.fst).Nodup →
    ((∀ e ∈ out, limited limits room e.2 = true) ↔
      (∀ e ∈ projected, overwritten limits left (named l) e.1 = false →
        limited limits room e.2 = true) ∧ withinItems limits d room left l = true)
  | [], n, d, left, room, projected, out, h, hnd => by
    have ho : out = projected := by
      cases left <;> cases h <;> rfl
    rw [ho]
    exact ⟨fun h => ⟨fun e he _ => h e he, rfl⟩, fun h e he => h.1 e he (overwritten_nil _ e.1)⟩
  | (k, v) :: l, n, d, 0, room, projected, out, h, hnd => by
    cases h
    rw [withinItems]
    have hmark := @limited_text limits TRUNCATED room hmax (by decide)
    exact (kept_marked (P := fun e => limited limits room e.2 = true) hnd hmark).trans
      (and_iff_left rfl).symm
  | (k, v) :: l, n, d, left + 1, room, projected, out, h, hnd => by
    obtain ⟨key, item, hk, hv, h⟩ := markItems_cons_ok h
    have hnamed : named ((k, v) :: l) = (key, v) :: named l := by
      unfold named
      rw [List.map_cons, hk]
    rw [limited_markItems hmax l n d left room _ out h (nodup_setItem hnd), withinItems, hk, hnamed,
      Bool.and_eq_true, Bool.or_eq_true, ← limited_mark hmax v n d room item hv, ← and_assoc]
    exact and_congr_left' (kept_setItem (e := (key, v)) hnd)

theorem limited_markElems {strict : Bool} (hmax : 64 ≤ limits.maxStringLength) :
    ∀ (l : List Value) (n d left room : Nat) (out : List Marked),
    markElems limits strict n d left l = .ok out →
    limitedElems limits room out = withinElems limits d room left l
  | [], n, d, left, room, out, h => by
    cases left <;> cases h <;> rfl
  | v :: l, n, d, 0, room, out, h => by
    cases h
    rw [limitedElems, limited_text hmax (by decide)]
    rfl
  | v :: l, n, d, left + 1, room, out, h => by
    obtain ⟨item, items, rfl, hv, hl⟩ := markElems_cons_ok h
    rw [limitedElems, withinElems, limited_mark hmax v n d room item hv,
      limited_markElems hmax l n d left room items hl]
end

/-- **a result of the projection is within its limits exactly when the value is**: its texts that
the projection does not cut are short enough, and enumerations do not nest it too deep -/
theorem project_within {strict : Bool} {v : Value} {n : Nat} {j : Json}
    (hmax : 64 ≤ limits.maxStringLength) (h : project limits strict n 0 v = .ok j) :
    ∃ t, mark limits strict n 0 v = .ok t ∧ t.erase = j ∧
      (limited limits limits.maxDepth t = true ↔ within limits 0 limits.maxDepth v = true) := by
  rw [← erase_mark] at h
  obtain ⟨t, ht, he⟩ := ok_of_map h
  refine ⟨t, ht, he, ?_⟩
  rw [limited_mark hmax v n 0 limits.maxDepth t ht]

end

/-- limits of two levels, and of texts of 64 characters -/
def ProjectionLimits.shallow : ProjectionLimits := { ProjectionLimits.default with
  maxDepth := 2
  maxStringLength := 64
  maxDepth_pos := by decide
  maxStringLength_pos := ProjectionLimits.default.maxBytes_pos }

/-- a member of an enumeration, texts and a key that are too long, a number, and values that stand too
deep -/
def overgrown : Value :=
  .seq [.enum (str "Level") (.str (List.replicate 70 (cp 'x'))), .str (List.replicate 70 (cp 'y')),
    .text (str "Decimal") (List.replicate 75 (cp '1')), .seq [.seq [.int 1]],
    .mapping [(.str (List.replicate 70 (cp 'k')), .bytes [1, 2] false)]]

/-- all but the number is cut -/
theorem project_within_overgrown : ∃ t, mark .shallow true 5 0 overgrown = .ok t ∧
    t.erase = .arr [.string (List.replicate 64 (cp 'x') ++ TRUNCATED),
      .string (List.replicate 64 (cp 'y') ++ TRUNCATED), .string (List.replicate 75 (cp '1')),
      .arr [.string TRUNCATED],
      .obj [(List.replicate 64 (cp 'k') ++ TRUNCATED, .string TRUNCATED)]] ∧
    limited .shallow 2 t = true := by
  obtain ⟨t, ht, he, hiff⟩ := @project_within .shallow true overgrown 5 _ (by decide) rfl
  exact ⟨t, ht, he, hiff.mpr (by decide +kernel)⟩

/-- a number of a hundred digits is not cut, and an enumeration starts to count from zero -/
theorem project_beyond :
    (∃ t, mark .shallow true 0 0 (.text (str "Decimal") (List.replicate 100 (cp '1'))) = .ok t ∧
      project .shallow true 0 0 (.text (str "Decimal") (List.replicate 100 (cp '1')))
        = .ok t.erase ∧ limited .shallow 2 t = false) ∧
    ∃ t, mark .shallow true 4 0 (.seq [.enum (str "Level") (.seq [.seq [.int 1]])]) = .ok t ∧
      project .shallow true 4 0 (.seq [.enum (str "Level") (.seq [.seq [.int 1]])])
        = .ok t.erase ∧ limited .shallow 2 t = false :=
  ⟨⟨.leaf (.string (List.replicate 100 (cp '1'))), rfl, rfl, rfl⟩,
    .arr [.arr [.arr [.leaf (.string TRUNCATED)]]], rfl, rfl, rfl⟩

end SecAudit
