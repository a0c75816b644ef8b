import SecAudit.Core.Exc
import SecAudit.Py.Json

/-!
# Python values as the scrubber and the projection meet them

* `Value`           an object graph, unfolded from its root: where a container meets itself again
                    on the way down, `loop` stands, so that the value is a finite tree;
* `Key`             a mapping key: a string, or any object with the outcome of `str(key)`;
* `Value.ofJson`    a value of a canonical event;
* `setItem`         `d[key] = value`.
-/

set_option linter.unusedVariables false

namespace SecAudit
open Py

instance byte_neZero : NeZero 256 := ⟨by decide⟩

inductive Key where
  | str (s : Str)
  /-- any other object, and what `str(key)` does -/
  | other (text : Except Exc Str)

namespace Key

/-- `str(key)` -/
def text : Key → Except Exc Str
  | .str s => .ok s
  | .other t => t

end Key

inductive Value where
  | none
  | bool (b : Bool)
  | int (i : Int)
  | float (f : FloatLit)
  | const (c : NonFinite)
  | str (s : Str)
  /-- `bytes`, or `bytearray` when mutable -/
  | bytes (data : List (Fin 256)) (mutable : Bool)
  /-- `set` or `frozenset`, by its name -/
  | set (name : Str)
  | mapping (items : List (Key × Value))
  /-- `list` or `tuple` -/
  | seq (items : List Value)
  /-- a container that encloses this place -/
  | loop (isMapping : Bool)
  /-- a date, a UUID, a `Decimal`, a path or an address, by the name of its type and its text -/
  | text (name s : Str)
  /-- a member of the enumeration `name` -/
  | enum (name : Str) (v : Value)
  /-- an object of another type, by its module and name -/
  | object (module name : Str)
  /-- a container whose items cannot be read, or a value whose type or `isoformat()` cannot be -/
  | broken (e : Exc)

namespace Value

mutual
/-- a JSON value as a Python object -/
def ofJson : Json → Value
  | .null => .none
  | .bool b => .bool b
  | .int i => .int i
  | .float f => .float f
  | .const c => .const c
  | .string s => .str s
  | .arr l => .seq (ofElems l)
  | .obj l => .mapping (ofItems l)

def ofElems : List Json → List Value
  | [] => []
  | v :: l => ofJson v :: ofElems l

def ofItems : List (Str × Json) → List (Key × Value)
  | [] => []
  | (k, v) :: l => (.str k, ofJson v) :: ofItems l
end

theorem ofItems_eq_map (l : List (Str × Json)) :
    ofItems l = l.map fun p => (.str p.1, ofJson p.2) := by
  induction l with
  | nil => rfl
  | cons p l ih =>
    rw [ofItems, ih]
    rfl

end Value

/-! ## dicts -/

section
variable {α : Type}

/-- `d[k] = v`: the item keeps its place, a new one goes to the end -/
def setItem (k : Str) (v : α) : List (Str × α) → List (Str × α)
  | [] => [(k, v)]
  | (k', v') :: l => if k' = k then (k, v) :: l else (k', v') :: setItem k v l

/-- `d.update(e)` -/
def updateItems (d e : List (Str × α)) : List (Str × α) :=
  e.foldl (fun d p => setItem p.1 p.2 d) d

/-- `k in d` -/
def hasItem (k : Str) (d : List (Str × α)) : Bool := d.any fun p => decide (p.1 = k)

/-- `d.get(k)` -/
def getItem (k : Str) (d : List (Str × α)) : Option α :=
  (d.find? fun p => decide (p.1 = k)).map Prod.snd

theorem getItem_cons_same (k : Str) (v : α) (d : List (Str × α)) :
    getItem k ((k, v) :: d) = some v := by
  unfold getItem
  rw [List.find?_cons_of_pos (by simp)]
  rfl

theorem getItem_cons_other {k k' : Str} (v : α) (d : List (Str × α)) (h : k' ≠ k) :
    getItem k ((k', v) :: d) = getItem k d := by
  unfold getItem
  rw [List.find?_cons_of_neg (by simpa using h)]

theorem hasItem_iff {k : Str} {d : List (Str × α)} :
    hasItem k d = true ↔ k ∈ d.map Prod.fst := by
  unfold hasItem
  rw [List.any_eq_true, List.mem_map]
  constructor
  · rintro ⟨p, hp, he⟩
    exact ⟨p, hp, of_decide_eq_true he⟩
  · rintro ⟨p, hp, he⟩
    exact ⟨p, hp, decide_eq_true he⟩

theorem getItem_isSome {k : Str} {d : List (Str × α)} :
    (getItem k d).isSome = hasItem k d := by
  unfold getItem hasItem
  rw [Option.isSome_map, Bool.eq_iff_iff, List.find?_isSome, List.any_eq_true]

theorem keys_setItem (k : Str) (v : α) (d : List (Str × α)) :
    (setItem k v d).map Prod.fst = if hasItem k d then d.map Prod.fst
      else d.map Prod.fst ++ [k] := by
  induction d with
  | nil => rfl
  | cons p d ih =>
    unfold setItem
    by_cases h : p.1 = k
    · have hh : hasItem k (p :: d) = true := by
        unfold hasItem
        rw [List.any_cons, decide_eq_true h, Bool.true_or]
      rw [if_pos h, if_pos hh]
      show k :: _ = p.1 :: _
      rw [h]
    · have hh : hasItem k (p :: d) = hasItem k d := by
        unfold hasItem
        rw [List.any_cons, decide_eq_false h, Bool.false_or]
      rw [if_neg h, hh]
      show p.1 :: (setItem k v d).map Prod.fst = _
      rw [ih]
      split <;> rfl

theorem hasItem_setItem {k k' : Str} {v : α} {d : List (Str × α)} :
    hasItem k' (setItem k v d) = true ↔ k' = k ∨ hasItem k' d = true := by
  rw [hasItem_iff, hasItem_iff, keys_setItem]
  split
  · rename_i h
    exact ⟨.inr, fun h' => h'.elim (fun e => e ▸ hasItem_iff.mp h) id⟩
  · rw [List.mem_append, List.mem_singleton, or_comm]

theorem getItem_setItem_same (k : Str) (v : α) (d : List (Str × α)) :
    getItem k (setItem k v d) = some v := by
  induction d with
  | nil => exact getItem_cons_same k v []
  | cons p d ih =>
    unfold setItem
    by_cases h : p.1 = k
    · rw [if_pos h, getItem_cons_same]
    · rw [if_neg h, getItem_cons_other _ _ h, ih]

theorem getItem_setItem_other {k k' : Str} (v : α) (d : List (Str × α)) (h : k' ≠ k) :
    getItem k' (setItem k v d) = getItem k' d := by
  induction d with
  | nil => exact getItem_cons_other v [] (Ne.symm h)
  | cons p d ih =>
    obtain ⟨key, w⟩ := p
    unfold setItem
    by_cases hp : key = k
    · subst hp
      rw [if_pos rfl, getItem_cons_other _ _ (Ne.symm h), getItem_cons_other _ _ (Ne.symm h)]
    · rw [if_neg hp]
      by_cases hk : key = k'
      · subst hk
        rw [getItem_cons_same, getItem_cons_same]
      · rw [getItem_cons_other _ _ hk, getItem_cons_other _ _ hk, ih]

/-- an update leaves the other keys as they are -/
theorem getItem_updateItems_other {k : Str} : ∀ {e d : List (Str × α)}, k ∉ e.map Prod.fst →
    getItem k (updateItems d e) = getItem k d
  | [], d, _ => rfl
  | p :: e, d, h => by
    rw [List.map_cons, List.mem_cons, not_or] at h
    show getItem k (updateItems (setItem p.1 p.2 d) e) = _
    rw [getItem_updateItems_other h.2, getItem_setItem_other _ _ h.1]

/-- an update by a dict is read before what was there -/
theorem getItem_updateItems {k : Str} : ∀ {e d : List (Str × α)}, (e.map Prod.fst).Nodup →
    getItem k (updateItems d e) = (getItem k e).or (getItem k d)
  | [], d, _ => rfl
  | (key, v) :: e, d, h => by
    rw [List.map_cons, List.nodup_cons] at h
    show getItem k (updateItems (setItem key v d) e) = _
    by_cases hk : key = k
    · subst hk
      rw [getItem_updateItems_other h.1, getItem_setItem_same, getItem_cons_same]
      rfl
    · rw [getItem_updateItems h.2, getItem_setItem_other _ _ (Ne.symm hk),
        getItem_cons_other _ _ hk]

theorem getItem_append (k : Str) (l m : List (Str × α)) :
    getItem k (l ++ m) = (getItem k l).or (getItem k m) := by
  unfold getItem
  rw [List.find?_append, Option.map_or]

theorem mem_of_getItem {k : Str} {v : α} {l : List (Str × α)}
    (h : getItem k l = some v) : (k, v) ∈ l := by
  unfold getItem at h
  obtain ⟨e, he, rfl⟩ := Option.map_eq_some_iff.mp h
  obtain rfl : e.1 = k := by simpa using List.find?_some he
  exact List.mem_of_find?_eq_some he

theorem getItem_none_of {k : Str} {l : List (Str × α)} (h : k ∉ l.map Prod.fst) :
    getItem k l = none := by
  rw [← Option.not_isSome_iff_eq_none, getItem_isSome, hasItem_iff]
  exact h

theorem setItem_ne_nil (k : Str) (v : α) (l : List (Str × α)) : setItem k v l ≠ [] := by
  cases l with
  | nil => exact List.cons_ne_nil _ _
  | cons p l =>
    unfold setItem
    split <;> exact List.cons_ne_nil _ _

theorem setItem_fresh {k : Str} (v : α) {l : List (Str × α)} (hk : k ∉ l.map Prod.fst) :
    setItem k v l = l ++ [(k, v)] := by
  induction l with
  | nil => rfl
  | cons p l ih =>
    rw [List.map_cons, List.mem_cons, not_or] at hk
    unfold setItem
    rw [if_neg (Ne.symm hk.1), ih hk.2]
    rfl

theorem length_setItem_le (k : Str) (v : α) (d : List (Str × α)) :
    (setItem k v d).length ≤ d.length + 1 := by
  rw [← List.length_map Prod.fst, keys_setItem]
  split
  · rw [List.length_map]
    omega
  · rw [List.length_append, List.length_map, List.length_singleton]

theorem mem_of_mem_setItem {k : Str} {v : α} {e : Str × α} : ∀ {d : List (Str × α)},
    e ∈ setItem k v d → e = (k, v) ∨ e ∈ d
  | [], h => .inl (List.mem_singleton.mp h)
  | p :: d, h => by
    unfold setItem at h
    split at h
    · exact (List.mem_cons.mp h).imp_right (List.mem_cons_of_mem _)
    · rcases List.mem_cons.mp h with rfl | h
      · exact .inr List.mem_cons_self
      · exact (mem_of_mem_setItem h).imp_right (List.mem_cons_of_mem _)

variable {k : Str} {v : α} {d : List (Str × α)}

theorem nodup_setItem (h : (d.map Prod.fst).Nodup) : ((setItem k v d).map Prod.fst).Nodup := by
  rw [keys_setItem]
  split
  · exact h
  · rename_i hk
    rw [hasItem_iff] at hk
    rw [List.nodup_append]
    refine ⟨h, List.nodup_cons.mpr ⟨List.not_mem_nil, List.nodup_nil⟩, fun a ha b hb => ?_⟩
    rintro rfl
    exact hk (List.mem_singleton.mp hb ▸ ha)

/-- the items of a dict after `d[k] = v` -/
theorem mem_setItem (h : (d.map Prod.fst).Nodup) {e : Str × α} :
    e ∈ setItem k v d ↔ e = (k, v) ∨ e ∈ d ∧ e.1 ≠ k := by
  induction d with
  | nil => simp [setItem]
  | cons p d ih =>
    rw [List.map_cons, List.nodup_cons] at h
    unfold setItem
    by_cases hp : p.1 = k
    · rw [if_pos hp, List.mem_cons, List.mem_cons]
      refine or_congr_right ⟨fun he => ⟨.inr he, fun hk => ?_⟩, ?_⟩
      · exact h.1 (hp.trans hk.symm ▸ List.mem_map_of_mem he)
      · rintro ⟨rfl | he, hk⟩
        · exact absurd hp hk
        · exact he
    · rw [if_neg hp, List.mem_cons, List.mem_cons, ih h.2]
      constructor
      · rintro (rfl | rfl | ⟨he, hk⟩)
        · exact .inr ⟨.inl rfl, hp⟩
        · exact .inl rfl
        · exact .inr ⟨.inr he, hk⟩
      · rintro (rfl | ⟨rfl | he, hk⟩)
        · exact .inr (.inl rfl)
        · exact .inl rfl
        · exact .inr (.inr ⟨he, hk⟩)

end

end SecAudit
