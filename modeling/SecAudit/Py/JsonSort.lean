import Mathlib.Data.List.Lex
import Mathlib.Data.List.Sort
import SecAudit.Py.JsonParse

/-!
# JSON with its keys in order

* `Json.sortKeys`   what `sort_keys=True` writes: the items of every object by their keys;
* `sortByKey`       the items by their keys; `sortByKey_perm`;
* `Json.sortKeys_sortKeys`  sorting twice is sorting once.
-/

set_option linter.unusedVariables false

namespace Py

/-- the keys are in order -/
def keyLE (p q : Str × Json) : Prop := p.1 ≤ q.1

instance : DecidableRel keyLE := fun p q => inferInstanceAs (Decidable (p.1 ≤ q.1))

instance : IsTrans (Str × Json) keyLE := ⟨fun _ _ _ h h' => le_trans h h'⟩

instance : Std.Total keyLE := ⟨fun p q => le_total p.1 q.1⟩

def sortByKey (l : List (Str × Json)) : List (Str × Json) := l.insertionSort keyLE

mutual
def Json.sortKeys : Json → Json
  | .arr l => .arr (Json.sortElems l)
  | .obj l => .obj (sortByKey (Json.sortItems l))
  | v => v

def Json.sortElems : List Json → List Json
  | [] => []
  | v :: l => v.sortKeys :: Json.sortElems l

/-- the values sorted, the items where they were -/
def Json.sortItems : List (Str × Json) → List (Str × Json)
  | [] => []
  | (k, v) :: l => (k, v.sortKeys) :: Json.sortItems l
end

/-- the items of an object that is sorted -/
def sortRow (l : List (Str × Json)) : List (Str × Json) := sortByKey (Json.sortItems l)

theorem sortByKey_perm (l : List (Str × Json)) : (sortByKey l).Perm l :=
  List.perm_insertionSort keyLE l

theorem sortByKey_sortByKey (l : List (Str × Json)) : sortByKey (sortByKey l) = sortByKey l :=
  (List.pairwise_insertionSort keyLE l).insertionSort_eq

theorem sortItems_eq_map (l : List (Str × Json)) :
    Json.sortItems l = l.map fun p => (p.1, p.2.sortKeys) := by
  induction l with
  | nil => rfl
  | cons p l ih =>
    obtain ⟨k, v⟩ := p
    rw [Json.sortItems, ih]
    rfl

theorem sortItems_sortByKey (l : List (Str × Json)) :
    Json.sortItems (sortByKey l) = sortByKey (Json.sortItems l) := by
  rw [sortItems_eq_map, sortItems_eq_map]
  exact List.map_insertionSort keyLE keyLE _ l fun p _ q _ => Iff.rfl

mutual
theorem Json.sortKeys_sortKeys : ∀ v : Json, v.sortKeys.sortKeys = v.sortKeys
  | .arr l => congrArg Json.arr (sortElems_sortElems l)
  | .obj l => by
    show Json.obj (sortByKey (Json.sortItems (sortByKey (Json.sortItems l)))) = _
    rw [sortItems_sortByKey, sortItems_sortItems l, sortByKey_sortByKey]
    rfl
  | .null => rfl
  | .bool _ => rfl
  | .int _ => rfl
  | .float _ => rfl
  | .const _ => rfl
  | .string _ => rfl

theorem Json.sortElems_sortElems : ∀ l : List Json,
    Json.sortElems (Json.sortElems l) = Json.sortElems l
  | [] => rfl
  | v :: l => by
    rw [Json.sortElems, Json.sortElems, v.sortKeys_sortKeys, sortElems_sortElems l]

theorem Json.sortItems_sortItems : ∀ l : List (Str × Json),
    Json.sortItems (Json.sortItems l) = Json.sortItems l
  | [] => rfl
  | (k, v) :: l => by
    rw [Json.sortItems, Json.sortItems, v.sortKeys_sortKeys, sortItems_sortItems l]
end

theorem sortRow_sortRow (l : List (Str × Json)) : sortRow (sortRow l) = sortRow l := by
  unfold sortRow
  rw [sortItems_sortByKey, Json.sortItems_sortItems, sortByKey_sortByKey]

theorem mem_sortRow {k : Str} {v : Json} {l : List (Str × Json)} :
    (k, v) ∈ sortRow l ↔ ∃ u, (k, u) ∈ l ∧ u.sortKeys = v := by
  unfold sortRow
  rw [(sortByKey_perm _).mem_iff, sortItems_eq_map, List.mem_map]
  constructor
  · rintro ⟨p, hp, he⟩
    rw [Prod.mk.injEq] at he
    exact ⟨p.2, he.1 ▸ hp, he.2⟩
  · rintro ⟨u, hu, rfl⟩
    exact ⟨(k, u), hu, rfl⟩

theorem keys_sortRow (l : List (Str × Json)) :
    ((sortRow l).map Prod.fst).Perm (l.map Prod.fst) := by
  have hk : (Json.sortItems l).map Prod.fst = l.map Prod.fst := by
    rw [sortItems_eq_map, List.map_map]
    rfl
  rw [← hk]
  exact (sortByKey_perm _).map Prod.fst

end Py
