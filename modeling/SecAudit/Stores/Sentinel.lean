import SecAudit.Stores.Tiered
import Mathlib.Data.List.Dedup

/-!
# What the warm sentinel says

A sentinel answers a miss by itself, or sends the reader to Postgres.

* `Covers`          the scopes picked are members, or of a type the summary lists;
* `CoversText`      the same of the text in Redis;
* `covers_sentinel` the payload built from a list of rows covers the rows, once written and read.
-/

set_option linter.unusedVariables false

namespace SecAudit
open Py Prog

/-- `_warm_payload` of the scopes `m` of all active rows -/
def sentinel (m : List BlockScope) : List (Str × Json) :=
  warmPayload (m.map BlockScope.pair) (m.map BlockScope.scopeType)

section
variable (b : Builtins)

/-- the embedded members -/
def Members (data : List (Str × Json)) (ms : List (Str × Str)) : Prop :=
  ∃ v, Json.lookup (str "members") data = some v ∧ memberSet b v = .ok ms

/-- the scope types of the summary -/
def Types (data : List (Str × Json)) (allowed : List Json) : Prop :=
  Json.lookup (str "members") data = none ∧
  truthy b ((Json.lookup (str "truncated") data).getD .null) = true ∧
  toSet b (Json.lookup (str "types") data) = .ok allowed

/-- a miss on a scope in `B` is taken to Postgres -/
def Covers (B : BlockScope → Prop) (data : List (Str × Json)) : Prop :=
  (∃ ms, Members b data ms ∧ ∀ s, B s → s.pair ∈ ms) ∨
  ∃ allowed, Types b data allowed ∧ ∀ s, B s → inSet s.scopeType allowed = true

def CoversText (B : BlockScope → Prop) (text : Str) : Prop :=
  ∃ data, loads text = some (.obj data) ∧ Covers b B data

theorem Covers.mono {B B' : BlockScope → Prop} {data : List (Str × Json)} (h : Covers b B data)
    (hB : ∀ s, B' s → B s) : Covers b B' data := by
  rcases h with ⟨ms, hm, hc⟩ | ⟨allowed, ht, hc⟩
  · exact .inl ⟨ms, hm, fun s hs => hc s (hB s hs)⟩
  · exact .inr ⟨allowed, ht, fun s hs => hc s (hB s hs)⟩

theorem CoversText.mono {B B' : BlockScope → Prop} {text : Str} (h : CoversText b B text)
    (hB : ∀ s, B' s → B s) : CoversText b B' text := by
  obtain ⟨data, hl, hc⟩ := h
  exact ⟨data, hl, hc.mono b hB⟩

/-! ## the payload of a list of rows -/

theorem printable_dumpsWarm {data : List (Str × Json)} {text : Str}
    (h : RedisBlockStore.dumpsWarm data = .ok text) : Printable text := by
  unfold RedisBlockStore.dumpsWarm Json.dumps at h
  split at h
  · rename_i s hs
    obtain rfl := Except.ok.inj h
    obtain ⟨-, rfl⟩ := Option.ite_some_none_eq_some.mp hs
    exact Json.printable_render ascii_default _
  · cases h

theorem writableElems_map {ι : Type} {f : ι → Json} {finite : Bool}
    (h : ∀ x, (f x).writable finite = true) (l : List ι) :
    Json.writableElems finite (l.map f) = true := by
  induction l with
  | nil => rfl
  | cons x l ih =>
    rw [List.map_cons, Json.writableElems, h, ih]
    rfl

/-- a number with few enough digits for JSON -/
def Countable (n : Nat) : Prop := n < 10 ^ maxIntDigits

instance (n : Nat) : Decidable (Countable n) :=
  inferInstanceAs (Decidable (n < 10 ^ maxIntDigits))

theorem Countable.length_decimal {n : Nat} (h : Countable n) :
    (decimal n).length ≤ maxIntDigits := by
  unfold decimal
  rw [List.length_map]
  exact (Nat.length_toDigits_le_iff (by decide) (by decide)).mpr h

theorem dumpsWarm_sentinel {m : List BlockScope} (h : Countable m.length) :
    ∃ text, RedisBlockStore.dumpsWarm (sentinel m) = .ok text := by
  have hw : (Json.obj (sentinel m)).writable false = true := by
    unfold sentinel warmPayload
    have hv : (Json.int 2).writable false = true := by decide
    split
    · simp only [Json.writable, Json.writableItems, Bool.and_true]
      rw [writableElems_map (fun p => by rfl), Bool.and_true]
      exact hv
    · have hc : (Json.int ((m.map BlockScope.pair).length : Int)).writable false = true := by
        rw [List.length_map]
        show decide _ = true
        rw [decide_eq_true_eq, Int.natAbs_natCast]
        exact h.length_decimal
      have ht : (Json.arr ((sortedSet (m.map BlockScope.scopeType)).map .string)).writable false
          = true := writableElems_map (fun p => by rfl) _
      have hb : (Json.bool true).writable false = true := by rfl
      rw [Json.writable]
      simp only [Json.writableItems, hv, hb, hc, ht, Bool.and_true]
  refine ⟨(Json.obj (sentinel m)).render .default, ?_⟩
  unfold RedisBlockStore.dumpsWarm Json.dumps
  rw [show (!true) = false from rfl, if_pos hw]

theorem loads_dumpsWarm {data : List (Str × Json)} {text : Str}
    (h : RedisBlockStore.dumpsWarm data = .ok text) :
    loads text = some (.obj (Json.fuseItems data)) := by
  unfold RedisBlockStore.dumpsWarm Json.dumps at h
  split at h
  · rename_i s hs
    obtain rfl := Except.ok.inj h
    obtain ⟨hw, rfl⟩ := Option.ite_some_none_eq_some.mp hs
    exact loads_render valid_default hw
  · cases h

theorem fuseElems_map {ι : Type} (f : ι → Json) (l : List ι) :
    Json.fuseElems (l.map f) = l.map fun x => (f x).fuse := by
  induction l with
  | nil => rfl
  | cons x l ih =>
    rw [List.map_cons, List.map_cons, Json.fuseElems, ih]

/-- the members as they come back -/
theorem memberSet_pairs (l : List (Str × Str)) :
    memberSet b (.arr (l.map fun m => .arr [.string m.1, .string m.2])) = .ok l := by
  show (l.map fun m => Json.arr [.string m.1, .string m.2]).mapM (memberPair b) = .ok l
  induction l with
  | nil => rfl
  | cons m l ih =>
    rw [List.map_cons, List.mapM_cons, ih]
    rfl

theorem inSet_strings {t : Str} {l : List Str} :
    inSet t (l.map .string) = true ↔ t ∈ l := by
  unfold inSet
  rw [List.any_map, List.any_eq_true]
  constructor
  · rintro ⟨s, hs, h⟩
    have : s = t := by simpa using h
    rwa [← this]
  · intro h
    exact ⟨t, h, by simp⟩

theorem mem_sortedSet {t : Str} {l : List Str} : t ∈ sortedSet l ↔ t ∈ l := by
  unfold sortedSet
  rw [List.mem_mergeSort, List.mem_dedup]

theorem toSet_strings (l : List Str) :
    toSet b (some (.arr (l.map .string))) = .ok (l.map .string) := by
  cases l with
  | nil => rfl
  | cons s l =>
    have hall : ((s :: l).map Json.string).all hashable = true := by
      rw [List.all_map, List.all_eq_true]
      intro x hx
      rfl
    show (if ((s :: l).map Json.string).all hashable = true then _ else _) = _
    rw [if_pos hall]
    rfl

theorem sentinel_members {m : List BlockScope} (h : m.length ≤ warmEmbedCap) :
    Members b (Json.fuseItems (sentinel m))
      (m.map fun s => (fuse s.scopeType, fuse s.scopeValue)) := by
  unfold sentinel warmPayload
  rw [if_pos (by rwa [List.length_map])]
  refine ⟨.arr ((m.map fun s => (fuse s.scopeType, fuse s.scopeValue)).map
    fun p => .arr [.string p.1, .string p.2]), ?_, memberSet_pairs b _⟩
  show some (Json.fuse (.arr _)) = _
  rw [Json.fuse, List.map_map, fuseElems_map, List.map_map]
  rfl

theorem sentinel_types {m : List BlockScope} (h : ¬ m.length ≤ warmEmbedCap) :
    Types b (Json.fuseItems (sentinel m))
      ((sortedSet (m.map BlockScope.scopeType)).map fun t => .string (fuse t)) := by
  unfold sentinel warmPayload
  rw [if_neg (by rwa [List.length_map])]
  refine ⟨rfl, rfl, ?_⟩
  show toSet b (some (Json.fuse (.arr _))) = _
  rw [Json.fuse, fuseElems_map]
  show toSet b (some (.arr (List.map (fun t => Json.string (fuse t)) _))) = _
  have := toSet_strings b ((sortedSet (m.map BlockScope.scopeType)).map fuse)
  rwa [List.map_map] at this

/-- **a sentinel written from a list of rows covers them** -/
theorem covers_sentinel {m : List BlockScope} {text : Str} {B : BlockScope → Prop}
    (h : RedisBlockStore.dumpsWarm (sentinel m) = .ok text)
    (hB : ∀ s, B s → s ∈ m ∧ s.encodable = true) : CoversText b B text := by
  have hfuse : ∀ s, B s → fuse s.scopeType = s.scopeType ∧ fuse s.scopeValue = s.scopeValue := by
    intro s hs
    have he := (hB s hs).2
    unfold BlockScope.encodable at he
    rw [Bool.and_eq_true] at he
    exact ⟨fuse_of_encodable he.1, fuse_of_encodable he.2⟩
  refine ⟨_, loads_dumpsWarm h, ?_⟩
  by_cases hlen : m.length ≤ warmEmbedCap
  · refine .inl ⟨_, sentinel_members b hlen, fun s hs => ?_⟩
    refine List.mem_map.mpr ⟨s, (hB s hs).1, ?_⟩
    rw [(hfuse s hs).1, (hfuse s hs).2]
    rfl
  · refine .inr ⟨_, sentinel_types b hlen, fun s hs => ?_⟩
    have hmem : s.scopeType ∈ (sortedSet (m.map BlockScope.scopeType)).map fuse := by
      refine List.mem_map.mpr ⟨s.scopeType, mem_sortedSet.mpr ?_, (hfuse s hs).1⟩
      exact List.mem_map.mpr ⟨s, (hB s hs).1, rfl⟩
    have := inSet_strings.mpr hmem
    rwa [List.map_map] at this

end

end SecAudit
