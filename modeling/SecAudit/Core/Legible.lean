import SecAudit.Core.Plain
import SecAudit.Core.Shown

/-!
# Which numbers are shown

* `overwritten`     an item that a later one, or the marker, takes the place of;
* `legible`         every number that the redaction and the limits show has few enough digits;
* `writable_project`  that is when what is made of a JSON value can be written.
-/

set_option linter.unusedVariables false

namespace SecAudit
open Py

/-! ## numbers that are shown -/

section
variable (red : Redaction) (limits : ProjectionLimits)

/-- what is written under `t` gives way to one of the items, or to the marker -/
def overwritten {α : Type} (room : Nat) (l : List (Str × α)) (t : Str) : Bool :=
  decide (t ∈ (l.take room).map fun e => limitKey limits e.1) ||
    (decide (room < l.length) && decide (t = str "_truncated"))

mutual
/-- the numbers that are shown of a value at `depth` have few enough digits -/
def legible (depth : Nat) (v : Json) : Bool :=
  decide (limits.maxDepth ≤ depth) || match v with
    | .int i => (Json.int i).writable true
    | .arr l => legibleElems (depth + 1) limits.maxSequenceLength l
    | .obj l => legibleItems (depth + 1) limits.maxMappingEntries l
    | _ => true
termination_by structural v

def legibleItems (depth room : Nat) : List (Str × Json) → Bool
  | [] => true
  | (k, v) :: l => match room with
    | 0 => true
    | room + 1 => (overwritten limits room l (limitKey limits k) ||
        (red.sensitiveNorm (normalizeKey k) || legible depth v)) && legibleItems depth room l
termination_by structural l => l

def legibleElems (depth room : Nat) : List Json → Bool
  | [] => true
  | v :: l => match room with
    | 0 => true
    | room + 1 => legible depth v && legibleElems depth room l
termination_by structural l => l
end

variable {red limits}

theorem overwritten_nil {α : Type} (room : Nat) (t : Str) :
    overwritten limits room ([] : List (Str × α)) t = false := by
  unfold overwritten
  simp

/-- without room, what is called like the marker -/
theorem overwritten_zero {α : Type} (e : Str × α) (l : List (Str × α)) (t : Str) :
    overwritten limits 0 (e :: l) t = decide (t = str "_truncated") := by
  unfold overwritten
  simp

theorem overwritten_cons {α : Type} (room : Nat) (e : Str × α) (l : List (Str × α)) (t : Str) :
    overwritten limits (room + 1) (e :: l) t
      = (decide (t = limitKey limits e.1) || overwritten limits room l t) := by
  unfold overwritten
  rw [List.take_succ_cons, List.map_cons, Bool.eq_iff_iff]
  simp only [List.mem_cons, List.length_cons, Nat.succ_lt_succ_iff, Bool.or_eq_true,
    Bool.and_eq_true, decide_eq_true_eq]
  rw [or_assoc]

section
variable {α β : Type} {e : Str × α} {l : List (Str × α)} {room : Nat} {item : β}
  {projected : List (Str × β)} {P : Str × β → Prop} (hnd : (projected.map Prod.fst).Nodup)
include hnd

/-- what is kept when the marker is written -/
theorem kept_marked (hitem : P (str "_truncated", item)) :
    (∀ f ∈ setItem (str "_truncated") item projected, P f) ↔
      ∀ f ∈ projected, overwritten limits 0 (e :: l) f.1 = false → P f := by
  constructor
  · intro h f hf hover
    rw [overwritten_zero, decide_eq_false_iff_not] at hover
    exact h f ((mem_setItem hnd).mpr (.inr ⟨hf, hover⟩))
  · intro h f hf
    rcases (mem_setItem hnd).mp hf with rfl | ⟨hf, hk⟩
    · exact hitem
    · exact h f hf (by rw [overwritten_zero, decide_eq_false hk])

/-- what is kept when an item is written before others -/
theorem kept_setItem : (∀ f ∈ setItem (limitKey limits e.1) item projected,
      overwritten limits room l f.1 = false → P f) ↔
    (∀ f ∈ projected, overwritten limits (room + 1) (e :: l) f.1 = false → P f) ∧
      (overwritten limits room l (limitKey limits e.1) = true ∨ P (limitKey limits e.1, item)) := by
  constructor
  · intro h
    refine ⟨fun f hf hover => ?_, ?_⟩
    · rw [overwritten_cons, Bool.or_eq_false_iff, decide_eq_false_iff_not] at hover
      exact h f ((mem_setItem hnd).mpr (.inr ⟨hf, hover.1⟩)) hover.2
    · rcases hover : overwritten limits room l (limitKey limits e.1) with _ | _
      · exact .inr (h _ ((mem_setItem hnd).mpr (.inl rfl)) hover)
      · exact .inl rfl
  · rintro ⟨hrest, hnew⟩ f hf hover
    rcases (mem_setItem hnd).mp hf with rfl | ⟨hf, hk⟩
    · refine hnew.resolve_left fun h => ?_
      rw [h] at hover
      cases hover
    · exact hrest f hf (by rw [overwritten_cons, hover, decide_eq_false hk]; rfl)

end

theorem string_written {n d : Nat} {s : Str} {j : Json}
    (h : project limits true n d (.str s) = .ok j) : j.writable true = true := by
  unfold project at h
  split at h
  · cases h
    rfl
  · cases h
    rfl

mutual
/-- **what is made of a JSON value can be written when the numbers that are shown are short** -/
theorem writable_project : ∀ (v : Json) (m n d : Nat) (w : Value) (j : Json),
    scrub red m (Value.ofJson v) = .ok w → project limits true n d w = .ok j →
    j.writable true = legible red limits d v
  | v, m, n, d, w, j, hs, hp => by
    unfold project at hp
    unfold legible
    by_cases hd : limits.maxDepth ≤ d
    · rw [if_pos hd] at hp
      cases hp
      rw [decide_eq_true hd]
      rfl
    rw [if_neg hd] at hp
    rw [decide_eq_false hd, Bool.false_or]
    cases v with
    | null => cases hs; cases hp; rfl
    | bool b => cases hs; cases hp; rfl
    | int i => cases hs; cases hp; rfl
    | float f => cases hs; cases hp; rfl
    | const c => cases hs; cases hp
    | string s => cases hs; cases hp; rfl
    | arr l =>
      cases m with
      | zero => cases hs
      | succ m =>
        obtain ⟨l', hl, rfl⟩ := ok_of_map hs
        cases n with
        | zero => cases hp
        | succ n =>
          obtain ⟨out, ho, rfl⟩ := ok_of_map hp
          exact writable_projectElems l m n (d + 1) _ l' out hl ho
    | obj l =>
      cases m with
      | zero => cases hs
      | succ m =>
        obtain ⟨l', hl, rfl⟩ := ok_of_map hs
        cases n with
        | zero => cases hp
        | succ n =>
          obtain ⟨out, ho, rfl⟩ := ok_of_map hp
          have h := writable_projectItems l m n (d + 1) _ l' [] out hl ho List.nodup_nil
          rw [Bool.eq_iff_iff]
          exact h.trans (and_iff_right fun e he => absurd he List.not_mem_nil)

theorem writable_projectItems : ∀ (l : List (Str × Json)) (m n d room : Nat)
    (l' : List (Key × Value)) (projected out : List (Str × Json)),
    scrubItems red m (Value.ofItems l) = .ok l' →
    projectItems limits true n d room projected l' = .ok out → (projected.map Prod.fst).Nodup →
    (Json.writableItems true out = true ↔
      (∀ e ∈ projected, overwritten limits room l e.1 = false → e.2.writable true = true) ∧
      legibleItems red limits d room l = true)
  | [], m, n, d, room, l', projected, out, hs, hp, _ => by
    cases hs
    have ho : out = projected := by
      cases room <;> cases hp <;> rfl
    rw [ho, Json.writableItems_iff]
    refine (and_iff_left rfl).symm.trans (and_congr_left' (forall₂_congr fun e he => ?_))
    exact ⟨fun h _ => h, fun h => h (overwritten_nil room e.1)⟩
  | (k, v) :: l, m, n, d, 0, l', projected, out, hs, hp, hnd => by
    -- there is no room: the marker takes the place of what is called like it
    obtain ⟨w, t, rfl, -, -⟩ := scrubItems_cons_ok hs
    cases hp
    rw [Json.writableItems_iff, legibleItems]
    have hmark : (Json.string TRUNCATED).writable true = true := rfl
    exact (kept_marked (P := fun e => e.2.writable true = true) hnd hmark).trans
      (and_iff_left rfl).symm
  | (k, v) :: l, m, n, d, room + 1, l', projected, out, hs, hp, hnd => by
    obtain ⟨w, t, rfl, ht, hw⟩ := scrubItems_cons_ok hs
    obtain ⟨s, j, hkey, hj, hp⟩ := projectItems_cons_ok hp
    obtain rfl := Except.ok.inj hkey
    replace hp : projectItems limits true n d room (setItem (limitKey limits k) j projected) t
      = .ok out := hp
    -- the item itself
    have hitem : j.writable true
        = (red.sensitiveNorm (normalizeKey k) || legible red limits d v) := by
      rcases hw with ⟨hk, rfl⟩ | ⟨hk, hv⟩
      · rw [show red.sensitiveNorm (normalizeKey k) = true from Except.ok.inj hk, string_written hj]
        rfl
      · rw [show red.sensitiveNorm (normalizeKey k) = false from Except.ok.inj hk,
          writable_project v m n d w j hv hj]
        rfl
    rw [writable_projectItems l m n d room t _ out ht hp (nodup_setItem hnd), legibleItems,
      Bool.and_eq_true, Bool.or_eq_true, ← hitem, ← and_assoc]
    exact and_congr_left' (kept_setItem (e := (k, v)) hnd)

theorem writable_projectElems : ∀ (l : List Json) (m n d room : Nat) (l' : List Value)
    (out : List Json), scrubElems red m (Value.ofElems l) = .ok l' →
    projectElems limits true n d room l' = .ok out →
    Json.writableElems true out = legibleElems red limits d room l
  | [], m, n, d, room, l', out, hs, hp => by
    cases hs
    cases room <;> cases hp <;> rfl
  | v :: l, m, n, d, room, l', out, hs, hp => by
    obtain ⟨w, t, rfl, hv, hl⟩ := scrubElems_cons_ok hs
    cases room with
    | zero =>
      cases hp
      rfl
    | succ room =>
      obtain ⟨j, items, rfl, hj, ht⟩ := projectElems_cons_ok hp
      rw [Json.writableElems, legibleElems, writable_project v m n d w j hv hj,
        writable_projectElems l m n d room t items hl ht]
end

end

/-! ## short numbers -/

mutual
/-- every integer has at most `n` digits -/
def shortInts (n : Nat) : Json → Bool
  | .int i => decide ((decimal i.natAbs).length ≤ n)
  | .arr l => shortElems n l
  | .obj l => shortItems n l
  | _ => true

def shortElems (n : Nat) : List Json → Bool
  | [] => true
  | v :: l => shortInts n v && shortElems n l

def shortItems (n : Nat) : List (Str × Json) → Bool
  | [] => true
  | (_, v) :: l => shortInts n v && shortItems n l
end

section
variable {red : Redaction} {limits : ProjectionLimits} {b : Nat}

mutual
theorem legible_of_short (hb : b ≤ maxIntDigits) : ∀ (v : Json) (d : Nat), shortInts b v = true →
    legible red limits d v = true
  | v, d, h => by
    unfold legible
    rw [Bool.or_eq_true]
    right
    cases v with
    | int i => exact decide_eq_true ((of_decide_eq_true h).trans hb)
    | arr l => exact legibleElems_of_short hb l (d + 1) _ h
    | obj l => exact legibleItems_of_short hb l (d + 1) _ h
    | _ => rfl

theorem legibleItems_of_short (hb : b ≤ maxIntDigits) : ∀ (l : List (Str × Json)) (d room : Nat),
    shortItems b l = true → legibleItems red limits d room l = true
  | [], _, _, _ => rfl
  | (k, v) :: l, d, 0, _ => rfl
  | (k, v) :: l, d, room + 1, h => by
    rw [shortItems, Bool.and_eq_true] at h
    rw [legibleItems, legible_of_short hb v d h.1, legibleItems_of_short hb l d room h.2,
      Bool.or_true, Bool.or_true]
    rfl

theorem legibleElems_of_short (hb : b ≤ maxIntDigits) : ∀ (l : List Json) (d room : Nat),
    shortElems b l = true → legibleElems red limits d room l = true
  | [], _, _, _ => rfl
  | v :: l, d, 0, _ => rfl
  | v :: l, d, room + 1, h => by
    rw [shortElems, Bool.and_eq_true] at h
    rw [legibleElems, legible_of_short hb v d h.1, legibleElems_of_short hb l d room h.2]
    rfl
end

theorem shortInts_of_mem {l : List (Str × Json)} (h : shortItems b l = true) {e : Str × Json}
    (he : e ∈ l) : shortInts b e.2 = true := by
  induction l with
  | nil => exact absurd he List.not_mem_nil
  | cons p l ih =>
    rw [shortItems, Bool.and_eq_true] at h
    rcases List.mem_cons.mp he with rfl | he
    · exact h.1
    · exact ih h.2 he

/-- nothing is redacted without keywords and patterns -/
theorem scrubItems_none {m : Nat} {k : Str} {v : Value} {l t : List (Key × Value)}
    (hv : scrub .none m v = .ok v) (hl : scrubItems .none m l = .ok t) :
    scrubItems .none m ((.str k, v) :: l) = .ok ((.str k, v) :: t) := by
  have hk : Redaction.none.sensitiveNorm (normalizeKey k) = false := Bool.and_false _
  rw [scrubItems, show Redaction.none.isSensitiveKey (.str k) = .ok _ from rfl]
  simp only [bind, Except.bind, hk, hv, hl, Bool.false_eq_true, if_false]
  rfl

mutual
theorem scrub_none : ∀ (v : Json) (m : Nat), depth v ≤ m →
    scrub .none m (Value.ofJson v) = .ok (Value.ofJson v)
  | .null, _, _ => rfl
  | .bool _, _, _ => rfl
  | .int _, _, _ => rfl
  | .float _, _, _ => rfl
  | .const _, _, _ => rfl
  | .string _, _, _ => rfl
  | .arr l, 0, h => absurd h (Nat.not_succ_le_zero _)
  | .obj l, 0, h => absurd h (Nat.not_succ_le_zero _)
  | .arr l, m + 1, h =>
    congrArg (Except.map Value.seq) (scrub_none_elems l m (Nat.le_of_succ_le_succ h))
  | .obj l, m + 1, h =>
    congrArg (Except.map Value.mapping) (scrub_none_items l m (Nat.le_of_succ_le_succ h))

theorem scrub_none_elems : ∀ (l : List Json) (m : Nat), depthElems l ≤ m →
    scrubElems .none m (Value.ofElems l) = .ok (Value.ofElems l)
  | [], _, _ => rfl
  | v :: l, m, h => by
    rw [Value.ofElems, scrubElems, scrub_none v m ((Nat.le_max_left ..).trans h),
      scrub_none_elems l m ((Nat.le_max_right ..).trans h)]
    rfl

theorem scrub_none_items : ∀ (l : List (Str × Json)) (m : Nat), depthItems l ≤ m →
    scrubItems .none m (Value.ofItems l) = .ok (Value.ofItems l)
  | [], _, _ => rfl
  | (k, v) :: l, m, h => scrubItems_none (scrub_none v m ((Nat.le_max_left ..).trans h))
      (scrub_none_items l m ((Nat.le_max_right ..).trans h))
end

/-- **what is made of short numbers can be written** -/
theorem writable_of_short (hb : b ≤ maxIntDigits) {v : Json} (hv : shortInts b v = true) {n d : Nat}
    {j : Json} (hj : project limits true n d (Value.ofJson v) = .ok j) : j.writable true = true := by
  rw [writable_project v (depth v) n d _ j (scrub_none v _ le_rfl) hj]
  exact legible_of_short hb v d hv

end

end SecAudit
