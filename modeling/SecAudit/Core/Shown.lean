import SecAudit.Core.Coverage

/-!
# What the scrubber and the projection make of a mapping together

* `survives`        the projection gets through what the scrubber makes of a value;
* `presents_scrub`  that is what the two do one after the other;
* `lastAs`          the last item of a mapping that is written under a name, as far as there is room;
* `projectItems_last`  that item is what is found under the name.
-/

set_option linter.unusedVariables false

namespace SecAudit
open Py

/-! ## one after the other -/

section
variable (red : Redaction) (limits : ProjectionLimits) (strict : Bool)

mutual
/-- the projection gets through what the scrubber makes of the value at `depth` -/
def survives (frames depth : Nat) (v : Value) : Bool :=
  decide (limits.maxDepth ≤ depth) || match v with
    | .const _ => !strict
    | .enum _ v => match frames with
      | 0 => false
      | n + 1 => presents limits strict n 0 v
    | .mapping l => match frames with
      | 0 => false
      | n + 1 => survivesItems n (depth + 1) limits.maxMappingEntries l
    | .seq l => match frames with
      | 0 => false
      | n + 1 => survivesElems n (depth + 1) limits.maxSequenceLength l
    | .object _ _ => !strict
    | _ => true
termination_by structural v

def survivesItems (frames depth room : Nat) : List (Key × Value) → Bool
  | [] => true
  | (k, v) :: l => match room with
    | 0 => true
    | room + 1 => (match red.isSensitiveKey k with
      | .error _ => false
      | .ok sensitive => sensitive || survives frames depth v) && survivesItems frames depth room l
termination_by structural l => l

def survivesElems (frames depth room : Nat) : List Value → Bool
  | [] => true
  | v :: l => match room with
    | 0 => true
    | room + 1 => survives frames depth v && survivesElems frames depth room l
termination_by structural l => l
end

variable {red limits strict}

theorem presents_str (s : Str) (n d : Nat) : presents limits strict n d (.str s) = true := by
  unfold presents
  exact Bool.or_true _

theorem isOk_text {k : Key} {sensitive : Bool} (h : red.isSensitiveKey k = .ok sensitive) :
    isOk k.text = true := by
  obtain ⟨t, ht, -⟩ := ok_of_bind h
  rw [ht]
  rfl

mutual
/-- **what the projection gets through after the scrubber** -/
theorem presents_scrub : ∀ (v w : Value) (m n d : Nat), scrub red m v = .ok w →
    presents limits strict n d w = survives red limits strict n d v
  | .none, _, _, _, _, h => by cases h; unfold presents survives; rfl
  | .bool _, _, _, _, _, h => by cases h; unfold presents survives; rfl
  | .int _, _, _, _, _, h => by cases h; unfold presents survives; rfl
  | .float _, _, _, _, _, h => by cases h; unfold presents survives; rfl
  | .const _, _, _, _, _, h => by cases h; unfold presents survives; rfl
  | .str _, _, _, _, _, h => by cases h; unfold presents survives; rfl
  | .bytes _ _, _, _, _, _, h => by cases h; unfold presents survives; rfl
  | .loop _, _, _, _, _, h => by cases h; unfold presents survives; rfl
  | .text _ _, _, _, _, _, h => by cases h; unfold presents survives; rfl
  | .enum _ _, _, _, _, _, h => by cases h; unfold presents survives; rfl
  | .object _ _, _, _, _, _, h => by cases h; unfold presents survives; rfl
  | .set _, _, _, _, _, h => by cases h
  | .broken _, _, _, _, _, h => by cases h
  | .mapping l, w, 0, n, d, h => by cases h
  | .seq l, w, 0, n, d, h => by cases h
  | .mapping l, w, m + 1, n, d, h => by
    obtain ⟨l', hl, rfl⟩ := ok_of_map h
    unfold presents survives
    cases n with
    | zero => rfl
    | succ n =>
      dsimp only
      rw [presents_scrubItems l l' m n (d + 1) _ hl]
  | .seq l, w, m + 1, n, d, h => by
    obtain ⟨l', hl, rfl⟩ := ok_of_map h
    unfold presents survives
    cases n with
    | zero => rfl
    | succ n =>
      dsimp only
      rw [presents_scrubElems l l' m n (d + 1) _ hl]

theorem presents_scrubItems : ∀ (l l' : List (Key × Value)) (m n d room : Nat),
    scrubItems red m l = .ok l' →
    presentsItems limits strict n d room l' = survivesItems red limits strict n d room l
  | [], _, _, _, _, _, h => by
    cases h
    rfl
  | (k, v) :: l, l', m, n, d, room, h => by
    obtain ⟨w, t, rfl, hl, hitem⟩ := scrubItems_cons_ok h
    cases room with
    | zero => rfl
    | succ room =>
      rcases hitem with ⟨hk, rfl⟩ | ⟨hk, hv⟩
      · rw [presentsItems, survivesItems, hk, isOk_text hk, presents_str, Bool.true_and,
          Bool.true_and, presents_scrubItems l t m n d room hl]
        rfl
      · rw [presentsItems, survivesItems, hk, isOk_text hk, Bool.true_and,
          presents_scrub v w m n d hv, presents_scrubItems l t m n d room hl]
        rfl

theorem presents_scrubElems : ∀ (l l' : List Value) (m n d room : Nat),
    scrubElems red m l = .ok l' →
    presentsElems limits strict n d room l' = survivesElems red limits strict n d room l
  | [], _, _, _, _, _, h => by
    cases h
    rfl
  | v :: l, l', m, n, d, room, h => by
    obtain ⟨w, t, rfl, hv, hl⟩ := scrubElems_cons_ok h
    cases room with
    | zero => rfl
    | succ room =>
      rw [presentsElems, survivesElems, presents_scrub v w m n d hv,
        presents_scrubElems l t m n d room hl]
end

end

/-! ## what is found under a key -/

section
variable {limits : ProjectionLimits} {strict : Bool}

/-- a key as the projection writes it -/
def limitKey (limits : ProjectionLimits) (k : Str) : Str := limitString k limits.maxStringLength

/-- an item under a string key -/
def strItem (e : Str × Value) : Key × Value := (.str e.1, e.2)

/-- the projection writes the item under `name` -/
def readsAs (limits : ProjectionLimits) (name : Str) (e : Key × Value) : Bool :=
  match e.1.text with
  | .ok t => decide (limitString t limits.maxStringLength = name)
  | .error _ => false

/-- the last of the first `room` items that is written under `name` -/
def lastAs (limits : ProjectionLimits) (name : Str) :
    Nat → List (Key × Value) → Option (Key × Value)
  | _, [] => none
  | 0, _ => none
  | room + 1, e :: l => (lastAs limits name room l).or (if readsAs limits name e then some e else none)

variable {name : Str}

theorem readsAs_of_lastAs {e : Key × Value} : ∀ {l : List (Key × Value)} {room : Nat},
    lastAs limits name room l = some e → readsAs limits name e = true
  | [], room, h => by cases room <;> cases h
  | _ :: _, 0, h => by cases h
  | x :: l, room + 1, h => by
    rw [lastAs, Option.or_eq_some_iff] at h
    rcases h with h | ⟨-, h⟩
    · exact readsAs_of_lastAs h
    · obtain ⟨hx, rfl⟩ := Option.ite_some_none_eq_some.mp h
      exact hx

/-- **the last item that is written under a name is what it holds**, unless it is the mark of the
items there is no room for -/
theorem projectItems_last {n d : Nat} : ∀ {l : List (Key × Value)} {room : Nat}
    {projected out : List (Str × Json)}, (room < l.length → name ≠ str "_truncated") →
    projectItems limits strict n d room projected l = .ok out →
    (lastAs limits name room l = none → getItem name out = getItem name projected) ∧
    ∀ e, lastAs limits name room l = some e →
      ∃ j, project limits strict n d e.2 = .ok j ∧ getItem name out = some j
  | [], room, projected, out, _, h => by
    cases room <;> cases h <;> exact ⟨fun _ => rfl, nofun⟩
  | (k, v) :: l, 0, projected, out, hname, h => by
    cases h
    exact ⟨fun _ => getItem_setItem_other _ _ (hname (Nat.succ_pos _)), nofun⟩
  | (k, v) :: l, room + 1, projected, out, hname, h => by
    obtain ⟨t, j, ht, hj, h⟩ := projectItems_cons_ok h
    obtain ⟨hnone, hsome⟩ := projectItems_last (fun hlt => hname (Nat.succ_lt_succ hlt)) h
    have hreads : readsAs limits name (k, v)
        = decide (limitString t limits.maxStringLength = name) := by
      unfold readsAs
      rw [ht]
    rw [lastAs, hreads]
    cases hl : lastAs limits name room l with
    | some e =>
      rw [Option.some_or]
      exact ⟨nofun, fun e' he' => hsome e' (hl.trans he')⟩
    | none =>
      rw [Option.none_or, hnone hl]
      by_cases hk : limitString t limits.maxStringLength = name
      · rw [if_pos (decide_eq_true hk), hk]
        refine ⟨nofun, fun e he => ?_⟩
        obtain rfl := Option.some.inj he
        exact ⟨j, hj, getItem_setItem_same ..⟩
      · rw [if_neg (by simpa using hk)]
        exact ⟨fun _ => getItem_setItem_other _ _ (Ne.symm hk), nofun⟩

/-- scrubbing keeps which item is the last -/
theorem lastAs_scrubbed {red : Redaction} {n : Nat} {l l' : List (Key × Value)}
    (h : List.Forall₂ (ItemScrubbed red n) l l') : ∀ room,
    (lastAs limits name room l = none → lastAs limits name room l' = none) ∧
    ∀ e, lastAs limits name room l = some e →
      ∃ e', lastAs limits name room l' = some e' ∧ ItemScrubbed red n e e' := by
  induction h with
  | nil => exact fun room => by cases room <;> exact ⟨fun _ => rfl, nofun⟩
  | @cons x x' l l' hx _ ih =>
    intro room
    cases room with
    | zero => exact ⟨fun _ => rfl, nofun⟩
    | succ room =>
      obtain ⟨hnone, hsome⟩ := ih room
      have hreads : readsAs limits name x' = readsAs limits name x := by
        unfold readsAs
        rw [hx.1]
      rw [lastAs, lastAs, hreads]
      cases hl : lastAs limits name room l with
      | some e =>
        obtain ⟨e', he', hs⟩ := hsome e hl
        rw [he', Option.some_or, Option.some_or]
        refine ⟨nofun, fun y hy => ?_⟩
        obtain rfl := Option.some.inj hy
        exact ⟨e', rfl, hs⟩
      | none =>
        rw [hnone hl, Option.none_or, Option.none_or]
        split
        · refine ⟨nofun, fun y hy => ?_⟩
          obtain rfl := Option.some.inj hy
          exact ⟨x', rfl, hx⟩
        · exact ⟨fun _ => rfl, nofun⟩

theorem scrubItems_single {red : Redaction} {n : Nat} {e e' : Key × Value}
    (h : ItemScrubbed red n e e') : scrubItems red n [e] = .ok [e'] := by
  obtain ⟨k, v⟩ := e
  obtain ⟨k', v'⟩ := e'
  obtain ⟨rfl, h⟩ := h
  rw [scrubItems]
  rcases h with ⟨hs, rfl⟩ | ⟨hs, hv⟩
  · rw [hs]
    rfl
  · rw [hs]
    simp only [bind, Except.bind, hv]
    rfl

end

end SecAudit
