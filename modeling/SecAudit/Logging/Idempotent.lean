import SecAudit.Core.Admit
import SecAudit.Core.Limits
import SecAudit.Logging.Record

/-!
# When the gate leaves alone what went through it

`sanitized` is the emission gate: scrub, then project.

* `gateable`        values whose keys and leaf texts, dates apart, are within the limit on strings;
* `datesUncut`      no date that is shown is too long for it;
* `Fitting`         the items of a projected mapping: those there is room for, perhaps with the
                    marker after them;
* `Again`           a JSON value that a second pass leaves as it is; `again_project`: so is what comes
                    out of a first one when none of its texts would be cut;
* `uncut_project`   which is so exactly when the dates are short;
* `sanitized_again`  a second pass through the gate changes nothing exactly then.
-/

set_option linter.unusedVariables false

namespace SecAudit
open Py

/-- a JSON scalar, a text no longer than `n` -/
def scalarWithin (n : Nat) : Value → Bool
  | .none => true
  | .bool _ => true
  | .int _ => true
  | .float _ => true
  | .const _ => true
  | .str s => decide (s.length ≤ n)
  | _ => false

/-- the types whose `isoformat()` is written -/
def isDate (name : Str) : Bool := decide (name ∈ [str "date", str "datetime"])

mutual
/-- string keys no longer than `n`, and such texts of UUIDs, numbers, paths, addresses and members of
an enumeration; what the gate refuses anyway may stand anywhere -/
def gateable (n : Nat) : Value → Bool
  | .text name s => isDate name || decide (s.length ≤ n)
  | .enum _ v => scalarWithin n v
  | .mapping l => gateableItems n l
  | .seq l => gateableElems n l
  | _ => true

def gateableItems (n : Nat) : List (Key × Value) → Bool
  | [] => true
  | (.str k, v) :: l => decide (k.length ≤ n) && (gateable n v && gateableItems n l)
  | (.other _, _) :: _ => false

def gateableElems (n : Nat) : List Value → Bool
  | [] => true
  | v :: l => gateable n v && gateableElems n l
end

section
variable (red : Redaction) (limits : ProjectionLimits)

mutual
/-- the dates that are shown of a value at `depth` are not too long -/
def datesUncut (depth : Nat) (v : Value) : Bool :=
  decide (limits.maxDepth ≤ depth) || match v with
    | .text name s => !isDate name || decide (limitString s limits.maxStringLength = s)
    | .mapping l => datesUncutItems (depth + 1) limits.maxMappingEntries l
    | .seq l => datesUncutElems (depth + 1) limits.maxSequenceLength l
    | _ => true
termination_by structural v

/-- the items that are shown, neither overwritten nor redacted -/
def datesUncutItems (depth room : Nat) : List (Key × Value) → Bool
  | [] => true
  | (k, v) :: l => match room with
    | 0 => true
    | room + 1 => (overwritten limits room (named l) (limitKey limits (k.text.toOption.getD [])) ||
        (decide (red.isSensitiveKey k = .ok true) || datesUncut depth v)) &&
          datesUncutItems depth room l
termination_by structural l => l

def datesUncutElems (depth room : Nat) : List Value → Bool
  | [] => true
  | v :: l => match room with
    | 0 => true
    | room + 1 => datesUncut depth v && datesUncutElems depth room l
termination_by structural l => l
end

end

mutual
/-- no text of a JSON value would be cut -/
def uncut (n : Nat) : Json → Bool
  | .string s => decide (limitString s n = s)
  | .arr l => uncutElems n l
  | .obj l => uncutItems n l
  | _ => true

def uncutElems (n : Nat) : List Json → Bool
  | [] => true
  | v :: l => uncut n v && uncutElems n l

def uncutItems (n : Nat) : List (Str × Json) → Bool
  | [] => true
  | (_, v) :: l => uncut n v && uncutItems n l
end

theorem uncutItems_iff {n : Nat} {l : List (Str × Json)} :
    uncutItems n l = true ↔ ∀ e ∈ l, uncut n e.2 = true := by
  induction l with
  | nil => exact iff_of_true rfl fun e he => absurd he List.not_mem_nil
  | cons e l ih => rw [uncutItems, Bool.and_eq_true, ih, List.forall_mem_cons]

/-! ## the items of a projected mapping -/

section
variable {limits : ProjectionLimits} {strict : Bool}

/-- a text that was cut is cut to itself -/
theorem limitString_limitString (s : Str) (n : Nat) :
    limitString (limitString s n) n = limitString s n := by
  by_cases h : s.length ≤ n
  · rw [limitString_of_le h, limitString_of_le h]
  · have hcut : limitString s n = s.take n ++ TRUNCATED := if_neg h
    have hlen : (s.take n).length = n := List.length_take_of_le (by omega)
    rw [hcut]
    unfold limitString
    rw [if_neg, List.take_append_of_le_length (by omega), List.take_of_length_le (by omega)]
    rw [List.length_append, hlen]
    exact Nat.not_le.mpr (Nat.lt_add_of_pos_right (by decide))

/-- no more than `cap` items, or as many and then the marker -/
def Fitting (cap : Nat) (items : List (Str × Json)) : Prop :=
  items.length ≤ cap ∨
    ∃ front, items = front ++ [(str "_truncated", .string TRUNCATED)] ∧ front.length = cap

theorem fitting_marked {projected : List (Str × Json)} {cap : Nat} (h : projected.length ≤ cap) :
    Fitting cap (setItem (str "_truncated") (.string TRUNCATED) projected) := by
  by_cases hm : str "_truncated" ∈ projected.map Prod.fst
  · refine .inl ?_
    rw [← List.length_map Prod.fst, keys_setItem, if_pos (hasItem_iff.mpr hm), List.length_map]
    exact h
  · rw [setItem_fresh _ hm]
    rcases Nat.lt_or_eq_of_le h with hlt | heq
    · refine .inl ?_
      rw [List.length_append]
      exact hlt
    · exact .inr ⟨projected, rfl, heq⟩

theorem fitting_projectItems {n d cap : Nat} : ∀ {l : List (Key × Value)} {room : Nat}
    {projected items : List (Str × Json)}, projected.length + room ≤ cap →
    projectItems limits strict n d room projected l = .ok items → Fitting cap items
  | [], room, projected, items, hcap, h => by
    have hi : items = projected := by
      cases room <;> cases h <;> rfl
    rw [hi]
    exact .inl (by omega)
  | (k, v) :: l, 0, projected, items, hcap, h => by
    cases h
    exact fitting_marked hcap
  | (k, v) :: l, room + 1, projected, items, hcap, h => by
    obtain ⟨key, item, -, -, h⟩ := projectItems_cons_ok h
    have hle := length_setItem_le (limitString key limits.maxStringLength) item projected
    exact fitting_projectItems (by omega) h

/-- after the first item there is room for one less -/
theorem Fitting.tail {cap : Nat} {e : Str × Json} {items : List (Str × Json)}
    (h : Fitting (cap + 1) (e :: items)) : Fitting cap items := by
  rcases h with h | ⟨front, he, hlen⟩
  · exact .inl (Nat.le_of_succ_le_succ h)
  · cases front with
    | nil => cases hlen
    | cons x front =>
      exact .inr ⟨front, (List.cons.inj he).2, Nat.succ.inj hlen⟩

/-- where there is no room left, only the marker can be there -/
theorem Fitting.marker {e : Str × Json} {items : List (Str × Json)} (h : Fitting 0 (e :: items)) :
    e = (str "_truncated", .string TRUNCATED) ∧ items = [] := by
  rcases h with h | ⟨front, he, hlen⟩
  · cases h
  · obtain rfl := List.length_eq_zero_iff.mp hlen
    exact List.cons.inj he

end

/-! ## a second pass -/

section
variable (red : Redaction) (limits : ProjectionLimits)

/-- scrubbed and projected again, the value stays as it is -/
def Again (n m d : Nat) (j : Json) : Prop :=
  ∃ w, scrub red n (Value.ofJson j) = .ok w ∧ project limits true m d w = .ok j

/-- so does the item, its value redacted where the key is sensitive -/
structure AgainItem (n m d : Nat) (e : Str × Json) : Prop where
  short : e.1.length ≤ limits.maxStringLength
  value : ∃ w, (if red.sensitiveNorm (normalizeKey e.1) then .ok (.str REDACTED)
    else scrub red n (Value.ofJson e.2)) = .ok w ∧ project limits true m d w = .ok e.2

/-- no value patterns, no keyword that hides the marker, and room for the marker -/
structure Steady : Prop where
  patterns : red.valuePatterns = []
  marker : red.sensitiveNorm (normalizeKey (str "_truncated")) = false
  room : 11 ≤ limits.maxStringLength

variable {red limits} {n m d : Nat}

theorem Steady.scrub_str (h : Steady red limits) (n : Nat) (s : Str) :
    scrub red n (.str s) = .ok (.str s) := by
  have hs : red.isSensitiveValue s = false := by
    unfold Redaction.isSensitiveValue
    rw [h.patterns]
    rfl
  show Except.ok (Value.str _) = _
  rw [hs, if_neg Bool.false_ne_true]

theorem again_truncated (h : Steady red limits) (hd : limits.maxDepth ≤ d) :
    Again red limits n m d (.string TRUNCATED) := by
  refine ⟨.str TRUNCATED, h.scrub_str n TRUNCATED, ?_⟩
  unfold project
  rw [if_pos hd]

/-- a text, cut or not -/
theorem again_limitString (h : Steady red limits) (hd : ¬ limits.maxDepth ≤ d) (s : Str) :
    Again red limits n m d (.string (limitString s limits.maxStringLength)) := by
  refine ⟨_, h.scrub_str n _, ?_⟩
  unfold project
  rw [if_neg hd]
  dsimp only
  rw [limitString_limitString]

theorem again_text (h : Steady red limits) (hd : ¬ limits.maxDepth ≤ d) {s : Str}
    (hs : s.length ≤ limits.maxStringLength) : Again red limits n m d (.string s) := by
  have := @again_limitString red limits n m d h hd s
  rwa [limitString_of_le hs] at this

theorem again_str (h : Steady red limits) {s : Str} {j : Json}
    (hj : project limits true m d (.str s) = .ok j) : Again red limits n m d j := by
  unfold project at hj
  split at hj
  · rename_i hd
    obtain rfl := Except.ok.inj hj
    exact again_truncated h hd
  · rename_i hd
    obtain rfl := Except.ok.inj hj
    exact again_limitString h hd s

/-- a scalar comes out as it went in -/
theorem again_scalar (h : Steady red limits) (hd : ¬ limits.maxDepth ≤ d) {v : Value} {k : Nat}
    {j : Json} (hv : scalarWithin limits.maxStringLength v = true)
    (hj : project limits true k 0 v = .ok j) : Again red limits n m d j := by
  unfold project at hj
  rw [if_neg (Nat.not_le.mpr limits.maxDepth_pos)] at hj
  have hscalar : ∀ w : Value, scrub red n w = .ok w → Value.ofJson j = w →
      project limits true m d w = .ok j → Again red limits n m d j := by
    intro w hs hw hp
    exact ⟨w, by rw [hw, hs], hp⟩
  cases v with
  | none => cases hj; exact hscalar .none rfl rfl (by unfold project; rw [if_neg hd])
  | bool b => cases hj; exact hscalar (.bool b) rfl rfl (by unfold project; rw [if_neg hd])
  | int i => cases hj; exact hscalar (.int i) rfl rfl (by unfold project; rw [if_neg hd])
  | float f => cases hj; exact hscalar (.float f) rfl rfl (by unfold project; rw [if_neg hd])
  | const c => cases hj
  | str s =>
    cases hj
    exact again_limitString h hd s
  | _ => cases hv

theorem uncut_scalar {v : Value} {k : Nat} {j : Json}
    (hv : scalarWithin limits.maxStringLength v = true) (hj : project limits true k 0 v = .ok j) :
    uncut limits.maxStringLength j = true := by
  unfold project at hj
  rw [if_neg (Nat.not_le.mpr limits.maxDepth_pos)] at hj
  cases v with
  | none => cases hj; rfl
  | bool b => cases hj; rfl
  | int i => cases hj; rfl
  | float f => cases hj; rfl
  | const c => cases hj
  | str s =>
    cases hj
    exact decide_eq_true (limitString_limitString s _)
  | _ => cases hv

/-! ### mappings -/

theorem again_marker (h : Steady red limits) :
    AgainItem red limits n m d (str "_truncated", .string TRUNCATED) where
  short := Nat.le_trans (by decide) h.room
  value := by
    rw [h.marker, if_neg Bool.false_ne_true]
    by_cases hd : limits.maxDepth ≤ d
    · exact again_truncated h hd
    · exact again_text h hd h.room

/-- **such items are written again as they are** -/
theorem rebuild_items (h : Steady red limits) : ∀ {items acc : List (Str × Json)} {room : Nat},
    (∀ e ∈ items, AgainItem red limits n m d e) → ((acc ++ items).map Prod.fst).Nodup →
    Fitting room items → ∃ l, scrubItems red n (Value.ofItems items) = .ok l ∧
      projectItems limits true m d room acc l = .ok (acc ++ items)
  | [], acc, room, _, _, _ => by
    refine ⟨[], rfl, ?_⟩
    rw [List.append_nil]
    cases room <;> rfl
  | (k, x) :: items, acc, room, hitems, hnd, hfit => by
    obtain ⟨hshort, w, hw, hp⟩ := hitems (k, x) List.mem_cons_self
    have hfresh : k ∉ acc.map Prod.fst := by
      rw [List.map_append, List.nodup_append] at hnd
      exact fun hk => hnd.2.2 k hk k List.mem_cons_self rfl
    have hcons : acc ++ (k, x) :: items = (acc ++ [(k, x)]) ++ items := by
      rw [List.append_assoc]
      rfl
    have hscrub : ∀ {l}, scrubItems red n (Value.ofItems items) = .ok l →
        scrubItems red n (Value.ofItems ((k, x) :: items)) = .ok ((.str k, w) :: l) := by
      intro l hl
      have hkey : red.isSensitiveKey (.str k) = .ok (red.sensitiveNorm (normalizeKey k)) := rfl
      rw [Value.ofItems, scrubItems, hl, hkey]
      cases hs : red.sensitiveNorm (normalizeKey k) with
      | true =>
        rw [hs, if_pos rfl] at hw
        obtain rfl := Except.ok.inj hw
        rfl
      | false =>
        rw [hs, if_neg Bool.false_ne_true] at hw
        simp only [bind, Except.bind, hw]
        rfl
    cases room with
    | zero =>
      -- only the marker is left
      obtain ⟨he, rfl⟩ := hfit.marker
      obtain ⟨rfl, rfl⟩ := Prod.mk.inj he
      refine ⟨_, hscrub rfl, ?_⟩
      show Except.ok (setItem _ _ acc) = _
      rw [setItem_fresh _ hfresh]
    | succ room =>
      obtain ⟨l, hl, hrest⟩ := rebuild_items h (fun e he => hitems e (List.mem_cons_of_mem _ he))
        (hcons ▸ hnd) hfit.tail
      refine ⟨_, hscrub hl, ?_⟩
      rw [projectItems, hcons, ← hrest]
      simp only [show (Key.str k).text = .ok k from rfl, bind, Except.bind, hp]
      rw [limitString_of_le hshort, setItem_fresh _ hfresh]

theorem rebuild_items_nil (h : Steady red limits) {items : List (Str × Json)} {room : Nat}
    (hitems : ∀ e ∈ items, AgainItem red limits n m d e) (hnd : (items.map Prod.fst).Nodup)
    (hfit : Fitting room items) : ∃ l, scrubItems red n (Value.ofItems items) = .ok l ∧
      projectItems limits true m d room [] l = .ok items :=
  rebuild_items h hitems (show (([] ++ items).map Prod.fst).Nodup from hnd) hfit

/-- the items that are written, with those that were there -/
theorem again_projectItems {P : Str × Json → Prop} (hmark : P (str "_truncated", .string TRUNCATED)) :
    ∀ {l : List (Key × Value)} {room : Nat} {projected items : List (Str × Json)},
    (∀ e ∈ projected, P e) →
    (∀ e ∈ l, ∀ t x, e.1.text = .ok t → project limits true m d e.2 = .ok x →
      P (limitString t limits.maxStringLength, x)) →
    projectItems limits true m d room projected l = .ok items → ∀ e ∈ items, P e
  | [], room, projected, items, hp, _, h => by
    have hi : items = projected := by
      cases room <;> cases h <;> rfl
    rw [hi]
    exact hp
  | (k, v) :: l, 0, projected, items, hp, _, h => by
    cases h
    intro e he
    rcases mem_of_mem_setItem he with rfl | he
    · exact hmark
    · exact hp e he
  | (k, v) :: l, room + 1, projected, items, hp, hl, h => by
    obtain ⟨t, x, ht, hx, h⟩ := projectItems_cons_ok h
    refine again_projectItems hmark (fun e he => ?_) (fun e he => hl e (List.mem_cons_of_mem _ he)) h
    rcases mem_of_mem_setItem he with rfl | he
    · exact hl (k, v) List.mem_cons_self t x ht hx
    · exact hp e he

/-! ### all values -/

mutual
/-- **what comes out of the gate stays as it is**, when none of its texts would be cut -/
theorem again_project (h : Steady red limits) : ∀ (v : Value) (n m d : Nat) (w : Value) (j : Json),
    gateable limits.maxStringLength v = true → scrub red n v = .ok w →
    project limits true m d w = .ok j → uncut limits.maxStringLength j = true →
    Again red limits n m d j
  | v, n, m, d, w, j, hv, hw, hj, hu => by
    by_cases hd : limits.maxDepth ≤ d
    · unfold project at hj
      rw [if_pos hd] at hj
      obtain rfl := Except.ok.inj hj
      exact again_truncated h hd
    have hj' := hj
    unfold project at hj
    rw [if_neg hd] at hj
    cases v with
    | none => cases hw; cases hj; exact ⟨_, rfl, hj'⟩
    | bool b => cases hw; cases hj; exact ⟨_, rfl, hj'⟩
    | int i => cases hw; cases hj; exact ⟨_, rfl, hj'⟩
    | float f => cases hw; cases hj; exact ⟨_, rfl, hj'⟩
    | const c => cases hw; cases hj
    | str s =>
      rw [h.scrub_str] at hw
      cases hw
      exact again_str h hj'
    | bytes data mutable => cases hw; exact again_str h hj'
    | set name => cases hw
    | loop isMapping => cases hw; exact again_str h hj'
    | text name s =>
      cases hw
      cases hj
      have hs := @again_limitString red limits n m d h hd s
      rwa [show limitString s _ = s from of_decide_eq_true hu] at hs
    | enum name v =>
      cases hw
      cases m with
      | zero => cases hj
      | succ m => exact again_scalar h hd hv hj
    | object module name => cases hw; cases hj
    | broken e => cases hw
    | mapping l =>
      cases n with
      | zero => cases hw
      | succ n =>
        obtain ⟨lw, hlw, rfl⟩ := ok_of_map hw
        cases m with
        | zero => cases hj
        | succ m =>
          obtain ⟨items, hitems, rfl⟩ := ok_of_map hj
          have hagain := again_projectItems
            (P := fun e => uncut limits.maxStringLength e.2 = true →
              AgainItem red limits n m (d + 1) e) (fun _ => again_marker h)
            (fun e he => absurd he List.not_mem_nil) (again_items h l n m (d + 1) lw hv hlw) hitems
          obtain ⟨l', hs, hp⟩ := rebuild_items_nil h
            (fun e he => hagain e he (uncutItems_iff.mp hu e he))
            (projectItems_nodup hitems List.nodup_nil)
            (fitting_projectItems (Nat.le_of_eq (Nat.zero_add _)) hitems)
          refine ⟨.mapping l', ?_, ?_⟩
          · show (scrubItems red n (Value.ofItems items)).map Value.mapping = _
            rw [hs]
            rfl
          · unfold project
            rw [if_neg hd]
            dsimp only
            rw [hp]
            rfl
    | seq l =>
      cases n with
      | zero => cases hw
      | succ n =>
        obtain ⟨lw, hlw, rfl⟩ := ok_of_map hw
        cases m with
        | zero => cases hj
        | succ m =>
          obtain ⟨elems, helems, rfl⟩ := ok_of_map hj
          obtain ⟨l', hs, hp⟩ := again_elems h l n m (d + 1) _ lw elems hv hlw helems hu
          refine ⟨.seq l', ?_, ?_⟩
          · show (scrubElems red n (Value.ofElems elems)).map Value.seq = _
            rw [hs]
            rfl
          · unfold project
            rw [if_neg hd]
            dsimp only
            rw [hp]
            rfl

theorem again_items (h : Steady red limits) : ∀ (l : List (Key × Value)) (n m d : Nat)
    (lw : List (Key × Value)), gateableItems limits.maxStringLength l = true →
    scrubItems red n l = .ok lw → ∀ e ∈ lw, ∀ t x, e.1.text = .ok t →
      project limits true m d e.2 = .ok x → uncut limits.maxStringLength x = true →
      AgainItem red limits n m d (limitString t limits.maxStringLength, x)
  | [], n, m, d, lw, _, hw => by
    cases hw
    exact fun e he => absurd he List.not_mem_nil
  | (.other _, _) :: _, n, m, d, lw, hv, _ => by cases hv
  | (.str k, v) :: l, n, m, d, lw, hv, hw => by
    obtain ⟨hk, hv⟩ := Bool.and_eq_true_iff.mp hv
    obtain ⟨hv, hl⟩ := Bool.and_eq_true_iff.mp hv
    obtain ⟨w, lw', rfl, hlw, hitem⟩ := scrubItems_cons_ok hw
    intro e he t x ht hx hu
    rcases List.mem_cons.mp he with rfl | he
    · obtain rfl := Except.ok.inj ht
      have hshort := of_decide_eq_true hk
      rw [limitString_of_le hshort]
      refine ⟨hshort, ?_⟩
      rcases hitem with ⟨hs, rfl⟩ | ⟨hs, hscrub⟩
      · rw [show red.sensitiveNorm (normalizeKey k) = true from Except.ok.inj hs, if_pos rfl]
        exact ⟨_, rfl, hx⟩
      · rw [show red.sensitiveNorm (normalizeKey k) = false from Except.ok.inj hs,
          if_neg Bool.false_ne_true]
        exact again_project h v n m d w x hv hscrub hx hu
    · exact again_items h l n m d lw' hl hlw e he t x ht hx hu

theorem again_elems (h : Steady red limits) : ∀ (l : List Value) (n m d room : Nat)
    (lw : List Value) (elems : List Json), gateableElems limits.maxStringLength l = true →
    scrubElems red n l = .ok lw → projectElems limits true m d room lw = .ok elems →
    uncutElems limits.maxStringLength elems = true →
    ∃ lw', scrubElems red n (Value.ofElems elems) = .ok lw' ∧
      projectElems limits true m d room lw' = .ok elems
  | [], n, m, d, room, lw, elems, _, hw, hj, _ => by
    cases hw
    have he : elems = [] := by
      cases room <;> cases hj <;> rfl
    rw [he]
    exact ⟨[], rfl, by cases room <;> rfl⟩
  | v :: l, n, m, d, room, lw, elems, hv, hw, hj, hu => by
    obtain ⟨hv, hl⟩ := Bool.and_eq_true_iff.mp hv
    obtain ⟨w, lw', rfl, hscrub, hlw⟩ := scrubElems_cons_ok hw
    cases room with
    | zero =>
      -- the marker, which is cut off and written again
      cases hj
      refine ⟨[.str TRUNCATED], ?_, rfl⟩
      show (scrub red n (.str TRUNCATED) >>= _) = _
      rw [h.scrub_str]
      rfl
    | succ room =>
      obtain ⟨x, xs, rfl, hx, hxs⟩ := projectElems_cons_ok hj
      obtain ⟨hu, hus⟩ := Bool.and_eq_true_iff.mp hu
      obtain ⟨w', hs, hp⟩ := again_project h v n m d w x hv hscrub hx hu
      obtain ⟨lw'', hss, hps⟩ := again_elems h l n m d room lw' xs hl hlw hxs hus
      refine ⟨w' :: lw'', ?_, ?_⟩
      · rw [Value.ofElems, scrubElems, hs, hss]
        rfl
      · rw [projectElems, hp, hps]
        rfl
end

/-! ## the texts of the result -/

theorem uncut_truncated (h : Steady red limits) :
    uncut limits.maxStringLength (.string TRUNCATED) = true :=
  decide_eq_true (limitString_of_le h.room)

theorem uncut_str (h : Steady red limits) {s : Str} {j : Json}
    (hj : project limits true m d (.str s) = .ok j) : uncut limits.maxStringLength j = true := by
  unfold project at hj
  split at hj
  · cases hj
    exact uncut_truncated h
  · cases hj
    exact decide_eq_true (limitString_limitString s _)

mutual
/-- **a second pass leaves no text that would be cut** -/
theorem uncut_again (h : Steady red limits) : ∀ (j : Json) (n m d : Nat) (w : Value) (j' : Json),
    scrub red n (Value.ofJson j) = .ok w → project limits true m d w = .ok j' →
    uncut limits.maxStringLength j' = true
  | j, n, m, d, w, j', hw, hj => by
    have hj' := hj
    unfold project at hj
    by_cases hd : limits.maxDepth ≤ d
    · rw [if_pos hd] at hj
      cases hj
      exact uncut_truncated h
    rw [if_neg hd] at hj
    cases j with
    | null => cases hw; cases hj; rfl
    | bool b => cases hw; cases hj; rfl
    | int i => cases hw; cases hj; rfl
    | float f => cases hw; cases hj; rfl
    | const c => cases hw; cases hj
    | string s =>
      rw [Value.ofJson, h.scrub_str] at hw
      cases hw
      exact uncut_str h hj'
    | arr l =>
      cases n with
      | zero => cases hw
      | succ n =>
        obtain ⟨lw, hlw, rfl⟩ := ok_of_map hw
        cases m with
        | zero => cases hj
        | succ m =>
          obtain ⟨elems, helems, rfl⟩ := ok_of_map hj
          exact uncut_againElems h l n m (d + 1) _ lw elems hlw helems
    | obj l =>
      cases n with
      | zero => cases hw
      | succ n =>
        obtain ⟨lw, hlw, rfl⟩ := ok_of_map hw
        cases m with
        | zero => cases hj
        | succ m =>
          obtain ⟨items, hitems, rfl⟩ := ok_of_map hj
          exact uncutItems_iff.mpr (again_projectItems
            (P := fun e => uncut limits.maxStringLength e.2 = true) (uncut_truncated h)
            (fun e he => absurd he List.not_mem_nil)
            (fun e he t x _ => uncut_againItems h l n m (d + 1) lw hlw e he x) hitems)

theorem uncut_againItems (h : Steady red limits) : ∀ (l : List (Str × Json)) (n m d : Nat)
    (lw : List (Key × Value)), scrubItems red n (Value.ofItems l) = .ok lw → ∀ e ∈ lw, ∀ x,
    project limits true m d e.2 = .ok x → uncut limits.maxStringLength x = true
  | [], n, m, d, lw, hw => by
    cases hw
    exact fun e he => absurd he List.not_mem_nil
  | (k, j) :: l, n, m, d, lw, hw => by
    obtain ⟨w, lw', rfl, hlw, hitem⟩ := scrubItems_cons_ok hw
    intro e he x hx
    rcases List.mem_cons.mp he with rfl | he
    · rcases hitem with ⟨-, rfl⟩ | ⟨-, hscrub⟩
      · exact uncut_str h hx
      · exact uncut_again h j n m d w x hscrub hx
    · exact uncut_againItems h l n m d lw' hlw e he x hx

theorem uncut_againElems (h : Steady red limits) : ∀ (l : List Json) (n m d room : Nat)
    (lw : List Value) (elems : List Json), scrubElems red n (Value.ofElems l) = .ok lw →
    projectElems limits true m d room lw = .ok elems →
    uncutElems limits.maxStringLength elems = true
  | [], n, m, d, room, lw, elems, hw, hj => by
    cases hw
    cases room <;> cases hj <;> rfl
  | j :: l, n, m, d, room, lw, elems, hw, hj => by
    obtain ⟨w, lw', rfl, hscrub, hlw⟩ := scrubElems_cons_ok hw
    cases room with
    | zero =>
      cases hj
      rw [uncutElems, uncut_truncated h]
      rfl
    | succ room =>
      obtain ⟨x, xs, rfl, hx, hxs⟩ := projectElems_cons_ok hj
      rw [uncutElems, uncut_again h j n m d w x hscrub hx,
        uncut_againElems h l n m d room lw' xs hlw hxs]
      rfl
end

mutual
/-- **no text of a result would be cut exactly when no date would be** -/
theorem uncut_project (h : Steady red limits) : ∀ (v : Value) (n m d : Nat) (w : Value) (j : Json),
    gateable limits.maxStringLength v = true → scrub red n v = .ok w →
    project limits true m d w = .ok j →
    uncut limits.maxStringLength j = datesUncut red limits d v
  | v, n, m, d, w, j, hv, hw, hj => by
    have hj' := hj
    unfold project at hj
    unfold datesUncut
    by_cases hd : limits.maxDepth ≤ d
    · rw [if_pos hd] at hj
      cases hj
      rw [decide_eq_true hd, Bool.true_or]
      exact uncut_truncated h
    rw [if_neg hd] at hj
    rw [decide_eq_false hd, Bool.false_or]
    cases v with
    | none => cases hw; cases hj; rfl
    | bool b => cases hw; cases hj; rfl
    | int i => cases hw; cases hj; rfl
    | float f => cases hw; cases hj; rfl
    | const c => cases hw; cases hj
    | str s =>
      rw [h.scrub_str] at hw
      cases hw
      exact uncut_str h hj'
    | bytes data mutable => cases hw; exact uncut_str h hj'
    | set name => cases hw
    | loop isMapping => cases hw; exact uncut_str h hj'
    | text name s =>
      cases hw
      cases hj
      dsimp only
      cases hdate : isDate name with
      | true => rfl
      | false =>
        -- the text of anything but a date is short
        rw [gateable, hdate, Bool.false_or] at hv
        exact decide_eq_true (limitString_of_le (of_decide_eq_true hv))
    | enum name v =>
      cases hw
      cases m with
      | zero => cases hj
      | succ m => exact uncut_scalar hv hj
    | object module name => cases hw; cases hj
    | broken e => cases hw
    | mapping l =>
      cases n with
      | zero => cases hw
      | succ n =>
        obtain ⟨lw, hlw, rfl⟩ := ok_of_map hw
        cases m with
        | zero => cases hj
        | succ m =>
          obtain ⟨items, hitems, rfl⟩ := ok_of_map hj
          rw [uncut, Bool.eq_iff_iff, uncutItems_iff, uncut_projectItems h l n m (d + 1) _ lw [] items
            hv hlw hitems List.nodup_nil]
          exact and_iff_right fun e he => absurd he List.not_mem_nil
    | seq l =>
      cases n with
      | zero => cases hw
      | succ n =>
        obtain ⟨lw, hlw, rfl⟩ := ok_of_map hw
        cases m with
        | zero => cases hj
        | succ m =>
          obtain ⟨elems, helems, rfl⟩ := ok_of_map hj
          exact uncut_projectElems h l n m (d + 1) _ lw elems hv hlw helems

theorem uncut_projectItems (h : Steady red limits) : ∀ (l : List (Key × Value)) (n m d room : Nat)
    (lw : List (Key × Value)) (projected items : List (Str × Json)),
    gateableItems limits.maxStringLength l = true → scrubItems red n l = .ok lw →
    projectItems limits true m d room projected lw = .ok items → (projected.map Prod.fst).Nodup →
    ((∀ e ∈ items, uncut limits.maxStringLength e.2 = true) ↔
      (∀ e ∈ projected, overwritten limits room (named l) e.1 = false →
        uncut limits.maxStringLength e.2 = true) ∧ datesUncutItems red limits d room l = true)
  | [], n, m, d, room, lw, projected, items, _, hw, hj, _ => by
    cases hw
    have hi : items = projected := by
      cases room <;> cases hj <;> rfl
    rw [hi]
    exact ⟨fun h => ⟨fun e he _ => h e he, rfl⟩, fun h e he => h.1 e he (overwritten_nil _ e.1)⟩
  | (.other _, _) :: _, n, m, d, room, lw, projected, items, hv, _, _, _ => by cases hv
  | (.str k, v) :: l, n, m, d, 0, lw, projected, items, _, hw, hj, hnd => by
    obtain ⟨w, lw', rfl, -, -⟩ := scrubItems_cons_ok hw
    cases hj
    rw [datesUncutItems]
    exact (kept_marked (P := fun e => uncut limits.maxStringLength e.2 = true) hnd
      (uncut_truncated h)).trans (and_iff_left rfl).symm
  | (.str k, v) :: l, n, m, d, room + 1, lw, projected, items, hv, hw, hj, hnd => by
    obtain ⟨hk, hv⟩ := Bool.and_eq_true_iff.mp hv
    obtain ⟨hv, hl⟩ := Bool.and_eq_true_iff.mp hv
    obtain ⟨w, lw', rfl, hlw, hitem⟩ := scrubItems_cons_ok hw
    obtain ⟨t, x, ht, hx, hj⟩ := projectItems_cons_ok hj
    obtain rfl := Except.ok.inj ht
    have hshown : uncut limits.maxStringLength x
        = (decide (red.isSensitiveKey (.str k) = .ok true) || datesUncut red limits d v) := by
      rcases hitem with ⟨hs, rfl⟩ | ⟨hs, hscrub⟩
      · rw [hs, decide_eq_true rfl, Bool.true_or]
        exact uncut_str h hx
      · rw [hs, decide_eq_false (by simp), Bool.false_or]
        exact uncut_project h v n m d w x hv hscrub hx
    rw [uncut_projectItems h l n m d room lw' _ items hl hlw hj (nodup_setItem hnd), datesUncutItems,
      ← hshown, Bool.and_eq_true, Bool.or_eq_true, ← and_assoc]
    exact and_congr_left' (kept_setItem (e := (k, v)) hnd)

theorem uncut_projectElems (h : Steady red limits) : ∀ (l : List Value) (n m d room : Nat)
    (lw : List Value) (elems : List Json), gateableElems limits.maxStringLength l = true →
    scrubElems red n l = .ok lw → projectElems limits true m d room lw = .ok elems →
    uncutElems limits.maxStringLength elems = datesUncutElems red limits d room l
  | [], n, m, d, room, lw, elems, _, hw, hj => by
    cases hw
    cases room <;> cases hj <;> rfl
  | v :: l, n, m, d, room, lw, elems, hv, hw, hj => by
    obtain ⟨hv, hl⟩ := Bool.and_eq_true_iff.mp hv
    obtain ⟨w, lw', rfl, hscrub, hlw⟩ := scrubElems_cons_ok hw
    cases room with
    | zero =>
      cases hj
      rw [uncutElems, uncut_truncated h]
      rfl
    | succ room =>
      obtain ⟨x, xs, rfl, hx, hxs⟩ := projectElems_cons_ok hj
      rw [uncutElems, datesUncutElems, uncut_project h v n m d w x hv hscrub hx,
        uncut_projectElems h l n m d room lw' xs hl hlw hxs]
end

end

/-! ## the gate -/

/-- no keyword is contained in the key of the marker -/
theorem steady_of_keywords {red : Redaction} {limits : ProjectionLimits}
    (hp : red.valuePatterns = [])
    (hk : ∀ k ∈ red.sensitiveKeys, normalizeKey k ≠ [] → ¬ normalizeKey k <:+: str "truncated")
    (hmax : 11 ≤ limits.maxStringLength) : Steady red limits where
  patterns := hp
  room := hmax
  marker := by
    rw [show normalizeKey (str "_truncated") = str "truncated" by decide]
    unfold Redaction.sensitiveNorm
    have hany : (red.sensitiveKeys.any fun k => decide (normalizeKey k ≠ []) &&
        decide (normalizeKey k <:+: str "truncated")) = false := by
      rw [List.any_eq_false]
      intro k hm
      rw [Bool.and_eq_true, decide_eq_true_eq, decide_eq_true_eq]
      exact fun hc => hk k hm hc.1 hc.2
    rw [hany, Bool.and_false]

/-- **the gate is idempotent** for all but dates: what it has let through, it lets through unchanged
exactly when none of the dates that are shown is too long for it -/
theorem sanitized_again (config : CoreAuditConfig) (limits : ProjectionLimits) (frames : Nat)
    (x : List (Key × Value)) (out : List (Str × Json))
    (hpatterns : config.redaction.valuePatterns = [])
    (hkeywords : ∀ k ∈ config.redaction.sensitiveKeys, normalizeKey k ≠ [] →
      ¬ normalizeKey k <:+: str "truncated")
    (hmax : 11 ≤ limits.maxStringLength)
    (hx : gateableItems limits.maxStringLength x = true)
    (h : sanitized config limits frames x = .ok out) :
    sanitized config limits frames (Value.ofItems out) = .ok out ↔
      datesUncutItems config.redaction limits 1 limits.maxAttributes x = true := by
  have hsteady := steady_of_keywords hpatterns hkeywords hmax
  obtain ⟨l, hs, hp⟩ := ok_of_bind h
  cases frames with
  | zero => cases hs
  | succ n =>
    have hdates := (uncut_projectItems hsteady x n n 1 _ l [] out hx hs hp List.nodup_nil).trans
      (and_iff_right fun e he => absurd he List.not_mem_nil)
    rw [← hdates]
    constructor
    · intro h'
      obtain ⟨l', hs', hp'⟩ := ok_of_bind h'
      exact again_projectItems (P := fun e => uncut limits.maxStringLength e.2 = true)
        (uncut_truncated hsteady) (fun e he => absurd he List.not_mem_nil)
        (fun e he t x _ => uncut_againItems hsteady out n n 1 l' hs' e he x) hp'
    · intro hu
      have hagain := again_projectItems
        (P := fun e => uncut limits.maxStringLength e.2 = true →
          AgainItem config.redaction limits n n 1 e) (fun _ => again_marker hsteady)
        (fun e he => absurd he List.not_mem_nil) (again_items hsteady x n n 1 l hx hs) hp
      obtain ⟨l', hs', hp'⟩ := rebuild_items_nil hsteady (fun e he => hagain e he (hu e he))
        (projectItems_nodup hp List.nodup_nil)
        (fitting_projectItems (Nat.le_of_eq (Nat.zero_add _)) hp)
      have hscrub : scrubDict config.redaction (n + 1) (Value.ofItems out) = .ok l' := hs'
      unfold sanitized
      rw [hscrub]
      exact hp'

/-- room for one element, one nested item and three attributes, of eleven characters -/
def ProjectionLimits.tight : ProjectionLimits := { ProjectionLimits.default with
  maxDepth := 3
  maxMappingEntries := 1
  maxSequenceLength := 1
  maxStringLength := 11
  maxAttributes := 3
  maxDepth_pos := by decide
  maxMappingEntries_pos := by decide
  maxSequenceLength_pos := by decide
  maxStringLength_pos := by decide
  maxAttributes_pos := by decide }

/-- a text that is cut, a secret date beside bytes, a short date, a cycle, and one item too many -/
def crowded : List (Key × Value) :=
  [(.str (str "path"), .str (str "/api/v1/orders/7")),
    (.str (str "body"), .mapping [(.str (str "password"), .text (str "datetime")
        (str "2020-01-01T00:00:00")), (.str (str "raw"), .bytes [0] false)]),
    (.str (str "items"),
      .seq [.text (str "date") (str "2020-01-01"), .seq [.mapping []], .loop true]),
    (.str (str "level"), .enum (str "Level") (.int 3))]

theorem sanitized_again_crowded : ∃ out, sanitized {} .tight 9 crowded = .ok out ∧
    sanitized {} .tight 9 (Value.ofItems out) = .ok out := by
  obtain ⟨out, h⟩ := isOk_iff.mp (by decide +kernel :
    isOk (sanitized {} .tight 9 crowded) = true)
  exact ⟨out, h, (sanitized_again {} .tight 9 crowded out rfl (by decide +kernel) (by decide)
    (by decide) h).mpr (by decide +kernel)⟩

/-- a date with a time is written whole, and cut by the second pass -/
theorem sanitized_again_cut : ¬ ∀ (config : CoreAuditConfig) (limits : ProjectionLimits)
    (frames : Nat) (x : List (Key × Value)) (out : List (Str × Json)),
    config.redaction.valuePatterns = [] →
    (∀ k ∈ config.redaction.sensitiveKeys, normalizeKey k ≠ [] →
      ¬ normalizeKey k <:+: str "truncated") →
    11 ≤ limits.maxStringLength → gateableItems limits.maxStringLength x = true →
    sanitized config limits frames x = .ok out →
    sanitized config limits frames (Value.ofItems out) = .ok out := by
  intro h
  have hcut := h {} .tight 9 [(.str (str "t"), .text (str "datetime") (str "2020-01-01T00:00:00"))]
    [(str "t", .string (str "2020-01-01T00:00:00"))] rfl (by decide +kernel) (by decide) (by decide)
    rfl
  have hagain : sanitized {} .tight 9 (Value.ofItems
      [(str "t", .string (str "2020-01-01T00:00:00"))])
        = .ok [(str "t", .string (str "2020-01-01T[TRUNCATED]"))] := rfl
  rw [hagain] at hcut
  obtain ⟨he, -⟩ := List.cons.inj (Except.ok.inj hcut)
  exact absurd (Json.string.inj (Prod.mk.inj he).2) (by decide)

end SecAudit
