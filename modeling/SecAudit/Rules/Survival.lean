import Mathlib.Data.List.Nodup
import SecAudit.Core.Coverage
import SecAudit.Rules.Engine
import SecAudit.Rules.Readers
import SecAudit.Rules.Summary

/-!
# Which identities survive the scrub of the history

* `SUMMARY_KEYS`    the keys a history summary may have;
* `summary_item`    what a key of the summary holds;
* `firstKey`, `meetsHidden`  the first text that is not blank, and whether a redacted text is read
                    before it is found;
* `scopeTexts`      the texts that are read for the key of a scope;
* `Spared`          the scrub leaves the key of a scope alone;
* `scope_keys_survive`  the scope keys of the summary are those of the event exactly when it leaves
                    each alone.
-/

set_option linter.unusedVariables false

namespace SecAudit
open Py Prog

/-! ## the items of a summary -/

section
variable {limits : ProjectionLimits} {strict : Bool}

/-- what a short key holds after the projection of a mapping with room for all of it -/
theorem projectItems_get {n d : Nat} : ∀ {l : List (Key × Value)} {room : Nat}
    {projected out : List (Str × Json)},
    projectItems limits strict n d room projected l = .ok out → l.length ≤ room →
    (∀ e ∈ l, ∃ t, e.1 = .str t ∧ t.length ≤ limits.maxStringLength) →
    (l.map Prod.fst).Nodup →
    (∀ t v, (Key.str t, v) ∈ l →
      ∃ j, project limits strict n d v = .ok j ∧ getItem t out = some j) ∧
    ∀ t, Key.str t ∉ l.map Prod.fst → getItem t out = getItem t projected
  | [], room, projected, out, h, _, _, _ => by
    cases room <;> cases h <;> exact ⟨fun t v hm => absurd hm List.not_mem_nil, fun t _ => rfl⟩
  | (k, v) :: l, 0, projected, out, _, hroom, _, _ => absurd hroom (Nat.not_succ_le_zero _)
  | (k, v) :: l, room + 1, projected, out, h, hroom, hkeys, hnd => by
    obtain ⟨t, rfl, hlen⟩ : ∃ t, k = .str t ∧ t.length ≤ limits.maxStringLength :=
      hkeys (k, v) List.mem_cons_self
    rw [List.map_cons, List.nodup_cons] at hnd
    obtain ⟨t', j, ht', hj, h⟩ := projectItems_cons_ok h
    obtain rfl := Except.ok.inj ht'
    rw [limitString_of_le hlen] at h
    obtain ⟨hmem, hother⟩ := projectItems_get h (Nat.le_of_succ_le_succ hroom)
      (fun e he => hkeys e (List.mem_cons_of_mem _ he)) hnd.2
    refine ⟨fun t' v' hm => ?_, fun t' ht' => ?_⟩
    · rcases List.mem_cons.mp hm with he | hm
      · cases he
        exact ⟨j, hj, (hother t hnd.1).trans (getItem_setItem_same ..)⟩
      · exact hmem t' v' hm
    · rw [List.map_cons, List.mem_cons, not_or] at ht'
      rw [hother t' ht'.2]
      exact getItem_setItem_other _ _ fun he => ht'.1 (congrArg Key.str he)

/-- a mapping is projected to a dict: its keys are distinct -/
theorem project_mapping_nodup {n d : Nat} {l : List (Key × Value)} {out : List (Str × Json)}
    (h : project limits strict n d (.mapping l) = .ok (.obj out)) : (out.map Prod.fst).Nodup := by
  unfold project at h
  split at h
  · cases h
  · cases n with
    | zero => cases h
    | succ n =>
      obtain ⟨out', hl, he⟩ := ok_of_map h
      cases he
      exact projectItems_nodup hl List.nodup_nil

end

/-- the keys a history summary may have -/
def SUMMARY_KEYS : List Str := HISTORY_WHITELIST ++ [str "actor", str "target"]

theorem keys_selectItems (keys : List Str) (raw : List (Str × Json)) :
    ((selectItems keys raw).map Prod.fst).Sublist keys := by
  induction keys with
  | nil => exact List.Sublist.refl _
  | cons k keys ih =>
    unfold selectItems at ih ⊢
    rw [List.filterMap_cons]
    rcases filled k raw with _ | v
    · exact ih.cons k
    · exact ih.cons_cons k

theorem keys_selectNested (container : Str) (keys : List Str) (raw : List (Str × Json)) :
    ((selectNested container keys raw).map Prod.fst).Sublist [container] := by
  unfold selectNested
  split
  · split
    · exact List.nil_sublist _
    · exact List.Sublist.refl _
  · exact List.nil_sublist _

theorem keys_historyItems (raw : List (Str × Json)) :
    ((historyItems raw).map Prod.fst).Sublist SUMMARY_KEYS := by
  unfold historyItems SUMMARY_KEYS
  rw [List.map_append, List.map_append]
  exact (keys_selectItems _ raw).append
    ((keys_selectNested _ _ raw).append (keys_selectNested _ _ raw))

/-- what a selected key holds -/
theorem getItem_selectItems {keys : List Str} {k : Str} (hk : k ∈ keys) (raw : List (Str × Json)) :
    getItem k (selectItems keys raw) = filled k raw := by
  induction keys with
  | nil => exact absurd hk List.not_mem_nil
  | cons k' keys ih =>
    unfold selectItems at ih ⊢
    rw [List.filterMap_cons]
    by_cases he : k' = k
    · subst he
      rcases hf : filled k' raw with _ | v
      · -- not selected here, nor later
        rw [Option.map_none]
        dsimp only
        rw [← Option.not_isSome_iff_eq_none, getItem_isSome, hasItem_iff]
        intro hmem
        obtain ⟨e, he, rfl⟩ := List.mem_map.mp hmem
        obtain ⟨k, -, hk⟩ := List.mem_filterMap.mp he
        obtain ⟨v, hv, rfl⟩ := Option.map_eq_some_iff.mp hk
        rw [hf] at hv
        cases hv
      · simp [getItem]
    · have hk' : k ∈ keys := (List.mem_cons.mp hk).resolve_left (Ne.symm he)
      rcases filled k' raw with _ | v
      · exact ih hk'
      · rw [Option.map_some]
        dsimp only
        rw [← ih hk']
        exact getItem_cons_other _ _ he

/-- a field of the whitelist -/
theorem getItem_history {k : Str} (hk : k ∈ HISTORY_WHITELIST) (raw : List (Str × Json)) :
    getItem k (historyItems raw) = filled k raw := by
  have hrest : k ∉ (selectNested (str "actor") [str "id", str "name"] raw ++
      selectNested (str "target") [str "app", str "model", str "object_id"] raw).map
        Prod.fst := by
    rw [List.map_append]
    intro hmem
    have hin : k ∈ [str "actor", str "target"] :=
      ((keys_selectNested _ _ raw).append (keys_selectNested _ _ raw)).subset hmem
    exact absurd hin ((by decide : ∀ k ∈ HISTORY_WHITELIST, k ∉ [str "actor", str "target"]) k hk)
  unfold historyItems
  rw [getItem_append, getItem_selectItems hk, getItem_none_of hrest, Option.or_none]

theorem getItem_history_actor (raw : List (Str × Json)) :
    getItem (str "actor") (historyItems raw)
      = getItem (str "actor") (selectNested (str "actor") [str "id", str "name"] raw) := by
  have hfirst : str "actor" ∉ (selectItems HISTORY_WHITELIST raw).map Prod.fst := fun hmem =>
    absurd ((keys_selectItems _ raw).subset hmem) (by decide)
  have hlast : str "actor" ∉ (selectNested (str "target")
      [str "app", str "model", str "object_id"] raw).map Prod.fst := fun hmem =>
    absurd ((keys_selectNested _ _ raw).subset hmem) (by decide)
  unfold historyItems
  rw [getItem_append, getItem_append, getItem_none_of hfirst, getItem_none_of hlast,
    Option.none_or, Option.or_none]

section
variable {red : Redaction}

/-- the scrubbed and projected form of a JSON mapping with few short keys -/
theorem cleaned_items {items : List (Str × Json)} {scrubbed : Value} {safe : Json} {n n' d : Nat}
    (hs : scrub red n (.mapping (Value.ofItems items)) = .ok scrubbed)
    (hp : project {} false n' d scrubbed = .ok safe) (hd : d < 8) (hlen : items.length ≤ 100)
    (hkeys : ∀ k ∈ items.map Prod.fst, k.length ≤ 4096) (hnd : (items.map Prod.fst).Nodup) :
    ∃ out, safe = .obj out ∧ ∀ k,
      (getItem k items = none → getItem k out = none) ∧
      ∀ v, getItem k items = some v → ∃ m m' w j,
        ItemScrubbed red m (.str k, Value.ofJson v) (.str k, w) ∧
        project {} false m' (d + 1) w = .ok j ∧ getItem k out = some j := by
  obtain ⟨m, l, rfl, hall⟩ := scrub_mapping hs
  have hfst : l.map Prod.fst = items.map fun e => Key.str e.1 := by
    rw [keys_scrubbed hall, Value.ofItems_eq_map, List.map_map]
    rfl
  unfold project at hp
  rw [if_neg (by show ¬ 8 ≤ d; omega)] at hp
  cases n' with
  | zero => cases hp
  | succ n' =>
    obtain ⟨out, hout, rfl⟩ := ok_of_map hp
    obtain ⟨hmem, hother⟩ := projectItems_get hout
      (by
        have hl := congrArg List.length hfst
        rw [List.length_map, List.length_map] at hl
        rw [hl]
        exact hlen)
      (by
        intro e he
        have hek : e.1 ∈ items.map fun e => Key.str e.1 := hfst ▸ List.mem_map_of_mem he
        obtain ⟨e', he', hk⟩ := List.mem_map.mp hek
        exact ⟨e'.1, hk.symm, hkeys e'.1 (List.mem_map_of_mem he')⟩)
      (by
        rw [hfst]
        have hcomp : (items.map fun e => Key.str e.1) = (items.map Prod.fst).map Key.str := by
          rw [List.map_map]
          rfl
        rw [hcomp]
        exact List.Nodup.map (fun a b h => Key.str.inj h) hnd)
    refine ⟨out, rfl, fun k => ⟨fun hk => ?_, fun v hv => ?_⟩⟩
    · have hnot : Key.str k ∉ l.map Prod.fst := by
        rw [hfst]
        intro hm
        obtain ⟨e, he, hke⟩ := List.mem_map.mp hm
        cases hke
        have hsome : (getItem e.1 items).isSome = true := by
          rw [getItem_isSome, hasItem_iff]
          exact List.mem_map_of_mem he
        rw [hk] at hsome
        cases hsome
      rw [hother k hnot]
      rfl
    · obtain ⟨i, hi⟩ := List.getElem?_of_mem (mem_of_getItem hv)
      have hi' : (Value.ofItems items)[i]? = some (Key.str k, Value.ofJson v) := by
        rw [Value.ofItems_eq_map, List.getElem?_map, hi]
        rfl
      rcases forall₂_getElem? hall i with ⟨hx, -⟩ | ⟨e, e', hx, hy, hee⟩
      · rw [hi'] at hx
        cases hx
      · rw [hi'] at hx
        cases hx
        have hk' : e' = (Key.str k, e'.2) := Prod.ext hee.1 rfl
        rw [hk'] at hy hee
        obtain ⟨j, hj, hg⟩ := hmem k e'.2 (List.mem_of_getElem? hy)
        exact ⟨m, n', e'.2, j, hee, hj, hg⟩

/-- a short text is cleaned to what the scrub leaves of it -/
theorem cleaned_text {k s : Str} {w : Value} {m m' d : Nat} {j : Json} (hd : d < 8)
    (hs : ItemScrubbed red m (.str k, .str s) (.str k, w))
    (hp : project {} false m' d w = .ok j) (hlen : s.length ≤ 4096) :
    j = .string (shown red k s) := by
  have hw : w = .str (shown red k s) := scrubbed_text hs
  have hl : (shown red k s).length ≤ 4096 := by
    unfold shown
    split
    · decide
    · exact hlen
  subst hw
  unfold project at hp
  rw [if_neg (by show ¬ 8 ≤ d; omega)] at hp
  cases hp
  show Json.string (limitString _ 4096) = _
  rw [limitString_of_le hl]

end

/-! ## the texts of a scope -/

/-- the text of a field, empty where it is none -/
def textAt (k : Str) (fields : List (Str × Json)) : Str :=
  match getItem k fields with
  | some (.string s) => s
  | _ => []

/-- absent, or a text of at most 4096 characters -/
def ShortText (v : Option Json) : Prop := v = none ∨ ∃ s, v = some (.string s) ∧ s.length ≤ 4096

/-- the actor, when it is a mapping -/
def actorOf (fields : List (Str × Json)) : List (Str × Json) :=
  match getItem (str "actor") fields with
  | some (.obj actor) => actor
  | _ => []

/-- every identity field is absent or a short text -/
structure IdentityTexts (fields : List (Str × Json)) : Prop where
  field : ∀ k ∈ SCOPE_KEY_FIELDS, ShortText (getItem k fields)
  actor : ∀ k ∈ [str "id", str "name"], ShortText (getItem k (actorOf fields))

/-- a text, whether the scrub redacts it, and whether it takes it away with what holds it -/
structure ScopeText where
  text : Str
  redacted : Bool
  dropped : Bool := false

/-- the first text that is not blank, stripped -/
def firstKey : List ScopeText → Option Str
  | [] => none
  | t :: l => if strip t.text = [] then firstKey l else some (strip t.text)

/-- a redacted text is read before a key is found -/
def meetsHidden : List ScopeText → Bool
  | [] => false
  | t :: l => if t.redacted && decide (t.text ≠ []) then true
    else if strip t.text = [] then meetsHidden l else false

/-- the texts that are left where they were -/
def remaining (l : List ScopeText) : List ScopeText := l.filter fun t => !t.dropped

/-- the text once the scrub has been over it -/
def ScopeText.kept (t : ScopeText) : Str :=
  if t.redacted && decide (t.text ≠ []) then REDACTED else t.text

/-- `_clean_key` of a text -/
def cleaned (s : Str) : Option Str := if strip s = [] then none else some (strip s)

/-- the key of a scope is what it was: no redacted text is read for it, and none that is gone was
needed; or else it was the marker itself -/
def Spared (l : List ScopeText) : Prop :=
  if meetsHidden (remaining l) then firstKey l = some REDACTED
  else firstKey (remaining l) = firstKey l

section
variable (red : Redaction)

/-- a field of the event itself, whose key is allowed -/
def fieldText (k : Str) (fields : List (Str × Json)) : ScopeText :=
  ⟨textAt k fields, red.isSensitiveValue (textAt k fields), false⟩

/-- a field of the actor -/
def actorText (k : Str) (fields : List (Str × Json)) : ScopeText :=
  ⟨textAt k (actorOf fields),
    red.sensitiveNorm (normalizeKey k) || red.isSensitiveValue (textAt k (actorOf fields)),
    red.sensitiveNorm (normalizeKey (str "actor"))⟩

/-- the texts that are read for the key of the user -/
def userTexts (fields : List (Str × Json)) : List ScopeText :=
  [fieldText red (str "user_id") fields, actorText red (str "id") fields,
    fieldText red (str "username") fields, actorText red (str "name") fields]

/-- the texts that are read for the key of each scope, in the order of the scopes -/
def scopeTexts (fields : List (Str × Json)) : List (List ScopeText) :=
  [userTexts red fields,
    [fieldText red (str "session_id") fields], [fieldText red (str "srcip") fields],
    [fieldText red (str "route") fields]]

end

/-! ## keys -/

theorem firstKey_cons (t : ScopeText) (l : List ScopeText) :
    firstKey (t :: l) = orKey (cleaned t.text) (firstKey l) := by
  rw [firstKey]
  unfold cleaned orKey
  split <;> rfl

theorem cleaned_redacted : cleaned REDACTED = some REDACTED := by decide

/-- the key that is read off the texts the scrub has been over -/
def keptKey : List ScopeText → Option Str
  | [] => none
  | t :: l => orKey (cleaned t.kept) (keptKey l)

/-- it is the marker when a redacted text is read, and else the first text that is not blank -/
theorem keptKey_eq (l : List ScopeText) :
    keptKey l = if meetsHidden l then some REDACTED else firstKey l := by
  induction l with
  | nil => rfl
  | cons t l ih =>
    rw [keptKey, ih, firstKey_cons, meetsHidden]
    unfold ScopeText.kept
    by_cases h : (t.redacted && decide (t.text ≠ [])) = true
    · rw [if_pos h, if_pos h, cleaned_redacted]
      rfl
    · rw [if_neg h, if_neg h]
      unfold cleaned orKey
      by_cases hb : strip t.text = []
      · rw [if_pos hb, if_pos hb]
      · rw [if_neg hb, if_neg hb, if_neg Bool.false_ne_true]

theorem spared_iff (l : List ScopeText) : keptKey (remaining l) = firstKey l ↔ Spared l := by
  rw [keptKey_eq]
  unfold Spared
  split
  · exact eq_comm
  · exact Iff.rfl

section
variable (b : Builtins) {red : Redaction} {fields : List (Str × Json)}

theorem cleanKey_str (s : Str) : cleanKey b (some (.string s)) = cleaned s := rfl

/-- a field as it is in the event -/
theorem cleanKey_field {k : Str} (h : ShortText (getItem k fields)) :
    cleanKey b (getItem k fields) = cleaned (textAt k fields) := by
  unfold textAt
  obtain h | ⟨s, h, -⟩ := h
  · rw [h]
    rfl
  · rw [h]
    rfl

theorem filled_field {k : Str} (h : ShortText (getItem k fields)) :
    filled k fields = if textAt k fields = [] then none else some (.string (textAt k fields)) := by
  unfold filled textAt
  obtain h | ⟨s, h, -⟩ := h
  · rw [h]
    rfl
  · rw [h]
    cases s <;> rfl

/-- a field once the scrub and the projection have been over it -/
theorem cleanKey_cleaned {k : Str} {items out : List (Str × Json)} {d : Nat} (hd : d < 8)
    (hout : (getItem k items = none → getItem k out = none) ∧
      ∀ v, getItem k items = some v → ∃ m m' w j,
        ItemScrubbed red m (.str k, Value.ofJson v) (.str k, w) ∧
        project {} false m' d w = .ok j ∧ getItem k out = some j)
    (hitems : getItem k items = filled k fields) (ht : ShortText (getItem k fields))
    (dropped : Bool) : cleanKey b (getItem k out)
      = cleaned (ScopeText.kept ⟨textAt k fields,
          red.sensitiveNorm (normalizeKey k) || red.isSensitiveValue (textAt k fields),
          dropped⟩) := by
  rw [filled_field ht] at hitems
  unfold ScopeText.kept
  by_cases hs : textAt k fields = []
  · rw [if_pos hs] at hitems
    rw [hout.1 hitems, hs]
    simp only [ne_eq, not_true_eq_false, decide_false, Bool.and_false]
    rfl
  · rw [if_neg hs] at hitems
    have hlen : (textAt k fields).length ≤ 4096 := by
      unfold textAt at hs ⊢
      obtain ht | ⟨s, ht, hl⟩ := ht
      · rw [ht] at hs
        exact absurd rfl hs
      · rw [ht]
        exact hl
    obtain ⟨m, m', w, j, hw, hj, hg⟩ := hout.2 _ hitems
    rw [hg, cleaned_text hd hw hj hlen, cleanKey_str]
    unfold shown
    simp only [ne_eq, hs, not_false_eq_true, decide_true, Bool.and_true]

/-- the keys the extractors read are allowed -/
theorem allowed_field {sk : List Str} {vp : List (Str → Bool)} {k : Str}
    (hk : k ∈ SCOPE_KEY_FIELDS) :
    Redaction.sensitiveNorm ⟨sk, vp, SCOPE_KEY_FIELDS⟩ (normalizeKey k) = false := by
  rw [Bool.eq_false_iff, ne_eq, sensitiveNorm_iff]
  refine fun h => h.1 (List.mem_filter.mpr ⟨List.mem_map_of_mem hk, decide_eq_true ?_⟩)
  exact (by decide : ∀ k ∈ SCOPE_KEY_FIELDS, normalizeKey k ≠ []) k hk

/-! ## the keys of a summary -/

section
variable {sk : List Str} {vp : List (Str → Bool)} {event : RuleEvent} {summary : Summary}

/-- **what a key of the summary holds** -/
theorem summary_item (h : createHistorySummary sk vp event = .ok summary) (k : Str) :
    (getItem k (historyItems event.toDict) = none → getItem k summary = none) ∧
    ∀ v, getItem k (historyItems event.toDict) = some v → ∃ m m' w j,
      ItemScrubbed ⟨sk, vp, SCOPE_KEY_FIELDS⟩ m (.str k, Value.ofJson v) (.str k, w) ∧
      project {} false m' 1 w = .ok j ∧ getItem k summary = some j := by
  obtain ⟨scrubbed, hs, h⟩ := ok_of_bind h
  obtain ⟨safe, hp, h⟩ := ok_of_bind h
  have hsub := keys_historyItems event.toDict
  have hlen : (historyItems event.toDict).length ≤ 100 := by
    have hle := hsub.length_le
    rw [List.length_map] at hle
    exact hle.trans (by decide)
  obtain ⟨out, rfl, hout⟩ := cleaned_items hs hp (by decide) hlen
    (fun k hk => (by decide : ∀ k ∈ SUMMARY_KEYS, k.length ≤ 4096) k (hsub.subset hk))
    (hsub.nodup (by decide))
  cases h
  exact hout k

/-- a summary is a dict -/
theorem summary_nodup (h : createHistorySummary sk vp event = .ok summary) :
    (summary.map Prod.fst).Nodup := by
  obtain ⟨scrubbed, hs, h⟩ := ok_of_bind h
  obtain ⟨safe, hp, h⟩ := ok_of_bind h
  obtain ⟨m, l, rfl, -⟩ := scrub_mapping hs
  cases safe with
  | obj out =>
    cases h
    exact project_mapping_nodup hp
  | _ =>
    cases h
    exact List.nodup_nil

/-- what is not kept of an event is not in its summary -/
theorem summary_unlisted (h : createHistorySummary sk vp event = .ok summary) {k : Str}
    (hk : k ∉ SUMMARY_KEYS) : getItem k summary = none :=
  (summary_item h k).1 (getItem_none_of fun hm => hk ((keys_historyItems _).subset hm))

/-- a field the extractors read -/
theorem summary_field (h : createHistorySummary sk vp event = .ok summary) {k : Str}
    (hk : k ∈ SCOPE_KEY_FIELDS) (ht : ShortText (getItem k event.fields)) :
    cleanKey b (getItem k summary)
      = cleaned (fieldText ⟨sk, vp, SCOPE_KEY_FIELDS⟩ k event.fields).kept := by
  have hw : k ∈ HISTORY_WHITELIST :=
    (by decide : ∀ k ∈ SCOPE_KEY_FIELDS, k ∈ HISTORY_WHITELIST) k hk
  rw [cleanKey_cleaned b (by decide) (summary_item h k) (getItem_history hw event.fields) ht
    false, allowed_field hk, Bool.false_or]
  rfl

theorem actorKeys_obj {actor : List (Str × Json)}
    (h : getItem (str "actor") fields = some (.obj actor)) : actorKeys b fields
      = (cleanKey b (getItem (str "id") actor), cleanKey b (getItem (str "name") actor)) := by
  unfold actorKeys
  rw [h]

theorem actorKeys_other (h : ∀ actor, getItem (str "actor") fields ≠ some (.obj actor)) :
    actorKeys b fields = (none, none) := by
  unfold actorKeys
  rcases hv : getItem (str "actor") fields with _ | v
  · rfl
  · cases v with
    | obj actor => exact absurd hv (h actor)
    | _ => rfl

/-- the actor is a mapping, or there is none to read -/
theorem actor_cases (fields : List (Str × Json)) :
    (∃ actor, getItem (str "actor") fields = some (.obj actor) ∧ actorOf fields = actor) ∨
    ((∀ actor, getItem (str "actor") fields ≠ some (.obj actor)) ∧ actorOf fields = []) := by
  unfold actorOf
  rcases getItem (str "actor") fields with _ | v
  · exact .inr ⟨by rintro actor ⟨⟩, rfl⟩
  · cases v with
    | obj actor => exact .inl ⟨actor, rfl, rfl⟩
    | _ => exact .inr ⟨by rintro actor ⟨⟩, rfl⟩

theorem actorKeys_text (ht : IdentityTexts fields) : actorKeys b fields
    = (cleaned (textAt (str "id") (actorOf fields)),
      cleaned (textAt (str "name") (actorOf fields))) := by
  have hid := ht.actor (str "id") List.mem_cons_self
  have hname := ht.actor (str "name") (List.mem_cons_of_mem _ List.mem_cons_self)
  rcases actor_cases fields with ⟨actor, ha, he⟩ | ⟨hno, he⟩
  · rw [he] at hid hname ⊢
    rw [actorKeys_obj b ha, cleanKey_field b hid, cleanKey_field b hname]
  · rw [he, actorKeys_other b hno]
    rfl

theorem selectNested_obj {container : Str} {keys : List Str} {value : List (Str × Json)}
    (h : getItem container fields = some (.obj value)) : selectNested container keys fields
      = if selectItems keys value = [] then [] else [(container, .obj (selectItems keys value))] := by
  unfold selectNested
  rw [h]

theorem selectNested_other {container : Str} {keys : List Str}
    (h : ∀ value, getItem container fields ≠ some (.obj value)) :
    selectNested container keys fields = [] := by
  unfold selectNested
  rcases hv : getItem container fields with _ | v
  · rfl
  · cases v with
    | obj value => exact absurd hv (h value)
    | _ => rfl

/-- nothing is selected: the texts are empty -/
theorem textAt_of_unselected {keys : List Str} {k : Str} (hk : k ∈ keys)
    (h : selectItems keys fields = []) (ht : ShortText (getItem k fields)) :
    textAt k fields = [] := by
  have hf := getItem_selectItems hk fields
  rw [h, filled_field ht] at hf
  by_contra hne
  rw [if_neg hne] at hf
  cases hf

/-- what is selected of an actor, after the scrub and the projection -/
theorem actor_cleaned {red : Redaction} {actor : List (Str × Json)} {out : Summary} {w : Value}
    {j : Json} {m m' : Nat} (hid : ShortText (getItem (str "id") actor))
    (hname : ShortText (getItem (str "name") actor))
    (hw : ItemScrubbed red m
      (.str (str "actor"), Value.ofJson (.obj (selectItems [str "id", str "name"] actor)))
      (.str (str "actor"), w))
    (hj : project {} false m' 1 w = .ok j) (hg : getItem (str "actor") out = some j) :
    actorKeys b out = if red.sensitiveNorm (normalizeKey (str "actor")) then (none, none)
      else (cleaned (ScopeText.kept ⟨textAt (str "id") actor,
            red.sensitiveNorm (normalizeKey (str "id")) ||
              red.isSensitiveValue (textAt (str "id") actor), false⟩),
          cleaned (ScopeText.kept ⟨textAt (str "name") actor,
            red.sensitiveNorm (normalizeKey (str "name")) ||
              red.isSensitiveValue (textAt (str "name") actor), false⟩)) := by
  obtain ⟨-, ⟨hk, hred⟩ | ⟨hk, hs⟩⟩ := hw
  · rw [isSensitiveKey_of_text rfl] at hk
    rw [Except.ok.inj hk, if_pos rfl]
    dsimp only at hred
    subst hred
    have hj' : j = .string REDACTED := by
      unfold project at hj
      rw [if_neg (by decide)] at hj
      cases hj
      rfl
    refine actorKeys_other b fun actor' he' => ?_
    rw [hg, hj'] at he'
    cases he'
  · rw [isSensitiveKey_of_text rfl] at hk
    rw [Except.ok.inj hk, if_neg Bool.false_ne_true]
    have hsub := keys_selectItems [str "id", str "name"] actor
    have hlen : (selectItems [str "id", str "name"] actor).length ≤ 100 := by
      have hle := hsub.length_le
      rw [List.length_map] at hle
      exact hle.trans (by decide)
    obtain ⟨out', rfl, hout⟩ := cleaned_items hs hj (by decide) hlen
      (fun k hk => (by decide : ∀ k ∈ [str "id", str "name"], k.length ≤ 4096) k
        (hsub.subset hk)) (hsub.nodup (by decide))
    rw [actorKeys_obj b hg,
      cleanKey_cleaned b (by decide) (hout (str "id"))
        (getItem_selectItems List.mem_cons_self actor) hid false,
      cleanKey_cleaned b (by decide) (hout (str "name"))
        (getItem_selectItems (List.mem_cons_of_mem _ List.mem_cons_self) actor) hname false]

theorem cleaned_kept_nil {t : ScopeText} (h : t.text = []) : cleaned t.kept = none := by
  unfold ScopeText.kept
  rw [h]
  simp only [ne_eq, not_true_eq_false, decide_false, Bool.and_false]
  rfl

/-- the actor, which the scrub may take away as a whole -/
theorem summary_actor (h : createHistorySummary sk vp event = .ok summary)
    (ht : IdentityTexts event.fields) : actorKeys b summary
      = if Redaction.sensitiveNorm ⟨sk, vp, SCOPE_KEY_FIELDS⟩ (normalizeKey (str "actor"))
        then (none, none)
        else (cleaned (actorText ⟨sk, vp, SCOPE_KEY_FIELDS⟩ (str "id") event.fields).kept,
          cleaned (actorText ⟨sk, vp, SCOPE_KEY_FIELDS⟩ (str "name") event.fields).kept) := by
  have hid := ht.actor (str "id") List.mem_cons_self
  have hname := ht.actor (str "name") (List.mem_cons_of_mem _ List.mem_cons_self)
  have hitem := summary_item h (str "actor")
  rw [getItem_history_actor] at hitem
  -- what has no actor to read has none in the summary
  have hnone : getItem (str "actor") summary = none → actorKeys b summary = (none, none) :=
    fun hg => actorKeys_other b fun actor' he' => by
      rw [hg] at he'
      cases he'
  rcases actor_cases event.fields with ⟨actor, ha, he⟩ | ⟨hno, he⟩
  · rw [he] at hid hname
    rw [show selectNested _ _ event.toDict = _ from selectNested_obj ha] at hitem
    by_cases hsel : selectItems [str "id", str "name"] actor = []
    · rw [if_pos hsel] at hitem
      have h1 : textAt (str "id") (actorOf event.fields) = [] := by
        rw [he]
        exact textAt_of_unselected List.mem_cons_self hsel hid
      have h2 : textAt (str "name") (actorOf event.fields) = [] := by
        rw [he]
        exact textAt_of_unselected (List.mem_cons_of_mem _ List.mem_cons_self) hsel hname
      rw [hnone (hitem.1 rfl), @cleaned_kept_nil (actorText _ (str "id") event.fields) h1,
        @cleaned_kept_nil (actorText _ (str "name") event.fields) h2, ite_self]
    · rw [if_neg hsel] at hitem
      obtain ⟨m, m', w, j, hw, hj, hg⟩ := hitem.2 _ (getItem_cons_same _ _ [])
      unfold actorText
      rw [he]
      exact actor_cleaned b hid hname hw hj hg
  · rw [show selectNested _ _ event.toDict = _ from selectNested_other hno] at hitem
    have htext : ∀ k, textAt k (actorOf event.fields) = [] := fun k => by
      rw [he]
      rfl
    rw [hnone (hitem.1 rfl), @cleaned_kept_nil (actorText _ (str "id") event.fields) (htext _),
      @cleaned_kept_nil (actorText _ (str "name") event.fields) (htext _), ite_self]

end

end

/-! ## readers that agree -/

section
variable {l : List Reader} {s s' : Summary}

/-- the key of a reader is what is paired with its name -/
theorem mem_readPairs_key (hnd : (l.map Prod.fst).Nodup) {x : Reader} (hx : x ∈ l) {k : Str} :
    (x.1, k) ∈ readPairs l s ↔ k ∈ x.2 s := by
  rw [mem_readPairs]
  constructor
  · rintro ⟨y, hy, he, hk⟩
    rwa [List.inj_on_of_nodup_map hnd hy hx he] at hk
  · exact fun hk => ⟨x, hx, rfl, hk⟩

theorem readPairs_congr (h : ∀ x ∈ l, x.2 s = x.2 s') : readPairs l s = readPairs l s' := by
  unfold readPairs
  rw [List.flatMap_def, List.flatMap_def]
  congr 1
  exact List.map_congr_left fun x hx => by rw [h x hx]

/-- readers of different names find the same pairs when each finds the same key -/
theorem readPairs_same_iff (hnd : (l.map Prod.fst).Nodup) :
    (∀ p, p ∈ readPairs l s ↔ p ∈ readPairs l s') ↔ ∀ x ∈ l, x.2 s = x.2 s' := by
  constructor
  · intro h x hx
    refine Option.ext fun k => ?_
    rw [← Option.mem_def, ← Option.mem_def, ← mem_readPairs_key hnd hx, h,
      mem_readPairs_key hnd hx]
  · intro h p
    rw [readPairs_congr h]

theorem readPairs_eq_iff (hnd : (l.map Prod.fst).Nodup) :
    readPairs l s = readPairs l s' ↔ ∀ x ∈ l, x.2 s = x.2 s' :=
  ⟨fun h => (readPairs_same_iff hnd).mp fun p => by rw [h], readPairs_congr⟩

theorem ScopeKey.pair_injective : Function.Injective ScopeKey.pair := by
  rintro ⟨scope, key, _, _, _, _⟩ ⟨scope', key', _, _, _, _⟩ h
  obtain ⟨rfl, rfl⟩ := Prod.mk.inj h
  rfl

end

section
variable (b : Builtins) {sk : List Str} {vp : List (Str → Bool)} {event : RuleEvent}
  {summary : Summary}

theorem keptKey_cons (t : ScopeText) (l : List ScopeText) :
    keptKey (t :: l) = orKey (cleaned t.kept) (keptKey l) := rfl

theorem orKey_none (x : Option Str) : orKey x none = x := by
  cases x <;> rfl

theorem firstKey_one (t : ScopeText) : firstKey [t] = cleaned t.text := by
  rw [firstKey_cons, firstKey, orKey_none]

theorem keptKey_one (t : ScopeText) : keptKey [t] = cleaned t.kept := by
  rw [keptKey_cons, keptKey, orKey_none]

theorem userKey_text (red : Redaction) {fields : List (Str × Json)} (ht : IdentityTexts fields) :
    userKey b fields = firstKey (userTexts red fields) := by
  unfold userKey userTexts
  rw [actorKeys_text b ht, cleanKey_field b (ht.field (str "user_id") (by decide)),
    cleanKey_field b (ht.field (str "username") (by decide)), firstKey_cons, firstKey_cons,
    firstKey_cons, firstKey_one]
  rfl

theorem userKey_summary (h : createHistorySummary sk vp event = .ok summary)
    (ht : IdentityTexts event.fields) : userKey b summary
      = keptKey (remaining (userTexts ⟨sk, vp, SCOPE_KEY_FIELDS⟩ event.fields)) := by
  unfold userKey
  rw [summary_actor b h ht, summary_field b h (by decide) (ht.field (str "user_id") (by decide)),
    summary_field b h (by decide) (ht.field (str "username") (by decide))]
  unfold userTexts remaining
  rcases hs : Redaction.sensitiveNorm ⟨sk, vp, SCOPE_KEY_FIELDS⟩ (normalizeKey (str "actor"))
    with _ | _
  · have hall : ∀ t ∈ userTexts ⟨sk, vp, SCOPE_KEY_FIELDS⟩ event.fields, (!t.dropped) = true := by
      intro t ht
      unfold userTexts actorText fieldText at ht
      simp only [List.mem_cons, List.not_mem_nil, or_false] at ht
      rcases ht with rfl | rfl | rfl | rfl <;> first | rfl | (rw [hs]; rfl)
    unfold userTexts at hall
    rw [if_neg Bool.false_ne_true, List.filter_eq_self.mpr hall, keptKey_cons, keptKey_cons,
      keptKey_cons, keptKey_one]
  · have hdrop : ∀ k, (actorText ⟨sk, vp, SCOPE_KEY_FIELDS⟩ k event.fields).dropped = true :=
      fun k => hs
    rw [if_pos rfl, List.filter_cons_of_pos rfl, List.filter_cons_of_neg (by rw [hdrop]; simp),
      List.filter_cons_of_pos rfl, List.filter_cons_of_neg (by rw [hdrop]; simp), List.filter_nil,
      keptKey_cons, keptKey_one, orKey_none]
    rfl

/-- the key of the scope of a field -/
theorem fieldKey_iff (h : createHistorySummary sk vp event = .ok summary) {k : Str}
    (hk : k ∈ SCOPE_KEY_FIELDS) (ht : IdentityTexts event.fields) :
    cleanKey b (getItem k summary) = cleanKey b (getItem k event.fields) ↔
      Spared [fieldText ⟨sk, vp, SCOPE_KEY_FIELDS⟩ k event.fields] := by
  rw [summary_field b h hk (ht.field k hk), cleanKey_field b (ht.field k hk), ← spared_iff,
    firstKey_one, show remaining [fieldText _ k event.fields] = [fieldText _ k event.fields] from
      rfl, keptKey_one]
  rfl

/-- each scope has the key it had when the scrub leaves it alone -/
theorem readers_iff (h : createHistorySummary sk vp event = .ok summary)
    (ht : IdentityTexts event.fields) :
    (∀ x ∈ defaultReaders b, x.2 summary = x.2 event.fields) ↔
      ∀ l ∈ scopeTexts ⟨sk, vp, SCOPE_KEY_FIELDS⟩ event.fields, Spared l := by
  unfold defaultReaders scopeTexts
  simp only [List.forall_mem_cons, List.not_mem_nil, false_implies, implies_true, and_true]
  refine and_congr ?_ (and_congr ?_ (and_congr ?_ ?_))
  · rw [userKey_summary b h ht, userKey_text b ⟨sk, vp, SCOPE_KEY_FIELDS⟩ ht]
    exact spared_iff _
  · exact fieldKey_iff b h (by decide) ht
  · exact fieldKey_iff b h (by decide) ht
  · exact fieldKey_iff b h (by decide) ht

end

section
variable {Response : Type} (b : Builtins) (engine : RuleEngine Response) (event : RuleEvent)

/-- **the scope keys of the scrubbed summary are those of the event exactly when the scrub spares
the texts they are read from** -/
theorem scope_keys_survive
    (hx : engine.historyExtractors = (ScopeRegistry.default b).extractors)
    (ht : IdentityTexts event.fields) : ∃ summary keys raw,
    engine.buildEvaluationContext event = (do
      let now ← perform .clock
      return ⟨event, now, summary, keys⟩) ∧
    extractScopeKeys event.toDict (ScopeRegistry.default b).extractors [] = .ok raw ∧
    (keys = raw ↔ ∀ l ∈ scopeTexts ⟨engine.sensitiveKeys, engine.valuePatterns, SCOPE_KEY_FIELDS⟩
      event.fields, Spared l) := by
  obtain ⟨summary, hs⟩ := createHistorySummary_ok engine.sensitiveKeys engine.valuePatterns event
  obtain ⟨keys, hk, hkeys⟩ := @default_scopeKeys summary b
  obtain ⟨raw, hr, hraw⟩ := @default_scopeKeys event.toDict b
  refine ⟨summary, keys, raw, ?_, hr, ?_⟩
  · unfold RuleEngine.buildEvaluationContext
    rw [hx, hs]
    show (perform Eff.clock >>= fun now => ofExcept (extractScopeKeys summary _ []) >>= _) = _
    rw [show extractScopeKeys summary _ [] = _ from hk]
    rfl
  · have hnd : ((defaultReaders b).map Prod.fst).Nodup :=
      (by decide : [str "user", str "session", str "ip", str "route"].Nodup)
    rw [← (List.map_injective_iff.mpr ScopeKey.pair_injective).eq_iff, hkeys, hraw,
      readPairs_eq_iff hnd]
    exact readers_iff b hs ht

end

/-- a failed login from an address -/
def failedLoginFrom (address : Str) : RuleEvent :=
  RuleEvent.make (str "auth.login.failed") [(str "srcip", .string address)]

/-- an engine that hides what starts like an internal address -/
def hidesInternal : RuleEngine Unit where
  rules := []
  historyExtractors := (ScopeRegistry.default Builtins.sample).extractors
  valuePatterns := [fun s => (str "10.").isPrefixOf s]

theorem failedLoginFrom_texts {address : Str} (h : address.length ≤ 4096) :
    IdentityTexts (failedLoginFrom address).fields where
  field := by
    intro k hk
    have hne : k ≠ str "event_type" := (by decide : ∀ k ∈ SCOPE_KEY_FIELDS, k ≠ str "event_type") k hk
    unfold ShortText failedLoginFrom
    rw [RuleEvent.getItem_make hne]
    by_cases hs : k = str "srcip"
    · subst hs
      exact .inr ⟨address, rfl, h⟩
    · refine .inl (getItem_none_of ?_)
      rwa [List.map_singleton, List.mem_singleton]
  actor := fun k _ => .inl rfl

/-- an address that no pattern hides -/
theorem scope_keys_survive_public : ∃ summary keys raw,
    hidesInternal.buildEvaluationContext (failedLoginFrom (str "192.0.2.1")) = (do
      let now ← perform .clock
      return ⟨failedLoginFrom (str "192.0.2.1"), now, summary, keys⟩) ∧
    extractScopeKeys (failedLoginFrom (str "192.0.2.1")).toDict
      (ScopeRegistry.default Builtins.sample).extractors [] = .ok raw ∧
    (keys = raw ↔ ∀ l ∈ scopeTexts ⟨defaultSensitiveKeys, hidesInternal.valuePatterns,
      SCOPE_KEY_FIELDS⟩ (failedLoginFrom (str "192.0.2.1")).fields, Spared l) :=
  scope_keys_survive Builtins.sample hidesInternal _ rfl (failedLoginFrom_texts (by decide))

/-- two addresses that a pattern hides share one key -/
theorem scope_keys_collapse : ∃ summary keys raw raw',
    hidesInternal.buildEvaluationContext (failedLoginFrom (str "10.0.0.1")) = (do
      let now ← perform .clock
      return ⟨failedLoginFrom (str "10.0.0.1"), now, summary, keys⟩) ∧
    hidesInternal.buildEvaluationContext (failedLoginFrom (str "10.0.0.2")) = (do
      let now ← perform .clock
      return ⟨failedLoginFrom (str "10.0.0.2"), now, summary, keys⟩) ∧
    extractScopeKeys (failedLoginFrom (str "10.0.0.1")).toDict hidesInternal.historyExtractors []
      = .ok raw ∧
    extractScopeKeys (failedLoginFrom (str "10.0.0.2")).toDict hidesInternal.historyExtractors []
      = .ok raw' ∧
    keys.map ScopeKey.pair = [(str "ip", REDACTED)] ∧ raw ≠ raw' ∧ keys ≠ raw ∧ keys ≠ raw' :=
  ⟨[(str "event_type", .string (str "auth.login.failed")), (str "srcip", .string REDACTED)],
    [⟨str "ip", REDACTED, by decide, by decide, by decide, by decide⟩],
    [⟨str "ip", str "10.0.0.1", by decide, by decide, by decide, by decide⟩],
    [⟨str "ip", str "10.0.0.2", by decide, by decide, by decide, by decide⟩],
    rfl, rfl, rfl, rfl, rfl, by decide, by decide, by decide⟩

end SecAudit
