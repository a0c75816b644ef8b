import SecAudit.Django.Receivers
import SecAudit.Enforce.Feedback
import SecAudit.Rules.Changes

/-!
# Changes of sensitive fields, from the model log to the rule

* `attribute_frozen`  what an attribute of an event holds, whatever its entry is;
* `LogEntry.changedNames`  the names of the changed fields of an entry of the model log;
* `LogEntry.ToldBy` the event of an entry tells what the entry does;
* `changes_detected`  the rule reports exactly the updates that change a sensitive field.
-/

set_option linter.unusedVariables false

namespace SecAudit
open Py Prog

/-! ## what is frozen -/

section
variable {repr : Str → Str}

/-- what is frozen holds the frozen value of every key -/
theorem getItem_frozen {n : Nat} {path : Str} {k : Str} {v : Value} :
    ∀ {l : List (Str × Value)} {frozen out : List (Str × Json)},
    canonicalizeItems repr n path frozen (l.map fun p => (.str p.1, p.2)) = .ok out →
    hasItem k frozen = false → getItem k l = some v →
    ∃ path w, canonicalize repr n path v = .ok w ∧ getItem k out = some w
  | [], _, _, _, _, hv => by cases hv
  | (key, v') :: l, frozen, out, h, hk, hv => by
    rw [List.map_cons, canonicalizeItems] at h
    split at h
    · cases h
    obtain ⟨item, hitem, h⟩ := ok_of_bind h
    by_cases he : key = k
    · subst he
      rw [getItem_cons_same] at hv
      obtain rfl := Option.some.inj hv
      refine ⟨_, item, hitem, ?_⟩
      have hnone : getItem key frozen = none := by
        rw [← Option.not_isSome_iff_eq_none, getItem_isSome, hk]
        exact Bool.false_ne_true
      rw [(getItem_canonicalized h).1 ?_, getItem_append, hnone, getItem_cons_same]
      · rfl
      · unfold hasItem
        rw [List.any_append, List.any_cons, decide_eq_true rfl, Bool.true_or, Bool.or_true]
    · rw [getItem_cons_other _ _ he] at hv
      refine getItem_frozen h ?_ hv
      unfold hasItem at hk ⊢
      rw [List.any_append, hk, List.any_cons, List.any_nil, Bool.or_false, Bool.false_or]
      exact decide_eq_false he

/-- a list of texts is frozen as it is -/
theorem canonicalizeElems_texts {n : Nat} {path : Str} : ∀ {l : List Str} {i : Nat},
    canonicalizeElems repr n path i (l.map .str) = .ok (l.map .string)
  | [], _ => rfl
  | s :: l, i => by
    rw [List.map_cons, canonicalizeElems, canonicalizeElems_texts]
    rfl

theorem canonicalize_texts {n : Nat} {path : Str} {l : List Str} {w : Json}
    (h : canonicalize repr n path (.seq (l.map .str)) = .ok w) : w = .arr (l.map .string) := by
  cases n with
  | zero => cases h
  | succ n =>
    obtain ⟨items, hitems, rfl⟩ := ok_of_map h
    rw [canonicalizeElems_texts] at hitems
    rw [Except.ok.inj hitems]

/-- **the attributes of an event**, with the changed fields that were given: each is the frozen
value of its entry, or not there -/
theorem attribute_frozen {py : Objects} {context : Option AuditContext} {frames now : Nat}
    {body eventType schemaVersion : Str} {data : List (Str × Value)} {includeUsernames : Bool}
    {event : AuditEvent}
    (h : buildAuditEvent py context repr frames now body eventType data schemaVersion
      includeUsernames [] = .ok event) : event.eventType = eventType ∧
    ∃ n status duration impact name changed, changedFields py data = .ok changed ∧ ∀ k,
      k ≠ str "event_type" → k ≠ str "schema_version" → ∀ entry, ((getItem k (logEntries py data
        context eventType status duration impact name changed)).join.filter
          fun v => !blankValue v) = entry →
      (entry = none → getItem k event.attributes = none) ∧
      ∀ v, entry = some v →
        ∃ path w, canonicalize repr n path v = .ok w ∧ getItem k event.attributes = some w := by
  unfold buildAuditEvent at h
  obtain ⟨attributes, ha, h⟩ := ok_of_bind h
  unfold buildLogAttributes at ha
  obtain ⟨status, -, ha⟩ := ok_of_bind ha
  obtain ⟨name, -, ha⟩ := ok_of_bind ha
  obtain ⟨changed, hchanged, ha⟩ := ok_of_bind ha
  obtain ⟨duration, -, ha⟩ := ok_of_bind ha
  obtain ⟨impact, -, ha⟩ := ok_of_bind ha
  obtain ⟨n, frozen, -, hc, he⟩ := AuditEvent.make_attributes h
  have htype : event.eventType = eventType := by
    have hitem := event.type_item
    rw [he] at hitem
    unfold withAuthoritative at hitem
    rw [getItem_setItem_other _ _ (by decide), getItem_setItem_same] at hitem
    exact (Json.string.inj (Option.some.inj hitem)).symm
  refine ⟨htype, n, status, duration, impact, name, changed, hchanged,
    fun k ht hs entry hentry => ?_⟩
  have hadded : getItem k attributes = entry := by
    rw [← hentry, ← Except.ok.inj ha,
      getItem_addAll (by rw [keys_logEntries]; exact logKeys_nodup),
      getItem_cons_other _ _ (Ne.symm ht), getItem_cons_other _ _ (Ne.symm hs)]
    exact Option.or_none
  have hread : getItem k event.attributes = getItem k frozen := by
    rw [he]
    unfold withAuthoritative
    rw [getItem_setItem_other _ _ hs, getItem_setItem_other _ _ ht]
  rw [hread, ← hadded]
  exact ⟨fun hv => (getItem_canonicalized hc).2.1 hv, fun v hv => getItem_frozen hc rfl hv⟩

end

/-! ## the data of an entry -/

/-- the names of the changed fields -/
def LogEntry.changedNames (entry : LogEntry) : Except Exc (List Str) :=
  match entry.changes with
  | some keys => (keys.mapM Key.text).map fun names => names.filter fun s => decide (s ≠ [])
  | none => .ok []

/-- the label of the model, empty when a part of it is -/
def LogEntry.label (entry : LogEntry) : Str :=
  let model := (entry.contentType.map Prod.fst).getD []
  let appLabel := (entry.contentType.map Prod.snd).getD []
  if appLabel = [] ∨ model = [] then [] else appLabel ++ str "." ++ model

section
variable {lib : IpLibrary} {mw : AuditMiddleware lib} {context : Option AuditContext}
  {entry : LogEntry} {py : Objects}

/-- an item that is there or not, under another key -/
theorem getItem_unless {k key : Str} {v : Value} {c : Prop} [Decidable c] (h : k ≠ key) :
    getItem k (if c then [] else [(key, v)]) = none := by
  split
  · rfl
  · exact (getItem_cons_other _ _ (Ne.symm h)).trans rfl

/-- an identity has keys of its own -/
theorem getItem_identity {k : Str} {identity : List (Str × Value)} (hu : k ≠ str "user_id")
    (ha : k ≠ str "actor") (h : entryIdentity mw entry = .ok identity) :
    getItem k identity = none := by
  have hitems : ∀ actorId username, getItem k (actorItems actorId username) = none := by
    intro actorId username
    unfold actorItems
    dsimp only
    rw [getItem_append]
    have hid : getItem k ((actorId.map fun i => (str "user_id", Value.str i)).toList) = none := by
      cases actorId with
      | none => rfl
      | some i => exact (getItem_cons_other _ _ (Ne.symm hu)).trans rfl
    rw [hid, Option.none_or]
    exact getItem_unless ha
  unfold entryIdentity at h
  split at h
  · split at h
    · obtain ⟨username, -, rfl⟩ := ok_of_map h
      exact hitems _ _
    · cases h
      rfl
  · cases h
    rfl

theorem changedTexts_texts : ∀ {l : List Str}, changedTexts py (l.map .str)
    = .ok ((l.filter fun s => decide (s ≠ [])).map .str)
  | [] => rfl
  | s :: l => by
    rw [List.map_cons, changedTexts, changedTexts_texts, List.filter_cons]
    show Except.ok (if s = [] then _ else _) = _
    by_cases hs : s = []
    · rw [if_pos hs, if_neg (by simpa using hs)]
    · rw [if_neg hs, if_pos (decide_eq_true hs), List.map_cons]

/-- the items of an entry tell the label of its model -/
theorem getItem_label {objectId : Str} :
    getItem (str "model_label") (entryItems context entry objectId) = textValue entry.label := by
  unfold entryItems textValue LogEntry.label
  dsimp only
  rw [getItem_append]
  by_cases hempty : (entry.contentType.map Prod.snd).getD [] = [] ∨
      (entry.contentType.map Prod.fst).getD [] = []
  · rw [if_pos hempty, if_pos hempty]
    rfl
  · rw [if_neg hempty, if_neg hempty, if_neg fun he => hempty (.inl
      (List.append_eq_nil_iff.mp (List.append_eq_nil_iff.mp he).1).1)]
    rfl

variable {changed data : List (Str × Value)}

/-- the changed fields are under a key of their own -/
theorem getItem_changed {k : Str} (hk : k ≠ str "changed_fields")
    (h : changedItems entry = .ok changed) : getItem k changed = none := by
  unfold changedItems at h
  split at h
  · obtain ⟨fields, -, rfl⟩ := ok_of_map h
    exact (getItem_cons_other _ _ (Ne.symm hk)).trans rfl
  · cases h
    rfl

/-- the names of the changed fields are read off the data -/
theorem changedFields_changed (h : changedItems entry = .ok changed)
    (hdata : getItem (str "changed_fields") data = getItem (str "changed_fields") changed) :
    ∃ names, entry.changedNames = .ok names ∧
      changedFields py data = .ok (if names = [] then none else some (.seq (names.map .str))) := by
  unfold changedFields LogEntry.changedNames
  rw [hdata]
  unfold changedItems at h
  rcases hc : entry.changes with _ | keys
  · rw [hc] at h
    cases h
    exact ⟨[], rfl, rfl⟩
  · rw [hc] at h
    obtain ⟨fields, hfields, rfl⟩ := ok_of_map h
    refine ⟨fields.filter fun s => decide (s ≠ []), ?_, ?_⟩
    · show (keys.mapM Key.text).map _ = _
      rw [hfields]
      rfl
    · rw [getItem_cons_same]
      dsimp only
      rw [changedTexts_texts]
      cases fields.filter fun s => decide (s ≠ []) <;> rfl

/-- what the data hold beside an identity and an address -/
theorem getItem_entryData (h : entryData mw context entry = .ok data) :
    ∃ objectId changed, entry.objectPk = .ok objectId ∧ changedItems entry = .ok changed ∧
      ∀ k, k ≠ str "user_id" → k ≠ str "actor" → k ≠ str "srcip" → getItem k data
        = (getItem k (entryItems context entry objectId)).or (getItem k changed) := by
  unfold entryData at h
  obtain ⟨objectId, hobject, h⟩ := ok_of_bind h
  obtain ⟨identity, hidentity, h⟩ := ok_of_bind h
  obtain ⟨changed, hchanged, h⟩ := ok_of_bind h
  refine ⟨objectId, changed, hobject, hchanged, fun k hu ha hs => ?_⟩
  rw [← Except.ok.inj h, getItem_append, getItem_append, getItem_append,
    getItem_identity hu ha hidentity, getItem_unless hs, Option.or_none, Option.or_none]

/-- the data of an entry tell its label, its object and its changed fields -/
theorem entryData_items (h : entryData mw context entry = .ok data) :
    ∃ names objectId, entry.changedNames = .ok names ∧ entry.objectPk = .ok objectId ∧
      getItem (str "object_id") data = some (.str objectId) ∧
      getItem (str "model_label") data = textValue entry.label ∧
      changedFields py data = .ok (if names = [] then none else some (.seq (names.map .str))) := by
  obtain ⟨objectId, changed, hpk, hchanged, hread⟩ := getItem_entryData h
  have hnone : getItem (str "changed_fields") (entryItems context entry objectId) = none := by
    unfold entryItems
    dsimp only
    rw [getItem_append, getItem_unless (by decide)]
    rfl
  have hfields := hread (str "changed_fields") (by decide) (by decide) (by decide)
  rw [hnone, Option.none_or] at hfields
  obtain ⟨names, hnames, hseq⟩ := changedFields_changed hchanged hfields
  refine ⟨names, objectId, hnames, hpk, ?_, ?_, hseq⟩
  · rw [hread _ (by decide) (by decide) (by decide), getItem_changed (by decide) hchanged]
    rfl
  · rw [hread _ (by decide) (by decide) (by decide), getItem_changed (by decide) hchanged,
      getItem_label, Option.or_none]

end

/-! ## the event of an entry -/

/-- an event tells what an entry of the model log does -/
structure LogEntry.ToldBy (entry : LogEntry) (names : List Str) (objectId : Str)
    (event : AuditEvent) : Prop where
  type : event.eventType = modelEventType entry.action
  label : getItem (str "model_label") event.attributes
    = if entry.label = [] then none else some (.string entry.label)
  object : getItem (str "object_id") event.attributes
    = if objectId = [] then none else some (.string objectId)
  changed : getItem (str "changed_fields") event.attributes
    = if names = [] then none else some (.arr (names.map .string))

section
variable {py : Objects} {repr : Str → Str} {frames : Nat} {lib : IpLibrary}
  {mw : AuditMiddleware lib} {Response : Type} {now : Nat} {entry : LogEntry}
  {t : List (AuditCall Response)} {event : AuditEvent}

/-- **the receiver of the model log** makes an event that tells what the entry does -/
theorem entry_told
    (h : Does (AuditReplies Response) (signalEvent py repr frames mw now (.model (some entry))) t
      (.ok event)) : ∃ names objectId, entry.changedNames = .ok names ∧
      entry.objectPk = .ok objectId ∧ entry.ToldBy names objectId event := by
  rcases does_bind.mp h with ⟨t₁, x, t₂, -, h₂, rfl⟩ | ⟨e, -, hr⟩
  swap
  · cases hr
  rcases does_bind.mp h₂ with ⟨t₃, data, t₄, h₃, h₄, rfl⟩ | ⟨e, -, hr⟩
  swap
  · cases hr
  obtain ⟨-, hdata⟩ := does_done.mp h₃
  obtain ⟨-, hevent⟩ := does_done.mp h₄
  obtain ⟨names, objectId, hnames, hpk, hobject, hlabel, hchanged⟩ :=
    @entryData_items lib mw x.1 entry py data hdata.symm
  obtain ⟨htype, n, status, duration, impact, name, changed, hc, hread⟩ :=
    attribute_frozen hevent.symm
  obtain rfl : changed = if names = [] then none else some (.seq (names.map .str)) :=
    Except.ok.inj (hc.symm.trans hchanged)
  -- a text is frozen as it is
  have htext : ∀ k s, k ≠ str "event_type" → k ≠ str "schema_version" →
      ((getItem k (logEntries py data x.1 (modelEventType entry.action) status duration impact name
        (if names = [] then none else some (.seq (names.map .str))))).join.filter
          fun v => !blankValue v) = textValue s →
      getItem k event.attributes = if s = [] then none else some (.string s) := by
    intro k s ht hs he
    obtain ⟨hnone, hsome⟩ := hread k ht hs _ he
    by_cases hempty : s = []
    · rw [if_pos hempty]
      exact hnone (if_pos hempty)
    · rw [if_neg hempty]
      obtain ⟨path, w, hw, hget⟩ := hsome (.str s) (if_neg hempty)
      rw [hget, ← Except.ok.inj hw]
  refine ⟨names, objectId, hnames, hpk, htype, ?_, ?_, ?_⟩
  · refine htext _ _ (by decide) (by decide) ?_
    show (Option.join (some (getItem (str "model_label") data))).filter _ = _
    rw [hlabel]
    unfold textValue
    cases entry.label <;> rfl
  · refine htext _ _ (by decide) (by decide) ?_
    show (Option.join (some (getItem (str "object_id") data))).filter _ = _
    rw [hobject]
    unfold textValue
    cases objectId <;> rfl
  · obtain ⟨hnone, hsome⟩ := hread (str "changed_fields") (by decide) (by decide) _ rfl
    change ((if names = [] then none else some (Value.seq (names.map .str))).filter
      (fun v => !blankValue v)) = none → _ at hnone
    change ∀ v, ((if names = [] then none else some (Value.seq (names.map .str))).filter
      (fun v => !blankValue v)) = some v → _ at hsome
    by_cases hempty : names = []
    · rw [if_pos hempty] at hnone ⊢
      exact hnone rfl
    · rw [if_neg hempty] at hsome ⊢
      obtain ⟨path, w, hw, hget⟩ := hsome (.seq (names.map .str)) rfl
      rw [hget, canonicalize_texts hw]

/-! ## what the rule finds -/

/-- a field that is not among the aliases is read off the attributes -/
theorem getItem_fromEvent {b : Builtins} {k : Str} (ht : k ≠ str "event_type")
    (ha : k ∉ OTEL_TO_RAW_ALIASES.map Prod.snd) :
    getItem k (RuleEvent.fromEvent b event).fields = getItem k event.attributes :=
  (RuleEvent.getItem_make ht).trans (getItem_normalize_other ha)

theorem textOf_fromEvent {b : Builtins} {s : Str} {v : Option Json}
    (h : v = if s = [] then none else some (.string s)) : RuleEvent.textOf b v = s := by
  rw [h]
  by_cases hs : s = []
  · rw [if_pos hs, hs]
    rfl
  · rw [if_neg hs]
    rfl

theorem changedFields_fromEvent {b : Builtins} {lower : Str → Str} {names : List Str}
    (h : getItem (str "changed_fields") event.attributes
      = if names = [] then none else some (.arr (names.map .string))) :
    SensitiveFieldChangeRule.changedFields lower b
      ((RuleEvent.fromEvent b event).field (str "changed_fields")) = names.map lower := by
  have hget : getItem (str "changed_fields") (RuleEvent.fromEvent b event).fields = _ :=
    (getItem_fromEvent (by decide) (by decide)).trans h
  have hparts : (str "changed_fields").splitOn (cp '.') = [str "changed_fields"] := by decide
  unfold RuleEvent.field
  rw [hparts, RuleEvent.walk, hget]
  by_cases hempty : names = []
  · rw [if_pos hempty, hempty]
    rfl
  · rw [if_neg hempty]
    show List.map _ (names.map Json.string) = _
    rw [List.map_map]
    rfl

theorem modelEventType_update {action : Int} :
    modelEventType action = str "model.update" ↔ action = 1 := by
  unfold modelEventType
  constructor
  · intro h
    by_contra hne
    rw [if_neg hne] at h
    split at h
    · exact absurd h (by decide)
    split at h
    · exact absurd h (by decide)
    split at h
    · exact absurd h (by decide)
    · exact absurd h (by decide)
  · rintro rfl
    rfl

/-- the model of an entry is watched, for one of its labels in lower case -/
def LogEntry.Watched (entry : LogEntry) (lower : Str → Str) (modelLabels : List Str) : Prop :=
  modelLabels = [] ∨ ∃ label ∈ modelLabels, lower label = lower entry.label

/-- **Changes of sensitive fields are detected**, from the model log to the match: of the events
that the receiver makes of its entries the rule is asked about the updates, and finds those of a
watched model that change one of its fields, in any case of letters. The match names the object and
the sensitive fields, each once and in order. -/
theorem changes_detected (py : Objects) (repr : Str → Str) (frames : Nat) {lib : IpLibrary}
    (mw : AuditMiddleware lib) {Response : Type} (now : Nat) (entry : LogEntry)
    (t : List (AuditCall Response)) (event : AuditEvent)
    (hevent : Does (AuditReplies Response)
      (signalEvent py repr frames mw now (.model (some entry))) t (.ok event))
    (b : Builtins) (lower : Str → Str) (fields modelLabels : List Str) (severity : Option Int)
    (message : Str) (tags : List Str) (enforcementOnly : Bool) (ctx : RuleContext) :
    ∃ names objectId, entry.changedNames = .ok names ∧
      entry.objectPk = .ok objectId ∧
      (RuleEngine.ruleApplies SensitiveFieldChangeRule.rule (RuleEvent.fromEvent b event)
        enforcementOnly = true ↔ enforcementOnly = false ∧ entry.action = 1) ∧
      ((∃ m, (SensitiveFieldChangeRule.make lower fields modelLabels severity message tags).evaluate
          lower b (RuleEvent.fromEvent b event) ctx = .found m) ↔ entry.Watched lower modelLabels ∧
        ∃ name ∈ names, ∃ field ∈ fields, lower field = lower name) ∧
      ∀ m, (SensitiveFieldChangeRule.make lower fields modelLabels severity message tags).evaluate
          lower b (RuleEvent.fromEvent b event) ctx = .found m →
        m.ruleName = str "sensitive_field_change" ∧ m.subject = orNone objectId ∧
        ∃ found : List Str, m.metadata = [(.str (str "changed_fields"), .seq (found.map .str)),
            (.str (str "model_label"), .str (lower entry.label))] ∧
          found.Pairwise (· < ·) ∧
          ∀ f, f ∈ found ↔
            (∃ name ∈ names, lower name = f) ∧ ∃ field ∈ fields, lower field = f := by
  obtain ⟨names, objectId, hnames, hpk, htold⟩ := entry_told hevent
  have hlabel : ((RuleEvent.fromEvent b event).model b).label = entry.label :=
    textOf_fromEvent ((getItem_fromEvent (by decide) (by decide)).trans htold.label)
  have hobject : ((RuleEvent.fromEvent b event).model b).objectId = objectId :=
    textOf_fromEvent ((getItem_fromEvent (by decide) (by decide)).trans htold.object)
  have htells := @SensitiveFieldChangeRule.evaluate_tells lower b
    (.make lower fields modelLabels severity message tags) (RuleEvent.fromEvent b event) ctx
  rw [hlabel, hobject, changedFields_fromEvent htold.changed] at htells
  refine ⟨names, objectId, hnames, hpk, ?_, htells.iff.trans (and_congr ?_ ?_), fun m hm => ?_⟩
  · unfold RuleEngine.ruleApplies
    rw [fromEvent_type, htold.type]
    show ((!enforcementOnly || false) && (false || decide (_ ∈ [str "model.update"]))) = true ↔ _
    rw [Bool.or_false, Bool.false_or, Bool.and_eq_true, Bool.not_eq_true', decide_eq_true_eq,
      List.mem_singleton, modelEventType_update]
  · show ((modelLabels.map lower).isEmpty || decide (_ ∈ modelLabels.map lower)) = true ↔ _
    rw [Bool.or_eq_true, List.isEmpty_iff, List.map_eq_nil_iff, decide_eq_true_eq, List.mem_map]
    rfl
  · show (∃ f ∈ names.map lower, f ∈ fields.map lower) ↔ _
    simp only [List.mem_map, exists_exists_and_eq_and]
  · obtain ⟨hname, hsubject, found, hmeta, hsorted, hmem⟩ := htells.told m hm
    refine ⟨hname, hsubject, found, hmeta, hsorted, fun f => ?_⟩
    rw [hmem f, List.mem_map]
    exact and_congr_right fun _ => List.mem_map

/-- the email and the name of a customer are changed -/
def sampleChange : LogEntry :=
  ⟨1, some (str "customer", str "shop"), .ok (str "7"), none, [],
    some [.str (str "Email"), .str (str "name")]⟩

/-- no request is active -/
def sampleBefore : Before := ⟨none, fun _ => .ok [], .error .typeError, [], []⟩

/-- the entry is made an event of -/
theorem sampleChange_event : ∃ event, Does (AuditReplies Unit)
    (signalEvent .silent id 10 .plain 0 (.model (some sampleChange)))
    [⟨.before, .ok sampleBefore⟩] (.ok event) := by
  have hok : ((entryData .plain none sampleChange).bind fun data =>
      buildAuditEvent .silent none id 10 0 (str "model.event") (modelEventType 1) data
        AuditMiddleware.plain.schemaVersion AuditMiddleware.plain.django.includeUsernames
        []).isOk = true := by
    decide +kernel
  rcases hevent : ((entryData .plain none sampleChange).bind fun data =>
      buildAuditEvent .silent none id 10 0 (str "model.event") (modelEventType 1) data
        AuditMiddleware.plain.schemaVersion AuditMiddleware.plain.django.includeUsernames
        []) with e | event
  · rw [hevent] at hok
    cases hok
  · refine ⟨event, does_bind.mpr (.inl ⟨_, _, [], does_bind.mpr (.inl ⟨_, _, [],
      does_perform.mpr ⟨trivial, rfl⟩, does_done.mpr ⟨rfl, rfl⟩, rfl⟩), ?_, rfl⟩)⟩
    obtain ⟨data, hdata, hbuilt⟩ := ok_of_bind hevent
    exact does_bind.mpr (.inl ⟨[], data, [], does_done.mpr ⟨rfl, hdata.symm⟩,
      does_done.mpr ⟨rfl, hbuilt.symm⟩, rfl⟩)

/-- the email is found, in another case of letters -/
theorem changes_detected_email : ∃ event m, Does (AuditReplies Unit)
      (signalEvent .silent id 10 .plain 0 (.model (some sampleChange)))
      [⟨.before, .ok sampleBefore⟩] (.ok event) ∧
    (SensitiveFieldChangeRule.make Unicode.sample.lower [str "EMAIL"] [str "Shop.Customer"] (some 9)
      (str "changed") [str "audit"]).evaluate Unicode.sample.lower .sample (.fromEvent .sample event)
        ⟨0, []⟩ = .found m ∧ m.subject = some (str "7") := by
  obtain ⟨event, hevent⟩ := sampleChange_event
  obtain ⟨names, objectId, hnames, hpk, -, hfound, htold⟩ := changes_detected .silent id 10 .plain 0
    sampleChange _ event hevent .sample Unicode.sample.lower [str "EMAIL"] [str "Shop.Customer"]
    (some 9) (str "changed") [str "audit"] false ⟨0, []⟩
  obtain rfl : [str "Email", str "name"] = names := Except.ok.inj hnames
  obtain ⟨m, hm⟩ := hfound.mpr ⟨.inr ⟨_, List.mem_cons_self, by decide⟩,
    _, List.mem_cons_self, _, List.mem_cons_self, by decide⟩
  refine ⟨event, m, hevent, hm, ?_⟩
  rw [(htold m hm).2.1, ← Except.ok.inj hpk]
  rfl

end

end SecAudit
