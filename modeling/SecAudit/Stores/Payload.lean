import SecAudit.Stores.Blocks

/-!
# What the cache reads back of an entry

* `JsonRoundTrips`  `json.loads` gives a value back that `json.dumps` has written;
* `IsoRoundTrips`   `fromisoformat` gives a time back that `isoformat` has written;
* `entryOfJson_entryJson`  with both, an entry is read back but for a status of `0` and an empty
                    message, which become the defaults;
* `payload_iff`     so it is read back as it was exactly when it has neither.
-/

set_option linter.unusedVariables false

namespace SecAudit
open Py

/-- `json.loads` undoes `json.dumps` at `j` -/
def JsonRoundTrips (j : Json) : Prop := ∃ p, j.dumps .default true = some p ∧ loads p = some j

/-- so it does where every number can be written and UTF-8 can carry every text -/
theorem jsonRoundTrips_of {j : Json} (hw : j.writable false = true) (hf : j.fuse = j) :
    JsonRoundTrips j := by
  refine ⟨j.render .default, if_pos hw, ?_⟩
  rw [loads_render valid_default hw, hf]

/-- `datetime.fromisoformat` undoes `isoformat` at `t`, and the text is not empty -/
structure IsoRoundTrips (b : Builtins) (t : Int) : Prop where
  read_text : b.fromisoformat (b.isoformat t) = some t
  text_ne : b.isoformat t ≠ []

section
variable {b : Builtins}

theorem parseIso_iso {t : Option Int} (h : ∀ t' ∈ t, IsoRoundTrips b t') :
    parseIso b (some (iso b t)) = t := by
  cases t with
  | none => rfl
  | some t =>
    obtain ⟨hread, hne⟩ := h t rfl
    have htrue : truthy b (.string (b.isoformat t)) = true := by
      show (!(b.isoformat t).isEmpty) = true
      rw [List.isEmpty_eq_false_iff.mpr hne]
      rfl
    show (if truthy b (.string (b.isoformat t)) = true then b.fromisoformat (b.isoformat t)
      else none) = some t
    rw [if_pos htrue, hread]

/-- `str(s or default)` of a string -/
theorem strOf_orElse (s d : Str) :
    strOf b (orElse b (some (.string s)) (.string d)) = if s = [] then d else s := by
  cases s with
  | nil => rfl
  | cons c s => rfl

/-- **an entry is read back**, but for the defaults -/
theorem entryOfJson_entryJson {e : BlockEntry} (hc : ∀ t ∈ e.createdAt, IsoRoundTrips b t)
    (hx : ∀ t ∈ e.expiresAt, IsoRoundTrips b t) : entryOfJson b (entryJson b e) = .ok { e with
      statusCode := if e.statusCode = 0 then 429 else e.statusCode
      message := if e.message = [] then defaultBlockMessage else e.message } := by
  have hreason : (if e.reason = [] then [] else e.reason) = e.reason := by
    split
    · rename_i h
      exact h.symm
    · rfl
  have hname : (if e.ruleName = [] then [] else e.ruleName) = e.ruleName := by
    split
    · rename_i h
      exact h.symm
    · rfl
  show (BlockScope.make e.scope.scopeType e.scope.scopeValue >>= fun scope =>
    intOf b (orElse b (some (.int e.statusCode)) (.int 429)) >>= fun statusCode =>
      Except.ok (BlockEntry.mk scope (strOf b (orElse b (some (.string e.reason)) (.string [])))
        (strOf b (orElse b (some (.string e.ruleName)) (.string []))) statusCode
        (strOf b (orElse b (some (.string e.message)) (.string defaultBlockMessage)))
        (parseIso b (some (iso b e.createdAt))) (parseIso b (some (iso b e.expiresAt)))
        e.metadata)) = _
  rw [BlockScope.make_self, intOf_orElse_int, strOf_orElse, strOf_orElse, strOf_orElse,
    parseIso_iso hc, parseIso_iso hx, hreason, hname]
  rfl

/-- **A cached entry is decoded to what was encoded** if and only if its status is not `0` and its
message is not empty. -/
theorem payload_iff {e : BlockEntry} (hj : JsonRoundTrips (entryJson b e))
    (hc : ∀ t ∈ e.createdAt, IsoRoundTrips b t) (hx : ∀ t ∈ e.expiresAt, IsoRoundTrips b t) :
    (entryToJson b e >>= entryFromJson b) = .ok e ↔ e.statusCode ≠ 0 ∧ e.message ≠ [] := by
  obtain ⟨p, hp, hl⟩ := hj
  have hto : entryToJson b e = .ok p := by
    unfold entryToJson
    rw [hp]
  have hfrom : entryFromJson b p = entryOfJson b (entryJson b e) := by
    unfold entryFromJson
    rw [hl]
  have hread : (entryToJson b e >>= entryFromJson b) = entryOfJson b (entryJson b e) := by
    rw [hto]
    exact hfrom
  rw [hread, entryOfJson_entryJson hc hx]
  constructor
  · intro h
    have he := Except.ok.inj h
    refine ⟨fun h0 => ?_, fun hm => ?_⟩
    · have hs := congrArg BlockEntry.statusCode he
      dsimp only at hs
      rw [if_pos h0, h0] at hs
      exact absurd hs (by decide)
    · have hs := congrArg BlockEntry.message he
      dsimp only at hs
      rw [if_pos hm, hm] at hs
      exact absurd hs (by decide)
  · rintro ⟨h0, hm⟩
    rw [if_neg h0, if_neg hm]

end

/-! ## a block of an hour -/

/-- a block of `203.0.113.7` from midnight to one o'clock -/
def hourBlock (statusCode : Int) (message : Str) : BlockEntry where
  scope := .sampleClient
  reason := []
  ruleName := str "bursts"
  statusCode
  message
  createdAt := some 0
  expiresAt := some 3600000
  metadata := [(str "hits", .int 12)]

theorem hour_isoRoundTrips : ∀ t ∈ ([0, 3600000] : List Int), IsoRoundTrips .sample t := by
  intro t ht
  rcases List.mem_cons.mp ht with rfl | ht
  · exact ⟨by decide, by decide⟩
  · rw [List.mem_singleton.mp ht]
    exact ⟨by decide, by decide⟩

theorem hourBlock_jsonRoundTrips {statusCode : Int} {message : Str}
    (hs : (Json.int statusCode).writable false = true) (hm : encodable message = true) :
    JsonRoundTrips (entryJson .sample (hourBlock statusCode message)) := by
  refine jsonRoundTrips_of ?_ ?_
  · rw [writable_entryJson]
    unfold BlockArgs.writable
    show ((Json.int statusCode).writable false && Json.writableItems false _) = true
    rw [hs]
    rfl
  · rw [fuse_entryJson]
    show Json.obj [_, _, _, _, _, (_, .string (fuse message)), _, _, _] = _
    rw [fuse_of_encodable hm]
    rfl

theorem payload_hour :
    (entryToJson .sample (hourBlock 403 (str "banned")) >>= entryFromJson .sample)
      = .ok (hourBlock 403 (str "banned")) :=
  (payload_iff (hourBlock_jsonRoundTrips rfl (by decide))
    (fun t ht => hour_isoRoundTrips t (by obtain rfl := Option.some.inj ht; decide))
    (fun t ht => hour_isoRoundTrips t (by obtain rfl := Option.some.inj ht; decide))).mpr
    ⟨by decide, by decide⟩

/-- a status of `0` is read back as `429`, and an empty message as the default one -/
theorem payload_defaults : ¬ ∀ (b : Builtins) (e : BlockEntry), JsonRoundTrips (entryJson b e) →
    (∀ t ∈ e.createdAt, IsoRoundTrips b t) → (∀ t ∈ e.expiresAt, IsoRoundTrips b t) →
    (entryToJson b e >>= entryFromJson b) = .ok e := by
  intro h
  have hread := h .sample (hourBlock 403 []) (hourBlock_jsonRoundTrips rfl (by decide))
    (fun t ht => hour_isoRoundTrips t (by obtain rfl := Option.some.inj ht; decide))
    (fun t ht => hour_isoRoundTrips t (by obtain rfl := Option.some.inj ht; decide))
  have hmessage : ((entryToJson .sample (hourBlock 403 []) >>= entryFromJson .sample).map
      BlockEntry.message) = .ok defaultBlockMessage := by decide +kernel
  rw [hread] at hmessage
  exact absurd (Except.ok.inj hmessage) (by decide)

end SecAudit
