import SecAudit.Core.Config
import SecAudit.Core.Plain
import SecAudit.Core.Safe
import SecAudit.Django.Events
import SecAudit.Py.JsonParse
import SecAudit.Py.Utf8

/-!
# Request bodies

* `BodyLibrary`     what is used of Python;
* `safeJsonBody`    a body as a JSON object, when it is one;
* `captureRequestBody`  the allowed fields of it, scrubbed and projected;
* `AlikeAt`         two bodies differ at a field only where the scrubber hides it;
* `capture_alike`   what is captured depends on the allowed fields only, as far as they show;
* `capture_sent`    what a client has written as JSON is captured.
-/

set_option linter.unusedVariables false

namespace SecAudit
open Py

/-- `str.lower`, `str.upper`, `int` and `float` of a text; `overruns` has the texts that `json.loads`
gives up on before it finds them malformed: they are nested too deep, or have too long an integer -/
structure BodyLibrary where
  lower : Str → Str
  upper : Str → Str
  /-- `none` is a `ValueError` -/
  int : Str → Option Int
  float : FloatLit → Json
  overruns : Str → Bool

/-- the part of `CoreAuditConfig` that is read for a body -/
structure BodyConfig where
  core : CoreAuditConfig
  logRequestBodies : Bool := false
  logBodyPaths : List (Str → Bool) := []
  bodyMethods : List Str := [str "PATCH", str "POST", str "PUT"]
  maxBodyBytes : Nat := 4096
  bodyFieldAllowlist : List Str := []

structure BodyRequest where
  method : Str
  streaming : Bool := false
  /-- `content_type`, empty when it is `None` -/
  contentType : Str
  META : List (Str × Str)
  headers : List (Str × Str)
  /-- a read of `request.body` may raise -/
  body : Except Exc (List Byte)

inductive BodyParseResult where
  | captured (data : List (Str × Json))
  | empty
  | invalidJson
  | tooLarge
  | notJson
  | skipped
  | unsupportedShape

/-! ## JSON as Python has it -/

section
variable (lib : BodyLibrary)

mutual
/-- the object that `json.loads` makes of what it reads: of the items of one name the last counts -/
def loaded : Json → Json
  | .float f => lib.float f
  | .arr l => .arr (loadedElems l)
  | .obj l => .obj (updateItems [] (loadedItems l))
  | v => v

def loadedElems : List Json → List Json
  | [] => []
  | v :: l => loaded v :: loadedElems l

def loadedItems : List (Str × Json) → List (Str × Json)
  | [] => []
  | (k, v) :: l => (k, loaded v) :: loadedItems l
end

/-- `json.loads` -/
def jsonLoads (s : Str) : Except Exc Json :=
  if lib.overruns s then .error .recursionError
  else match loads s with
    | some v => .ok (loaded lib v)
    | none => .error .jsonError

/-! ## the request -/

/-- the text before the first `;` -/
def beforeSemicolon (s : Str) : Str := s.takeWhile fun c => decide (c ≠ cp ';')

/-- `_is_form_content_type` -/
def isFormContentType (contentType : Str) : Bool :=
  let base := lib.lower (strip (beforeSemicolon contentType))
  startsWith (str "multipart/") base ||
    decide (base ∈ [str "application/x-www-form-urlencoded", str "multipart/form-data"])

/-- `_is_json_content_type` -/
def isJsonContentType (contentType : Str) : Bool :=
  decide (contentType = str "application/json") ||
    startsWith (str "application/") contentType && endsWith (str "+json") contentType

/-- `_header` -/
def header (headers : List (Str × Str)) (name : Str) : Option Str :=
  (headers.find? fun e => decide (lib.lower e.1 = lib.lower name)).map Prod.snd

/-- `_is_unsafe_body_request` -/
def isUnsafeBodyRequest (request : BodyRequest) : Bool :=
  request.streaming || isFormContentType lib (lib.lower request.contentType) ||
    isFormContentType lib (lib.lower ((getItem (str "CONTENT_TYPE") request.META).getD []))

/-- `_content_length` -/
def contentLength (META : List (Str × Str)) : Option Nat := do
  let text ← getItem (str "CONTENT_LENGTH") META
  let value ← lib.int text
  if value < 0 then none else some value.toNat

/-- `json.loads` of the bytes, and what comes of it -/
def parseBody (raw : List Byte) : Except Exc BodyParseResult :=
  match decodeUtf8 raw with
  | none => .ok .invalidJson
  | some decoded => match jsonLoads lib decoded with
    | .error .jsonError => .ok .invalidJson
    | .error e => .error e
    | .ok (.obj []) => .ok .empty
    | .ok (.obj data) => .ok (.captured data)
    | .ok _ => .ok .unsupportedShape

/-- `safe_json_body` -/
def safeJsonBody (raw : List Byte) (headers : List (Str × Str)) (maxBytes : Nat) :
    Except Exc BodyParseResult :=
  let contentType := (header lib headers (str "Content-Type")).getD []
  if isJsonContentType (strip (beforeSemicolon (lib.lower contentType))) = false then .ok .notJson
  else match (header lib headers (str "Content-Length")).map lib.int with
    | some none => .ok .skipped
    | some (some n) =>
      if n < 0 ∨ n > maxBytes then .ok .tooLarge
      else if raw.length > maxBytes then .ok .tooLarge
      else if raw.isEmpty then .ok .empty
      else parseBody lib raw
    | none =>
      if raw.length > maxBytes then .ok .tooLarge
      else if raw.isEmpty then .ok .empty
      else parseBody lib raw

/-! ## capture -/

/-- the allowed fields of a body, in the order of the allowlist, after those of `d` -/
def addFields (data : List (Str × Json)) : List Str → List (Str × Json) → List (Str × Json)
  | [], d => d
  | key :: l, d => match getItem key data with
    | none => addFields data l d
    | some v => addFields data l (setItem key v d)

def allowedFields (allowlist : List Str) (data : List (Str × Json)) : List (Str × Json) :=
  addFields data allowlist []

def parseStatus (status : Str) : List (Str × Value) :=
  [(str "request.body.parse_status", .str status)]

variable (config : BodyConfig) (frames : Nat)

/-- `project_value(scrub(body, ..))` -/
def shownBody (body : List (Str × Json)) : Except Exc Json := do
  let v ← scrub config.core.redaction frames (.mapping (Value.ofItems body))
  project .default false frames 0 v

/-- the items for a body that is read -/
def bodyItems : BodyParseResult → Except Exc (List (Str × Value))
  | .captured data =>
    let body := allowedFields config.bodyFieldAllowlist data
    if body.isEmpty then .ok []
    else (shownBody config frames body).map fun j => [(str "request.body", Value.ofJson j)]
  | .invalidJson => .ok (parseStatus (str "invalid_json"))
  | .tooLarge => .ok (parseStatus (str "too_large"))
  | .unsupportedShape => .ok (parseStatus (str "unsupported_shape"))
  | .empty => .ok []
  | .notJson => .ok []
  | .skipped => .ok []

/-- whether a body is looked at, by its request -/
def looksAtBody (request : BodyRequest) (path : Str) : Bool :=
  config.logRequestBodies && decide (lib.upper request.method ∈ config.bodyMethods) &&
    (config.logBodyPaths.isEmpty || config.logBodyPaths.any fun pattern => pattern path) &&
    !isUnsafeBodyRequest lib request && !config.bodyFieldAllowlist.isEmpty

/-- the body, read and parsed -/
def readBody (request : BodyRequest) : Except Exc BodyParseResult := do
  let raw ← request.body
  safeJsonBody lib raw request.headers config.maxBodyBytes

/-- `capture_request_body` -/
def captureRequestBody (request : BodyRequest) (path : Str) : Except Exc (List (Str × Value)) :=
  if looksAtBody lib config request path = false then .ok []
  else if (contentLength lib request.META).any fun n => decide (n > config.maxBodyBytes) then
    .ok (parseStatus (str "too_large"))
  else match readBody lib config request with
    | .error _ => .ok []
    | .ok result => bodyItems config frames result

end

/-! ## the allowed fields -/

/-- the field of a body, unless the scrubber hides what is there, is the same in both -/
def AlikeAt (red : Redaction) (k : Str) (data data' : List (Str × Json)) : Prop :=
  match getItem k data, getItem k data' with
  | none, none => True
  | some v, some v' =>
    red.isSensitiveKey (.str k) = .ok true ∨ Alike red (Value.ofJson v) (Value.ofJson v')
  | _, _ => False

section
variable {red : Redaction}

theorem alike_setItem {k : Str} {v v' : Json}
    (hv : red.isSensitiveKey (.str k) = .ok true ∨ Alike red (Value.ofJson v) (Value.ofJson v')) :
    ∀ {d d' : List (Str × Json)}, AlikeItems red (Value.ofItems d) (Value.ofItems d') →
    AlikeItems red (Value.ofItems (setItem k v d)) (Value.ofItems (setItem k v' d'))
  | [], [], _ => ⟨_, _, rfl, hv, rfl⟩
  | [], e :: d', h => by cases h
  | e :: d, [], h => by
    obtain ⟨_, _, h, -⟩ := h
    cases h
  | (k₁, v₁) :: d, (k₂, v₂) :: d', h => by
    obtain ⟨w, t, he, hw, ht⟩ := h
    rw [Value.ofItems, List.cons.injEq, Prod.mk.injEq, Key.str.injEq] at he
    obtain ⟨⟨rfl, rfl⟩, rfl⟩ := he
    unfold setItem
    by_cases hk : k₂ = k
    · rw [if_pos hk, if_pos hk]
      exact ⟨_, _, rfl, hv, ht⟩
    · rw [if_neg hk, if_neg hk]
      exact ⟨_, _, rfl, hw, alike_setItem hv ht⟩

/-- **the allowed fields are alike** when each of them is -/
theorem alike_allowed {data data' : List (Str × Json)} : ∀ {allowlist : List Str}
    {d d' : List (Str × Json)}, AlikeItems red (Value.ofItems d) (Value.ofItems d') →
    (∀ k ∈ allowlist, AlikeAt red k data data') →
    AlikeItems red (Value.ofItems (addFields data allowlist d))
      (Value.ofItems (addFields data' allowlist d'))
  | [], d, d', h, _ => h
  | k :: allowlist, d, d', h, hk => by
    have hhead := hk k List.mem_cons_self
    have htail := fun k' hk' => hk k' (List.mem_cons_of_mem _ hk')
    unfold AlikeAt at hhead
    rw [addFields, addFields]
    split at hhead
    · rename_i h₁ h₂
      rw [h₁, h₂]
      exact alike_allowed h htail
    · rename_i v v' h₁ h₂
      rw [h₁, h₂]
      exact alike_allowed (alike_setItem hhead h) htail
    · cases hhead

theorem alikeItems_isEmpty : ∀ {l l' : List (Str × Json)},
    AlikeItems red (Value.ofItems l) (Value.ofItems l') → l.isEmpty = l'.isEmpty
  | [], [], _ => rfl
  | [], e :: l', h => by cases h
  | e :: l, [], h => by
    obtain ⟨_, _, h, -⟩ := h
    cases h
  | e :: l, e' :: l', _ => rfl

end

section
variable {data : List (Str × Json)}

/-- a field of the allowed fields -/
theorem getItem_addFields {k : Str} : ∀ {allowlist : List Str} {d : List (Str × Json)},
    getItem k (addFields data allowlist d) =
      if k ∈ allowlist ∧ (getItem k data).isSome then getItem k data else getItem k d
  | [], d => by simp only [List.not_mem_nil, false_and, if_false, addFields]
  | key :: allowlist, d => by
    rw [addFields]
    cases hv : getItem key data with
    | none =>
      show getItem k (addFields data allowlist d) = _
      rw [getItem_addFields]
      by_cases hk : k = key
      · subst hk
        simp only [hv, Option.isSome_none, Bool.false_eq_true, and_false, if_false]
      · simp only [List.mem_cons, hk, false_or]
    | some v =>
      show getItem k (addFields data allowlist (setItem key v d)) = _
      rw [getItem_addFields]
      by_cases hk : k = key
      · subst hk
        simp only [hv, Option.isSome_some, List.mem_cons_self, and_true, if_true,
          getItem_setItem_same, ite_self]
      · rw [getItem_setItem_other _ _ hk]
        simp only [List.mem_cons, hk, false_or]

theorem getItem_allowedFields (allowlist : List Str) (k : Str) :
    getItem k (allowedFields allowlist data) = if k ∈ allowlist then getItem k data else none := by
  unfold allowedFields
  rw [getItem_addFields]
  by_cases hk : k ∈ allowlist
  · cases hv : getItem k data with
    | none => simp only [Option.isSome_none, Bool.false_eq_true, and_false, if_false, ite_self]; rfl
    | some v => simp only [hk, Option.isSome_some, and_self, if_true]
  · simp only [hk, false_and, if_false]
    rfl

end

/-! ## two bodies -/

section
variable {lib : BodyLibrary} {config : BodyConfig} {frames : Nat}

/-- **bodies that differ where it does not show** are captured alike -/
theorem capture_alike {request request' : BodyRequest} {path : Str}
    (hsame : request' = { request with body := request'.body }) {data data' : List (Str × Json)}
    (h : readBody lib config request = .ok (.captured data))
    (h' : readBody lib config request' = .ok (.captured data'))
    (hk : ∀ k ∈ config.bodyFieldAllowlist, AlikeAt config.core.redaction k data data') :
    captureRequestBody lib config frames request path =
      captureRequestBody lib config frames request' path := by
  have halike : AlikeItems config.core.redaction
      (Value.ofItems (allowedFields config.bodyFieldAllowlist data))
      (Value.ofItems (allowedFields config.bodyFieldAllowlist data')) := alike_allowed rfl hk
  have hlook : looksAtBody lib config request' path = looksAtBody lib config request path := by
    rw [hsame]
    rfl
  have hlength : request'.META = request.META := by rw [hsame]
  unfold captureRequestBody
  rw [hlook, hlength, h, h']
  split
  · rfl
  split
  · rfl
  show bodyItems config frames (.captured data) = bodyItems config frames (.captured data')
  unfold bodyItems
  dsimp only
  rw [alikeItems_isEmpty halike]
  split
  · rfl
  · unfold shownBody
    have halike : Alike config.core.redaction
        (.mapping (Value.ofItems (allowedFields config.bodyFieldAllowlist data)))
        (.mapping (Value.ofItems (allowedFields config.bodyFieldAllowlist data'))) :=
      ⟨_, rfl, halike⟩
    rw [scrub_alike _ _ frames halike]

end

/-! ## what a client sends -/

section
variable {data : List (Str × Json)}

theorem addFields_nil : ∀ {l : List Str}, addFields [] l [] = []
  | [] => rfl
  | key :: allowlist => addFields_nil (l := allowlist)

theorem addFields_nodup : ∀ {allowlist : List Str} {d : List (Str × Json)},
    (d.map Prod.fst).Nodup → ((addFields data allowlist d).map Prod.fst).Nodup
  | [], d, h => h
  | key :: allowlist, d, h => by
    rw [addFields]
    split
    · exact addFields_nodup h
    · exact addFields_nodup (nodup_setItem h)

theorem addFields_length : ∀ {allowlist : List Str} {d : List (Str × Json)},
    (addFields data allowlist d).length ≤ d.length + allowlist.length
  | [], d => Nat.le_refl _
  | key :: allowlist, d => by
    rw [addFields, List.length_cons]
    split
    · exact addFields_length.trans (by omega)
    · rename_i v _
      have := length_setItem_le key v d
      exact addFields_length.trans (by omega)

theorem addFields_keys {e : Str × Json} : ∀ {allowlist : List Str} {d : List (Str × Json)},
    e ∈ addFields data allowlist d → e ∈ d ∨ e.1 ∈ allowlist
  | [], d, h => .inl h
  | key :: allowlist, d, h => by
    rw [addFields] at h
    split at h
    · exact (addFields_keys h).imp_right (List.mem_cons_of_mem _)
    · rcases addFields_keys h with h | h
      · rcases mem_of_mem_setItem h with rfl | h
        · exact .inr List.mem_cons_self
        · exact .inl h
      · exact .inr (List.mem_cons_of_mem _ h)

end

section
variable {red : Redaction} {n : Nat}

/-- a field, and what it is shown as: nothing of it when its key is sensitive -/
def ShownAs (red : Redaction) (n : Nat) (e shown : Str × Json) : Prop :=
  shown.1 = e.1 ∧
    ((red.isSensitiveKey (.str e.1) = .ok true ∧ shown.2 = .string REDACTED) ∨
      (red.isSensitiveKey (.str e.1) = .ok false ∧ ∃ w, scrub red n (Value.ofJson e.2) = .ok w ∧
        project .default false n 1 w = .ok shown.2))

/-- **the fields of a body are shown one by one**, when there is room for all -/
theorem shown_items : ∀ {l : List (Str × Json)} {l' : List (Key × Value)} {room : Nat}
    {projected out : List (Str × Json)}, scrubItems red n (Value.ofItems l) = .ok l' →
    projectItems .default false n 1 room projected l' = .ok out → l.length ≤ room →
    (∀ e ∈ l, e.1.length ≤ 4096) → ((projected ++ l).map Prod.fst).Nodup →
    ∃ shown, out = projected ++ shown ∧ List.Forall₂ (ShownAs red n) l shown
  | [], l', room, projected, out, hs, hp, _, _, _ => by
    obtain rfl := Except.ok.inj hs
    cases room <;> cases hp <;> exact ⟨[], (List.append_nil _).symm, .nil⟩
  | (k, v) :: l, l', 0, projected, out, _, _, hroom, _, _ => absurd hroom (Nat.not_succ_le_zero _)
  | (k, v) :: l, l', room + 1, projected, out, hs, hp, hroom, hlong, hnd => by
    obtain ⟨w, t, rfl, ht, hw⟩ := scrubItems_cons_ok hs
    obtain ⟨key, j, hkey, hj, hp⟩ := projectItems_cons_ok hp
    obtain rfl := Except.ok.inj hkey
    have hk : limitString k (4096 : Nat) = k := limitString_of_le (hlong _ List.mem_cons_self)
    have hfresh : k ∉ projected.map Prod.fst := by
      rw [List.map_append, List.map_cons, List.nodup_append] at hnd
      exact fun h => hnd.2.2 k h k List.mem_cons_self rfl
    change projectItems .default false n 1 room (setItem (limitString k 4096) j projected) t = _ at hp
    rw [hk, setItem_fresh j hfresh] at hp
    obtain ⟨shown, rfl, hall⟩ := shown_items ht hp (Nat.le_of_succ_le_succ hroom)
      (fun e he => hlong e (List.mem_cons_of_mem _ he))
      (by
        rw [List.append_assoc]
        simpa only [List.map_append, List.map_cons, List.map_nil, List.singleton_append] using hnd)
    refine ⟨(k, j) :: shown, List.append_assoc .., .cons ⟨rfl, ?_⟩ hall⟩
    rcases hw with ⟨hk, rfl⟩ | ⟨hk, hw⟩
    · refine .inl ⟨hk, ?_⟩
      have hr : project .default false n 1 (.str REDACTED) = .ok (.string REDACTED) := by
        unfold project
        rfl
      exact (Except.ok.inj (hr.symm.trans hj)).symm
    · exact .inr ⟨hk, w, hw, hj⟩

end

section
variable {lib : BodyLibrary} {config : BodyConfig} {frames : Nat} {q : Separators}
  {l : List (Str × Json)} {request : BodyRequest} {path : Str}

/-- what is read of an object that was written -/
def readBack (lib : BodyLibrary) (l : List (Str × Json)) : List (Str × Json) :=
  updateItems [] (loadedItems lib (Json.fuseItems l))

/-- a request whose body is the JSON text of an object, that says so, and that is short enough -/
structure SendsJson (lib : BodyLibrary) (config : BodyConfig) (q : Separators)
    (l : List (Str × Json)) (request : BodyRequest) : Prop where
  body : request.body = .ok (encodeUtf8 ((Json.obj l).render q))
  writable : (Json.obj l).writable false = true
  typed : isJsonContentType (strip (beforeSemicolon
    (lib.lower ((header lib request.headers (str "Content-Type")).getD [])))) = true
  declared : ∀ text, header lib request.headers (str "Content-Length") = some text →
    ∃ n : Nat, lib.int text = some n ∧ n ≤ config.maxBodyBytes
  length : ∀ n, contentLength lib request.META = some n → n ≤ config.maxBodyBytes
  fits : ((Json.obj l).render q).length ≤ config.maxBodyBytes
  read : lib.overruns ((Json.obj l).render q) = false

theorem length_encodeUtf8 : ∀ {s : Str}, Printable s → (encodeUtf8 s).length = s.length
  | [], _ => rfl
  | c :: s, h => by
    have hc := h c List.mem_cons_self
    unfold printable at hc
    rw [Bool.and_eq_true, decide_eq_true_eq, decide_eq_true_eq] at hc
    have hone : encodeChar c = [byte c.val] := if_pos (by omega)
    show (encodeChar c ++ encodeUtf8 s).length = _
    rw [hone, List.length_append, length_encodeUtf8 fun d hd => h d (List.mem_cons_of_mem _ hd),
      List.length_singleton, List.length_cons, Nat.add_comm]

/-- the object as a body, when there is something in it -/
def resultOf : List (Str × Json) → BodyParseResult
  | [] => .empty
  | data => .captured data

theorem parseBody_sent (hq : q.Valid) (ha : q.Ascii) (h : SendsJson lib config q l request) :
    parseBody lib (encodeUtf8 ((Json.obj l).render q)) = .ok (resultOf (readBack lib l)) := by
  have hp := (Json.printable_render ha (.obj l)).encodable
  have hload : jsonLoads lib ((Json.obj l).render q) = .ok (.obj (readBack lib l)) := by
    unfold jsonLoads
    rw [h.read, loads_render hq h.writable]
    rfl
  unfold parseBody
  rw [decodeUtf8_encodeUtf8 hp]
  dsimp only
  rw [hload]
  cases readBack lib l with
  | nil => rfl
  | cons e t => rfl

/-- **what was written is read back** -/
theorem readBody_sent (hq : q.Valid) (ha : q.Ascii) (h : SendsJson lib config q l request) :
    readBody lib config request = .ok (resultOf (readBack lib l)) := by
  have hlen := length_encodeUtf8 (Json.printable_render ha (.obj l))
  have hnot : ¬ (encodeUtf8 ((Json.obj l).render q)).length > config.maxBodyBytes := by
    rw [hlen]
    exact Nat.not_lt.mpr h.fits
  have hnonempty : (encodeUtf8 ((Json.obj l).render q)).isEmpty = false := by
    rw [List.isEmpty_eq_false_iff, ← List.length_pos_iff, hlen, Json.render]
    exact Nat.succ_pos _
  unfold readBody
  rw [h.body]
  show safeJsonBody lib _ request.headers config.maxBodyBytes = _
  unfold safeJsonBody
  dsimp only
  rw [h.typed, if_neg Bool.noConfusion]
  cases hd : header lib request.headers (str "Content-Length") with
  | none =>
    show (if _ then _ else _) = _
    rw [if_neg hnot, hnonempty, if_neg Bool.false_ne_true]
    exact parseBody_sent hq ha h
  | some text =>
    obtain ⟨n, hn, hle⟩ := h.declared text hd
    rw [Option.map_some, hn]
    show (if _ then _ else _) = _
    rw [if_neg (by omega), if_neg hnot, hnonempty, if_neg Bool.false_ne_true]
    exact parseBody_sent hq ha h

theorem lookup_cons {k k' : Str} {v : Json} {l : List (Str × Json)} :
    Json.lookup k ((k', v) :: l) = (Json.lookup k l).or (if k' = k then some v else none) := by
  unfold Json.lookup
  rw [List.reverse_cons, List.find?_append]
  cases l.reverse.find? fun p => decide (p.1 = k) with
  | some p => rfl
  | none =>
    by_cases hk : k' = k
    · simp only [hk, List.find?_singleton, decide_true, if_true, Option.none_or, Option.map_some,
        Option.map_none]
    · simp only [hk, List.find?_singleton, decide_false, Bool.false_eq_true, if_false,
        Option.none_or, Option.map_none]

/-- what a dict holds after an update: the last item of a name counts -/
theorem getItem_updated {k : Str} : ∀ {e d : List (Str × Json)},
    getItem k (updateItems d e) = (Json.lookup k e).or (getItem k d)
  | [], d => rfl
  | (k', v) :: e, d => by
    show getItem k (updateItems (setItem k' v d) e) = _
    rw [getItem_updated, lookup_cons]
    by_cases hk : k' = k
    · subst hk
      rw [getItem_setItem_same, if_pos rfl]
      cases Json.lookup k' e <;> rfl
    · rw [getItem_setItem_other _ _ (Ne.symm hk), if_neg hk, Option.or_none]

theorem lookup_loaded {k : Str} {l : List (Str × Json)} :
    Json.lookup k (loadedItems lib l) = (Json.lookup k l).map (loaded lib) := by
  induction l with
  | nil => rfl
  | cons e l ih =>
    obtain ⟨k', v⟩ := e
    rw [loadedItems, lookup_cons, lookup_cons, ih]
    cases Json.lookup k l with
    | some w => rfl
    | none =>
      by_cases hk : k' = k
      · simp only [hk, if_true, Option.map_none, Option.none_or, Option.map_some]
      · simp only [hk, if_false, Option.map_none, Option.none_or]

/-- **what a client has sent is captured**, field by field -/
theorem capture_sent {n : Nat} (hq : q.Valid) (ha : q.Ascii) (h : SendsJson lib config q l request)
    (hlook : looksAtBody lib config request path = true)
    (hroom : config.bodyFieldAllowlist.length ≤ 100)
    (hlong : ∀ k ∈ config.bodyFieldAllowlist, k.length ≤ 4096)
    (hdepth : depthItems (allowedFields config.bodyFieldAllowlist (readBack lib l)) ≤ n) :
    ∃ body shown : List (Str × Json),
      (∀ k, getItem k body = if k ∈ config.bodyFieldAllowlist then
        (Json.lookup k (Json.fuseItems l)).map (loaded lib) else none) ∧
      List.Forall₂ (ShownAs config.core.redaction n) body shown ∧
      captureRequestBody lib config (n + 1) request path = .ok
        (if body.isEmpty then [] else [(str "request.body", Value.ofJson (.obj shown))]) := by
  have hfields : ∀ k, getItem k (allowedFields config.bodyFieldAllowlist (readBack lib l)) =
      if k ∈ config.bodyFieldAllowlist then (Json.lookup k (Json.fuseItems l)).map (loaded lib)
      else none := by
    intro k
    rw [getItem_allowedFields]
    unfold readBack
    rw [getItem_updated, lookup_loaded]
    show (if _ then Option.or _ none else _) = _
    rw [Option.or_none]
  obtain ⟨l', hl', hplain⟩ := @scrubItems_plain config.core.redaction _ n
    (plain_ofItems _ n hdepth)
  obtain ⟨out, hout⟩ := @projectItems_plain .default l' n 1 100 [] hplain
  have hlen : (allowedFields config.bodyFieldAllowlist (readBack lib l)).length ≤ 100 :=
    addFields_length.trans (by rw [List.length_nil, Nat.zero_add]; exact hroom)
  have hkeys : ∀ e ∈ allowedFields config.bodyFieldAllowlist (readBack lib l),
      e.1.length ≤ 4096 := by
    intro e he
    rcases addFields_keys he with he | he
    · exact absurd he List.not_mem_nil
    · exact hlong _ he
  obtain ⟨shown, hshown, hall⟩ := shown_items hl' hout hlen hkeys (addFields_nodup List.nodup_nil)
  rw [List.nil_append] at hshown
  refine ⟨_, shown, hfields, hall, ?_⟩
  have hlength : ((contentLength lib request.META).any fun n => decide (n > config.maxBodyBytes)) =
      false := by
    cases hc : contentLength lib request.META with
    | none => rfl
    | some n => exact decide_eq_false (Nat.not_lt.mpr (h.length n hc))
  unfold captureRequestBody
  rw [hlook, if_neg Bool.noConfusion, hlength, if_neg Bool.false_ne_true, readBody_sent hq ha h]
  cases hback : readBack lib l with
  | nil =>
    show Except.ok [] = Except.ok (if (addFields [] _ []).isEmpty = true then _ else _)
    rw [addFields_nil]
    rfl
  | cons e t =>
    rw [show resultOf (e :: t) = .captured (readBack lib l) by rw [hback]; rfl, ← hback]
    show bodyItems config (n + 1) (.captured (readBack lib l)) = _
    unfold bodyItems
    dsimp only
    split
    · rfl
    · have hgate : shownBody config (n + 1)
          (allowedFields config.bodyFieldAllowlist (readBack lib l)) = .ok (.obj shown) := by
        unfold shownBody
        rw [scrub, hl']
        show project .default false (n + 1) 0 (.mapping l') = _
        unfold project
        rw [if_neg (by decide)]
        show (projectItems .default false n 1 100 [] l').map Json.obj = _
        rw [hout, hshown]
        rfl
      rw [hgate]
      rfl

end

/-! ## a sign-up -/

/-- `lower` and `upper` of text that is lower, and upper, case already -/
def BodyLibrary.sample : BodyLibrary where
  lower s := s
  upper s := s
  int _ := none
  float f := .float f
  overruns _ := false

/-- the name and the password of a sign-up are captured -/
def BodyConfig.signups : BodyConfig where
  core := .default
  logRequestBodies := true
  bodyFieldAllowlist := [str "name", str "password"]

/-- a sign-up, as JSON -/
def signupFields (secret : Str) : List (Str × Json) :=
  [(str "name", .string (str "ann")), (str "password", .string secret),
    (str "age", .int 30)]

def jsonHeaders : List (Str × Str) := [(str "Content-Type", str "application/json")]

theorem jsonHeaders_typed : isJsonContentType (strip (beforeSemicolon
    ((header .sample jsonHeaders (str "Content-Type")).getD []))) = true := by decide +kernel

theorem jsonHeaders_length : header .sample jsonHeaders (str "Content-Length") = none := by
  decide +kernel

def signup (secret : Str) : BodyRequest where
  method := str "POST"
  contentType := str "application/json"
  META := []
  headers := jsonHeaders
  body := .ok (encodeUtf8 ((Json.obj (signupFields secret)).render .compact))

theorem signup_sends {secret : Str}
    (hfits : ((Json.obj (signupFields secret)).render .compact).length ≤ 4096) :
    SendsJson .sample .signups .compact (signupFields secret) (signup secret) where
  body := rfl
  writable := rfl
  typed := jsonHeaders_typed
  declared text h := by
    rw [show (signup secret).headers = jsonHeaders from rfl, jsonHeaders_length] at h
    cases h
  length n h := by cases h
  fits := hfits
  read := rfl

/-- the password is not shown, and the age is not allowed -/
theorem capture_sent_signup : ∃ body shown : List (Str × Json),
    (∀ k, getItem k body = if k ∈ BodyConfig.signups.bodyFieldAllowlist then
      (Json.lookup k (Json.fuseItems (signupFields (str "one")))).map (loaded .sample) else none) ∧
    List.Forall₂ (ShownAs CoreAuditConfig.default.redaction 5) body shown ∧
    captureRequestBody .sample .signups 6 (signup (str "one")) [] = .ok
      (if body.isEmpty then [] else [(str "request.body", Value.ofJson (.obj shown))]) :=
  capture_sent valid_compact ascii_compact (signup_sends (by decide +kernel)) (by decide +kernel)
    (by decide) (by decide +kernel) (by decide +kernel)

theorem capture_alike_signup : captureRequestBody .sample .signups 6 (signup (str "one")) [] =
    captureRequestBody .sample .signups 6 (signup (str "two")) [] :=
  capture_alike rfl
    (readBody_sent valid_compact ascii_compact (signup_sends (by decide +kernel)))
    (readBody_sent valid_compact ascii_compact (signup_sends (by decide +kernel)))
    (by
      intro k hk
      rcases List.mem_cons.mp hk with rfl | hk
      · exact .inr (.inl rfl)
      · rw [List.mem_singleton.mp hk]
        exact .inl rfl)

end SecAudit
