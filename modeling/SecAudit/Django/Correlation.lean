import SecAudit.Django.Receivers
import SecAudit.Enforce.Dimensions

/-!
# The events of one request

* `contextual`      the context variable of a request, around whatever else is asked;
* `Consistent`      a trace that keeps to it;
* `CarriesId`         an event has the request id of a context;
* `respond`         a view during which signals are sent;
* `request_correlated`  every event of a request has the id of its context, and the context is left
                    as it was found.
-/

set_option linter.unusedVariables false

namespace SecAudit
open Py Prog

/-! ## the context variable -/

section
variable {Response σ : Type}

/-- the context that the reads of a request see: its variable is its own -/
def contextual (h : Handler (AuditEff Response) Exc σ) :
    Handler (AuditEff Response) Exc (Option AuditContext × σ)
  | _, .before, s => ((h _ .before s.2).1.map fun b => { b with active := s.1 },
      s.1, (h _ .before s.2).2)
  | _, .setContext context, s =>
    (.ok s.1, some context, (h _ (.setContext context) s.2).2)
  | _, .resetContext token, s =>
    ((h _ (.resetContext token) s.2).1, token, (h _ (.resetContext token) s.2).2)
  | _, c, s => ((h _ c s.2).1, s.1, (h _ c s.2).2)

/-- the context after a call -/
def contextAfter (context : Option AuditContext) (c : AuditCall Response) : Option AuditContext :=
  match contextMove c with
  | some (.set context _) => some context
  | some (.reset token) => token
  | none => context

/-- a call that keeps to the context variable -/
def InContext (context : Option AuditContext) : AuditCall Response → Prop
  | ⟨.before, .ok b⟩ => b.active = context
  | ⟨.setContext _, r⟩ => r = .ok context
  | _ => True

def Consistent : Option AuditContext → List (AuditCall Response) → Prop
  | _, [] => True
  | context, c :: t => InContext context c ∧ Consistent (contextAfter context c) t

theorem consistent_append : ∀ {context : Option AuditContext} {t₁ t₂ : List (AuditCall Response)},
    Consistent context (t₁ ++ t₂) ↔
      Consistent context t₁ ∧ Consistent (t₁.foldl contextAfter context) t₂
  | context, [], t₂ => ⟨fun h => ⟨trivial, h⟩, And.right⟩
  | context, c :: t₁, t₂ => by
    show _ ∧ Consistent _ (t₁ ++ t₂) ↔ (_ ∧ _) ∧ _
    rw [consistent_append, and_assoc]
    rfl

theorem contextual_keeps (h : Handler (AuditEff Response) Exc σ) (β : Type)
    (c : AuditEff Response β) (s : Option AuditContext × σ) :
    InContext s.1 ⟨c, (contextual h β c s).1⟩ ∧
      contextAfter s.1 ⟨c, (contextual h β c s).1⟩ = (contextual h β c s).2.1 := by
  cases c with
  | before =>
    show InContext s.1 ⟨.before, (h _ .before s.2).1.map _⟩ ∧ _
    unfold contextual
    cases (h _ .before s.2).1 with
    | error e => exact ⟨trivial, rfl⟩
    | ok b => exact ⟨rfl, rfl⟩
  | setContext context => exact ⟨rfl, rfl⟩
  | resetContext token => exact ⟨trivial, rfl⟩
  | _ => exact ⟨trivial, rfl⟩

/-- **a run keeps to the context variable**, and leaves it as its trace says -/
theorem consistent_trace {α : Type} (h : Handler (AuditEff Response) Exc σ)
    (p : AuditRoutine Response α) (s : Option AuditContext × σ) :
    Consistent s.1 (trace (contextual h) p s) ∧
      (exec (contextual h) p s).2.1 = (trace (contextual h) p s).foldl contextAfter s.1 := by
  induction p generalizing s with
  | done r => exact ⟨trivial, rfl⟩
  | call c k ih =>
    obtain ⟨hk, ha⟩ := contextual_keeps h _ c s
    obtain ⟨hc, he⟩ := ih (contextual h _ c s).1 (contextual h _ c s).2
    refine ⟨⟨hk, ?_⟩, ?_⟩
    · rw [ha]
      exact hc
    · show (exec (contextual h) (k _) _).2.1 = List.foldl contextAfter _ (trace _ (k _) _)
      rw [he, ha]

theorem contextual_replies {h : Handler (AuditEff Response) Exc σ}
    (hR : ∀ β (c : AuditEff Response β) s, AuditReplies Response β c (h β c s).1) (β : Type)
    (c : AuditEff Response β) (s : Option AuditContext × σ) :
    AuditReplies Response β c (contextual h β c s).1 := by
  cases c with
  | consumers => exact hR _ .consumers s.2
  | resetContext token => exact hR _ (.resetContext token) s.2
  | diagnosticWarning reasonCode message => exact hR _ (.diagnosticWarning reasonCode message) s.2
  | _ => trivial

end

/-! ## the id of a request -/

/-- the event has the request id of the context -/
def CarriesId (context : AuditContext) (event : AuditEvent) : Prop :=
  ReadsAs event.attributes (str "request_id") (textValue context.requestId)

/-- the data have the request id of the context, or none -/
def Bears (context : AuditContext) (data : List (Str × Value)) : Prop :=
  ∀ v, getItem (str "request_id") data = some v → v = .str context.requestId

section
variable {py : Objects} {repr : Str → Str} {frames : Nat} {lib : IpLibrary}
  {mw : AuditMiddleware lib} {Response : Type} {context : AuditContext}

theorem carries_built {now : Nat} {body eventType schemaVersion : Str} {data : List (Str × Value)}
    {includeUsernames : Bool} {event : AuditEvent} (hd : Bears context data)
    (h : buildAuditEvent py (some context) repr frames now body eventType data schemaVersion
      includeUsernames [] = .ok event) : CarriesId context event := by
  obtain ⟨status, duration, impact, name, changed, hread⟩ := attribute_built h
  have hid := hread (str "request_id") (by decide) (by decide)
  have hentry : ((getItem (str "request_id") (logEntries py (updateItems data []) (some context)
      eventType status duration impact name changed)).join.filter fun v => !blankValue v) =
      textValue context.requestId := by
    show (Option.join (some (firstOf py (getItem (str "request_id") data) _))).filter _ = _
    unfold textValue
    cases hv : getItem (str "request_id") data with
    | none =>
      show Option.filter _ (some (Value.str context.requestId)) = _
      cases context.requestId <;> rfl
    | some v =>
      obtain rfl := hd v hv
      show Option.filter _ (if truthyValue py (.str context.requestId) then _ else _) = _
      show Option.filter _ (if (!context.requestId.isEmpty) = true then _ else
        some (Value.str context.requestId)) = _
      cases context.requestId <;> rfl
  unfold CarriesId
  rw [← hentry]
  exact hid

/-- a read of the data leaves the id alone -/
theorem Bears.of_eq {data data' : List (Str × Value)} (h : Bears context data)
    (he : getItem (str "request_id") data' = getItem (str "request_id") data) :
    Bears context data' := fun v hv => h v (he.symm.trans hv)

theorem bears_contextItems {items : List (Str × Value)}
    (hkeys : ∀ e ∈ items, e.1 ∈ INFO_KEYS) :
    Bears context (updateItems (contextItems context) items) := by
  intro v hv
  rw [getItem_updateItems_other] at hv
  · exact (Option.some.inj (hv.symm.trans rfl))
  · intro hk
    obtain ⟨e, he, hek⟩ := List.mem_map.mp hk
    have := hkeys e he
    rw [hek] at this
    exact absurd this (by decide)

theorem requestBase_bears {request : Option Request} {t : List (AuditCall Response)}
    {active : Option AuditContext} {base : List (Str × Value)}
    (h : Does (AuditReplies Response) (requestBaseOrNone frames mw request) t (.ok (active, base)))
    (hc : Consistent (some context) t) : active = some context ∧ Bears context base := by
  cases request with
  | none =>
    rcases does_bind.mp h with ⟨t₁, b, t₂, h₁, h₂, rfl⟩ | ⟨e, -, hr⟩
    swap
    · cases hr
    obtain ⟨-, rfl⟩ := does_perform.mp h₁
    obtain ⟨rfl, hr⟩ := does_done.mp h₂
    cases hr
    exact ⟨hc.1, fun v hv => by cases hv⟩
  | some request =>
    unfold requestBaseOrNone requestBase at h
    rcases does_bind.mp h with ⟨t₁, b, t₂, h₁, h₂, rfl⟩ | ⟨e, -, hr⟩
    swap
    · cases hr
    obtain ⟨-, rfl⟩ := does_perform.mp h₁
    have hb : b.active = some context := hc.1
    rw [hb] at h₂
    rcases does_bind.mp h₂ with ⟨t₃, info, t₄, h₃, h₄, rfl⟩ | ⟨e, -, hr⟩
    swap
    · cases hr
    obtain ⟨rfl, -⟩ := does_done.mp h₃
    obtain ⟨rfl, hr⟩ := does_done.mp h₄
    cases hr
    exact ⟨rfl, bears_contextItems info.keys⟩

theorem withUser_bears {base data : List (Str × Value)} {user : Option User}
    (h : withUser mw base user = .ok data) (hb : Bears context base) : Bears context data := by
  cases user with
  | none =>
    cases h
    exact hb
  | some user => exact hb.of_eq (identity_frame h (by decide))

theorem withCredentials_bears {base data : List (Str × Value)}
    {credentials : List (Str × Except Exc Str)} (h : withCredentials mw base credentials = .ok data)
    (hb : Bears context base) : Bears context data := by
  unfold withCredentials at h
  split at h
  · obtain ⟨username, -, h⟩ := ok_of_bind h
    rw [← Except.ok.inj h]
    exact hb.of_eq (getItem_withUsername (by decide))
  · cases h
    exact hb

theorem entryData_bears {entry : LogEntry} {data : List (Str × Value)}
    (h : entryData mw (some context) entry = .ok data) : Bears context data := by
  unfold entryData at h
  obtain ⟨objectId, -, h⟩ := ok_of_bind h
  obtain ⟨identity, -, h⟩ := ok_of_bind h
  obtain ⟨changed, -, h⟩ := ok_of_bind h
  rw [← Except.ok.inj h]
  intro v hv
  unfold entryItems at hv
  rw [getItem_append, getItem_append, getItem_append, getItem_append] at hv
  exact (Option.some.inj (hv.symm.trans rfl))

/-- **the data of a signal** have the id of the context -/
theorem signalData_bears {signal : Signal} {base data : List (Str × Value)}
    (h : signalData mw signal (some context) base = .ok data) (hb : Bears context base) :
    Bears context data := by
  cases signal with
  | login request user => exact withUser_bears h hb
  | loginFailed request credentials => exact withCredentials_bears h hb
  | logout request user => exact withUser_bears h hb
  | model entry =>
    cases entry with
    | none =>
      cases h
      exact fun v hv => by cases hv
    | some entry => exact entryData_bears h

theorem signalEvent_carries {now : Nat} {signal : Signal} {t : List (AuditCall Response)}
    {event : AuditEvent}
    (h : Does (AuditReplies Response) (signalEvent py repr frames mw now signal) t (.ok event))
    (hc : Consistent (some context) t) : CarriesId context event := by
  rcases does_bind.mp h with ⟨t₁, x, t₂, h₁, h₂, rfl⟩ | ⟨e, -, hr⟩
  swap
  · cases hr
  obtain ⟨hactive, hbase⟩ := requestBase_bears h₁ (consistent_append.mp hc).1
  rcases does_bind.mp h₂ with ⟨t₃, data, t₄, h₃, h₄, rfl⟩ | ⟨e, -, hr⟩
  swap
  · cases hr
  obtain ⟨-, hdata⟩ := does_done.mp h₃
  obtain ⟨-, hevent⟩ := does_done.mp h₄
  rw [hactive] at hdata hevent
  exact carries_built (signalData_bears hdata.symm hbase) hevent.symm

/-! ## a whole request -/

/-- what is logged and what is handed on carries the id of the context -/
structure AllCarry (context : AuditContext) (t : List (AuditCall Response)) : Prop where
  emitted : ∀ e ∈ t.filterMap emission, CarriesId context e.1
  handed : ∀ e ∈ t.filterMap handing, CarriesId context e.2

theorem AllCarry.append {t₁ t₂ : List (AuditCall Response)} (h₁ : AllCarry context t₁)
    (h₂ : AllCarry context t₂) : AllCarry context (t₁ ++ t₂) where
  emitted := by
    rw [List.filterMap_append, List.forall_mem_append]
    exact ⟨h₁.emitted, h₂.emitted⟩
  handed := by
    rw [List.filterMap_append, List.forall_mem_append]
    exact ⟨h₁.handed, h₂.handed⟩

/-- nothing is logged or handed on -/
theorem AllCarry.quiet {t : List (AuditCall Response)} (he : t.filterMap emission = [])
    (hh : t.filterMap handing = []) : AllCarry context t := by
  constructor
  · rw [he]
    exact fun e h => absurd h List.not_mem_nil
  · rw [hh]
    exact fun e h => absurd h List.not_mem_nil

theorem AllCarry.recorded {event : AuditEvent} {level : Nat} {emit : Bool}
    {t : List (AuditCall Response)} (h : Recorded event level emit t) (hc : CarriesId context event) :
    AllCarry context t := by
  obtain ⟨g, hs, hh⟩ := h.snapshot
  constructor
  · rw [h.emitted]
    intro e he
    split at he
    · rw [List.mem_singleton.mp he]
      exact hc
    · exact absurd he List.not_mem_nil
  · rw [hh]
    intro e he
    obtain ⟨consumer, -, rfl⟩ := List.mem_map.mp he
    exact hc

/-- calls that neither log, nor hand on, nor move the context -/
theorem quiet_of_reads {t : List (AuditCall Response)} (h : ∀ x ∈ t, IsRead x.β x.cmd) :
    t.filterMap emission = [] ∧ t.filterMap handing = [] ∧ t.filterMap contextMove = [] := by
  refine ⟨?_, ?_, ?_⟩
  all_goals
    refine List.filterMap_eq_nil_iff.mpr fun x hx => ?_
    have := h x hx
    obtain ⟨c, r⟩ := x
    cases c <;> first | rfl | cases this

theorem still_of_recorded {event : AuditEvent} {level : Nat} {emit : Bool}
    {t : List (AuditCall Response)} (h : Recorded event level emit t) :
    t.filterMap contextMove = [] := by
  obtain ⟨g, lost, ht⟩ := h.tally_eq
  exact congrArg Tally.moves ht

/-- calls that do not move the context -/
theorem foldl_still : ∀ {t : List (AuditCall Response)} {active : Option AuditContext},
    t.filterMap contextMove = [] → t.foldl contextAfter active = active
  | [], active, _ => rfl
  | x :: t, active, h => by
    have hx : contextMove x = none := by
      have := List.filterMap_eq_nil_iff.mp h x List.mem_cons_self
      exact this
    have ht : t.filterMap contextMove = [] :=
      List.filterMap_eq_nil_iff.mpr fun y hy =>
        List.filterMap_eq_nil_iff.mp h y (List.mem_cons_of_mem _ hy)
    rw [List.foldl_cons]
    unfold contextAfter
    rw [hx]
    exact foldl_still ht

/-- **a receiver** records the id of the context, and leaves the context alone -/
theorem receive_carries {now : Nat} {signal : Signal} {t : List (AuditCall Response)}
    (h : Received py repr frames mw now signal t) :
    t.filterMap contextMove = [] ∧ ∀ context, Consistent (some context) t → AllCarry context t := by
  cases h with
  | skipped _ ht =>
    subst ht
    exact ⟨rfl, fun _ _ => .quiet rfl rfl⟩
  | failed e t₁ hd ht =>
    subst ht
    obtain ⟨he, hh, hm⟩ := quiet_of_reads (hd.only only_signalEvent)
    rw [List.filterMap_append, hm]
    exact ⟨rfl, fun _ _ => (AllCarry.quiet he hh).append (.quiet rfl rfl)⟩
  | recorded event t₁ t₂ hd hr ht =>
    subst ht
    obtain ⟨he, hh, hm⟩ := quiet_of_reads (hd.only only_signalEvent)
    rw [List.filterMap_append, hm, still_of_recorded hr]
    refine ⟨rfl, fun context hc => (AllCarry.quiet he hh).append ?_⟩
    exact .recorded hr (signalEvent_carries hd (consistent_append.mp hc).1)

variable (py repr frames mw) in
/-- a view during which these signals are sent, each at its time -/
def respond : List (Nat × Signal) → AuditRoutine Response Response
  | [] => perform .getResponse
  | s :: l => do
    receive py repr frames mw s.1 s.2
    respond l

theorem respond_carries : ∀ {signals : List (Nat × Signal)} {t : List (AuditCall Response)}
    {r : Except Exc Response},
    Does (AuditReplies Response) (respond py repr frames mw signals) t r →
    t.filterMap contextMove = [] ∧ ∀ context, Consistent (some context) t → AllCarry context t
  | [], t, r, h => by
    obtain ⟨-, rfl⟩ := does_perform.mp h
    exact ⟨rfl, fun _ _ => .quiet rfl rfl⟩
  | s :: l, t, r, h => by
    rcases does_bind.mp h with ⟨t₁, u, t₂, h₁, h₂, rfl⟩ | ⟨e, h₁, -⟩
    swap
    · cases (does_receive h₁).1
    obtain ⟨hm₁, ha₁⟩ := receive_carries (does_receive h₁).2
    obtain ⟨hm₂, ha₂⟩ := respond_carries h₂
    rw [List.filterMap_append, hm₁, hm₂]
    refine ⟨rfl, fun context hc => ?_⟩
    obtain ⟨hc₁, hc₂⟩ := consistent_append.mp hc
    rw [foldl_still hm₁] at hc₂
    exact (ha₁ context hc₁).append (ha₂ context hc₂)

/-- where the context is set once, the token has what was there before -/
theorem foldl_set {token : Option AuditContext} : ∀ {t : List (AuditCall Response)}
    {outer : Option AuditContext}, Consistent outer t →
    t.filterMap contextMove = [.set context token] →
    token = outer ∧ t.foldl contextAfter outer = some context
  | [], outer, _, h => by cases h
  | x :: t, outer, hc, h => by
    rw [List.foldl_cons]
    cases hx : contextMove x with
    | none =>
      rw [List.filterMap_cons_none hx] at h
      have hout : contextAfter outer x = outer := by
        unfold contextAfter
        rw [hx]
      have ht := hc.2
      rw [hout] at ht ⊢
      exact foldl_set ht h
    | some move =>
      rw [List.filterMap_cons_some hx] at h
      obtain ⟨rfl, ht⟩ := List.cons.inj h
      have hset : contextAfter outer x = some context := by
        unfold contextAfter
        rw [hx]
      refine ⟨?_, by rw [hset, foldl_still ht]⟩
      have hk := hc.1
      obtain ⟨c, r⟩ := x
      cases c with
      | setContext c' =>
        cases r with
        | error e => cases hx
        | ok token' =>
          cases hx
          exact Except.ok.inj hk
      | resetContext _ => cases hx
      | _ => cases hx

variable {request : Request}

/-- the base of a request has the id of its context -/
theorem bears_baseInfo {x : Exchange} {sessionId : Str} {base : List (Str × Value)}
    (h : buildBaseInfo frames mw x = .ok (sessionId, base)) :
    Bears (auditContext x sessionId base) base := by
  unfold buildBaseInfo at h
  obtain ⟨session, -, h⟩ := ok_of_bind h
  obtain ⟨url, -, h⟩ := ok_of_bind h
  obtain ⟨info, hinfo, h⟩ := ok_of_bind h
  obtain ⟨added, -, h⟩ := ok_of_bind h
  cases h
  obtain ⟨given, hitem⟩ := requestInfo_item hinfo
  have hid : getItem (str "request_id") (updateItems info added.items) =
      getItem (str "request_id") info := by
    refine getItem_updateItems_other fun hk => ?_
    obtain ⟨e, he, hek⟩ := List.mem_map.mp hk
    have := added.keys e he
    rw [hek] at this
    exact absurd this (by decide)
  have hread := (hitem (str "request_id")).2 given rfl
  rw [← hid] at hread
  intro v hv
  rw [hread] at hv
  obtain rfl := Option.some.inj hv
  show _ = Value.str (baseText (str "request_id") (updateItems info added.items))
  unfold baseText
  rw [hread]

/-- **the event of the response** carries the id -/
theorem recordResponse_carries {x : Exchange} {sessionId : Str} {base : List (Str × Value)}
    {event : AuditEvent} (hb : Bears (auditContext x sessionId base) base)
    (h : recordResponse py repr frames mw x sessionId base = .ok (some event)) :
    CarriesId (auditContext x sessionId base) event := by
  obtain ⟨data, hd, he⟩ := recordResponse_built h
  have huser : ∃ user, x.user = .ok user := by
    unfold eventBase at hd
    obtain ⟨user, hu, -⟩ := ok_of_bind hd
    exact ⟨user, hu⟩
  obtain ⟨user, hu⟩ := huser
  exact carries_built (hb.of_eq (eventBase_frame hd hu (by decide))) he

theorem finished_carries {p : Prepared} {t : List (AuditCall Response)}
    (hb : buildBaseInfo frames mw (exchange request p.before .unread) = .ok (p.sessionId, p.base))
    (h : Finished py repr frames mw request p t) : t.filterMap contextMove = [] ∧
      AllCarry (auditContext (exchange request p.before .unread) p.sessionId p.base) t := by
  cases h with
  | failed afters ht _ =>
    exact ⟨congrArg Tally.moves ht,
      .quiet (congrArg Tally.emissions ht) (congrArg Tally.handings ht)⟩
  | nothing a ht _ =>
    exact ⟨congrArg Tally.moves ht,
      .quiet (congrArg Tally.emissions ht) (congrArg Tally.handings ht)⟩
  | event a event g lost ht hr =>
    have hbears : Bears (auditContext (exchange request p.before a) p.sessionId p.base) p.base :=
      bears_baseInfo hb
    have hc := recordResponse_carries hbears hr
    refine ⟨congrArg Tally.moves ht, ?_, ?_⟩
    · intro e he
      rw [show t.filterMap emission = _ from congrArg Tally.emissions ht] at he
      split at he
      · rw [List.mem_singleton.mp he]
        exact hc
      · exact absurd he List.not_mem_nil
    · intro e he
      rw [show t.filterMap handing = _ from congrArg Tally.handings ht] at he
      obtain ⟨consumer, -, rfl⟩ := List.mem_map.mp he
      exact hc

theorem around_carries {signals : List (Nat × Signal)} {t : List (AuditCall Response)}
    {r : Except Exc Response} {outer : Option AuditContext}
    (h : Does (AuditReplies Response)
      (auditAround py repr frames mw request (respond py repr frames mw signals)) t r)
    (hc : Consistent outer t) : t.foldl contextAfter outer = outer ∧
      ∀ context token, .set context token ∈ t.filterMap contextMove → AllCarry context t := by
  unfold auditAround at h
  split at h
  · have hm := (respond_carries h).1
    rw [foldl_still hm, hm]
    exact ⟨rfl, fun _ _ hmem => absurd hmem List.not_mem_nil⟩
  obtain ⟨t₁, prepared, t₂, h₁, h₂, rfl⟩ := does_attempt.mp h
  cases prepared with
  | error e =>
    obtain ⟨befores, ht₁⟩ := (does_prepare h₁).2 e rfl
    have hm₁ : t₁.filterMap contextMove = [] := congrArg Tally.moves ht₁
    rcases does_bind.mp h₂ with ⟨t₃, u, t₄, h₃, h₄, rfl⟩ | ⟨e, h₃, -⟩
    swap
    · cases (does_perform.mp h₃).1
    obtain ⟨-, rfl⟩ := does_perform.mp h₃
    have hm : (t₁ ++ ([(⟨.diagnosticWarning CONTEXT_PREP_FAILED
        (str "Audit context preparation failed; request proceeds unaudited"), .ok u⟩ :
        AuditCall Response)] ++ t₄)).filterMap contextMove = [] := by
      rw [List.filterMap_append, List.filterMap_append, hm₁, (respond_carries h₄).1]
      rfl
    rw [foldl_still hm, hm]
    exact ⟨rfl, fun _ _ hmem => absurd hmem List.not_mem_nil⟩
  | ok p =>
    obtain ⟨hb, ht₁⟩ := (does_prepare h₁).1 p rfl
    obtain ⟨hc₁, hc₂⟩ := consistent_append.mp hc
    obtain ⟨htoken, hfold⟩ := foldl_set hc₁ (congrArg Tally.moves ht₁)
    rw [hfold] at hc₂
    obtain ⟨t₃, view, t₄, h₃, h₄, rfl⟩ := does_attempt.mp h₂
    obtain ⟨hm₃, ha₃⟩ := respond_carries h₃
    have hquiet : AllCarry (auditContext (exchange request p.before .unread) p.sessionId p.base) t₁ :=
      .quiet (congrArg Tally.emissions ht₁) (congrArg Tally.handings ht₁)
    have ha := hquiet.append (ha₃ _ (consistent_append.mp hc₂).1)
    obtain ⟨t₅, rfl, hm₅, ha₅⟩ : ∃ t₅, t₄ = t₅ ++ [⟨.resetContext p.token, .ok ()⟩] ∧
        t₅.filterMap contextMove = [] ∧
        AllCarry (auditContext (exchange request p.before .unread) p.sessionId p.base) t₅ := by
      cases view with
      | error e =>
        rcases does_bind.mp h₄ with ⟨t₅, u, t₆, h₅, h₆, rfl⟩ | ⟨e', h₅, -⟩
        swap
        · cases (does_perform.mp h₅).1
        obtain ⟨hr, rfl⟩ := does_perform.mp h₅
        obtain rfl : u = () := Except.ok.inj hr
        obtain ⟨rfl, -⟩ := does_done.mp h₆
        exact ⟨[], rfl, rfl, .quiet rfl rfl⟩
      | ok response =>
        rcases does_bind.mp h₄ with ⟨t₅, u, t₆, h₅, h₆, rfl⟩ | ⟨e', h₅, -⟩
        swap
        · cases (does_recordAfter h₅).1
        obtain ⟨hm₅, ha₅⟩ := finished_carries hb (does_recordAfter h₅).2
        rcases does_bind.mp h₆ with ⟨t₇, u, t₈, h₇, h₈, rfl⟩ | ⟨e', h₇, -⟩
        swap
        · cases (does_perform.mp h₇).1
        obtain ⟨hr, rfl⟩ := does_perform.mp h₇
        obtain rfl : u = () := Except.ok.inj hr
        obtain ⟨rfl, -⟩ := does_done.mp h₈
        exact ⟨t₅, rfl, hm₅, ha₅⟩
    constructor
    · rw [List.foldl_append, hfold, List.foldl_append, foldl_still hm₃, List.foldl_append,
        foldl_still hm₅]
      exact htoken
    · intro context token hmem
      rw [List.filterMap_append, List.filterMap_append, List.filterMap_append, hm₃, hm₅,
        show t₁.filterMap contextMove = _ from congrArg Tally.moves ht₁] at hmem
      rcases List.mem_cons.mp hmem with hmem | hmem
      · cases hmem
        rw [← List.append_assoc]
        exact ha.append (ha₅.append (.quiet rfl rfl))
      · cases List.mem_singleton.mp hmem

end

/-- **every event of a request** that is logged or handed on, by the middleware or by a receiver,
carries the id of the context that was set for it; and the context is left as it was found -/
theorem request_correlated (py : Objects) (repr : Str → Str) (frames : Nat) {lib : IpLibrary}
    (mw : AuditMiddleware lib) (request : Request) {Response σ : Type}
    (h : Handler (AuditEff Response) Exc σ) (signals : List (Nat × Signal))
    (outer : Option AuditContext) (s : AuditProcess σ) :
    let view := respond py repr frames mw signals
    let t := trace (contextual (auditProcess h)) (auditAround py repr frames mw request view)
      (outer, s)
    (exec (contextual (auditProcess h)) (auditAround py repr frames mw request view)
        (outer, s)).2.1 = outer ∧
      ∀ context token, .set context token ∈ t.filterMap contextMove → AllCarry context t := by
  intro view t
  obtain ⟨hc, he⟩ := consistent_trace (auditProcess h)
    (auditAround py repr frames mw request view) (outer, s)
  obtain ⟨hr, ha⟩ := around_carries (Steps.of_trace
    (contextual_replies (auditProcess_replies h)) _ (outer, s)) hc
  exact ⟨he.trans hr, ha⟩

end SecAudit
