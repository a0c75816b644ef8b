import SecAudit.Stores.Sentinel

/-!
# What a read may rely on, and what it answers

The contract of `getActive` and `firstActive`, for any store they run against and whatever else
happens to it during the call.

* `Facts`           what is known of the scopes and keys while the call runs;
* `Reply`, `Issue`  the replies that agree with the facts; the writes a read makes itself: cache
                    entries of rows it was shown, and a sentinel of all the rows it was shown;
* `listed`          the rows a call was shown and has not yet made a sentinel of;
* `Answers`         the result: an entry when a queried scope is banned or cached, an entry only
                    when one may have a row or a live key;
* `reads_getActive`, `reads_firstActive`  the two reads keep to the contract.
-/

set_option linter.unusedVariables false
set_option linter.unusedSectionVars false

namespace SecAudit
open Py Prog

abbrev CallLog := Log Cmd Exc

/-- this call has written the key -/
def Wrote (k : Str) (l : CallLog) : Prop :=
  ∃ v ex, (⟨Cmd.set k v ex, .ok ()⟩ : Event Cmd Exc) ∈ l

/-- a `SET` of the key that went through -/
def isWrite (k : Str) : Event Cmd Exc → Bool
  | ⟨.set k' _ _, .ok _⟩ => decide (k' = k)
  | _ => false

instance (k : Str) (l : CallLog) : Decidable (Wrote k l) :=
  decidable_of_iff (l.any (isWrite k) = true) <| by
    rw [List.any_eq_true]
    constructor
    · rintro ⟨e, hm, he⟩
      unfold isWrite at he
      split at he
      · obtain rfl := of_decide_eq_true he
        exact ⟨_, _, hm⟩
      · cases he
    · rintro ⟨v, ex, hm⟩
      exact ⟨_, hm, decide_eq_true rfl⟩

theorem Wrote.mono {k : Str} {l l' : CallLog} (h : Wrote k l) (hl : l <:+ l') : Wrote k l' := by
  obtain ⟨v, ex, hm⟩ := h
  exact ⟨v, ex, hl.subset hm⟩

/-- how a command fails -/
def ReplyErr : {β : Type} → Cmd β → Exc → Prop
  | _, .now, _ => False
  | _, .updateOrCreate .., x => x = .unicodeError ∨ x = .jsonError ∨ x.isDatabaseError = true
  | _, .revoke .., x => x = .unicodeError ∨ x.isDatabaseError = true
  | _, .activeRow .., x => x = .unicodeError ∨ x.isDatabaseError = true
  | _, .activeRows .., x => x = .unicodeError ∨ x.isDatabaseError = true
  | _, .allActive _, x => x = .unicodeError ∨ x.isDatabaseError = true
  | _, _, x => x = .unicodeError ∨ isRedisError x = true

/-- the rows of the last reading of all active rows, until a sentinel is written -/
def listed (warmKey : Str) : CallLog → Option (List Row)
  | [] => none
  | ⟨.allActive _, .ok rows⟩ :: _ => some rows
  | ⟨.set k _ _, _⟩ :: l => if k = warmKey then none else listed warmKey l
  | _ :: l => listed warmKey l

/-- a reply that shows a row under the key `k` -/
def ShowsRow (st : RedisBlockStore) (k : Str) : Event Cmd Exc → Prop
  | ⟨.activeRow _ _, .ok o⟩ => ∃ row, o = some row ∧ st.key row.scope = k
  | ⟨.activeRows _ _, .ok rows⟩ => ∃ row ∈ rows, st.key row.scope = k
  | ⟨.allActive _, .ok rows⟩ => ∃ row ∈ rows, st.key row.scope = k
  | _ => False

instance (st : RedisBlockStore) (k : Str) : ∀ e : Event Cmd Exc, Decidable (ShowsRow st k e)
  | ⟨.activeRow _ _, .ok o⟩ => decidable_of_iff (∃ row ∈ o, st.key row.scope = k) Iff.rfl
  | ⟨.activeRows _ _, .ok rows⟩ => inferInstanceAs (Decidable (∃ row ∈ rows, st.key row.scope = k))
  | ⟨.allActive _, .ok rows⟩ => inferInstanceAs (Decidable (∃ row ∈ rows, st.key row.scope = k))
  | ⟨.activeRow _ _, .error _⟩ | ⟨.activeRows _ _, .error _⟩ | ⟨.allActive _, .error _⟩ => isFalse id
  | ⟨.now, _⟩ | ⟨.get _, _⟩ | ⟨.mget _, _⟩ | ⟨.set _ _ _, _⟩ | ⟨.delete _, _⟩ | ⟨.scan _, _⟩ =>
    isFalse id
  | ⟨.updateOrCreate _ _ _ _, _⟩ | ⟨.revoke _ _ _ _, _⟩ => isFalse id

/-- this call has been shown a row under the key `k` -/
def Shown (st : RedisBlockStore) (k : Str) (l : CallLog) : Prop := ∃ e ∈ l, ShowsRow st k e

instance (st : RedisBlockStore) (k : Str) (l : CallLog) : Decidable (Shown st k l) :=
  inferInstanceAs (Decidable (∃ e ∈ l, ShowsRow st k e))

theorem Shown.mono {st : RedisBlockStore} {k : Str} {l l' : CallLog} (h : Shown st k l)
    (hl : l <:+ l') : Shown st k l' := by
  obtain ⟨e, he, hs⟩ := h
  exact ⟨e, hl.subset he, hs⟩

theorem shown_of_listed {st : RedisBlockStore} {l : CallLog} {rows : List Row} {row : Row}
    (h : listed st.warmKey l = some rows) (hr : row ∈ rows) : Shown st (st.key row.scope) l := by
  induction l with
  | nil => cases h
  | cons e l ih =>
    have tail : listed st.warmKey l = some rows → Shown st (st.key row.scope) (e :: l) :=
      fun h => (ih h).mono (List.suffix_cons e l)
    rcases e with ⟨c, r⟩
    cases c with
    | allActive t =>
      cases r with
      | ok rows' =>
        obtain rfl : rows' = rows := Option.some.inj h
        exact ⟨_, List.mem_cons_self, row, hr, rfl⟩
      | error x => exact tail h
    | set k v ex =>
      replace h : (if k = st.warmKey then none else listed st.warmKey l) = some rows := h
      split at h
      · cases h
      · exact tail h
    | now => exact tail h
    | get k => exact tail h
    | mget ks => exact tail h
    | delete k => exact tail h
    | scan pre => exact tail h
    | updateOrCreate s a e t => exact tail h
    | revoke s reason revokedBy t => exact tail h
    | activeRow s t => exact tail h
    | activeRows ss t => exact tail h

/-! ## the contract -/

structure Facts (st : TieredBlockStore) where
  /-- has an active row all along -/
  banned : BlockScope → Prop
  /-- may have an active row -/
  mayRow : BlockScope → Prop
  /-- the key is live all along -/
  cached : Str → Prop
  /-- the key may be live, or become so -/
  mayHit : Str → Prop
  /-- once this call has written the key, it is live -/
  stays : Str → Prop
  /-- no limit of UTF-8, of `datetime` or of JSON is met -/
  within : Prop
  /-- no backend fails -/
  up : Prop
  banned_mayRow : ∀ s, banned s → mayRow s
  banned_stays : ∀ s, banned s → stays (st.redis.key s)
  mayRow_encodable : ∀ s, mayRow s → s.encodable = true
  mayHit_of_row : ∀ s, mayRow s → mayHit (st.redis.key s)
  within_prefix : within → encodable st.redis.keyPrefix = true
  within_ttl : within → 0 < st.permanentCacheTtl

section
variable (b : Builtins) {st : TieredBlockStore} (F : Facts st)

/-- a value read from the key of a block, after the log `l` -/
def HitOk (l : CallLog) (k : Str) (v : Option Str) : Prop :=
  (∀ p, nonEmpty v = some p → F.mayHit k ∧ ∃ e, entryFromJson b p = .ok e) ∧
  (F.cached k ∨ (F.stays k ∧ Wrote k l) → (nonEmpty v).isSome = true)

def RowOk (row : Row) : Prop :=
  F.mayRow row.scope ∧ row.args.writable = true

def Reply (l : CallLog) : {β : Type} → Cmd β → Except Exc β → Prop
  | _, .now, r => ∀ t, r = .ok t → F.within → ∃ t', addSeconds t st.permanentCacheTtl = .ok t'
  | _, .get k, r => ∀ v, r = .ok v →
    (k = st.redis.warmKey → ∀ text, v = some text → CoversText b F.banned text) ∧
    ∀ s, k = st.redis.key s → HitOk b F l k v
  | _, .mget ks, r => ∀ vs, r = .ok vs → ∃ f, vs = ks.map f ∧
    ∀ s, st.redis.key s ∈ ks → HitOk b F l (st.redis.key s) (f (st.redis.key s))
  | _, .activeRow s _, r => ∀ o, r = .ok o →
    (F.banned s → o.isSome = true) ∧ ∀ row, o = some row → row.scope = s ∧ RowOk F row
  | _, .activeRows ss _, r => ∀ rows, r = .ok rows →
    (∀ s ∈ ss, F.banned s → ∃ row ∈ rows, row.scope = s) ∧
    ∀ row ∈ rows, row.scope ∈ ss ∧ RowOk F row
  | _, .allActive _, r => ∀ rows, r = .ok rows →
    (∀ s, F.banned s → ∃ row ∈ rows, row.scope = s) ∧ (∀ row ∈ rows, RowOk F row) ∧
    (F.within → Countable rows.length)
  | _, .updateOrCreate s _ _ _, r => ∀ row, r = .ok row → row.scope = s
  | _, _, _ => True

/-- a payload a later read can decode -/
def Decodes (s : BlockScope) (p : Str) : Prop :=
  p ≠ [] ∧ (s.encodable = true → ∃ e, entryFromJson b p = .ok e)

/-- a sentinel of the rows `rows` -/
def CoversRows (rows : List Row) (text : Str) : Prop :=
  CoversText b (fun s => s.encodable = true ∧ ∃ row ∈ rows, row.scope = s) text

def Issue (l : CallLog) : {β : Type} → Cmd β → Prop
  | _, .set k v ex => ex = st.permanentCacheTtl ∧
    ((k = st.redis.warmKey ∧ ∃ rows, listed st.redis.warmKey l = some rows ∧ CoversRows b rows v ∧
        ∀ s, F.banned s → ∃ row ∈ rows, row.scope = s) ∨
      ∃ s, k = st.redis.key s ∧ F.mayRow s ∧ Decodes b s v ∧ Shown st.redis k l)
  | _, .delete _ => False
  | _, .updateOrCreate .. => False
  | _, .revoke .. => False
  | _, _ => True

/-- why a read raises: the error of a backend, or a limit -/
def Raised (e : Exc) : Prop :=
  (e.isBlockStoreError = true ∧ ¬ (F.within ∧ F.up)) ∨
  ((e = .unicodeError ∨ e = .overflowError ∨ e = .jsonError) ∧ ¬ F.within)

/-- how a command fails, and what that says -/
def Refused {β : Type} (c : Cmd β) (x : Exc) : Prop :=
  ReplyErr c x ∧ (x = .unicodeError → ¬ F.within) ∧ ¬ (F.within ∧ F.up)

/-- what the result says about the scopes queried -/
structure Answers (scopes : List BlockScope) (l : CallLog) (r : Except Exc (Option BlockEntry)) :
    Prop where
  sound : ∀ e, r = .ok (some e) → ∃ s ∈ scopes, F.mayHit (st.redis.key s)
  complete : r = .ok none → ∀ s ∈ scopes, ¬ F.banned s ∧ ¬ F.cached (st.redis.key s)
  raises : ∀ e, r = .error e → Raised F e

def reads {α : Type} (Q : CallLog → Except Exc α → Prop) : Contract Cmd Exc α :=
  ⟨fun l _ c r => (∀ x, r = .error x → Refused F c x) ∧ Reply b F l c r,
    fun l _ c => (F.within → c.Sendable) ∧ Issue b F l c, Q⟩

end

section
variable {st : TieredBlockStore} {F : Facts st}

theorem Raised.only {α : Type} {e : Exc} (h : Raised F e) :
    ∀ e', (.error e : Except Exc α) = .error e' → Raised F e' := by
  intro e' he
  cases he
  exact h

theorem Facts.banned_encodable (F : Facts st) {s : BlockScope} (h : F.banned s) :
    s.encodable = true := F.mayRow_encodable s (F.banned_mayRow s h)

theorem sendable_key {s : BlockScope} (ho : F.within) (hs : s.encodable = true) :
    encodable (st.redis.key s) = true :=
  (encodable_key st.redis).mpr ⟨F.within_prefix ho, hs⟩

theorem sendable_warmKey (ho : F.within) : encodable st.redis.warmKey = true :=
  (encodable_warmKey st.redis).mpr (F.within_prefix ho)

theorem sendable_get {k : Str} (h : encodable k = true) : (Cmd.get k).Sendable := by
  refine ⟨?_, trivial⟩
  show (encodable k && true) = true
  rw [h]
  rfl

theorem sendable_set {k v : Str} {ex : Int} (hk : encodable k = true) (hv : Printable v)
    (hex : 0 < ex) : (Cmd.set k v ex).Sendable := by
  refine ⟨?_, hex⟩
  show (encodable k && (encodable v && true)) = true
  rw [hk, hv.encodable]
  rfl

theorem sendable_mget {scopes : List BlockScope} (ho : F.within)
    (hs : ∀ s ∈ scopes, s.encodable = true) : (Cmd.mget (scopes.map st.redis.key)).Sendable := by
  refine ⟨List.all_eq_true.mpr fun k hk => ?_, trivial⟩
  obtain ⟨s, hm, rfl⟩ := List.mem_map.mp hk
  exact sendable_key ho (hs s hm)

theorem texts_encodable {s : BlockScope} (h : s.encodable = true) :
    s.texts.all encodable = true := by
  unfold BlockScope.encodable at h
  unfold BlockScope.texts
  rw [List.all_cons, List.all_cons, List.all_nil, Bool.and_true]
  exact h

theorem sendable_activeRows {scopes : List BlockScope} {t : Int}
    (hs : ∀ s ∈ scopes, s.encodable = true) : (Cmd.activeRows scopes t).Sendable := by
  refine ⟨List.all_eq_true.mpr fun k hk => ?_, trivial⟩
  obtain ⟨s, hm, hk⟩ := List.mem_flatMap.mp hk
  exact List.all_eq_true.mp (texts_encodable (hs s hm)) k hk

end

/-! ## single commands -/

section
variable {b : Builtins} {st : TieredBlockStore} {F : Facts st}

theorem reads_wrap {α : Type} {Q : CallLog → Except Exc α → Prop} {l : CallLog} {c : Cmd α}
    {picked : Exc → Bool} {text : Str} (hs : F.within → c.Sendable) (hi : Issue b F l c)
    (hpick : ∀ x, ReplyErr c x → x = .unicodeError ∨ picked x = true)
    (hok : ∀ a, Reply b F l c (.ok a) → Q (⟨c, .ok a⟩ :: l) (.ok a))
    (herr : ∀ x e, Raised F e → Q (⟨c, .error x⟩ :: l) (.error e)) :
    Meets (reads b F Q) l (Call.wrap picked text (perform c)) := by
  refine ⟨⟨hs, hi⟩, ?_⟩
  rintro r ⟨hx, hr⟩
  cases r with
  | ok a => exact hok a hr
  | error x =>
    show Meets _ _ (if picked x = true then Prog.throw _ else Prog.throw _)
    obtain ⟨hx, hw, hn⟩ := hx x rfl
    split
    · exact herr x _ (.inl ⟨rfl, hn⟩)
    · rename_i hp
      rcases hpick x hx with rfl | h
      · exact herr _ _ (.inr ⟨.inl rfl, hw rfl⟩)
      · exact absurd h hp

theorem reads_ofExcept {α : Type} {Q : CallLog → Except Exc α → Prop} {l : CallLog}
    {r : Except Exc α} (h : Q l r) : Meets (reads b F Q) l (ofExcept r) := h

theorem reads_conseq {α : Type} {P Q : CallLog → Except Exc α → Prop} {p : Call α} {l : CallLog}
    (h : Meets (reads b F P) l p) (hQ : ∀ l' r, l <:+ l' → P l' r → Q l' r) :
    Meets (reads b F Q) l p :=
  Meets.conseq (K := reads b F P) h hQ

/-- the clock does not fail -/
theorem reads_now {Q : CallLog → Except Exc Int → Prop} {l : CallLog}
    (h : ∀ now, (F.within → ∃ t, addSeconds now st.permanentCacheTtl = .ok t) →
      Q (⟨Cmd.now, .ok now⟩ :: l) (.ok now)) :
    Meets (reads b F Q) l (perform .now) := by
  refine ⟨⟨fun _ => ⟨rfl, trivial⟩, trivial⟩, ?_⟩
  rintro r ⟨hx, hr⟩
  cases r with
  | ok now => exact h now (hr now rfl)
  | error x => exact (hx x rfl).1.elim

end

/-! ## reads of Redis -/

section
variable {b : Builtins} {st : TieredBlockStore} {F : Facts st} {l : CallLog}

/-- the outcome of looking up the keys of `scopes`, begun after the log `l` -/
structure Lookup (F : Facts st) (scopes : List BlockScope) (l l' : CallLog)
    (r : Except Exc (Option BlockEntry)) : Prop where
  hit : ∀ e, r = .ok (some e) → ∃ s ∈ scopes, F.mayHit (st.redis.key s)
  miss : r = .ok none → ∀ s ∈ scopes, ¬ F.cached (st.redis.key s) ∧
    ¬ (F.stays (st.redis.key s) ∧ Wrote (st.redis.key s) l)
  raises : ∀ e, r = .error e → Raised F e

theorem Lookup.of_raised {scopes : List BlockScope} {l' : CallLog} {e : Exc} (h : Raised F e) :
    Lookup F scopes l l' (.error e) := ⟨nofun, nofun, h.only⟩

/-- a value that passed `HitOk` decodes -/
theorem decode_hit {k p : Str} {v : Option Str} (h : HitOk b F l k v) (hp : nonEmpty v = some p) :
    ∃ e, RedisBlockStore.decode b v = .done (.ok (some e)) := by
  obtain ⟨e, he⟩ := (h.1 p hp).2
  refine ⟨e, ?_⟩
  unfold RedisBlockStore.decode
  rw [hp]
  show (Prog.ofExcept (entryFromJson b p) >>= _) = _
  rw [he]
  rfl

theorem decode_miss {v : Option Str} (hv : nonEmpty v = none) :
    RedisBlockStore.decode b v = .done (.ok none) := by
  unfold RedisBlockStore.decode
  rw [hv]
  rfl

theorem not_hit {k : Str} {v : Option Str} (h : HitOk b F l k v) (hv : nonEmpty v = none) :
    ¬ F.cached k ∧ ¬ (F.stays k ∧ Wrote k l) := by
  constructor
  · intro hc
    have := h.2 (.inl hc)
    rw [hv] at this
    cases this
  · intro hw
    have := h.2 (.inr hw)
    rw [hv] at this
    cases this

theorem reads_redis_getActive {scope : BlockScope} (hs : F.within → scope.encodable = true) :
    Meets (reads b F (Lookup F [scope] l)) l (st.redis.getActive b scope) := by
  refine meets_bind (P := fun l' r => (∀ v, r = .ok v → HitOk b F l (st.redis.key scope) v) ∧
    ∀ e, r = .error e → Raised F e) ?_ ?_ ?_
  · refine reads_wrap (fun ho => sendable_get (sendable_key ho (hs ho))) trivial (fun _ h => h) ?_
      fun x e he => ⟨nofun, he.only⟩
    intro v hv
    refine ⟨fun v' e => ?_, nofun⟩
    cases e
    exact (hv v rfl).2 scope rfl
  · intro l' v hl h
    have hk := h.1 v rfl
    cases hv : nonEmpty v with
    | none =>
      rw [decode_miss hv]
      refine ⟨nofun, fun _ s hs => ?_, nofun⟩
      rw [List.mem_singleton.mp hs]
      exact not_hit hk hv
    | some p =>
      obtain ⟨e, he⟩ := decode_hit hk hv
      rw [he]
      refine ⟨fun _ _ => ⟨scope, List.mem_singleton_self _, (hk.1 p hv).1⟩,
        nofun, nofun⟩
  · intro l' e hl h
    exact Lookup.of_raised (h.2 e rfl)

theorem reads_redis_firstActive {scopes : List BlockScope}
    (hs : F.within → ∀ s ∈ scopes, s.encodable = true) :
    Meets (reads b F (Lookup F scopes l)) l (st.redis.firstActive b scopes) := by
  unfold RedisBlockStore.firstActive
  by_cases h0 : scopes = []
  · rw [if_pos h0]
    refine ⟨nofun, fun _ s hs => ?_, nofun⟩
    rw [h0] at hs
    cases hs
  rw [if_neg h0]
  refine meets_bind (P := fun l' r => (∀ vs, r = .ok vs → ∃ f, vs = (scopes.map st.redis.key).map f ∧
    ∀ s, st.redis.key s ∈ scopes.map st.redis.key → HitOk b F l (st.redis.key s) (f (st.redis.key s))) ∧
    ∀ e, r = .error e → Raised F e) ?_ ?_ ?_
  · refine reads_wrap (fun ho => sendable_mget ho (hs ho)) trivial (fun _ h => h) ?_
      fun x e he => ⟨nofun, he.only⟩
    intro vs hvs
    refine ⟨fun vs' e => ?_, nofun⟩
    cases e
    exact hvs vs rfl
  · intro l' vs hl h
    obtain ⟨f, rfl, hf⟩ := h.1 vs rfl
    cases hp : ((scopes.map st.redis.key).map f).findSome? nonEmpty with
    | none =>
      rw [decode_miss rfl]
      refine ⟨nofun, fun _ s hs => ?_, nofun⟩
      have hk := List.mem_map_of_mem (f := st.redis.key) hs
      exact not_hit (hf s hk) (List.findSome?_eq_none_iff.mp hp _ (List.mem_map_of_mem hk))
    | some p =>
      obtain ⟨v, hv, hvp⟩ := List.exists_of_findSome?_eq_some hp
      obtain ⟨k, hk, rfl⟩ := List.mem_map.mp hv
      obtain ⟨s, hs, rfl⟩ := List.mem_map.mp hk
      have hit := hf s hk
      -- the payload found is that of `s`, and is not empty itself
      have hne : nonEmpty (some p) = some p := by
        unfold nonEmpty at hvp ⊢
        obtain ⟨-, hpe⟩ := Option.filter_eq_some_iff.mp hvp
        rw [Option.filter_some, if_pos hpe]
      obtain ⟨e, he⟩ := (hit.1 p hvp).2
      have hd : RedisBlockStore.decode b (some p) = .done (.ok (some e)) := by
        unfold RedisBlockStore.decode
        rw [hne]
        show (Prog.ofExcept (entryFromJson b p) >>= _) = _
        rw [he]
        rfl
      rw [hd]
      exact ⟨fun _ _ => ⟨s, hs, (hit.1 p hvp).1⟩, nofun, nofun⟩
  · intro l' e hl h
    exact Lookup.of_raised (h.2 e rfl)

/-- a sentinel that is there covers the banned scopes -/
theorem reads_readWarm :
    Meets (reads b F fun l' r => (∀ data, r = .ok (some data) → Covers b F.banned data) ∧
      ∀ e, r = .error e → Raised F e) l st.redis.readWarm := by
  refine meets_bind (P := fun l' r => (∀ v, r = .ok v → ∀ text, v = some text →
    CoversText b F.banned text) ∧ ∀ e, r = .error e → Raised F e) ?_ ?_ ?_
  · refine reads_wrap (fun ho => sendable_get (sendable_warmKey ho)) trivial (fun _ h => h) ?_
      fun x e he => ⟨nofun, he.only⟩
    intro v hv
    refine ⟨fun v' e => ?_, nofun⟩
    cases e
    exact (hv v rfl).1 rfl
  · intro l' v hl h
    cases v with
    | none => exact ⟨nofun, nofun⟩
    | some text =>
      obtain ⟨data, hd, hc⟩ := h.1 _ rfl text rfl
      dsimp only
      rw [hd]
      refine ⟨fun data' h => ?_, nofun⟩
      cases h
      exact hc
  · intro l' e hl h
    exact ⟨nofun, (h.2 e rfl).only⟩

end

/-! ## cache writes -/

section
variable {b : Builtins} {st : TieredBlockStore} {F : Facts st} {l : CallLog}

/-- what a step without a value to hand on promises -/
def Done (F : Facts st) (P : CallLog → Prop) (l' : CallLog) (r : Except Exc Unit) : Prop :=
  (r = .ok () → P l') ∧ ∀ e, r = .error e → Raised F e

theorem decodes_payload {e : BlockEntry} {p : Str} (hp : entryToJson b e = .ok p) :
    Decodes b e.scope p := by
  refine ⟨entryToJson_ne_nil b hp, fun he => ?_⟩
  obtain ⟨e', h, -⟩ := entryFromJson_entryToJson b hp he
  exact ⟨e', h⟩

theorem addSeconds_error {t n : Int} {e : Exc} (h : addSeconds t n = .error e) :
    e = .overflowError := by
  unfold addSeconds at h
  split at h
  · cases h
  · exact (Except.error.inj h).symm

theorem entryToJson_error {e : BlockEntry} {x : Exc} (h : entryToJson b e = .error x) :
    x = .jsonError := by
  unfold entryToJson at h
  split at h
  · cases h
  · exact (Except.error.inj h).symm

/-- the entry of a row the facts allow -/
def EntryOk (F : Facts st) (entry : BlockEntry) : Prop :=
  F.mayRow entry.scope ∧ entry.args.writable = true

/-- a cache entry has been written, and the rows listed are still to be made a sentinel of -/
def Cached (st : TieredBlockStore) (l : CallLog) (scopes : List BlockScope) (l' : CallLog) : Prop :=
  (∀ s ∈ scopes, Wrote (st.redis.key s) l') ∧ listed st.redis.warmKey l' = listed st.redis.warmKey l

theorem listed_set {k v : Str} {ex : Int} {r : Except Exc Unit} {w : Str} (h : k ≠ w) :
    listed w (⟨Cmd.set k v ex, r⟩ :: l) = listed w l := if_neg h

theorem reads_cacheEntry {entry : BlockEntry} (hm : EntryOk F entry)
    (hsh : Shown st.redis (st.redis.key entry.scope) l) :
    Meets (reads b F (Done F (Cached st l [entry.scope]))) l (st.cacheEntry b entry) := by
  have hkey := key_ne_warmKey st.redis entry.scope
  refine meets_bind (P := fun l' r => (∀ e, r = .ok e → Cached st l [entry.scope] l') ∧
    ∀ e, r = .error e → Raised F e) ?_ ?_ ?_
  · refine meets_bind (P := fun l' r => listed st.redis.warmKey l' = listed st.redis.warmKey l ∧
      l <:+ l' ∧
      (∀ now, r = .ok now → F.within → ∃ t, addSeconds now st.permanentCacheTtl = .ok t) ∧
      ∀ e, r = .error e → Raised F e) (reads_now fun now h =>
        ⟨rfl, List.suffix_cons _ _, fun _ e => ?_, nofun⟩) ?_ ?_
    · cases e
      exact h
    · rintro l1 now h1 ⟨hl1, hsuf, hnow, -⟩
      refine meets_bind (P := fun l' r => l' = l1 ∧ ∀ e, r = .error e → Raised F e)
        (reads_ofExcept ⟨rfl, fun e he => ?_⟩) ?_ ?_
      · refine .inr ⟨.inr (.inl (addSeconds_error he)), fun ho => ?_⟩
        obtain ⟨t, ht⟩ := hnow now rfl ho
        cases he.symm.trans ht
      · rintro l2 expiresAt h2 ⟨rfl, -⟩
        refine meets_bind (P := fun l' r => l' = l2 ∧ r = entryToJson b
          (.make entry.scope entry.args (some now) (some expiresAt))) (reads_ofExcept ⟨rfl, rfl⟩)
          ?_ ?_
        · rintro l3 payload h3 ⟨rfl, hp⟩
          refine meets_bind (P := fun l' r => (r = .ok () → Cached st l [entry.scope] l') ∧
            ∀ e, r = .error e → Raised F e) (reads_wrap ?_ ?_ (fun _ h => h) ?_ ?_) ?_ ?_
          · intro ho
            exact sendable_set (sendable_key ho (F.mayRow_encodable _ hm.1))
              (printable_entryToJson b hp.symm) (F.within_ttl ho)
          · have hd := decodes_payload hp.symm
            exact ⟨rfl, .inr ⟨entry.scope, rfl, hm.1, hd, hsh.mono hsuf⟩⟩
          · intro u hu
            refine ⟨fun _ => ⟨fun s hs => ?_, (listed_set hkey).trans hl1⟩, nofun⟩
            rw [List.mem_singleton.mp hs]
            exact ⟨payload, _, List.mem_cons_self⟩
          · intro x e he
            exact ⟨nofun, he.only⟩
          · intro l4 u h4 h
            exact ⟨fun _ _ => h.1 rfl, nofun⟩
          · intro l4 e h4 h
            exact ⟨nofun, (h.2 e rfl).only⟩
        · rintro l3 e h3 ⟨rfl, he⟩
          refine ⟨nofun, Raised.only (.inr ⟨.inr (.inr (entryToJson_error he.symm)), fun ho => ?_⟩)⟩
          obtain ⟨p, hp⟩ := entryToJson_of_writable b hm.2 entry.scope (some now)
            (some expiresAt)
          cases he.trans hp
      · rintro l2 e h2 ⟨-, he⟩
        exact ⟨nofun, (he e rfl).only⟩
    · rintro l1 e h1 ⟨-, -, -, he⟩
      exact ⟨nofun, (he e rfl).only⟩
  · intro l' e hl h
    exact ⟨fun _ => h.1 e rfl, nofun⟩
  · intro l' e hl h
    exact ⟨nofun, (h.2 e rfl).only⟩

theorem reads_cachePermanent {entry : BlockEntry} (hm : EntryOk F entry)
    (hsh : Shown st.redis (st.redis.key entry.scope) l) :
    Meets (reads b F (Done F fun _ => True)) l (st.cachePermanent b entry) := by
  refine meets_catchWith (reads_cacheEntry hm hsh) ?_ ?_
  · intro l' u hl h
    exact ⟨fun _ => trivial, nofun⟩
  · intro l' e hl h
    show Meets _ _ (if e.isBlockStoreError = true then _ else _)
    split
    · exact ⟨fun _ => trivial, nofun⟩
    · exact ⟨nofun, (h.2 e rfl).only⟩

theorem reads_cacheEach {entries : List BlockEntry} (hm : ∀ e ∈ entries, EntryOk F e)
    (hsh : ∀ e ∈ entries, Shown st.redis (st.redis.key e.scope) l) :
    Meets (reads b F (Done F (Cached st l (entries.map BlockEntry.scope)))) l
      (st.cacheEach b entries) := by
  induction entries generalizing l with
  | nil => exact ⟨fun _ => ⟨fun s hs => absurd hs List.not_mem_nil, rfl⟩, nofun⟩
  | cons e rest ih =>
    refine meets_bind (reads_cacheEntry (hm e List.mem_cons_self) (hsh e List.mem_cons_self)) ?_ ?_
    · intro l1 u h1 h
      obtain ⟨hw, hl⟩ := h.1 rfl
      refine reads_conseq (ih (fun e' he' => hm e' (List.mem_cons_of_mem _ he'))
        fun e' he' => (hsh e' (List.mem_cons_of_mem _ he')).mono h1) ?_
      intro l2 r h2 hr
      refine ⟨fun hok => ⟨fun s hs => ?_, (hr.1 hok).2.trans hl⟩, hr.2⟩
      rcases List.mem_cons.mp hs with rfl | hs
      · exact (hw e.scope (List.mem_singleton_self _)).mono h2
      · exact (hr.1 hok).1 s hs
    · intro l1 x h1 h
      exact ⟨nofun, h.2⟩

/-- the rows listed, and the facts about them -/
structure Listed (F : Facts st) (l : CallLog) (rows : List Row) : Prop where
  here : listed st.redis.warmKey l = some rows
  banned : ∀ s, F.banned s → ∃ row ∈ rows, row.scope = s
  ok : ∀ row ∈ rows, RowOk F row
  countable : F.within → Countable rows.length

theorem reads_activeBlocks :
    Meets (reads b F fun l' r =>
      (∀ es, r = .ok es → ∃ rows, es = rows.map Row.entry ∧ Listed F l' rows) ∧
        ∀ e, r = .error e → Raised F e) l Postgres.activeBlocks := by
  refine meets_bind (P := fun l' r => ∀ e, r = .error e → Raised F e)
    (reads_now fun now _ => nofun) ?_ ?_
  · intro l1 now h1 _
    refine meets_bind (P := fun l' r => (∀ rows, r = .ok rows → Listed F l' rows) ∧
      ∀ e, r = .error e → Raised F e)
      (reads_wrap (fun _ => ⟨rfl, trivial⟩) trivial (fun _ h => h) ?_ ?_) ?_ ?_
    · intro rows h
      refine ⟨fun rows' e => ?_, nofun⟩
      cases e
      obtain ⟨hb, hr, hc⟩ := h rows rfl
      exact ⟨rfl, hb, hr, hc⟩
    · intro x e he
      exact ⟨nofun, he.only⟩
    · intro l2 rows h2 h
      refine ⟨fun es he => ⟨rows, ?_, h.1 rows rfl⟩, nofun⟩
      cases he
      rfl
    · intro l2 e h2 h
      exact ⟨nofun, (h.2 e rfl).only⟩
  · intro l1 e h1 h
    exact ⟨nofun, (h e rfl).only⟩

/-- the sentinel a re-warm writes lists every row it read -/
theorem reads_markWarm {rows : List Row} (h : Listed F l rows) :
    Meets (reads b F (Done F fun _ => True)) l
      (st.redis.markWarm st.permanentCacheTtl (sentinel (rows.map Row.scope))) := by
  refine meets_bind (P := fun l' r => l' = l ∧ r = RedisBlockStore.dumpsWarm
    (sentinel (rows.map Row.scope))) (reads_ofExcept ⟨rfl, rfl⟩) ?_ ?_
  · rintro l1 text h1 ⟨rfl, ht⟩
    have hc : CoversRows b rows text := by
      refine covers_sentinel b ht.symm fun s hs => ⟨?_, hs.1⟩
      obtain ⟨row, hr, rfl⟩ := hs.2
      exact List.mem_map_of_mem hr
    refine reads_wrap (fun ho => sendable_set (sendable_warmKey ho)
      (printable_dumpsWarm ht.symm) (F.within_ttl ho))
      ⟨rfl, .inl ⟨rfl, rows, h.here, hc, h.banned⟩⟩ (fun _ h => h) ?_ ?_
    · intro u hu
      exact ⟨fun _ => trivial, nofun⟩
    · intro x e he
      exact ⟨nofun, he.only⟩
  · rintro l1 e h1 ⟨rfl, he⟩
    refine ⟨nofun, Raised.only (.inr ⟨.inr (.inr ?_), fun ho => ?_⟩)⟩
    rotate_left
    · obtain ⟨text, ht⟩ := dumpsWarm_sentinel (m := rows.map Row.scope) (by
        rw [List.length_map]
        exact h.countable ho)
      cases he.trans ht
    · unfold RedisBlockStore.dumpsWarm at he
      split at he
      · cases he
      · exact Except.error.inj he

theorem reads_rewarm :
    Meets (reads b F (Done F fun l' => ∀ s, F.banned s → Wrote (st.redis.key s) l')) l
      (st.rewarm b) := by
  refine meets_bind reads_activeBlocks ?_ ?_
  · intro l1 entries h1 h
    obtain ⟨rows, rfl, hrows⟩ := h.1 entries rfl
    have hentries : ∀ e ∈ rows.map Row.entry, EntryOk F e := by
      intro e he
      obtain ⟨row, hr, rfl⟩ := List.mem_map.mp he
      exact hrows.ok row hr
    have hshown : ∀ e ∈ rows.map Row.entry, Shown st.redis (st.redis.key e.scope) l1 := by
      intro e he
      obtain ⟨row, hr, rfl⟩ := List.mem_map.mp he
      exact shown_of_listed hrows.here hr
    refine meets_bind (reads_cacheEach hentries hshown) ?_ ?_
    · intro l2 u h2 hw
      obtain ⟨hwrote, hl⟩ := hw.1 rfl
      have e : warmPayload ((rows.map Row.entry).map (·.scope.pair))
          ((rows.map Row.entry).map (·.scope.scopeType)) = sentinel (rows.map Row.scope) := by
        unfold sentinel
        rw [List.map_map, List.map_map, List.map_map, List.map_map]
        rfl
      rw [e]
      have hrows' : Listed F l2 rows := ⟨hl.trans hrows.here, hrows.banned, hrows.ok,
        hrows.countable⟩
      refine reads_conseq (reads_markWarm hrows') ?_
      intro l3 r h3 hr'
      refine ⟨fun _ s hs => ?_, hr'.2⟩
      obtain ⟨row, hr, rfl⟩ := hrows.banned s hs
      refine (hwrote row.scope ?_).mono h3
      rw [List.map_map]
      exact List.mem_map_of_mem hr
    · intro l2 e h2 h
      exact ⟨nofun, h.2⟩
  · intro l1 e h1 h
    exact ⟨nofun, (h.2 e rfl).only⟩

/-! ## asking Postgres -/

theorem reads_pg_getActive {scope : BlockScope} (hs : F.within → scope.encodable = true) :
    Meets (reads b F fun l' r =>
      (∀ e, r = .ok (some e) → e.scope = scope ∧ EntryOk F e ∧
        Shown st.redis (st.redis.key e.scope) l') ∧
      (r = .ok none → ¬ F.banned scope) ∧ ∀ e, r = .error e → Raised F e) l
      (Postgres.getActive scope) := by
  refine meets_bind (P := fun l' r => ∀ e, r = .error e → Raised F e)
    (reads_now fun now _ => nofun) ?_ ?_
  · intro l1 now h1 _
    refine meets_bind (P := fun l' r => (∀ o, r = .ok o → (F.banned scope → o.isSome = true) ∧
      ∀ row, o = some row → (row.scope = scope ∧ RowOk F row) ∧
        Shown st.redis (st.redis.key row.scope) l') ∧ ∀ e, r = .error e → Raised F e)
      (reads_wrap (fun ho => ⟨texts_encodable (hs ho), trivial⟩) trivial (fun _ h => h) ?_ ?_) ?_ ?_
    · intro o h
      refine ⟨fun o' e => ?_, nofun⟩
      cases e
      obtain ⟨hb, hr⟩ := h o rfl
      exact ⟨hb, fun row he => ⟨hr row he, _, List.mem_cons_self, row, he, rfl⟩⟩
    · intro x e he
      exact ⟨nofun, he.only⟩
    · intro l2 o h2 h
      obtain ⟨hb, hr⟩ := h.1 o rfl
      refine ⟨fun e he => ?_, fun he => ?_, nofun⟩
      · obtain ⟨row, hrow, rfl⟩ := Option.map_eq_some_iff.mp (Except.ok.inj he)
        obtain ⟨⟨hs, hrow'⟩, hsh⟩ := hr row hrow
        exact ⟨hs, hrow', hsh.mono (List.suffix_refl _)⟩
      · intro hban
        rw [Option.map_eq_none_iff.mp (Except.ok.inj he)] at hb
        cases hb hban
    · intro l2 e h2 h
      exact ⟨nofun, nofun, (h.2 e rfl).only⟩
  · intro l1 e h1 h
    exact ⟨nofun, nofun, (h e rfl).only⟩

theorem byKey_some {rows : List Row} {s : BlockScope} {r : Row}
    (h : Postgres.byKey rows s = some r) : r ∈ rows ∧ r.scope = s := by
  unfold Postgres.byKey at h
  exact ⟨List.mem_reverse.mp (List.mem_of_find?_eq_some h), by simpa using List.find?_some h⟩

theorem byKey_none {rows : List Row} {s : BlockScope} (h : Postgres.byKey rows s = none) :
    ∀ r ∈ rows, r.scope ≠ s := by
  intro r hr hs
  unfold Postgres.byKey at h
  have := List.find?_eq_none.mp h r (List.mem_reverse.mpr hr)
  simp [hs] at this

theorem reads_pg_firstActive {scopes : List BlockScope} (h0 : scopes ≠ [])
    (hs : F.within → ∀ s ∈ scopes, s.encodable = true) :
    Meets (reads b F fun l' r =>
      (∀ e, r = .ok (some e) → e.scope ∈ scopes ∧ EntryOk F e ∧
        Shown st.redis (st.redis.key e.scope) l') ∧
      (r = .ok none → ∀ s ∈ scopes, ¬ F.banned s) ∧ ∀ e, r = .error e → Raised F e) l
      (Postgres.firstActive scopes) := by
  unfold Postgres.firstActive
  rw [if_neg h0]
  refine meets_bind (P := fun l' r => ∀ e, r = .error e → Raised F e)
    (reads_now fun now _ => nofun) ?_ ?_
  · intro l1 now h1 _
    refine meets_bind (P := fun l' r => (∀ rows, r = .ok rows →
      (∀ s ∈ scopes, F.banned s → ∃ row ∈ rows, row.scope = s) ∧
      ∀ row ∈ rows, (row.scope ∈ scopes ∧ RowOk F row) ∧
        Shown st.redis (st.redis.key row.scope) l') ∧ ∀ e, r = .error e → Raised F e)
      (reads_wrap (fun ho => sendable_activeRows (hs ho)) trivial (fun _ h => h) ?_ ?_) ?_ ?_
    · intro rows h
      refine ⟨fun rows' e => ?_, nofun⟩
      cases e
      obtain ⟨hb, hr⟩ := h rows rfl
      exact ⟨hb, fun row he => ⟨hr row he, _, List.mem_cons_self, row, he, rfl⟩⟩
    · intro x e he
      exact ⟨nofun, he.only⟩
    · intro l2 rows h2 h
      obtain ⟨hb, hr⟩ := h.1 rows rfl
      refine ⟨fun e he => ?_, fun he s hs hban => ?_, nofun⟩
      · obtain ⟨row, hrow, rfl⟩ := Option.map_eq_some_iff.mp (Except.ok.inj he)
        obtain ⟨s, -, hs⟩ := List.exists_of_findSome?_eq_some hrow
        obtain ⟨⟨hs, hrow'⟩, hsh⟩ := hr row (byKey_some hs).1
        exact ⟨hs, hrow', hsh⟩
      · have hnone := Option.map_eq_none_iff.mp (Except.ok.inj he)
        obtain ⟨row, hrow, hrs⟩ := hb s hs hban
        exact byKey_none (List.findSome?_eq_none_iff.mp hnone s hs) row hrow hrs
    · intro l2 e h2 h
      exact ⟨nofun, nofun, (h.2 e rfl).only⟩
  · intro l1 e h1 h
    exact ⟨nofun, nofun, (h e rfl).only⟩

/-- the outcome of checking the scopes of `scopes` that `B` picks against Postgres -/
structure Verified (F : Facts st) (scopes : List BlockScope) (B : BlockScope → Prop)
    (l' : CallLog) (r : Except Exc (Option BlockEntry)) : Prop where
  sound : ∀ e, r = .ok (some e) → ∃ s ∈ scopes, F.mayRow s
  complete : r = .ok none → ∀ s ∈ scopes, B s → ¬ F.banned s
  raises : ∀ e, r = .error e → Raised F e

theorem Verified.of_raised {scopes : List BlockScope} {B : BlockScope → Prop} {l' : CallLog}
    {e : Exc} (h : Raised F e) : Verified F scopes B l' (.error e) :=
  ⟨nofun, nofun, h.only⟩

/-- a hit is cached and handed back -/
theorem reads_cached_hit {entry : BlockEntry} {scopes : List BlockScope} {B : BlockScope → Prop}
    (hm : EntryOk F entry) (hsh : Shown st.redis (st.redis.key entry.scope) l)
    (hs : entry.scope ∈ scopes) : Meets (reads b F (Verified F scopes B)) l
      (do st.cachePermanent b entry; return some entry) := by
  refine meets_bind (reads_cachePermanent hm hsh) ?_ ?_
  · intro l1 u h1 _
    exact ⟨fun _ _ => ⟨entry.scope, hs, hm.1⟩, nofun, nofun⟩
  · intro l1 e h1 h
    exact .of_raised (h.2 e rfl)

theorem reads_verifyMembers (members : List (Str × Str)) {scopes : List BlockScope}
    (hs : F.within → ∀ s ∈ scopes, s.encodable = true) :
    Meets (reads b F (Verified F scopes fun s => s.pair ∈ members)) l
      (st.verifyMembers b members scopes) := by
  induction scopes generalizing l with
  | nil => exact ⟨nofun, fun _ s hs => absurd hs List.not_mem_nil, nofun⟩
  | cons scope rest ih =>
    have hrest : ∀ {l' r}, (scope.pair ∈ members → ¬ F.banned scope) →
        Verified F rest (fun s => s.pair ∈ members) l' r →
        Verified F (scope :: rest) (fun s => s.pair ∈ members) l' r := by
      intro l' r hn h
      refine ⟨fun e he => ?_, fun he s hs hp => ?_, h.raises⟩
      · obtain ⟨s, hs, hm⟩ := h.sound e he
        exact ⟨s, List.mem_cons_of_mem _ hs, hm⟩
      · rcases List.mem_cons.mp hs with rfl | hs
        · exact hn hp
        · exact h.complete he s hs hp
    have hrest' : F.within → ∀ s ∈ rest, s.encodable = true :=
      fun ho s hm => hs ho s (List.mem_cons_of_mem _ hm)
    unfold TieredBlockStore.verifyMembers
    by_cases hp : scope.pair ∈ members
    · rw [if_pos hp]
      refine meets_bind (reads_pg_getActive fun ho => hs ho scope List.mem_cons_self) ?_ ?_
      · intro l1 o h1 h
        cases o with
        | some entry =>
          obtain ⟨rfl, hm, hsh⟩ := h.1 entry rfl
          exact reads_cached_hit hm hsh List.mem_cons_self
        | none =>
          refine reads_conseq (ih hrest') fun l' r _ hr => hrest (fun _ => h.2.1 rfl) hr
      · intro l1 e h1 h
        exact .of_raised (h.2.2 e rfl)
    · rw [if_neg hp]
      exact reads_conseq (ih hrest') fun l' r _ hr => hrest (fun h => absurd h hp) hr

theorem reads_verifyTypes {types : Option Json} {allowed : List Json}
    (ht : toSet b types = .ok allowed) {scopes : List BlockScope}
    (hs : F.within → ∀ s ∈ scopes, s.encodable = true) :
    Meets (reads b F
      (Verified F scopes fun s => inSet s.scopeType allowed = true)) l
      (st.verifyTypes b types scopes) := by
  refine meets_bind (P := fun l' r => r = .ok allowed) (reads_ofExcept ht) ?_ ?_
  · intro l1 allowed' h1 he
    obtain rfl := Except.ok.inj he
    by_cases hc : scopes.filter (fun s => inSet s.scopeType allowed') = []
    · rw [if_pos hc]
      refine ⟨nofun, fun _ s hs hin => ?_, nofun⟩
      have := List.filter_eq_nil_iff.mp hc s hs
      exact absurd hin this
    · rw [if_neg hc]
      refine meets_bind (reads_pg_firstActive hc fun ho s hm =>
        hs ho s (List.mem_filter.mp hm).1) ?_ ?_
      · intro l2 o h2 h
        cases o with
        | some entry =>
          obtain ⟨hs, hm, hsh⟩ := h.1 entry rfl
          exact reads_cached_hit hm hsh (List.mem_filter.mp hs).1
        | none =>
          refine ⟨nofun, fun _ s hs hin => ?_, nofun⟩
          exact h.2.1 rfl s (List.mem_filter.mpr ⟨hs, hin⟩)
      · intro l2 e h2 h
        exact .of_raised (h.2.2 e rfl)
  · intro l1 e h1 he
    cases he

/-! ## the two reads -/

/-- the outcome of `_answer_warm_miss` -/
structure MissAnswers (F : Facts st) (scopes : List BlockScope) (l' : CallLog)
    (r : Except Exc (Option BlockEntry)) : Prop where
  sound : ∀ e, r = .ok (some e) → ∃ s ∈ scopes, F.mayHit (st.redis.key s)
  complete : r = .ok none → ∀ s ∈ scopes, ¬ F.banned s
  raises : ∀ e, r = .error e → Raised F e

theorem Verified.missAnswers {scopes : List BlockScope} {B : BlockScope → Prop} {l' : CallLog}
    {r : Except Exc (Option BlockEntry)} (h : Verified F scopes B l' r)
    (hB : ∀ s, F.banned s → B s) : MissAnswers F scopes l' r := by
  refine ⟨fun e he => ?_, fun he s hs hban => h.complete he s hs (hB s hban) hban, h.raises⟩
  obtain ⟨s, hs, hm⟩ := h.sound e he
  exact ⟨s, hs, F.mayHit_of_row s hm⟩

theorem reads_answerWarmMiss {scopes : List BlockScope}
    (hs : F.within → ∀ s ∈ scopes, s.encodable = true) :
    Meets (reads b F (MissAnswers F scopes)) l
      (st.answerWarmMiss b scopes) := by
  refine meets_bind reads_readWarm ?_ ?_
  · intro l1 warm h1 h
    cases warm with
    | none =>
      refine meets_bind reads_rewarm ?_ ?_
      · intro l2 u h2 hw
        refine reads_conseq (reads_redis_firstActive hs) ?_
        intro l3 r h3 hr
        refine ⟨hr.hit, fun he s hs hban => ?_, hr.raises⟩
        exact (hr.miss he s hs).2 ⟨F.banned_stays s hban, hw.1 rfl s hban⟩
      · intro l2 e h2 hw
        exact ⟨nofun, nofun, (hw.2 e rfl).only⟩
    | some data =>
      rcases h.1 data rfl with ⟨ms, ⟨v, hv, hms⟩, hc⟩ | ⟨allowed, ⟨hno, htr, hty⟩, hc⟩
      · dsimp only
        rw [hv]
        refine meets_bind (P := fun l' r => r = .ok ms) (reads_ofExcept hms) ?_ ?_
        · intro l2 ms' h2 he
          obtain rfl := Except.ok.inj he
          exact reads_conseq (reads_verifyMembers ms' hs) fun l' r _ hr => hr.missAnswers hc
        · intro l2 e h2 he
          cases he
      · dsimp only
        rw [hno]
        dsimp only
        rw [if_pos htr]
        exact reads_conseq (reads_verifyTypes hty hs) fun l' r _ hr => hr.missAnswers hc
  · intro l1 e h1 h
    exact ⟨nofun, nofun, (h.2 e rfl).only⟩

/-- a hit in Redis answers; a miss is answered by the sentinel -/
theorem answers_of_lookup {scopes : List BlockScope} {l1 l' : CallLog}
    {r : Except Exc (Option BlockEntry)} (h1 : Lookup F scopes l l1 (.ok none))
    (h : MissAnswers F scopes l' r) : Answers F scopes l' r :=
  ⟨h.sound, fun he s hs => ⟨h.complete he s hs, (h1.miss rfl s hs).1⟩, h.raises⟩

theorem Lookup.answers {scopes : List BlockScope} {l1 l' : CallLog} {e : BlockEntry}
    (h : Lookup F scopes l l1 (.ok (some e))) : Answers F scopes l' (.ok (some e)) :=
  ⟨fun _ _ => h.hit e rfl, nofun, nofun⟩

/-- **`first_active` keeps to the contract** -/
theorem reads_firstActive (hpg : st.pg = true) {scopes : List BlockScope}
    (hs : F.within → ∀ s ∈ scopes, s.encodable = true) :
    Meets (reads b F (Answers F scopes)) l (st.firstActive b scopes) := by
  refine meets_bind (reads_redis_firstActive hs) ?_ ?_
  · intro l1 hit h1 h
    cases hit with
    | some entry => exact h.answers
    | none =>
      show Meets _ _ (if st.pg = false ∨ scopes = [] then _ else _)
      by_cases h0 : scopes = []
      · rw [if_pos (.inr h0)]
        refine ⟨nofun, fun _ s hs => ?_, nofun⟩
        rw [h0] at hs
        cases hs
      · rw [if_neg (by simp [hpg, h0])]
        exact reads_conseq (reads_answerWarmMiss hs) fun l' r _ hr => answers_of_lookup h hr
  · intro l1 e h1 h
    exact ⟨nofun, nofun, (h.raises e rfl).only⟩

/-- **`get_active` keeps to the contract** -/
theorem reads_getActive (hpg : st.pg = true) {scope : BlockScope}
    (hs : F.within → scope.encodable = true) :
    Meets (reads b F (Answers F [scope])) l (st.getActive b scope) := by
  refine meets_bind (reads_redis_getActive hs) ?_ ?_
  · intro l1 hit h1 h
    cases hit with
    | some entry => exact h.answers
    | none =>
      show Meets _ _ (if st.pg = true then _ else _)
      rw [if_pos hpg]
      exact reads_conseq (reads_answerWarmMiss fun ho s hm => by
        rw [List.mem_singleton.mp hm]
        exact hs ho) fun l' r _ hr => answers_of_lookup h hr
  · intro l1 e h1 h
    exact ⟨nofun, nofun, (h.raises e rfl).only⟩

end

end SecAudit
