import SecAudit.Stores.Blocks
import SecAudit.Data.Expiring
import SecAudit.Prog.Pool

/-!
# The two backends: Redis and the table of permanent blocks

* `Row`, `Table`    a `PermanentBlock` row, and the table: at most one unrevoked row a scope (the
                    partial unique constraint);
* `World`           clock, Redis, table, and which of the coming backend calls fail;
* `Cmd`, `backend`  the commands the stores issue, one atomic step each, and their effect.

Redis keeps every key with an expiry: the stores set no other.  A command fails before it is
sent when a text in it has no UTF-8 form, or a number too many digits.
-/

set_option linter.unusedVariables false

namespace SecAudit
open Py Prog

/-! ## the table -/

structure Row where
  scope : BlockScope
  args : BlockArgs
  createdAt : Int
  expiresAt : Option Int
  revokedAt : Option Int
  revokedBy : Str
  revokedReason : Str

def Row.unrevoked (r : Row) : Bool := r.revokedAt.isNone

/-- a row of `_active_qs()` at `now` -/
def Row.activeAt (now : Int) (r : Row) : Bool :=
  r.unrevoked && match r.expiresAt with
    | some e => decide (now < e)
    | none => true

/-- an unrevoked row of `scope` -/
def Row.blocks (scope : BlockScope) (r : Row) : Bool := decide (r.scope = scope) && r.unrevoked

def scopesOf (rows : List Row) : List BlockScope := (rows.filter Row.unrevoked).map Row.scope

structure Table where
  rows : List Row
  unique : (scopesOf rows).Nodup

namespace Table

def empty : Table := ⟨[], List.nodup_nil⟩

def active (t : Table) (now : Int) : List Row := t.rows.filter (Row.activeAt now)

/-- the row with the `defaults` of `update_or_create` -/
def updated (a : BlockArgs) (expiresAt : Option Int) (r : Row) : Row :=
  { r with args := a, expiresAt := expiresAt }

def created (scope : BlockScope) (a : BlockArgs) (expiresAt : Option Int) (now : Int) : Row :=
  ⟨scope, a, now, expiresAt, none, [], []⟩

theorem mem_scopesOf {rows : List Row} {s : BlockScope} :
    s ∈ scopesOf rows ↔ ∃ r ∈ rows, r.unrevoked = true ∧ r.scope = s := by
  unfold scopesOf
  simp only [List.mem_map, List.mem_filter, and_assoc]

/-- rows that keep their scope and whether they are revoked -/
theorem scopesOf_map {f : Row → Row} (hs : ∀ r, (f r).scope = r.scope)
    (hr : ∀ r, (f r).unrevoked = r.unrevoked) (rows : List Row) :
    scopesOf (rows.map f) = scopesOf rows := by
  unfold scopesOf
  rw [List.filter_map, List.map_map]
  have e : (fun r => Row.unrevoked (f r)) = Row.unrevoked := funext hr
  show ((rows.filter (fun r => Row.unrevoked (f r))).map (fun r => (f r).scope)) = _
  rw [e, show (fun r => (f r).scope) = Row.scope from funext hs]

/-- rows that keep their scope and may become revoked -/
theorem scopesOf_map_sublist {f : Row → Row} (hs : ∀ r, (f r).scope = r.scope)
    (hr : ∀ r, (f r).unrevoked = true → r.unrevoked = true) (rows : List Row) :
    (scopesOf (rows.map f)).Sublist (scopesOf rows) := by
  unfold scopesOf
  rw [List.filter_map, List.map_map]
  show ((rows.filter (fun r => Row.unrevoked (f r))).map (fun r => (f r).scope)).Sublist _
  rw [show (fun r => (f r).scope) = Row.scope from funext hs]
  refine List.Sublist.map _ (List.monotone_filter_right rows ?_)
  intro r h
  exact hr r h

theorem scopesOf_append (rows rows' : List Row) :
    scopesOf (rows ++ rows') = scopesOf rows ++ scopesOf rows' := by
  unfold scopesOf
  rw [List.filter_append, List.map_append]

/-- `update_or_create(scope_type, scope_value, revoked_at__isnull=True, defaults=…)` -/
def upsert (t : Table) (scope : BlockScope) (a : BlockArgs) (expiresAt : Option Int)
    (now : Int) : Row × Table :=
  match h : t.rows.find? (Row.blocks scope) with
  | some r => (updated a expiresAt r,
    { rows := t.rows.map fun r => if r.blocks scope then updated a expiresAt r else r
      unique := by
        rw [scopesOf_map]
        · exact t.unique
        · intro r
          split <;> rfl
        · intro r
          split <;> rfl })
  | none => (created scope a expiresAt now,
    { rows := t.rows ++ [created scope a expiresAt now]
      unique := by
        rw [scopesOf_append, List.nodup_append]
        refine ⟨t.unique, List.pairwise_singleton _ _, ?_⟩
        rintro s hs s' hs' rfl
        obtain rfl : s = scope := List.mem_singleton.mp hs'
        obtain ⟨r, hr, hu, rfl⟩ := mem_scopesOf.mp hs
        have := List.find?_eq_none.mp h r hr
        simp [Row.blocks, hu] at this })

/-- `filter(scope, revoked_at__isnull=True).update(revoked_at=…, …)`, with the row count -/
def revoke (t : Table) (scope : BlockScope) (reason revokedBy : Str) (now : Int) : Int × Table :=
  ((t.rows.filter (Row.blocks scope)).length,
    { rows := t.rows.map fun r =>
        if r.blocks scope then
          { r with revokedAt := some now, revokedReason := reason, revokedBy := revokedBy }
        else r
      unique := by
        refine List.Nodup.sublist (scopesOf_map_sublist ?_ ?_ t.rows) t.unique
        · intro r
          split <;> rfl
        · intro r h
          split at h
          · cases h
          · exact h })

end Table

theorem upsert_scope (t : Table) (s : BlockScope) (a : BlockArgs) (e : Option Int) (now : Int) :
    (t.upsert s a e now).1.scope = s := by
  unfold Table.upsert
  split
  · rename_i r h
    have := List.find?_some h
    unfold Row.blocks at this
    rw [Bool.and_eq_true, decide_eq_true_eq] at this
    exact this.1
  · rfl

theorem upsert_args (t : Table) (s : BlockScope) (a : BlockArgs) (e : Option Int) (now : Int) :
    (t.upsert s a e now).1.args = a := by
  unfold Table.upsert
  split <;> rfl

namespace Table

theorem blocks_iff {s : BlockScope} {r : Row} :
    r.blocks s = true ↔ r.scope = s ∧ r.unrevoked = true := by
  unfold Row.blocks
  rw [Bool.and_eq_true, decide_eq_true_eq]

/-- a row of the table after `upsert`: an old one, perhaps updated, or the new one -/
theorem mem_upsert {t : Table} {s : BlockScope} {a : BlockArgs} {e : Option Int} {now : Int}
    {r : Row} (h : r ∈ (t.upsert s a e now).2.rows) :
    r ∈ t.rows ∨ (r.scope = s ∧ r.expiresAt = e ∧ r.args = a) := by
  unfold upsert at h
  split at h
  · obtain ⟨r', hr', rfl⟩ := List.mem_map.mp h
    split
    · rename_i hb
      exact .inr ⟨(blocks_iff.mp hb).1, rfl, rfl⟩
    · exact .inl hr'
  · rcases List.mem_append.mp h with h | h
    · exact .inl h
    · rw [List.mem_singleton.mp h]
      exact .inr ⟨rfl, rfl, rfl⟩

theorem mem_scopesOf_upsert {t : Table} {s s' : BlockScope} {a : BlockArgs} {e : Option Int}
    {now : Int} :
    s' ∈ scopesOf (t.upsert s a e now).2.rows ↔ s' = s ∨ s' ∈ scopesOf t.rows := by
  unfold upsert
  split
  · rename_i r h
    have hs : s ∈ scopesOf t.rows := by
      obtain ⟨h1, h2⟩ := blocks_iff.mp (List.find?_some h)
      exact mem_scopesOf.mpr ⟨r, List.mem_of_find?_eq_some h, h2, h1⟩
    show s' ∈ scopesOf (t.rows.map _) ↔ _
    rw [scopesOf_map]
    · exact ⟨.inr, fun h' => h'.elim (fun e => e ▸ hs) id⟩
    · intro r
      split <;> rfl
    · intro r
      split <;> rfl
  · show s' ∈ scopesOf (t.rows ++ [_]) ↔ _
    rw [scopesOf_append, List.mem_append, or_comm]
    have : s' ∈ scopesOf [created s a e now] ↔ s' = s := List.mem_singleton
    rw [this]

theorem mem_revoke {t : Table} {s : BlockScope} {reason revokedBy : Str} {now : Int} {r : Row}
    (h : r ∈ (t.revoke s reason revokedBy now).2.rows) :
    ∃ r' ∈ t.rows, r.scope = r'.scope ∧ r.expiresAt = r'.expiresAt := by
  obtain ⟨r', hr', rfl⟩ := List.mem_map.mp h
  refine ⟨r', hr', ?_, ?_⟩ <;> split <;> rfl

theorem mem_scopesOf_revoke {t : Table} {s s' : BlockScope} {reason revokedBy : Str} {now : Int} :
    s' ∈ scopesOf (t.revoke s reason revokedBy now).2.rows ↔ s' ≠ s ∧ s' ∈ scopesOf t.rows := by
  rw [mem_scopesOf, mem_scopesOf]
  constructor
  · rintro ⟨r, hr, hu, rfl⟩
    obtain ⟨r', hr', rfl⟩ := List.mem_map.mp hr
    by_cases hb : r'.blocks s = true
    · rw [if_pos hb] at hu
      cases hu
    · rw [if_neg hb] at hu ⊢
      exact ⟨fun e => hb (blocks_iff.mpr ⟨e, hu⟩), r', hr', hu, rfl⟩
  · rintro ⟨hne, r, hr, hu, rfl⟩
    refine ⟨r, List.mem_map.mpr ⟨r, hr, if_neg ?_⟩, hu, rfl⟩
    exact fun hb => hne (blocks_iff.mp hb).1

/-- no row has an end -/
def Permanent (t : Table) : Prop := ∀ r ∈ t.rows, r.expiresAt = none

theorem Permanent.upsert {t : Table} (h : t.Permanent) (s : BlockScope) (a : BlockArgs)
    (now : Int) : (t.upsert s a none now).2.Permanent := by
  intro r hr
  rcases mem_upsert hr with hr | ⟨-, he, -⟩
  · exact h r hr
  · exact he

theorem Permanent.revoke {t : Table} (h : t.Permanent) (s : BlockScope) (reason revokedBy : Str)
    (now : Int) : (t.revoke s reason revokedBy now).2.Permanent := by
  intro r hr
  obtain ⟨r', hr', -, he⟩ := mem_revoke hr
  rw [he]
  exact h r' hr'

theorem mem_active {t : Table} (h : t.Permanent) {now : Int} {r : Row} :
    r ∈ t.active now ↔ r ∈ t.rows ∧ r.unrevoked = true := by
  unfold active
  rw [List.mem_filter]
  constructor
  · rintro ⟨hr, ha⟩
    unfold Row.activeAt at ha
    rw [Bool.and_eq_true] at ha
    exact ⟨hr, ha.1⟩
  · rintro ⟨hr, hu⟩
    refine ⟨hr, ?_⟩
    unfold Row.activeAt
    rw [h r hr, hu]
    rfl

/-- the scopes with an unrevoked row are those with an active one -/
theorem mem_scopesOf_active {t : Table} (h : t.Permanent) {now : Int} {s : BlockScope} :
    s ∈ scopesOf t.rows ↔ ∃ r ∈ t.active now, r.scope = s := by
  rw [mem_scopesOf]
  constructor
  · rintro ⟨r, hr, hu, rfl⟩
    exact ⟨r, (mem_active h).mpr ⟨hr, hu⟩, rfl⟩
  · rintro ⟨r, hr, rfl⟩
    exact ⟨r, ((mem_active h).mp hr).1, ((mem_active h).mp hr).2, rfl⟩

end Table

/-! ## commands -/

def BlockScope.texts (s : BlockScope) : List Str := [s.scopeType, s.scopeValue]

def BlockArgs.texts (a : BlockArgs) : List Str := [a.reason, a.ruleName, a.message]

inductive Cmd : Type → Type where
  /-- `now_utc()`, `timezone.now()` -/
  | now : Cmd Int
  | get (key : Str) : Cmd (Option Str)
  | mget (keys : List Str) : Cmd (List (Option Str))
  /-- `set(key, value, ex=ex)`, `ex` in seconds -/
  | set (key value : Str) (ex : Int) : Cmd Unit
  | delete (key : Str) : Cmd Int
  /-- `scan_iter(match=pre + '*')` -/
  | scan (pre : Str) : Cmd (List Str)
  | updateOrCreate (scope : BlockScope) (a : BlockArgs) (expiresAt : Option Int) (now : Int) :
    Cmd Row
  | revoke (scope : BlockScope) (reason revokedBy : Str) (now : Int) : Cmd Int
  | activeRow (scope : BlockScope) (now : Int) : Cmd (Option Row)
  | activeRows (scopes : List BlockScope) (now : Int) : Cmd (List Row)
  | allActive (now : Int) : Cmd (List Row)

/-- the texts in a command -/
def Cmd.texts : {β : Type} → Cmd β → List Str
  | _, .now => []
  | _, .get k => [k]
  | _, .mget ks => ks
  | _, .set k v _ => [k, v]
  | _, .delete k => [k]
  | _, .scan pre => [pre]
  | _, .updateOrCreate s a _ _ => s.texts ++ a.texts
  | _, .revoke s reason revokedBy _ => s.texts ++ [reason, revokedBy]
  | _, .activeRow s _ => s.texts
  | _, .activeRows ss _ => ss.flatMap BlockScope.texts
  | _, .allActive _ => []

/-- a backend that is up carries the command out -/
def Cmd.Sendable {β : Type} (c : Cmd β) : Prop :=
  c.texts.all encodable = true ∧ match c with
    | .set _ _ ex => 0 < ex
    | .updateOrCreate _ a _ _ => a.writable = true
    | _ => True

/-- the key a command sets -/
def Cmd.setKey : {β : Type} → Cmd β → Option Str
  | _, .set k _ _ => some k
  | _, _ => none

/-- how a backend call fails -/
inductive Fault where
  | down
  | integrity
deriving DecidableEq

/-- the exception Django raises -/
def Fault.databaseExc : Fault → Exc
  | .down => .databaseError
  | .integrity => .integrityError

/-- times are in milliseconds; the call that takes `some f` from the front of `faults` fails -/
structure World where
  now : Int
  redis : ExpMap Str Str
  table : Table
  faults : List (Option Fault)

namespace World

/-- both backends empty, no failure to come -/
def empty (now : Int) : World := ⟨now, [], .empty, []⟩

/-- the value of a Redis key -/
def read (w : World) (key : Str) : Option Str := w.redis.get w.now key

/-- how the next backend call fails, if it does -/
def fault (w : World) : Option Fault := w.faults.head?.join

/-- the world once the next backend call has been sent -/
def sent (w : World) : World := { w with faults := w.faults.tail }

/-- a call with `texts` in it, to a backend that fails with `exc` -/
def send {β : Type} (w : World) (texts : List Str) (exc : Fault → Exc)
    (run : World → Except Exc β × World) : Except Exc β × World :=
  if texts.all encodable then
    match w.fault with
    | some f => (.error (exc f), w.sent)
    | none => run w.sent
  else (.error .unicodeError, w)

def sendRedis {β : Type} (w : World) (texts : List Str)
    (run : World → Except Exc β × World) : Except Exc β × World :=
  w.send texts (fun _ => .redisError) run

def sendTable {β : Type} (w : World) (texts : List Str)
    (run : World → Except Exc β × World) : Except Exc β × World :=
  w.send texts Fault.databaseExc run

end World

def seconds (n : Int) : Int := n * 1000

def backend : Handler Cmd Exc World
  | _, .now, w => (.ok w.now, w)
  | _, .get k, w => w.sendRedis [k] fun w => (.ok (w.read k), w)
  | _, .mget ks, w => w.sendRedis ks fun w => (.ok (ks.map w.read), w)
  | _, .set k v ex, w => w.sendRedis [k, v] fun w =>
    if 0 < ex then (.ok (), { w with redis := w.redis.put k v (w.now + seconds ex) })
    else (.error .redisError, w)
  | _, .delete k, w => w.sendRedis [k] fun w =>
    (.ok (if (w.read k).isSome then 1 else 0), { w with redis := w.redis.drop k })
  | _, .scan pre, w => w.sendRedis [pre] fun w =>
    (.ok ((w.redis.liveKeys w.now).filter pre.isPrefixOf), w)
  | _, .updateOrCreate s a e t, w =>
    if a.writable then w.sendTable (s.texts ++ a.texts) fun w =>
      (.ok (w.table.upsert s a e t).1, { w with table := (w.table.upsert s a e t).2 })
    else (.error .jsonError, w)
  | _, .revoke s reason revokedBy t, w => w.sendTable (s.texts ++ [reason, revokedBy]) fun w =>
    (.ok (w.table.revoke s reason revokedBy t).1,
      { w with table := (w.table.revoke s reason revokedBy t).2 })
  | _, .activeRow s t, w => w.sendTable s.texts fun w =>
    (.ok ((w.table.active t).find? fun r => decide (r.scope = s)), w)
  | _, .activeRows ss t, w => w.sendTable (ss.flatMap BlockScope.texts) fun w =>
    (.ok ((w.table.active t).filter fun r => decide (r.scope ∈ ss)), w)
  | _, .allActive t, w => w.sendTable [] fun w => (.ok (w.table.active t), w)

end SecAudit
