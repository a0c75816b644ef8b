import SecAudit.Data.Addressed
import SecAudit.Prog.Only
import SecAudit.Stores.Memory

/-!
# Two scopes in one block store

`MemoryBlockStore` and `RedisBlockStore` write the entry of a scope under one text, its type and
its value with a colon between.

* `Step.On`         the calls and the time that concern only the scopes of a set;
* `MemoryApart`, `RedisApart`  what is done to `s` leaves the reads of `s'` alone, and no read of
                    either returns an entry of another scope;
* `memory_apart`, `redis_apart`  both hold of two scopes whose texts differ.
-/

set_option linter.unusedVariables false
set_option linter.unusedSectionVars false

namespace SecAudit
open Py Prog

/-- a call that names only scopes of `S`, or time that passes -/
def Step.On (S : Set BlockScope) : Step → Prop
  | .call o => ∀ s ∈ o.scopes, s ∈ S
  | .env (.advance _) => True
  | .env (.evict _) => False

/-- the entry is one of the scope -/
def BlockEntry.Of (s : BlockScope) (e : BlockEntry) : Prop := e.scope = s

/-- of two scopes with keys of their own, those with the same key are the same -/
theorem pair_eq_of_ne {key : BlockScope → Str} {s s' x y : BlockScope} (h : key s ≠ key s')
    (hy : y ∈ ({s, s'} : Set BlockScope)) (hx : x ∈ ({s, s'} : Set BlockScope))
    (hyx : key y = key x) : y = x := by
  rcases hy with rfl | rfl <;> rcases hx with rfl | rfl
  · rfl
  · exact absurd hyx h
  · exact absurd hyx.symm h
  · rfl

/-! ## in memory -/

namespace MemoryBlockStore

/-- a call that raises leaves the store as it is -/
def stepOrStay (m : MemoryBlockStore) (x : Step) : MemoryBlockStore := (m.step x).getD m

def after (m : MemoryBlockStore) (xs : List Step) : MemoryBlockStore := xs.foldl stepOrStay m

/-- the store when nothing is done until `t` -/
def idle (m : MemoryBlockStore) (t : Int) : MemoryBlockStore := { m with now := t }

/-- the entries under each key -/
def held (m : MemoryBlockStore) (k : Str) : Set BlockEntry := {e | m.blocks.get k = some e}

section
variable {S : Set BlockScope} {m m' : MemoryBlockStore} {s s' : BlockScope}

theorem held_put (s : BlockScope) (e : BlockEntry) :
    (m.put s e).held = Function.update m.held (memoryKey s) {e} := by
  funext k
  rw [Function.update_apply]
  show {e' | (m.blocks.set (memoryKey s) e).get k = some e'} = _
  rw [Dict.get_set]
  split
  · ext e'
    exact ⟨fun h => (Option.some.inj h).symm, fun h => congrArg some (Eq.symm h)⟩
  · rfl

theorem held_pop (s : BlockScope) :
    (m.pop s).held = Function.update m.held (memoryKey s) ∅ := by
  funext k
  rw [Function.update_apply]
  show {e' | (m.blocks.pop (memoryKey s)).get k = some e'} = _
  rw [Dict.get_pop]
  split
  · ext e'
    exact ⟨fun h => (by cases h), False.elim⟩
  · rfl

theorem confined_put (hs : s ∈ S) {e : BlockEntry} (he : e.scope = s) :
    Confined memoryKey BlockEntry.Of S m.held (m.put s e).held := by
  rw [held_put]
  exact .write hs fun v hv => .inr (hv ▸ he)

theorem confined_pop (hs : s ∈ S) : Confined memoryKey BlockEntry.Of S m.held (m.pop s).held := by
  rw [held_pop]
  exact .write hs fun v hv => absurd hv (Set.notMem_empty v)

theorem confined_getActive (hs : s ∈ S) :
    Confined memoryKey BlockEntry.Of S m.held (m.getActive s).2.held := by
  unfold getActive
  cases m.entry s with
  | none => exact .refl _
  | some e =>
    dsimp only
    split
    · exact confined_pop hs
    · exact .refl _

theorem confined_firstActive : ∀ {ss : List BlockScope} {m : MemoryBlockStore}, (∀ s ∈ ss, s ∈ S) →
    Confined memoryKey BlockEntry.Of S m.held (firstActive ss m).2.held
  | [], m, _ => .refl _
  | s :: ss, m, h => by
    have hs := confined_getActive (m := m) (h s List.mem_cons_self)
    unfold firstActive
    rcases hg : m.getActive s with ⟨o, m'⟩
    rw [hg] at hs
    cases o with
    | some e => exact hs
    | none => exact hs.trans (confined_firstActive fun x hx => h x (List.mem_cons_of_mem _ hx))

/-- **a step writes under the keys of the scopes it names**, and entries of theirs -/
theorem confined_step {x : Step} (hx : x.On S) :
    Confined memoryKey BlockEntry.Of S m.held (m.stepOrStay x).held := by
  unfold stepOrStay
  cases x with
  | env v =>
    cases v with
    | advance d => exact .refl _
    | evict q => exact .refl _
  | call o =>
    cases o with
    | block s a ttl =>
      have hs : s ∈ S := hx s List.mem_cons_self
      unfold step
      dsimp only
      cases hb : m.block s a ttl with
      | error e => exact .refl _
      | ok r =>
        obtain ⟨expiresAt, -, h⟩ := ok_of_bind hb
        obtain rfl := Except.ok.inj h
        exact confined_put hs rfl
    | unblock s reason revokedBy => exact confined_pop (hx s List.mem_cons_self)
    | getActive s => exact confined_getActive (hx s List.mem_cons_self)
    | firstActive ss => exact confined_firstActive hx

theorem confined_after (m : MemoryBlockStore) {xs : List Step} (h : ∀ x ∈ xs, x.On S) :
    Confined memoryKey BlockEntry.Of S m.held (m.after xs).held :=
  Confined.foldl (fun m x hx => confined_step hx) xs m h

/-! ### what the reads see -/

/-- the read of a scope looks at its key and at the clock -/
theorem getActive_congr (ht : m.now = m'.now) (he : m.entry s = m'.entry s) :
    (m.getActive s).1 = (m'.getActive s).1 ∧
      (m.getActive s).2.entry s = (m'.getActive s).2.entry s := by
  unfold getActive
  rw [he, ht]
  cases hm : m'.entry s with
  | none => exact ⟨rfl, he⟩
  | some e =>
    dsimp only
    split
    · refine ⟨rfl, ?_⟩
      show (m.blocks.pop _).get _ = (m'.blocks.pop _).get _
      rw [Dict.get_pop, Dict.get_pop, if_pos rfl, if_pos rfl]
    · exact ⟨rfl, he⟩

theorem firstActive_congr {ss : List BlockScope} (hss : ∀ x ∈ ss, x = s) (ht : m.now = m'.now)
    (he : m.entry s = m'.entry s) : (firstActive ss m).1 = (firstActive ss m').1 := by
  induction ss generalizing m m' with
  | nil => rfl
  | cons x ss ih =>
    obtain rfl := hss x List.mem_cons_self
    obtain ⟨hr, he'⟩ := getActive_congr ht he
    have ht' : (m.getActive x).2.now = (m'.getActive x).2.now := by
      rw [now_getActive, now_getActive, ht]
    unfold firstActive
    rcases hg : m.getActive x with ⟨o, m1⟩
    rcases hg' : m'.getActive x with ⟨o', m1'⟩
    rw [hg, hg'] at hr he' ht'
    obtain rfl : o = o' := hr
    cases o with
    | some e => rfl
    | none => exact ih (fun y hy => hss y (List.mem_cons_of_mem _ hy)) ht' he'

/-- what a read returns is under the key of its scope -/
theorem mem_held_of_getActive {e : BlockEntry} (h : (m.getActive s).1 = some e) :
    e ∈ m.held (memoryKey s) := by
  unfold getActive at h
  cases he : m.entry s with
  | none =>
    rw [he] at h
    cases h
  | some e' =>
    rw [he] at h
    dsimp only at h
    split at h
    · cases h
    · obtain rfl := Option.some.inj h
      exact he

/-- a read only removes -/
theorem held_getActive_subset (m : MemoryBlockStore) (s : BlockScope) (k : Str) :
    (m.getActive s).2.held k ⊆ m.held k := by
  unfold getActive
  cases m.entry s with
  | none => exact fun _ h => h
  | some e =>
    dsimp only
    split
    · rw [held_pop, Function.update_apply]
      split
      · exact Set.empty_subset _
      · exact fun _ h => h
    · exact fun _ h => h

theorem mem_held_of_firstActive {ss : List BlockScope} {e : BlockEntry}
    (h : (firstActive ss m).1 = some e) : ∃ s ∈ ss, e ∈ m.held (memoryKey s) := by
  induction ss generalizing m with
  | nil => cases h
  | cons s ss ih =>
    have hsub := held_getActive_subset m s
    unfold firstActive at h
    rcases hg : m.getActive s with ⟨o, m'⟩
    rw [hg] at h hsub
    cases o with
    | some e' =>
      obtain rfl := Option.some.inj h
      exact ⟨s, List.mem_cons_self, mem_held_of_getActive (by rw [hg])⟩
    | none =>
      obtain ⟨x, hx, he⟩ := ih h
      exact ⟨x, List.mem_cons_of_mem _ hx, hsub _ he⟩

end

end MemoryBlockStore

/-- what is done to `s` leaves the reads of `s'` alone, and a read of either returns no entry of
another scope -/
structure MemoryApart (s s' : BlockScope) : Prop where
  unchanged : ∀ (m : MemoryBlockStore) (xs : List Step), (∀ x ∈ xs, x.On {s}) →
    ((m.after xs).getActive s').1 = ((m.idle (m.after xs).now).getActive s').1 ∧
    ∀ ss : List BlockScope, (∀ x ∈ ss, x = s') →
      (MemoryBlockStore.firstActive ss (m.after xs)).1
        = (MemoryBlockStore.firstActive ss (m.idle (m.after xs).now)).1
  returned : ∀ (t : Int) (xs : List Step), (∀ x ∈ xs, x.On {s, s'}) →
    (∀ x ∈ ({s, s'} : Set BlockScope), ∀ e,
      (((MemoryBlockStore.empty t).after xs).getActive x).1 = some e → e.scope = x) ∧
    ∀ ss : List BlockScope, (∀ x ∈ ss, x ∈ ({s, s'} : Set BlockScope)) → ∀ e,
      (MemoryBlockStore.firstActive ss ((MemoryBlockStore.empty t).after xs)).1 = some e →
      e.scope ∈ ss

section
variable {s s' : BlockScope}

theorem memory_apart (h : memoryKey s ≠ memoryKey s') : MemoryApart s s' where
  unchanged := by
    intro m xs hxs
    have hk : (m.after xs).held (memoryKey s') = m.held (memoryKey s') :=
      (MemoryBlockStore.confined_after m hxs).frame fun x hx => by
        rw [Set.mem_singleton_iff.mp hx]
        exact h
    have ht : (m.after xs).now = (m.idle (m.after xs).now).now := rfl
    have he : (m.after xs).entry s' = (m.idle (m.after xs).now).entry s' :=
      Option.ext fun e => Set.ext_iff.mp hk e
    exact ⟨(MemoryBlockStore.getActive_congr ht he).1,
      fun ss hss => MemoryBlockStore.firstActive_congr hss ht he⟩
  returned := by
    intro t xs hxs
    -- the two keys differ: an entry under one of them is of its scope
    have hown : ∀ x ∈ ({s, s'} : Set BlockScope), ∀ e,
        e ∈ ((MemoryBlockStore.empty t).after xs).held (memoryKey x) → e.scope = x := by
      intro x hx e he
      refine ((MemoryBlockStore.confined_after _ hxs).gained.own_of_empty ?_ ?_ he).2
      · exact Set.eq_empty_of_forall_notMem fun e' he' => by cases he'
      · exact fun y hy hyx => pair_eq_of_ne h hy hx hyx
    refine ⟨fun x hx e he => hown x hx e (MemoryBlockStore.mem_held_of_getActive he), ?_⟩
    intro ss hss e he
    obtain ⟨x, hx, hm⟩ := MemoryBlockStore.mem_held_of_firstActive he
    rw [hown x (hss x hx) e hm]
    exact hx

end

/-! ## in Redis -/

section
variable (b : Builtins) (st : RedisBlockStore)

/-- the call, as a program -/
def Op.redisProg : Op → Call Answer
  | .block s a ttl => do
    let e ← st.block b s a ttl
    return .entry e
  | .unblock s _ _ => do
    let n ← st.unblock s
    return .count n
  | .getActive s => do
    let o ← st.getActive b s
    return .found o
  | .firstActive ss => do
    let o ← st.firstActive b ss
    return .found o

namespace RedisBlockStore

/-- the world after a call, whether it raises or not, or after some time -/
def stepWorld (w : World) : Step → World
  | .call o => (exec backend (o.redisProg b st) w).2
  | .env x => x.apply w

def after (w : World) (xs : List Step) : World := xs.foldl (st.stepWorld b) w

end RedisBlockStore

/-- the world `w'`, had Redis been left as it was in `w` -/
def World.idle (w w' : World) : World := { w' with redis := w.redis }

/-- the payloads under each key at `t` -/
def World.held (w : World) (t : Int) (k : Str) : Set Str := {v | w.redis.get t k = some v}

/-- the payload is that of an entry of the scope -/
def Tells (s : BlockScope) (v : Str) : Prop :=
  s.encodable = true → ∃ e, entryFromJson b v = .ok e ∧ e.scope = s

/-- a command that writes under the keys of `S` only, and payloads of theirs -/
def Writes (S : Set BlockScope) : (β : Type) → Cmd β → Prop
  | _, .now => True
  | _, .get _ => True
  | _, .mget _ => True
  | _, .set k v _ => ∃ s ∈ S, st.key s = k ∧ Tells b s v
  | _, .delete k => ∃ s ∈ S, st.key s = k
  | _, _ => False

/-- a command that reads the clock or the key of `s` -/
def ReadsKey (s : BlockScope) : (β : Type) → Cmd β → Prop
  | _, .now => True
  | _, .get k => k = st.key s
  | _, .mget ks => ∀ k ∈ ks, k = st.key s
  | _, _ => False

variable {b st} {S : Set BlockScope} {s s' : BlockScope}

theorem tells_payload {e : BlockEntry} {v : Str} (hv : entryToJson b e = .ok v) :
    Tells b e.scope v := fun he => entryFromJson_entryToJson b hv he

theorem only_wrap {α : Type} {P : (β : Type) → Cmd β → Prop} {picked : Exc → Bool} {text : Str}
    {p : Call α} (hp : Only P p) : Only P (Call.wrap picked text p) := by
  refine hp.catchWith fun e => ?_
  split
  · exact only_done _
  · exact only_done _

theorem only_decode {P : (β : Type) → Cmd β → Prop} (v : Option Str) :
    Only P (RedisBlockStore.decode b v) := by
  unfold RedisBlockStore.decode
  split
  · exact Only.ofExcept fun e _ => only_done _
  · exact only_done _

theorem only_getActive {P : (β : Type) → Cmd β → Prop} (h : P _ (.get (st.key s))) :
    Only P (st.getActive b s) := (only_wrap (only_perform h)).bind fun v => only_decode v

theorem only_firstActive {P : (β : Type) → Cmd β → Prop} {ss : List BlockScope}
    (h : P _ (.mget (ss.map st.key))) : Only P (st.firstActive b ss) := by
  unfold RedisBlockStore.firstActive
  split
  · exact only_done _
  · exact (only_wrap (only_perform h)).bind fun vs => only_decode _

theorem only_block (hs : s ∈ S) (a : BlockArgs) (ttl : Option Int) :
    Only (Writes b st S) (st.block b s a ttl) := by
  refine (only_perform trivial).bind fun now => Only.ofExcept fun expiresAt _ =>
    Only.ofExcept fun payload hp => ?_
  refine (only_wrap (only_perform ⟨s, hs, rfl, ?_⟩)).bind fun _ => only_done _
  exact tells_payload hp

theorem only_redisProg {o : Op} (h : ∀ s ∈ o.scopes, s ∈ S) :
    Only (Writes b st S) (o.redisProg b st) := by
  cases o with
  | block s a ttl => exact (only_block (h s List.mem_cons_self) a ttl).bind fun _ => only_done _
  | unblock s reason revokedBy =>
    exact (only_wrap (only_perform ⟨s, h s List.mem_cons_self, rfl⟩)).bind fun _ => only_done _
  | getActive s => exact (only_getActive trivial).bind fun _ => only_done _
  | firstActive ss => exact (only_firstActive trivial).bind fun _ => only_done _

/-! ### what the commands write -/

theorem held_stored (w : World) (s : BlockScope) (v : Str) (ex t : Int) :
    (w.stored (st.key s) v ex).held t
      = Function.update (w.held t) (st.key s) {u | t < w.now + seconds ex ∧ u = v} := by
  funext k
  rw [Function.update_apply]
  split
  · rename_i h
    subst h
    ext u
    show (w.redis.put _ _ _).get t _ = some u ↔ _
    rw [ExpMap.get_put_same, Option.ite_some_none_eq_some]
    exact and_congr_right fun _ => eq_comm
  · rename_i h
    show {u | (w.redis.put _ _ _).get t k = some u} = _
    rw [ExpMap.get_put_other _ _ _ _ h]
    rfl

theorem held_dropped (w : World) (s : BlockScope) (t : Int) :
    (w.dropped (st.key s)).held t = Function.update (w.held t) (st.key s) ∅ := by
  funext k
  rw [Function.update_apply]
  split
  · rename_i h
    subst h
    ext u
    show (w.redis.drop _).get t _ = some u ↔ _
    rw [ExpMap.get_drop_same]
    exact ⟨nofun, False.elim⟩
  · rename_i h
    show {u | (w.redis.drop _).get t k = some u} = _
    rw [ExpMap.get_drop_other _ _ h]
    rfl

theorem redis_send {β : Type} {w : World} {texts : List Str} {exc : Fault → Exc} {f : World → β} :
    (w.send texts exc fun w => (.ok (f w), w)).2.redis = w.redis := by
  rcases @send_world _ w texts exc (fun w => (.ok (f w), w)) with e | e | ⟨-, -, e⟩ <;> rw [e] <;> rfl

/-- **such a command writes under the keys of `S`**, and payloads of theirs -/
theorem confined_backend (t : Int) {β : Type} {c : Cmd β} {w : World} (hc : Writes b st S β c) :
    Confined st.key (Tells b) S (w.held t) ((backend β c w).2.held t) := by
  have hread : ∀ w' : World, w'.redis = w.redis →
      Confined st.key (Tells b) S (w.held t) (w'.held t) := by
    intro w' h
    unfold World.held
    rw [h]
    exact .refl _
  cases c with
  | now => exact .refl _
  | get k => exact hread _ (redis_send (f := fun w => w.read k))
  | mget ks => exact hread _ (redis_send (f := fun w => ks.map w.read))
  | set k v ex =>
    obtain ⟨s, hs, rfl, hv⟩ := hc
    rcases hx : backend _ (.set (st.key s) v ex) w with ⟨r, w'⟩
    rcases set_cases hx with ⟨-, -, -, -, rfl⟩ | ⟨-, -, rfl⟩ | ⟨-, rfl⟩
    · dsimp only
      rw [held_stored]
      refine .write hs fun u hu => .inr ?_
      rw [hu.2]
      exact hv
    · exact .refl _
    · exact .refl _
  | delete k =>
    obtain ⟨s, hs, rfl⟩ := hc
    rcases hx : backend _ (.delete (st.key s)) w with ⟨r, w'⟩
    rcases delete_cases hx with ⟨-, -, -, rfl⟩ | ⟨-, -, -, rfl⟩ | ⟨-, rfl⟩
    · dsimp only
      rw [held_dropped]
      exact .write hs fun u hu => absurd hu (Set.notMem_empty u)
    · exact .refl _
    · exact .refl _
  | scan pre => exact hc.elim
  | updateOrCreate s a e n => exact hc.elim
  | revoke s reason revokedBy n => exact hc.elim
  | activeRow s n => exact hc.elim
  | activeRows ss n => exact hc.elim
  | allActive n => exact hc.elim

theorem confined_stepWorld (t : Int) (w : World) {x : Step} (hx : x.On S) :
    Confined st.key (Tells b) S (w.held t) ((st.stepWorld b w x).held t) := by
  cases x with
  | env v =>
    cases v with
    | advance d => exact .refl _
    | evict q => exact hx.elim
  | call o =>
    exact (only_redisProg hx).related (R := fun w w' => Confined st.key (Tells b) S (World.held w t)
      (World.held w' t)) (fun w => .refl _) (fun _ _ _ h h' => h.trans h')
      (fun β c w hc => confined_backend t hc) w

theorem confined_redis_after (t : Int) (w : World) {xs : List Step} (h : ∀ x ∈ xs, x.On S) :
    Confined st.key (Tells b) S (w.held t) ((st.after b w xs).held t) :=
  @Confined.foldl _ _ _ _ _ _ _ S (fun w => World.held w t) (st.stepWorld b) (Step.On S)
    (fun w x hx => confined_stepWorld t w hx) xs w h

/-! ### what the reads see -/

/-- the clock, the failures to come and the key of `s` are the same -/
structure SameFor (st : RedisBlockStore) (s : BlockScope) (w w' : World) : Prop where
  now : w.now = w'.now
  faults : w.faults = w'.faults
  read : w.read (st.key s) = w'.read (st.key s)

theorem send_alike {β : Type} {w w' : World} (h : SameFor st s w w') {texts : List Str}
    {exc : Fault → Exc} {f : World → β} (hf : f w.sent = f w'.sent) :
    (w.send texts exc fun w => (.ok (f w), w)).1 = (w'.send texts exc fun w => (.ok (f w), w)).1 ∧
      SameFor st s (w.send texts exc fun w => (.ok (f w), w)).2
        (w'.send texts exc fun w => (.ok (f w), w)).2 := by
  have hsent : SameFor st s w.sent w'.sent := ⟨h.now, congrArg List.tail h.faults, h.read⟩
  have hfault : w.fault = w'.fault := by
    unfold World.fault
    rw [h.faults]
  unfold World.send
  split
  · rw [hfault]
    cases w'.fault with
    | some y => exact ⟨rfl, hsent⟩
    | none => exact ⟨congrArg Except.ok hf, hsent⟩
  · exact ⟨rfl, h⟩

theorem backend_alike {β : Type} {c : Cmd β} {w w' : World} (hc : ReadsKey st s β c)
    (h : SameFor st s w w') :
    (backend β c w).1 = (backend β c w').1 ∧ SameFor st s (backend β c w).2 (backend β c w').2 := by
  cases c with
  | now => exact ⟨congrArg Except.ok h.now, h⟩
  | get k =>
    obtain rfl : k = st.key s := hc
    exact send_alike h (f := fun w => w.read (st.key s)) h.read
  | mget ks =>
    refine send_alike h (f := fun w => ks.map w.read) (List.map_congr_left fun k hk => ?_)
    rw [hc k hk]
    exact h.read
  | set k v ex => exact hc.elim
  | delete k => exact hc.elim
  | scan pre => exact hc.elim
  | updateOrCreate s a e n => exact hc.elim
  | revoke s reason revokedBy n => exact hc.elim
  | activeRow s n => exact hc.elim
  | activeRows ss n => exact hc.elim
  | allActive n => exact hc.elim

/-- a program that only reads the key of `s` -/
theorem result_alike {α : Type} {p : Call α} {w w' : World} (hp : Only (ReadsKey st s) p)
    (h : SameFor st s w w') : (exec backend p w).1 = (exec backend p w').1 :=
  hp.alike (fun β c w w' hc h => backend_alike hc h) h

theorem send_reads {β : Type} {w w' : World} {texts : List Str} {exc : Fault → Exc} {f : World → β}
    {a : β} (h : w.send texts exc (fun w => (.ok (f w), w)) = (.ok a, w')) :
    texts.all encodable = true ∧ a = f w.sent := by
  have ha : (w.send texts exc fun w => (.ok (f w), w)).1 = .ok a := by rw [h]
  refine ⟨?_, (Except.ok.inj (send_ok ha)).symm⟩
  by_contra he
  unfold World.send at ha
  rw [if_neg he] at ha
  cases ha

/-- an entry that is decoded is that of the payload -/
theorem decode_ok {v : Option Str} {w : World} {e : BlockEntry}
    (h : (exec backend (RedisBlockStore.decode b v) w).1 = .ok (some e)) :
    ∃ p, v = some p ∧ entryFromJson b p = .ok e := by
  unfold RedisBlockStore.decode at h
  split at h
  · rename_i p hp
    rw [exec_bind, exec_ofExcept] at h
    cases hx : entryFromJson b p with
    | error x =>
      rw [hx] at h
      cases h
    | ok e' =>
      rw [hx] at h
      obtain rfl := Option.some.inj (Except.ok.inj h)
      exact ⟨p, (Option.filter_eq_some_iff.mp hp).1, hx⟩
  · cases Except.ok.inj h

/-- what a read returns is the entry of a payload under the key of its scope -/
theorem getActive_ok {w : World} {e : BlockEntry}
    (h : (exec backend (st.getActive b s) w).1 = .ok (some e)) :
    s.encodable = true ∧ ∃ v ∈ w.held w.now (st.key s), entryFromJson b v = .ok e := by
  unfold RedisBlockStore.getActive at h
  rw [exec_bind, exec_wrap, exec_perform] at h
  rcases hg : backend _ (.get (st.key s)) w with ⟨r, w'⟩
  rw [hg] at h
  cases r with
  | error x => cases h
  | ok payload =>
    obtain ⟨he, hp⟩ := send_reads (f := fun w => w.read (st.key s)) hg
    obtain ⟨v, rfl, hv⟩ := decode_ok h
    rw [List.all_cons, Bool.and_eq_true] at he
    exact ⟨(encodable_key st).mp he.1 |>.2, v, hp.symm, hv⟩

theorem firstActive_ok {ss : List BlockScope} {w : World} {e : BlockEntry}
    (h : (exec backend (st.firstActive b ss) w).1 = .ok (some e)) :
    ∃ x ∈ ss, x.encodable = true ∧ ∃ v ∈ w.held w.now (st.key x), entryFromJson b v = .ok e := by
  unfold RedisBlockStore.firstActive at h
  split at h
  · cases Except.ok.inj h
  · rw [exec_bind, exec_wrap, exec_perform] at h
    rcases hg : backend _ (.mget (ss.map st.key)) w with ⟨r, w'⟩
    rw [hg] at h
    cases r with
    | error x => cases h
    | ok values =>
      obtain ⟨he, rfl⟩ := send_reads (f := fun w => (ss.map st.key).map w.read) hg
      obtain ⟨v, hv, hj⟩ := decode_ok h
      obtain ⟨o, ho, hov⟩ := List.exists_of_findSome?_eq_some hv
      obtain ⟨k, hk, rfl⟩ := List.mem_map.mp ho
      obtain ⟨x, hx, rfl⟩ := List.mem_map.mp hk
      have hkey := List.all_eq_true.mp he _ (List.mem_map_of_mem hx)
      exact ⟨x, hx, ((encodable_key st).mp hkey).2, v, (Option.filter_eq_some_iff.mp hov).1, hj⟩

end

/-- what is done to `s` leaves the reads of `s'` alone, and a read of either returns no entry of
another scope -/
structure RedisApart (b : Builtins) (st : RedisBlockStore) (s s' : BlockScope) : Prop where
  unchanged : ∀ (w : World) (xs : List Step), (∀ x ∈ xs, x.On {s}) →
    (exec backend (st.getActive b s') (st.after b w xs)).1
      = (exec backend (st.getActive b s') (w.idle (st.after b w xs))).1 ∧
    ∀ ss : List BlockScope, (∀ x ∈ ss, x = s') →
      (exec backend (st.firstActive b ss) (st.after b w xs)).1
        = (exec backend (st.firstActive b ss) (w.idle (st.after b w xs))).1
  returned : ∀ (t : Int) (faults : List (Option Fault)) (xs : List Step),
    (∀ x ∈ xs, x.On {s, s'}) →
    (∀ x ∈ ({s, s'} : Set BlockScope), ∀ e, (exec backend (st.getActive b x)
      (st.after b { World.empty t with faults := faults } xs)).1 = .ok (some e) → e.scope = x) ∧
    ∀ ss : List BlockScope, (∀ x ∈ ss, x ∈ ({s, s'} : Set BlockScope)) → ∀ e,
      (exec backend (st.firstActive b ss)
        (st.after b { World.empty t with faults := faults } xs)).1 = .ok (some e) → e.scope ∈ ss

theorem redis_apart {b : Builtins} {st : RedisBlockStore} {s s' : BlockScope}
    (h : st.key s ≠ st.key s') : RedisApart b st s s' where
  unchanged := by
    intro w xs hxs
    have hk := (@confined_redis_after b st {s} (st.after b w xs).now w xs hxs).frame
      (a := s') fun x hx => by
        rw [Set.mem_singleton_iff.mp hx]
        exact h
    have hs : SameFor st s' (st.after b w xs) (w.idle (st.after b w xs)) :=
      ⟨rfl, rfl, Option.ext fun v => Set.ext_iff.mp hk v⟩
    refine ⟨result_alike (only_getActive rfl) hs, fun ss hss => result_alike ?_ hs⟩
    refine only_firstActive fun k hk => ?_
    obtain ⟨x, hx, rfl⟩ := List.mem_map.mp hk
    rw [hss x hx]
  returned := by
    intro t faults xs hxs
    have hown : ∀ x ∈ ({s, s'} : Set BlockScope), x.encodable = true → ∀ u,
        ∀ v ∈ (st.after b { World.empty t with faults := faults } xs).held u (st.key x), ∀ e,
        entryFromJson b v = .ok e → e.scope = x := by
      intro x hx hen u v hv e he
      obtain ⟨-, ht⟩ := (confined_redis_after u _ hxs).gained.own_of_empty (a := x)
        (Set.eq_empty_of_forall_notMem fun v' hv' => by cases hv')
        (fun y hy hyx => pair_eq_of_ne h hy hx hyx) hv
      obtain ⟨e', he', rfl⟩ := ht hen
      rw [Except.ok.inj (he.symm.trans he')]
    constructor
    · intro x hx e he
      obtain ⟨hen, v, hv, hj⟩ := getActive_ok he
      exact hown x hx hen _ v hv e hj
    · intro ss hss e he
      obtain ⟨x, hx, hen, v, hv, hj⟩ := firstActive_ok he
      rw [hown x (hss x hx) hen _ v hv e hj]
      exact hx

end SecAudit
