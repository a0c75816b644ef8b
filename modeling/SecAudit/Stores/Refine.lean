import SecAudit.Stores.Banned
import Mathlib.Data.Set.Insert

/-!
# The tiered store refines the plain block set

* `Plain`           the purpose of the store: a set of banned scopes, and temporary blocks with the
                    time they end;
* `Step`, `runAlone`  one call at a time, with time passing and keys evicted in between;
* `Rel`             the relation between the two backends and the plain block set;
* `rel_run`         every run keeps it;
* `Rel.answer`      under it a read finds an entry exactly when a queried scope is blocked;
* `tiered_refines_plain`  both together, from empty backends.
-/

set_option linter.unusedVariables false
set_option linter.unusedSectionVars false

namespace SecAudit
open Py Prog

/-! ## the plain block set -/

structure Plain where
  now : Int
  banned : Set BlockScope
  /-- the end of the temporary block of a scope -/
  temp : BlockScope → Option Int

/-- at `t`, if nothing else happens -/
def Plain.BlockedAt (p : Plain) (t : Int) (s : BlockScope) : Prop :=
  s ∈ p.banned ∨ ∃ e, p.temp s = some e ∧ t < e

def Plain.Blocked (p : Plain) (s : BlockScope) : Prop := p.BlockedAt p.now s

def Plain.empty (now : Int) : Plain := ⟨now, ∅, fun _ => none⟩

inductive Step where
  | call (o : Op)
  | env (x : Env)

/-- a step of the plain block set; `key` says which keys an eviction is about -/
def Plain.step (key : BlockScope → Str) (p : Plain) : Step → Plain
  | .call (.block s _ (some n)) =>
    { p with temp := Function.update p.temp s (some (p.now + seconds n)) }
  | .call (.block s _ none) => { p with banned := insert s p.banned }
  | .call (.unblock s _ _) =>
    { p with banned := p.banned \ {s}, temp := Function.update p.temp s none }
  | .call (.getActive _) => p
  | .call (.firstActive _) => p
  | .env (.advance d) => { p with now := p.now + d }
  | .env (.evict q) => { p with temp := fun s => if q (key s) then none else p.temp s }

def Plain.run (key : BlockScope → Str) (p : Plain) (steps : List Step) : Plain :=
  steps.foldl (Plain.step key) p

/-! ## runs of the store -/

section
variable (b : Builtins) (st : TieredBlockStore)

/-- one step of the store; `none` when the call raises -/
def stepAlone (w : World) : Step → Option World
  | .call o => match exec backend (o.prog b st) w with
    | (.ok _, w') => some w'
    | (.error _, _) => none
  | .env x => some (x.apply w)

def runAlone : World → List Step → Option World
  | w, [] => some w
  | w, x :: xs => (stepAlone b st w x).bind fun w' => runAlone w' xs

def Step.scopes : Step → List BlockScope
  | .call o => o.scopes
  | .env _ => []

/-! ## the relation -/

structure Rel (w : World) (p : Plain) : Prop where
  clock : w.now = p.now
  quiet : w.faults = []
  permanent : w.table.Permanent
  rows : ∀ s, s ∈ scopesOf w.table.rows ↔ s ∈ p.banned
  known : ∀ s ∈ p.banned, NoColon s ∧ s.encodable = true
  writable : ∀ r ∈ w.table.rows, r.args.writable = true
  /-- a live key is that of a blocked scope, and stays so until it expires -/
  live : ∀ k v t, k ≠ st.redis.warmKey → w.now ≤ t → w.redis.get t k = some v →
    (v ≠ [] ∧ ∃ e, entryFromJson b v = .ok e) ∧
      ∃ s, NoColon s ∧ k = st.redis.key s ∧ p.BlockedAt t s
  temp : ∀ s e t, NoColon s → s ∉ p.banned → p.temp s = some e → w.now ≤ t → t < e →
    ∃ v, w.redis.get t (st.redis.key s) = some v
  warm : ∀ text t, w.now ≤ t → w.redis.get t st.redis.warmKey = some text →
    CoversText b (· ∈ p.banned) text

theorem rel_empty (t : Int) : Rel b st (World.empty t) (Plain.empty t) where
  clock := rfl
  quiet := rfl
  permanent := fun r hr => absurd hr List.not_mem_nil
  rows := fun s => ⟨fun h => absurd h List.not_mem_nil, fun h => absurd h (Set.notMem_empty s)⟩
  known := fun s hs => absurd hs (Set.notMem_empty s)
  writable := fun r hr => absurd hr List.not_mem_nil
  live := fun k v t _ _ h => by cases h
  temp := fun s e t _ _ h => by cases h
  warm := fun text t _ h => by cases h

variable {b st} {w : World} {p : Plain}

theorem Rel.fault (h : Rel b st w p) : w.fault = none := by
  unfold World.fault
  rw [h.quiet]
  rfl

theorem Rel.sent (h : Rel b st w p) : w.sent = w := by
  unfold World.sent
  obtain ⟨n, r, t, f⟩ := w
  have hf : f = [] := h.quiet
  subst hf
  rfl

/-! ### time and eviction -/

theorem Rel.advance (h : Rel b st w p) (d : Nat) :
    Rel b st ((Env.advance d).apply w) (p.step st.redis.key (.env (.advance d))) where
  clock := by
    show w.now + d = p.now + d
    rw [h.clock]
  quiet := h.quiet
  permanent := h.permanent
  rows := h.rows
  known := h.known
  writable := h.writable
  live := by
    intro k v t hk ht hg
    have ht' : w.now + d ≤ t := ht
    exact h.live k v t hk (by omega) hg
  temp := by
    intro s e t hn hs he ht hlt
    have ht' : w.now + d ≤ t := ht
    exact h.temp s e t hn hs he (by omega) hlt
  warm := by
    intro text t ht hg
    have ht' : w.now + d ≤ t := ht
    exact h.warm text t (by omega) hg

theorem Rel.evict (h : Rel b st w p) (q : Str → Bool) :
    Rel b st ((Env.evict q).apply w) (p.step st.redis.key (.env (.evict q))) where
  clock := h.clock
  quiet := h.quiet
  permanent := h.permanent
  rows := h.rows
  known := h.known
  writable := h.writable
  live := by
    intro k v t hk ht hg
    replace hg : (w.redis.evict q).get t k = some v := hg
    rw [ExpMap.get_evict] at hg
    split at hg
    · cases hg
    · rename_i hq
      obtain ⟨hv, s, hn, rfl, hb⟩ := h.live k v t hk ht hg
      refine ⟨hv, s, hn, rfl, ?_⟩
      rcases hb with hb | ⟨e, he, hlt⟩
      · exact .inl hb
      · exact .inr ⟨e, (if_neg hq).trans he, hlt⟩
  temp := by
    intro s e t hn hs he ht hlt
    replace he : (if q (st.redis.key s) = true then none else p.temp s) = some e := he
    split at he
    · cases he
    · rename_i hq
      obtain ⟨v, hv⟩ := h.temp s e t hn hs he ht hlt
      refine ⟨v, ?_⟩
      show (w.redis.evict q).get t _ = some v
      rw [ExpMap.get_evict, if_neg hq]
      exact hv
  warm := by
    intro text t ht hg
    replace hg : (w.redis.evict q).get t st.redis.warmKey = some text := hg
    rw [ExpMap.get_evict] at hg
    split at hg
    · cases hg
    · exact h.warm text t ht hg

/-! ### writes -/

/-- a cache entry of a banned scope changes nothing that is seen -/
theorem Rel.cached (h : Rel b st w p) {s : BlockScope} {v : Str} {ex : Int} (hs : s ∈ p.banned)
    (hd : Decodes b s v) : Rel b st (w.stored (st.redis.key s) v ex) p where
  clock := h.clock
  quiet := by
    show w.faults.tail = []
    rw [h.quiet]
    rfl
  permanent := h.permanent
  rows := h.rows
  known := h.known
  writable := h.writable
  live := by
    intro k v' t hk ht hg
    replace hg : (w.redis.put (st.redis.key s) v _).get t k = some v' := hg
    by_cases e : k = st.redis.key s
    · subst e
      rw [ExpMap.get_put_same] at hg
      split at hg
      · obtain rfl := Option.some.inj hg
        obtain ⟨hn, he⟩ := h.known s hs
        exact ⟨⟨hd.1, hd.2 he⟩, s, hn, rfl, .inl hs⟩
      · cases hg
    · rw [ExpMap.get_put_other _ _ _ _ e] at hg
      exact h.live k v' t hk ht hg
  temp := by
    intro s' e t hn hs' he ht hlt
    obtain ⟨v', hv'⟩ := h.temp s' e t hn hs' he ht hlt
    refine ⟨v', ?_⟩
    have hne : st.redis.key s' ≠ st.redis.key s := by
      intro hk
      rw [key_injective st.redis hn (h.known s hs).1 hk] at hs'
      exact hs' hs
    show (w.redis.put _ v _).get t _ = some v'
    rw [ExpMap.get_put_other _ _ _ _ hne]
    exact hv'
  warm := by
    intro text t ht hg
    replace hg : (w.redis.put (st.redis.key s) v _).get t st.redis.warmKey = some text := hg
    rw [ExpMap.get_put_other _ _ _ _ (key_ne_warmKey st.redis s).symm] at hg
    exact h.warm text t ht hg

/-- a sentinel that covers the banned scopes may be written -/
theorem Rel.warmed (h : Rel b st w p) {v : Str} {ex : Int}
    (hc : CoversText b (· ∈ p.banned) v) : Rel b st (w.stored st.redis.warmKey v ex) p where
  clock := h.clock
  quiet := by
    show w.faults.tail = []
    rw [h.quiet]
    rfl
  permanent := h.permanent
  rows := h.rows
  known := h.known
  writable := h.writable
  live := by
    intro k v' t hk ht hg
    replace hg : (w.redis.put st.redis.warmKey v _).get t k = some v' := hg
    rw [ExpMap.get_put_other _ _ _ _ hk] at hg
    exact h.live k v' t hk ht hg
  temp := by
    intro s' e t hn hs' he ht hlt
    obtain ⟨v', hv'⟩ := h.temp s' e t hn hs' he ht hlt
    refine ⟨v', ?_⟩
    show (w.redis.put _ v _).get t _ = some v'
    rw [ExpMap.get_put_other _ _ _ _ (key_ne_warmKey st.redis s')]
    exact hv'
  warm := by
    intro text t ht hg
    replace hg : (w.redis.put st.redis.warmKey v _).get t st.redis.warmKey = some text := hg
    rw [ExpMap.get_put_same] at hg
    split at hg
    · obtain rfl := Option.some.inj hg
      exact hc
    · cases hg

/-- a temporary block -/
theorem Rel.blockTemp (h : Rel b st w p) {s : BlockScope} {v : Str} {n : Int} {a : BlockArgs}
    (hn : NoColon s) (hk : encodable (st.redis.key s) = true) (hd : Decodes b s v) :
    Rel b st (w.stored (st.redis.key s) v n) (p.step st.redis.key (.call (.block s a (some n)))) where
  clock := h.clock
  quiet := by
    show w.faults.tail = []
    rw [h.quiet]
    rfl
  permanent := h.permanent
  rows := h.rows
  known := h.known
  writable := h.writable
  live := by
    intro k v' t hne ht hg
    replace hg : (w.redis.put (st.redis.key s) v (w.now + seconds n)).get t k = some v' := hg
    by_cases e : k = st.redis.key s
    · subst e
      rw [ExpMap.get_put_same] at hg
      split at hg
      · rename_i hlt
        obtain rfl := Option.some.inj hg
        refine ⟨⟨hd.1, hd.2 ((encodable_key st.redis).mp hk).2⟩, s, hn, rfl, .inr ⟨_, ?_, hlt⟩⟩
        show Function.update p.temp s (some (p.now + seconds n)) s = _
        rw [Function.update_self, h.clock]
      · cases hg
    · rw [ExpMap.get_put_other _ _ _ _ e] at hg
      obtain ⟨hv, s', hn', rfl, hb⟩ := h.live k v' t hne ht hg
      refine ⟨hv, s', hn', rfl, ?_⟩
      rcases hb with hb | ⟨x, hx, hlt⟩
      · exact .inl hb
      · refine .inr ⟨x, ?_, hlt⟩
        show Function.update p.temp s _ s' = some x
        rw [Function.update_of_ne (fun hs => e (by rw [hs])), hx]
  temp := by
    intro s' e t hn' hs' he ht hlt
    replace he : Function.update p.temp s (some (p.now + seconds n)) s' = some e := he
    show ∃ v', (w.redis.put (st.redis.key s) v (w.now + seconds n)).get t _ = some v'
    by_cases hs : s' = s
    · subst hs
      rw [Function.update_self] at he
      obtain rfl := Option.some.inj he
      refine ⟨v, ?_⟩
      rw [ExpMap.get_put_same, if_pos (by rw [h.clock]; exact hlt)]
    · rw [Function.update_of_ne hs] at he
      have hne : st.redis.key s' ≠ st.redis.key s := fun hk => hs (key_injective st.redis hn' hn hk)
      rw [ExpMap.get_put_other _ _ _ _ hne]
      exact h.temp s' e t hn' hs' he ht hlt
  warm := by
    intro text t ht hg
    replace hg : (w.redis.put (st.redis.key s) v _).get t st.redis.warmKey = some text := hg
    rw [ExpMap.get_put_other _ _ _ _ (key_ne_warmKey st.redis s).symm] at hg
    exact h.warm text t ht hg

/-- a new ban, once no sentinel is left -/
theorem Rel.ban (h : Rel b st w p) {s : BlockScope} {a : BlockArgs} {now : Int} (hn : NoColon s)
    (he : s.encodable = true) (ha : a.writable = true) :
    Rel b st ((w.upserted s a now).dropped st.redis.warmKey)
      (p.step st.redis.key (.call (.block s a none))) where
  clock := h.clock
  quiet := by
    show w.faults.tail.tail = []
    rw [h.quiet]
    rfl
  permanent := h.permanent.upsert s a now
  rows := by
    intro s'
    show s' ∈ scopesOf (w.table.upsert s a none now).2.rows ↔ s' ∈ insert s p.banned
    rw [Table.mem_scopesOf_upsert, h.rows, Set.mem_insert_iff]
  known := by
    intro s' hs'
    rcases Set.mem_insert_iff.mp hs' with rfl | hs'
    · exact ⟨hn, he⟩
    · exact h.known s' hs'
  writable := by
    intro r hr
    rcases Table.mem_upsert hr with hr | ⟨-, -, hr⟩
    · exact h.writable r hr
    · rw [hr]
      exact ha
  live := by
    intro k v t hk ht hg
    replace hg : (w.redis.drop st.redis.warmKey).get t k = some v := hg
    rw [ExpMap.get_drop_other _ _ hk] at hg
    obtain ⟨hv, s', hn', rfl, hb⟩ := h.live k v t hk ht hg
    exact ⟨hv, s', hn', rfl, hb.imp_left fun hb => Set.mem_insert_of_mem s hb⟩
  temp := by
    intro s' e t hn' hs' hte ht hlt
    obtain ⟨v, hv⟩ := h.temp s' e t hn' (fun hb => hs' (Set.mem_insert_of_mem s hb)) hte ht hlt
    refine ⟨v, ?_⟩
    show (w.redis.drop st.redis.warmKey).get t _ = some v
    rw [ExpMap.get_drop_other _ _ (key_ne_warmKey st.redis s')]
    exact hv
  warm := by
    intro text t ht hg
    replace hg : (w.redis.drop st.redis.warmKey).get t st.redis.warmKey = some text := hg
    rw [ExpMap.get_drop_same] at hg
    cases hg

theorem Rel.unblock (h : Rel b st w p) {s : BlockScope} {reason revokedBy : Str} {now : Int}
    (hn : NoColon s) :
    Rel b st (((w.dropped (st.redis.key s)).revoked s reason revokedBy now).dropped
      st.redis.warmKey) (p.step st.redis.key (.call (.unblock s reason revokedBy))) where
  clock := h.clock
  quiet := by
    show w.faults.tail.tail.tail = []
    rw [h.quiet]
    rfl
  permanent := h.permanent.revoke s reason revokedBy now
  rows := by
    intro s'
    show s' ∈ scopesOf (w.table.revoke s reason revokedBy now).2.rows ↔ s' ∈ p.banned \ {s}
    rw [Table.mem_scopesOf_revoke, h.rows, Set.mem_sdiff, Set.mem_singleton_iff, and_comm]
  known := fun s' hs' => h.known s' hs'.1
  writable := by
    intro r hr
    obtain ⟨r', hr', rfl⟩ := List.mem_map.mp hr
    show (if r'.blocks s = true then _ else r').args.writable = true
    split <;> exact h.writable r' hr'
  live := by
    intro k v t hk ht hg
    replace hg : ((w.redis.drop (st.redis.key s)).drop st.redis.warmKey).get t k = some v := hg
    rw [ExpMap.get_drop_other _ _ hk] at hg
    by_cases e : k = st.redis.key s
    · rw [e, ExpMap.get_drop_same] at hg
      cases hg
    · rw [ExpMap.get_drop_other _ _ e] at hg
      obtain ⟨hv, s', hn', rfl, hb⟩ := h.live k v t hk ht hg
      have hne : s' ≠ s := fun hs => e (by rw [hs])
      refine ⟨hv, s', hn', rfl, ?_⟩
      rcases hb with hb | ⟨x, hx, hlt⟩
      · exact .inl ⟨hb, hne⟩
      · refine .inr ⟨x, ?_, hlt⟩
        show Function.update p.temp s none s' = some x
        rw [Function.update_of_ne hne, hx]
  temp := by
    intro s' e t hn' hs' he ht hlt
    replace he : Function.update p.temp s none s' = some e := he
    by_cases hs : s' = s
    · rw [hs, Function.update_self] at he
      cases he
    · rw [Function.update_of_ne hs] at he
      have hne : st.redis.key s' ≠ st.redis.key s := fun hk => hs (key_injective st.redis hn' hn hk)
      obtain ⟨v, hv⟩ := h.temp s' e t hn' (fun hb => hs' ⟨hb, hs⟩) he ht hlt
      refine ⟨v, ?_⟩
      show ((w.redis.drop (st.redis.key s)).drop st.redis.warmKey).get t _ = some v
      rw [ExpMap.get_drop_other _ _ (key_ne_warmKey st.redis s'),
        ExpMap.get_drop_other _ _ hne]
      exact hv
  warm := by
    intro text t ht hg
    replace hg : ((w.redis.drop _).drop st.redis.warmKey).get t st.redis.warmKey = some text := hg
    rw [ExpMap.get_drop_same] at hg
    cases hg

/-! ### reads -/

/-- what the relation says to a read of `scopes` that starts now -/
def Rel.facts (h : Rel b st w p) (scopes : List BlockScope) : Facts st where
  banned s := s ∈ p.banned
  mayRow s := s ∈ p.banned
  cached k := ∃ s e, NoColon s ∧ k = st.redis.key s ∧ s ∉ p.banned ∧ p.temp s = some e ∧ p.now < e
  mayHit k := ∃ s, NoColon s ∧ k = st.redis.key s ∧ p.Blocked s
  stays _ := True
  within := WithinFor st w scopes
  up := True
  banned_mayRow s hs := hs
  banned_stays _ _ := trivial
  mayRow_encodable s hs := (h.known s hs).2
  mayHit_of_row s hs := ⟨s, (h.known s hs).1, rfl, .inl hs⟩
  within_prefix hw := hw.1.keyPrefix
  within_ttl hw := hw.1.ttl

theorem Rel.agrees (h : Rel b st w p) {w' : World} (h' : Rel b st w' p)
    (scopes : List BlockScope) : Agrees b (h.facts scopes) w' where
  permanent := h'.permanent
  banned s hs := (h'.rows s).mpr hs
  rows row hr hu := ⟨(h'.rows row.scope).mp (Table.mem_scopesOf.mpr ⟨row, hr, hu, rfl⟩),
    h'.writable row hr⟩
  hits := by
    intro s t v ht hg
    obtain ⟨hv, s', hn, hk, hb⟩ := h'.live _ v t (key_ne_warmKey st.redis s) ht hg
    refine ⟨⟨s', hn, hk, hb.imp_right ?_⟩, hv⟩
    rintro ⟨e, he, hlt⟩
    have := h'.clock
    exact ⟨e, he, by omega⟩
  warm t text ht hg := h'.warm text t ht hg

/-- the keys a read relies on are live -/
theorem Rel.hit (h : Rel b st w p) {w' : World} (h' : Rel b st w' p) {l : CallLog}
    (hl : Kept st l w') (scopes : List BlockScope) (s : BlockScope) :
    Hit st (h.facts scopes) l w' (st.redis.key s) := by
  rintro (⟨s', e, hn, hk, hs, hte, hlt⟩ | ⟨-, hw⟩)
  · obtain ⟨v, hv⟩ := h'.temp s' e w'.now hn hs hte (Int.le_refl _) (by rw [h'.clock]; exact hlt)
    rw [← hk] at hv
    have hne := ((h'.live _ v w'.now (key_ne_warmKey st.redis s) (Int.le_refl _) hv)).1.1
    replace hv : w'.read (st.redis.key s) = some v := hv
    rw [hv, nonEmpty_some hne]
    rfl
  · obtain ⟨v, hne, hv⟩ := hl s hw
    rw [hv, nonEmpty_some hne]
    rfl

/-- **one command of a read**: the reply agrees with the facts, and the relation stays -/
theorem Rel.read_step (h : Rel b st w p) {w' : World} (h' : Rel b st w' p) (hs : Still w w')
    {scopes : List BlockScope} {l : CallLog} (hl : Kept st l w') {β : Type} (c : Cmd β)
    (hi : ((h.facts scopes).within → c.Sendable) ∧ Issue b (h.facts scopes) l c) :
    ((∀ x, (backend _ c w').1 = .error x → Refused (h.facts scopes) c x) ∧
      Reply b (h.facts scopes) l c (backend _ c w').1) ∧
    Rel b st (backend _ c w').2 p ∧ Still w (backend _ c w').2 ∧
      Kept st (⟨c, (backend _ c w').1⟩ :: l) (backend _ c w').2 := by
  refine ⟨?_, ?_, ?_, kept_step hl hi.2⟩
  · refine (h.agrees h' scopes).reply (fun hw => ⟨?_, ?_⟩) (fun _ => h'.fault) hi.1
      fun s _ => h.hit h' hl scopes s
    · rw [hs.1]
      exact hw.1.clock
    · rw [hs.2]
      exact hw.1.rows
  · have quiet : c.setKey = none → Rel b st (backend _ c w').2 p := by
      intro hc
      rcases read_world (w := w') hi.2 hc with e | e
      · rw [e]
        exact h'
      · rw [e, h'.sent]
        exact h'
    cases c with
    | set k v ex =>
      obtain ⟨rfl, hw⟩ := hi.2
      rcases hset : backend _ (.set k v st.permanentCacheTtl) w' with ⟨r, w1⟩
      rcases set_cases hset with ⟨-, -, -, -, rfl⟩ | ⟨-, -, rfl⟩ | ⟨-, rfl⟩
      · rcases hw with ⟨rfl, rows, -, hc, hb⟩ | ⟨s, rfl, hm, hd, -⟩
        · exact h'.warmed (hc.mono b fun s hs => ⟨(h.known s hs).2, hb s hs⟩)
        · exact h'.cached hm hd
      · rw [h'.sent]
        exact h'
      · exact h'
    | now => exact quiet rfl
    | get k => exact quiet rfl
    | mget ks => exact quiet rfl
    | scan pre => exact quiet rfl
    | delete k => exact quiet rfl
    | updateOrCreate s a e t => exact quiet rfl
    | revoke s reason revokedBy t => exact quiet rfl
    | activeRow s t => exact quiet rfl
    | activeRows ss t => exact quiet rfl
    | allActive t => exact quiet rfl
  · have := still_step (w := w') hi.2
    exact ⟨this.1.trans hs.1, this.2.trans hs.2⟩

/-- a read that keeps to the contract, run alone under the relation -/
theorem Rel.read_alone (h : Rel b st w p) {scopes : List BlockScope}
    {q : Call (Option BlockEntry)}
    (hq : Meets (reads b (h.facts scopes) (Answers (h.facts scopes) scopes)) [] q) :
    Rel b st (exec backend q w).2 p ∧ ∃ l, Answers (h.facts scopes) scopes l (exec backend q w).1 := by
  have hstep : ∀ (l : CallLog) (w' : World) {β : Type} (c : Cmd β),
      Rel b st w' p ∧ Still w w' ∧ Kept st l w' →
      (reads b (h.facts scopes) (Answers (h.facts scopes) scopes)).issue l c →
      (reads b (h.facts scopes) (Answers (h.facts scopes) scopes)).reply l c (backend _ c w').1 ∧
        Rel b st (backend _ c w').2 p ∧ Still w (backend _ c w').2 ∧
        Kept st (⟨c, (backend _ c w').1⟩ :: l) (backend _ c w').2 :=
    fun l w' β c hI hi => h.read_step hI.1 hI.2.1 hI.2.2 c hi
  obtain ⟨l, hI, ha⟩ := exec_meets hstep hq ⟨h, ⟨rfl, rfl⟩, kept_nil w⟩
  exact ⟨hI.1, l, ha⟩

/-! ## runs -/

/-- the scopes of the steps have types without `:` -/
def NoColons (steps : List Step) : Prop := ∀ x ∈ steps, ∀ s ∈ x.scopes, NoColon s

instance (steps : List Step) : Decidable (NoColons steps) :=
  inferInstanceAs (Decidable (∀ x ∈ steps, ∀ s ∈ x.scopes, NoColon s))

theorem stepAlone_call {o : Op} {w' : World} (h : stepAlone b st w (.call o) = some w') :
    ∃ a, exec backend (o.prog b st) w = (.ok a, w') := by
  replace h : (match exec backend (o.prog b st) w with
    | (.ok _, w') => some w'
    | (.error _, _) => none) = some w' := h
  rcases hq : exec backend (o.prog b st) w with ⟨r, w1⟩
  rw [hq] at h
  cases r with
  | ok a =>
    obtain rfl := Option.some.inj h
    exact ⟨a, rfl⟩
  | error e => cases h

/-- a call and the answer made of its result -/
theorem exec_answer {α : Type} {q : Call α} {f : α → Answer} {a : Answer} {w' : World}
    (h : exec backend (q >>= fun x => pure (f x)) w = (.ok a, w')) :
    ∃ x, exec backend q w = (.ok x, w') ∧ a = f x := by
  rw [exec_bind] at h
  rcases hq : exec backend q w with ⟨r, w1⟩
  rw [hq] at h
  cases r with
  | ok x =>
    obtain ⟨ha, rfl⟩ := Prod.mk.inj h
    exact ⟨x, rfl, (Except.ok.inj ha).symm⟩
  | error e => cases (Prod.mk.inj h).1

/-- the cache entry of a new ban and the removal of the sentinel may change places -/
theorem stored_dropped (u : World) (s : BlockScope) (v : Str) (ex : Int) :
    (u.stored (st.redis.key s) v ex).dropped st.redis.warmKey
      = (u.dropped st.redis.warmKey).stored (st.redis.key s) v ex := by
  unfold World.stored World.dropped World.sent
  simp only [ExpMap.drop_put _ _ _ (key_ne_warmKey st.redis s)]

variable (hpg : st.pg = true)
include hpg

theorem Rel.block (h : Rel b st w p) {s : BlockScope} {a : BlockArgs} {ttl : Option Int}
    {e : BlockEntry} {w' : World} (hn : NoColon s)
    (hx : exec backend (st.block b s a ttl) w = (.ok e, w')) :
    Rel b st w' (p.step st.redis.key (.call (.block s a ttl))) := by
  have quiet : ∀ {u : World}, u.faults = [] → u.fault = none ∧ u.sent = u := by
    rintro ⟨n, r, t, f⟩ rfl
    exact ⟨rfl, rfl⟩
  cases ttl with
  | some n =>
    rcases redis_block_cases hx with ⟨e, v, -, -, hk, -, -, hd, rfl⟩ | ⟨x, hx, -⟩ | ⟨x, hx, -⟩
    · exact h.blockTemp hn hk hd.decodes
    · cases hx
    · cases hx
  | none =>
    obtain ⟨he, ha, -, -, w1, w2, hw1, h2, h3⟩ := block_permanent_ok hpg hx
    have hq1 : w1.faults = [] := by
      rw [hw1]
      show w.faults.tail = []
      rw [h.quiet]
      rfl
    have hban : Rel b st (w1.dropped st.redis.warmKey)
        (p.step st.redis.key (.call (.block s a none))) := by
      rw [hw1]
      exact h.ban hn (encodable_of_texts he) ha
    have hq2 : w2.faults = [] := by
      rcases h2 with ⟨v, -, -, -, -, rfl⟩ | ⟨-, rfl⟩
      · show w1.faults.tail = []
        rw [hq1]
        rfl
      · rw [(quiet hq1).2]
        exact hq1
    have hw' : w' = w2.dropped st.redis.warmKey := by
      rcases h3 with ⟨-, hw'⟩ | ⟨hne, -⟩
      · exact hw'
      · exact absurd (quiet hq2).1 hne
    rw [hw']
    rcases h2 with ⟨v, -, -, -, hd, rfl⟩ | ⟨-, rfl⟩
    · rw [stored_dropped]
      exact hban.cached (Set.mem_insert s _) hd.decodes
    · rw [(quiet hq1).2]
      exact hban

theorem Rel.unblock_call (h : Rel b st w p) {s : BlockScope} {reason revokedBy : Str} {n : Int}
    {w' : World} (hn : NoColon s)
    (hx : exec backend (st.unblock s reason revokedBy) w = (.ok n, w')) :
    Rel b st w' (p.step st.redis.key (.call (.unblock s reason revokedBy))) := by
  obtain ⟨-, w1, w2, -, rfl, -, rfl, h3⟩ := unblock_ok hpg hx
  rcases h3 with ⟨-, rfl⟩ | ⟨hne, -⟩
  · exact h.unblock hn
  · refine absurd ?_ hne
    unfold World.fault
    show w.faults.tail.tail.head?.join = none
    rw [h.quiet]
    rfl

/-- **one step keeps the relation** -/
theorem rel_step (h : Rel b st w p) {x : Step} {w' : World} (hx : ∀ s ∈ x.scopes, NoColon s)
    (hs : stepAlone b st w x = some w') : Rel b st w' (p.step st.redis.key x) := by
  cases x with
  | env x =>
    obtain rfl := Option.some.inj hs
    cases x with
    | advance d => exact h.advance d
    | evict q => exact h.evict q
  | call o =>
    obtain ⟨a, ha⟩ := stepAlone_call hs
    cases o with
    | block s args ttl =>
      obtain ⟨e, he, -⟩ := exec_answer ha
      exact h.block hpg (hx s (List.mem_singleton_self s)) he
    | unblock s reason revokedBy =>
      obtain ⟨n, hn, -⟩ := exec_answer ha
      exact h.unblock_call hpg (hx s (List.mem_singleton_self s)) hn
    | getActive s =>
      obtain ⟨o, ho, -⟩ := exec_answer ha
      have hr := (h.read_alone (reads_getActive hpg fun hw => hw.2 s (List.mem_singleton_self s))).1
      rw [ho] at hr
      exact hr
    | firstActive ss =>
      obtain ⟨o, ho, -⟩ := exec_answer ha
      have hq : Meets (reads b (h.facts ss) (Answers (h.facts ss) ss)) [] (st.firstActive b ss) :=
        reads_firstActive hpg fun hw => hw.2
      have hr := (h.read_alone hq).1
      rw [ho] at hr
      exact hr

/-- **every run keeps the relation** -/
theorem rel_run (h : Rel b st w p) {steps : List Step} {w' : World} (hx : NoColons steps)
    (hr : runAlone b st w steps = some w') : Rel b st w' (p.run st.redis.key steps) := by
  induction steps generalizing w p with
  | nil =>
    obtain rfl := Option.some.inj hr
    exact h
  | cons x xs ih =>
    obtain ⟨w1, h1, h2⟩ := Option.bind_eq_some_iff.mp hr
    exact ih (rel_step hpg h (hx x List.mem_cons_self) h1)
      (fun y hy => hx y (List.mem_cons_of_mem _ hy)) h2

omit hpg

/-- **under the relation a read answers as the plain block set does**, and within the limits it
does answer -/
theorem Rel.answer (h : Rel b st w p) {scopes : List BlockScope} {q : Call (Option BlockEntry)}
    (hn : ∀ s ∈ scopes, NoColon s)
    (hq : Meets (reads b (h.facts scopes) (Answers (h.facts scopes) scopes)) [] q) :
    (∀ o w', exec backend q w = (.ok o, w') → (o ≠ none ↔ ∃ s ∈ scopes, p.Blocked s)) ∧
    (Within st w → (∀ s ∈ scopes, s.encodable = true) → ∃ o w', exec backend q w = (.ok o, w')) := by
  obtain ⟨-, l, ha⟩ := h.read_alone hq
  constructor
  · intro o w' hx
    rw [hx] at ha
    constructor
    · intro hne
      obtain ⟨e, rfl⟩ := Option.ne_none_iff_exists'.mp hne
      obtain ⟨s, hs, s', hn', hk, hb⟩ := ha.sound e rfl
      rw [← key_injective st.redis (hn s hs) hn' hk] at hb
      exact ⟨s, hs, hb⟩
    · rintro ⟨s, hs, hb⟩ rfl
      obtain ⟨hnb, hnc⟩ := ha.complete rfl s hs
      rcases hb with hb | ⟨e, he, hlt⟩
      · exact hnb hb
      · exact hnc ⟨s, e, hn s hs, rfl, hnb, he, hlt⟩
  · intro hw he
    rcases hx : exec backend q w with ⟨r, w'⟩
    rw [hx] at ha
    cases r with
    | ok o => exact ⟨o, w', rfl⟩
    | error e =>
      rcases ha.raises e rfl with ⟨-, hn⟩ | ⟨-, hn⟩
      · exact absurd ⟨⟨hw, he⟩, trivial⟩ hn
      · exact absurd ⟨hw, he⟩ hn

/-- **The tiered store refines the plain block set.**  After any run of complete calls, time
passing and evictions from empty backends, a read finds an entry exactly when a queried scope
is blocked; and within the limits it does return. -/
theorem tiered_refines_plain (b : Builtins) (st : TieredBlockStore) (hpg : st.pg = true) (t : Int)
    (steps : List Step) (hcolon : NoColons steps) (w : World)
    (hrun : runAlone b st (World.empty t) steps = some w) :
    (∀ s, NoColon s →
      (∀ o w', exec backend (st.getActive b s) w = (.ok o, w') →
        (o ≠ none ↔ ((Plain.empty t).run st.redis.key steps).Blocked s)) ∧
      (Within st w → s.encodable = true → ∃ o w', exec backend (st.getActive b s) w = (.ok o, w'))) ∧
    (∀ ss, (∀ s ∈ ss, NoColon s) →
      (∀ o w', exec backend (st.firstActive b ss) w = (.ok o, w') →
        (o ≠ none ↔ ∃ s ∈ ss, ((Plain.empty t).run st.redis.key steps).Blocked s)) ∧
      (Within st w → (∀ s ∈ ss, s.encodable = true) →
        ∃ o w', exec backend (st.firstActive b ss) w = (.ok o, w'))) := by
  have h := rel_run hpg (rel_empty b st t) hcolon hrun
  constructor
  · intro s hn
    have hs : ∀ s' ∈ [s], NoColon s' := by simpa using hn
    obtain ⟨h1, h2⟩ := h.answer hs (reads_getActive hpg fun hw => hw.2 s (List.mem_singleton_self s))
    refine ⟨fun o w' hx => ?_, fun hw he => h2 hw (by simpa using he)⟩
    rw [h1 o w' hx]
    simp
  · intro ss hn
    exact h.answer hn (reads_firstActive hpg fun hw => hw.2)

/-- a ban, a read, and every key evicted -/
def flushed : List Step :=
  [.call (.block .sample {} none), .call (.getActive .sample), .env (.evict fun _ => true)]

theorem tiered_refines_plain_flushed :
    ∃ w, runAlone .sample .sample (World.empty 0) flushed = some w ∧
      ∀ o w', exec backend (TieredBlockStore.sample.getActive .sample .sample) w = (.ok o, w') →
        o ≠ none := by
  have hrun : (runAlone .sample .sample (World.empty 0) flushed).isSome = true := by
    decide +kernel
  obtain ⟨w, hw⟩ := Option.isSome_iff_exists.mp hrun
  refine ⟨w, hw, fun o w' hx => ?_⟩
  have h := tiered_refines_plain .sample .sample rfl 0 flushed (by decide) w hw
  refine ((h.1 .sample (by decide)).1 o w' hx).mpr (.inl ?_)
  exact Set.mem_insert _ _

end

end SecAudit
