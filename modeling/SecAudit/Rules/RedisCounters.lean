import SecAudit.Rules.Counters
import SecAudit.Stores.Backend

/-!
# Counters in Redis

* `luaNumber`       the number that Lua holds for an integer: the nearest double;
* `incrScript`      the script of `incr`, on the keys of the server;
* `RedisCounterStore`  the store; each of its calls is one command, so that an interleaving of the
                    calls of several workers is a list of served calls;
* `Ledger`          per key, the amounts that were added since the window of the key began;
* `StartsOnce`      what `incr` needs for the window to begin once;
* `window_starts_once`  a run whose calls all meet it keeps the end of every window, and reports
                    the sum of the amounts.

Times are in milliseconds.
-/

set_option linter.unusedVariables false

namespace SecAudit
open Py

/-! ## numbers of the server -/

/-- the nearest number with 53 bits, the even one of two -/
def roundBits (n : Nat) : Nat :=
  if n < 2 ^ 53 then n
  else
    let step := 2 ^ (Nat.log2 n - 52)
    let q := n / step
    if step < 2 * (n % step) ∨ (step = 2 * (n % step) ∧ q % 2 = 1) then (q + 1) * step
    else q * step

/-- `tonumber` of an integer, and the Lua number of an integer reply -/
def luaNumber (n : Int) : Int := if n < 0 then -(roundBits n.natAbs : Int) else roundBits n.natAbs

def int64Min : Int := -(2 ^ 63)

def int64Max : Int := 2 ^ 63 - 1

def InInt64 (n : Int) : Prop := int64Min ≤ n ∧ n ≤ int64Max

instance (n : Int) : Decidable (InInt64 n) := inferInstanceAs (Decidable (_ ∧ _))

/-- the integer that a script returns for a Lua number -/
def luaReply (n : Int) : Int := if luaNumber n ≤ int64Max then luaNumber n else int64Min

/-- the number of a value that `INCRBY` accepts -/
def redisInt (s : Str) : Option Int := (IntReader.plain.read s).filter fun n => decide (InInt64 n)

/-! ## commands of the server -/

/-- the keys of the server, with their ends -/
abbrev RedisKeys := Windows Str Str Int

/-- the server takes `ttl` seconds from now as an expiry -/
def AcceptsTtl (now ttl : Int) : Prop := InInt64 (seconds ttl) ∧ now + seconds ttl ≤ int64Max

instance (now ttl : Int) : Decidable (AcceptsTtl now ttl) := inferInstanceAs (Decidable (_ ∧ _))

/-- `EXPIRE` with a ttl the server takes -/
def expireAt {κ ν : Type} [DecidableEq κ] (now : Int) (k : κ) (ttl : Int) (m : Windows κ ν Int) :
    Windows κ ν Int :=
  match Windows.live now m k with
  | none => m
  | some w =>
    Function.update m k (if 0 < ttl then some ⟨w.value, some (now + seconds ttl)⟩ else none)

/-- `EXPIRE` -/
def expireKey (now : Int) (key : Str) (ttl : Int) (db : RedisKeys) : Except Exc RedisKeys :=
  if AcceptsTtl now ttl then .ok (expireAt now key ttl db) else .error .redisError

/-- `INCRBY` -/
def incrBy (now : Int) (key : Str) (amount : Int) (db : RedisKeys) :
    Except Exc (Int × RedisKeys) :=
  if InInt64 amount then
    match Windows.live now db key with
    | none => .ok (amount, Function.update db key (some ⟨decimalInt amount, none⟩))
    | some w =>
      match redisInt w.value with
      | none => .error .redisError
      | some n =>
        if InInt64 (n + amount) then
          .ok (n + amount, Function.update db key (some ⟨decimalInt (n + amount), w.expiresAt⟩))
        else .error .redisError
  else .error .redisError

/-- `_INCR_EXPIRE_LUA`; what the script has done stays when a later command of it fails -/
def incrScript (now : Int) (key : Str) (amount ttl : Int) (db : RedisKeys) :
    Except Exc Int × RedisKeys :=
  match incrBy now key amount db with
  | .error e => (.error e, db)
  | .ok (v, db) =>
    if 0 < luaNumber ttl ∧ luaNumber v = luaNumber amount then
      match expireKey now key (luaNumber ttl) db with
      | .error e => (.error e, db)
      | .ok db => (.ok (luaReply v), db)
    else (.ok (luaReply v), db)

/-- the server takes the ttl of a `SET` -/
def AcceptsSet (now : Int) (ttl : Option Int) : Prop := ∀ n ∈ ttl, 0 < n ∧ AcceptsTtl now n

instance (now : Int) : (ttl : Option Int) → Decidable (AcceptsSet now ttl)
  | none => .isTrue fun n hn => by cases hn
  | some n => decidable_of_iff (0 < n ∧ AcceptsTtl now n)
      ⟨fun h n' hn => Option.mem_some_iff.mp hn ▸ h, fun h => h n rfl⟩

/-! ## the store -/

structure RedisCounterStore where
  keyPrefix : Str

namespace RedisCounterStore

section
variable (store : RedisCounterStore) (reader : IntReader)

/-- `_key` -/
def key (k : Str) : Str := store.keyPrefix ++ (str ":counter:" ++ k)

def incr (now : Int) (k : Str) (amount : Int) (ttl : Option Int) (db : RedisKeys) :
    Int × RedisKeys :=
  match incrScript now (store.key k) amount (ttl.getD 0) db with
  | (.ok v, db) => (v, db)
  | (.error _, db) => (amount, db)

def getInt (now : Int) (k : Str) (default : Int) (db : RedisKeys) : Int :=
  match Windows.live now db (store.key k) with
  | none => default
  | some w => (reader.read w.value).getD default

def set (now : Int) (k : Str) (value : CounterValue) (ttl : Option Int) (db : RedisKeys) :
    Except Exc Unit × RedisKeys :=
  match value.str with
  | .error e => (.error e, db)
  | .ok text =>
    if AcceptsSet now ttl then
      (.ok (), Function.update db (store.key k) (some ⟨text, ttl.map fun n => now + seconds n⟩))
    else (.ok (), db)

def delete (k : Str) (db : RedisKeys) : RedisKeys := Function.update db (store.key k) none

def expire (now : Int) (k : Str) (ttl : Int) (db : RedisKeys) : RedisKeys :=
  match expireKey now (store.key k) ttl db with
  | .ok db => db
  | .error _ => db

/-- a call, with what it returns -/
def call (now : Int) (db : RedisKeys) : CounterCall → Except Exc (Option Int) × RedisKeys
  | .incr k amount ttl =>
    let r := store.incr now k amount ttl db
    (.ok (some r.1), r.2)
  | .getInt k default => (.ok (some (store.getInt reader now k default db)), db)
  | .set k value ttl =>
    let r := store.set now k value ttl db
    (r.1.map fun _ => none, r.2)
  | .delete k => (.ok none, store.delete k db)
  | .expire k ttl => (.ok none, store.expire now k ttl db)

end

end RedisCounterStore

/-- a call of a worker, at the time the server carries it out -/
structure Served where
  worker : Nat
  now : Int
  call : CounterCall

namespace RedisCounterStore
variable (store : RedisCounterStore) (reader : IntReader)

/-- the keys after the served calls -/
def after : RedisKeys → List Served → RedisKeys
  | db, [] => db
  | db, e :: run => after (store.call reader e.now db e.call).2 run

end RedisCounterStore

/-! ## the amounts since a window began -/

/-- the amounts added under a key since its window began, the value it was set to first; `none`
when it was set to no number -/
abbrev Ledger := Windows Str (Option (List Int)) Int

namespace Ledger

/-- the end of a window that begins now -/
def startEnd (now : Int) (ttl : Option Int) : Option Int :=
  (ttl.filter fun n => decide (0 < n)).map fun n => now + seconds n

/-- what a key that is set starts from -/
def baseOf : CounterValue → Option (List Int)
  | .int n => if InInt64 n then some [n] else none
  | .text s => (redisInt s).map fun n => [n]

def incr (now : Int) (k : Str) (amount : Int) (ttl : Option Int) (l : Ledger) : Ledger :=
  match Windows.live now l k with
  | none => Function.update l k (some ⟨some [amount], startEnd now ttl⟩)
  | some w =>
    Function.update l k (some ⟨w.value.map fun amounts => amounts ++ [amount], w.expiresAt⟩)

/-- the entries after a call -/
def call (now : Int) (l : Ledger) : CounterCall → Ledger
  | .incr k amount ttl => incr now k amount ttl l
  | .getInt _ _ => l
  | .set k value ttl =>
    if value.str.isOk ∧ AcceptsSet now ttl then
      Function.update l k (some ⟨baseOf value, ttl.map fun n => now + seconds n⟩)
    else l
  | .delete k => Function.update l k none
  | .expire k ttl => if AcceptsTtl now ttl then expireAt now k ttl l else l

/-- the entries after a run -/
def after : Ledger → List Served → Ledger
  | l, [] => l
  | l, e :: run => after (call e.now l e.call) run

end Ledger

/-! ## numbers -/

theorem plain_decimalInt (n : Int) : IntReader.plain.read (decimalInt n) = some n := by
  show (if decimalInt n = decimalInt (ofDecimalInt (decimalInt n)) then _ else _) = _
  rw [ofDecimalInt_decimalInt, if_pos rfl]

theorem redisInt_decimalInt {n : Int} (h : InInt64 n) : redisInt (decimalInt n) = some n := by
  unfold redisInt
  rw [plain_decimalInt]
  exact if_pos (decide_eq_true h)

theorem luaNumber_nonpos {n : Int} (h : ¬ 0 < n) : ¬ 0 < luaNumber n := by
  unfold luaNumber
  split
  · omega
  · have h0 : n = 0 := by omega
    subst h0
    decide

theorem luaReply_exact {n : Int} (h : InInt64 n) (he : luaNumber n = n) : luaReply n = n := by
  unfold luaReply
  rw [he, if_pos h.2]

theorem startEnd_pos {now n : Int} (h : 0 < n) :
    Ledger.startEnd now (some n) = some (now + seconds n) :=
  congrArg (Option.map _) (if_pos (decide_eq_true h))

theorem startEnd_nonpos {now : Int} {ttl : Option Int} (h : ¬ 0 < ttl.getD 0) :
    Ledger.startEnd now ttl = none := by
  cases ttl with
  | none => rfl
  | some n => exact congrArg (Option.map _) (if_neg (by simpa using h))

/-! ## expiry -/

section
variable {κ ν : Type} [DecidableEq κ] {now : Int} {m m' : Windows κ ν Int}

theorem alike_expireAt (h : Windows.Alike now m m') (k : κ) (ttl : Int) :
    Windows.Alike now (expireAt now k ttl m) (expireAt now k ttl m') := by
  unfold expireAt
  rw [h k]
  split
  · exact h
  · exact h.update k _

theorem comap_expireAt {κ' ν' : Type} [DecidableEq κ'] {g : κ' → κ}
    (hg : Function.Injective g) (f : ν → ν') (k : κ') (ttl : Int) :
    Windows.comap g f (expireAt now (g k) ttl m) = expireAt now k ttl (Windows.comap g f m) := by
  unfold expireAt
  rw [Windows.live_comap]
  cases Windows.live now m (g k) with
  | none => rfl
  | some w =>
    show Windows.comap g f (Function.update m (g k) _) = Function.update _ k _
    rw [Windows.comap_update hg]
    congr 1
    split <;> rfl

end

/-! ## the server against the ledger -/

namespace RedisCounterStore

section
variable {store : RedisCounterStore} {reader : IntReader} {now : Int} {db : RedisKeys}
  {l : Ledger} {k : Str}

theorem key_injective (store : RedisCounterStore) : Function.Injective store.key :=
  fun k k' h => List.append_cancel_left (List.append_cancel_left h)

/-- the numbers under the keys -/
def view (store : RedisCounterStore) (db : RedisKeys) : Windows Str (Option Int) Int :=
  Windows.comap store.key redisInt db

/-- the totals of the ledger -/
def totals (l : Ledger) : Windows Str (Option Int) Int :=
  Windows.comap id (Option.map List.sum) l

/-- the server holds the totals of the ledger, with the same ends -/
def Tallies (store : RedisCounterStore) (now : Int) (db : RedisKeys) (l : Ledger) : Prop :=
  Windows.Alike now (store.view db) (totals l)

theorem view_update (k : Str) (w : Option (Window Str Int)) :
    store.view (Function.update db (store.key k) w)
      = Function.update (store.view db) k (w.map (Window.map redisInt)) :=
  Windows.comap_update (key_injective store) redisInt db k w

theorem totals_update (k : Str) (w : Option (Window (Option (List Int)) Int)) :
    totals (Function.update l k w)
      = Function.update (totals l) k (w.map (Window.map (Option.map List.sum))) :=
  Windows.comap_update Function.injective_id _ l k w

/-- a key that is not there, or one with its ledger -/
theorem tallies_cases (h : store.Tallies now db l) (k : Str) :
    (Windows.live now db (store.key k) = none ∧ Windows.live now l k = none) ∨
    ∃ w w', Windows.live now db (store.key k) = some w ∧ Windows.live now l k = some w' ∧
      redisInt w.value = w'.value.map List.sum ∧ w.expiresAt = w'.expiresAt := by
  have hk := h k
  unfold view totals at hk
  rw [Windows.live_comap, Windows.live_comap] at hk
  change _ = (Windows.live now l k).map _ at hk
  rcases hw : Windows.live now db (store.key k) with _ | w
  · rw [hw] at hk
    exact .inl ⟨rfl, Option.map_eq_none_iff.mp hk.symm⟩
  · rw [hw] at hk
    obtain ⟨w', hw', he⟩ := Option.map_eq_some_iff.mp hk.symm
    refine .inr ⟨w, w', rfl, hw', ?_, ?_⟩
    · exact (congrArg Window.value he).symm
    · exact (congrArg Window.expiresAt he).symm

/-- both go on with windows that show the same -/
theorem tallies_update (h : store.Tallies now db l) (k : Str) {w : Window Str Int}
    {w' : Window (Option (List Int)) Int} (hv : redisInt w.value = w'.value.map List.sum)
    (he : w.expiresAt = w'.expiresAt) :
    store.Tallies now (Function.update db (store.key k) (some w))
      (Function.update l k (some w')) := by
  unfold Tallies
  rw [view_update, totals_update]
  have hw : w.map redisInt = w'.map (Option.map List.sum) := by
    unfold Window.map
    rw [hv, he]
  rw [Option.map_some, Option.map_some, hw]
  exact h.update k _

/-! ## `incr` -/

/-- the window begins only when the key is not there: its number, if it has one, is not what makes
the script take it for new; and the numbers fit in what the server and Lua carry -/
def BeginsOnce (now amount ttl : Int) : Option (Window Str Int) → Prop
  | none => InInt64 amount ∧ luaNumber amount = amount ∧
      (0 < ttl → luaNumber ttl = ttl ∧ AcceptsTtl now ttl)
  | some w => ∀ n ∈ redisInt w.value, InInt64 amount ∧ InInt64 (n + amount) ∧
      luaNumber (n + amount) = n + amount ∧ (0 < ttl → luaNumber (n + amount) ≠ luaNumber amount)

instance (now amount ttl : Int) : (w : Option (Window Str Int)) →
    Decidable (BeginsOnce now amount ttl w)
  | none => inferInstanceAs (Decidable (_ ∧ _ ∧ (_ → _)))
  | some w => inferInstanceAs (Decidable (∀ n ∈ redisInt w.value, _ ∧ _ ∧ _ ∧ (_ → _)))

def StartsOnce (store : RedisCounterStore) (now : Int) (db : RedisKeys) : CounterCall → Prop
  | .incr k amount ttl =>
    BeginsOnce now amount (ttl.getD 0) (Windows.live now db (store.key k))
  | _ => True

instance (now : Int) (db : RedisKeys) : (c : CounterCall) → Decidable (store.StartsOnce now db c)
  | .incr k amount ttl => inferInstanceAs (Decidable (BeginsOnce ..))
  | .set _ _ _ => .isTrue trivial
  | .getInt _ _ => .isTrue trivial
  | .delete _ => .isTrue trivial
  | .expire _ _ => .isTrue trivial

theorem luaNumber_small {n : Int} (h : n.natAbs < 2 ^ 53) : luaNumber n = n := by
  unfold luaNumber roundBits
  rw [if_pos h]
  split <;> omega

/-- with numbers below 2^53 the one thing that goes wrong is a key that holds `0` -/
theorem beginsOnce_small {amount ttl n : Int} {w : Window Str Int} (hn : redisInt w.value = some n)
    (hpos : 0 < ttl) (ha : amount.natAbs < 2 ^ 53) (hs : (n + amount).natAbs < 2 ^ 53) :
    BeginsOnce now amount ttl (some w) ↔ n ≠ 0 := by
  have hi : ∀ {m : Int}, m.natAbs < 2 ^ 53 → InInt64 m := by
    intro m hm
    unfold InInt64 int64Min int64Max
    omega
  change (∀ m ∈ redisInt w.value, _ ∧ _ ∧ _ ∧ (_ → luaNumber (m + amount) ≠ _)) ↔ _
  rw [hn]
  constructor
  · intro h h0
    subst h0
    exact (h 0 rfl).2.2.2 hpos (by rw [Int.zero_add])
  · intro h m hm
    obtain rfl := Option.mem_some_iff.mp hm
    rw [luaNumber_small hs, luaNumber_small ha]
    exact ⟨hi ha, hi hs, rfl, fun _ he => h (by omega)⟩

/-- a key that is not there gets the amount and its end -/
theorem incr_starts {amount : Int} {ttl : Option Int}
    (hn : Windows.live now db (store.key k) = none)
    (hc : store.StartsOnce now db (.incr k amount ttl)) :
    store.incr now k amount ttl db = (amount, Function.update db (store.key k)
      (some ⟨decimalInt amount, Ledger.startEnd now ttl⟩)) := by
  change BeginsOnce .. at hc
  rw [hn] at hc
  obtain ⟨ha, hexact, httl⟩ := hc
  unfold incr incrScript incrBy
  rw [if_pos ha, hn]
  simp only [and_true]
  by_cases hpos : 0 < ttl.getD 0
  · obtain ⟨hlua, haccept⟩ := httl hpos
    obtain ⟨n, rfl⟩ : ∃ n, ttl = some n := by
      cases ttl with
      | none => exact absurd hpos (lt_irrefl _)
      | some n => exact ⟨n, rfl⟩
    rw [Option.getD_some] at hpos hlua haccept ⊢
    have hlive : Windows.live now
        (Function.update db (store.key k) (some ⟨decimalInt amount, none⟩)) (store.key k)
        = some ⟨decimalInt amount, none⟩ :=
      Windows.live_eq_some.mpr ⟨Function.update_self .., fun e he => by cases he⟩
    unfold expireKey expireAt
    rw [hlua, if_pos hpos, if_pos haccept, hlive]
    simp only [if_pos hpos, Function.update_idem, luaReply_exact ha hexact, startEnd_pos hpos]
  · rw [if_neg (luaNumber_nonpos hpos)]
    simp only [luaReply_exact ha hexact, startEnd_nonpos hpos]

/-- a key with a number keeps its end, and the amount is added -/
theorem incr_adds {amount n : Int} {ttl : Option Int} {w : Window Str Int}
    (hw : Windows.live now db (store.key k) = some w) (hn : redisInt w.value = some n)
    (hc : store.StartsOnce now db (.incr k amount ttl)) :
    store.incr now k amount ttl db = (n + amount, Function.update db (store.key k)
      (some ⟨decimalInt (n + amount), w.expiresAt⟩)) ∧ InInt64 (n + amount) := by
  change BeginsOnce .. at hc
  rw [hw] at hc
  obtain ⟨ha, hsum, hexact, hne⟩ := hc n hn
  refine ⟨?_, hsum⟩
  have hno : ¬ (0 < luaNumber (ttl.getD 0) ∧ luaNumber (n + amount) = luaNumber amount) := by
    rintro ⟨hpos, heq⟩
    by_cases h0 : 0 < ttl.getD 0
    · exact hne h0 heq
    · exact luaNumber_nonpos h0 hpos
  unfold incr incrScript incrBy
  rw [if_pos ha, hw]
  simp only [hn, if_pos hsum, if_neg hno, luaReply_exact hsum hexact]

/-- a key with no number stays as it is -/
theorem incr_refused {amount : Int} {ttl : Option Int} {w : Window Str Int}
    (hw : Windows.live now db (store.key k) = some w) (hn : redisInt w.value = none) :
    store.incr now k amount ttl db = (amount, db) := by
  have hb : incrBy now (store.key k) amount db = .error .redisError := by
    unfold incrBy
    rw [hw]
    simp only [hn, ite_self]
  unfold incr incrScript
  rw [hb]

/-! ## the calls -/

theorem tallies_incr {amount : Int} {ttl : Option Int} (h : store.Tallies now db l)
    (hc : store.StartsOnce now db (.incr k amount ttl)) :
    store.Tallies now (store.incr now k amount ttl db).2 (Ledger.incr now k amount ttl l) := by
  unfold Ledger.incr
  rcases tallies_cases h k with ⟨hn, hl⟩ | ⟨w, w', hw, hl, hv, he⟩
  · rw [incr_starts hn hc, hl]
    refine tallies_update h k ?_ rfl
    rw [redisInt_decimalInt (show InInt64 amount from by
      change BeginsOnce .. at hc
      rw [hn] at hc
      exact hc.1)]
    simp
  · rw [hl]
    rcases hr : redisInt w.value with _ | n
    · -- the server refuses: nothing changes, and the ledger has no amounts to add to
      rw [incr_refused hw hr]
      rw [hr] at hv
      have hnone : w'.value = none := Option.map_eq_none_iff.mp hv.symm
      show store.Tallies now db (Function.update l k (some ⟨w'.value.map _, w'.expiresAt⟩))
      rw [hnone]
      refine Windows.Alike.trans h ?_
      rw [totals_update]
      have hsame : Windows.live now (totals l) k
          = some (w'.map (Option.map List.sum)) := by
        unfold totals
        rw [Windows.live_comap]
        exact congrArg (Option.map _) hl
      unfold Window.map at hsame ⊢
      rw [hnone] at hsame
      exact (Windows.Alike.touch hsame).symm
    · obtain ⟨hi, hsum⟩ := incr_adds hw hr hc
      rw [hi]
      refine tallies_update h k ?_ he
      rw [redisInt_decimalInt hsum]
      rw [hr] at hv
      obtain ⟨amounts, ha, hs⟩ := Option.map_eq_some_iff.mp hv.symm
      rw [ha, Option.map_some, Option.map_some, List.sum_append, hs]
      simp

/-- the number a key is set to -/
theorem baseOf_text {value : CounterValue} {text : Str} (h : value.str = .ok text) :
    redisInt text = (Ledger.baseOf value).map List.sum := by
  cases value with
  | text s =>
    obtain rfl := Except.ok.inj h
    show redisInt s = ((redisInt s).map fun n => [n]).map List.sum
    cases redisInt s with
    | none => rfl
    | some n => simp
  | int n =>
    change intText n = .ok text at h
    unfold intText at h
    split at h
    · obtain rfl := Except.ok.inj h
      show redisInt (decimalInt n) = (if InInt64 n then some [n] else none).map List.sum
      by_cases hn : InInt64 n
      · rw [redisInt_decimalInt hn, if_pos hn]
        simp
      · rw [if_neg hn]
        unfold redisInt
        rw [plain_decimalInt]
        exact if_neg (by simpa using hn)
    · cases h

theorem tallies_set {value : CounterValue} {ttl : Option Int} (h : store.Tallies now db l) :
    store.Tallies now (store.set now k value ttl db).2
      (Ledger.call now l (.set k value ttl)) := by
  unfold set
  change store.Tallies now _ (if value.str.isOk ∧ AcceptsSet now ttl then _ else l)
  rcases hs : value.str with e | text
  · rw [if_neg (fun hb => Bool.false_ne_true hb.1)]
    exact h
  · by_cases ha : AcceptsSet now ttl
    · simp only [if_pos ha]
      rw [if_pos ⟨rfl, ha⟩]
      exact tallies_update h k (baseOf_text hs) rfl
    · simp only [if_neg ha]
      rw [if_neg (fun hb => ha hb.2)]
      exact h

theorem tallies_expire {ttl : Int} (h : store.Tallies now db l) :
    store.Tallies now (store.expire now k ttl db) (Ledger.call now l (.expire k ttl)) := by
  unfold expire expireKey
  change store.Tallies now _ (if AcceptsTtl now ttl then expireAt now k ttl l else l)
  by_cases ha : AcceptsTtl now ttl
  · simp only [if_pos ha]
    unfold Tallies view totals
    rw [comap_expireAt (key_injective store),
      show expireAt now k ttl l = expireAt now (id k) ttl l from rfl,
      comap_expireAt Function.injective_id]
    exact alike_expireAt h k ttl
  · simp only [if_neg ha]
    exact h

/-- **one call** keeps the server and the ledger together -/
theorem tallies_call {c : CounterCall} (h : store.Tallies now db l)
    (hc : store.StartsOnce now db c) :
    store.Tallies now (store.call reader now db c).2 (Ledger.call now l c) := by
  cases c with
  | incr k amount ttl => exact tallies_incr h hc
  | getInt k default => exact h
  | set k value ttl => exact tallies_set h
  | delete k =>
    show store.Tallies now (Function.update db (store.key k) none) (Function.update l k none)
    unfold Tallies
    rw [view_update, totals_update]
    exact h.update k none
  | expire k ttl => exact tallies_expire h

/-- what an `incr` with a ttl does to the window of its key, and what it reports -/
structure WindowLaw (store : RedisCounterStore) (reader : IntReader) (now : Int) (k : Str)
    (amount ttl : Int) (db : RedisKeys) (l : Ledger) : Prop where
  /-- the end of a key that is there stays -/
  kept : ∀ w, Windows.live now db (store.key k) = some w →
    ∃ w', Windows.live now (store.call reader now db (.incr k amount (some ttl))).2 (store.key k)
      = some w' ∧ w'.expiresAt = w.expiresAt
  /-- a key that is not there ends after `ttl` -/
  started : Windows.live now db (store.key k) = none →
    ∃ w', Windows.live now (store.call reader now db (.incr k amount (some ttl))).2 (store.key k)
      = some w' ∧ w'.expiresAt = some (now + seconds ttl)
  /-- the reply is the sum of the amounts since the window began -/
  total : ∀ amounts, (Windows.live now (Ledger.incr now k amount (some ttl) l) k).bind
      Window.value = some amounts →
    (store.call reader now db (.incr k amount (some ttl))).1 = .ok (some amounts.sum)

theorem live_update_self {ν : Type} {m : Windows Str ν Int} {w : Window ν Int}
    (h : w.LiveAt now) (k : Str) : Windows.live now (Function.update m k (some w)) k = some w :=
  Windows.live_eq_some.mpr ⟨Function.update_self .., h⟩

theorem incr_law {amount ttl : Int} (h : store.Tallies now db l) (hpos : 0 < ttl)
    (hc : store.StartsOnce now db (.incr k amount (some ttl))) :
    store.WindowLaw reader now k amount ttl db l := by
  have hend : ∀ {ν : Type} (v : ν), (Window.mk v (some (now + seconds ttl))).LiveAt now := by
    rintro ν v e he
    obtain rfl := Option.mem_some_iff.mp he
    unfold seconds
    omega
  rcases tallies_cases h k with ⟨hn, hl⟩ | ⟨w, w', hw, hl, hv, he⟩
  · have hi := incr_starts hn hc
    rw [startEnd_pos hpos] at hi
    refine ⟨fun w hw => ?_, fun _ => ?_, fun amounts ha => ?_⟩
    · rw [hn] at hw
      cases hw
    · show ∃ w', Windows.live now (store.incr now k amount (some ttl) db).2 _ = some w' ∧ _
      rw [hi]
      exact ⟨_, live_update_self (hend _) _, rfl⟩
    · unfold Ledger.incr at ha
      rw [hl] at ha
      simp only at ha
      rw [startEnd_pos hpos, live_update_self (hend _)] at ha
      obtain rfl := Option.some.inj ha
      show Except.ok (some (store.incr now k amount (some ttl) db).1) = _
      rw [hi, List.sum_singleton]
  · have hlive : w.LiveAt now := (Windows.live_eq_some.mp hw).2
    have hlive' : ∀ v, (Window.mk (ν := Option (List Int)) v w'.expiresAt).LiveAt now :=
      fun v => he ▸ hlive
    rcases hr : redisInt w.value with _ | n
    · have hi : store.incr now k amount (some ttl) db = (amount, db) := incr_refused hw hr
      refine ⟨fun w₁ hw₁ => ?_, fun hn => ?_, fun amounts ha => ?_⟩
      · show ∃ w', Windows.live now (store.incr now k amount (some ttl) db).2 _ = some w' ∧ _
        rw [hi]
        exact ⟨w₁, hw₁, rfl⟩
      · rw [hn] at hw
        cases hw
      · rw [hr] at hv
        unfold Ledger.incr at ha
        rw [hl] at ha
        simp only at ha
        rw [live_update_self (hlive' _), Option.bind_some,
          Option.map_eq_none_iff.mp hv.symm] at ha
        cases ha
    · obtain ⟨hi, hsum⟩ := incr_adds hw hr hc
      refine ⟨fun w₁ hw₁ => ?_, fun hn => ?_, fun amounts ha => ?_⟩
      · show ∃ w', Windows.live now (store.incr now k amount (some ttl) db).2 _ = some w' ∧ _
        rw [hi]
        obtain rfl := Option.some.inj (hw.symm.trans hw₁)
        have hadd : (Window.mk (decimalInt (n + amount)) w.expiresAt).LiveAt now := hlive
        exact ⟨_, live_update_self hadd _, rfl⟩
      · rw [hn] at hw
        cases hw
      · rw [hr] at hv
        obtain ⟨earlier, hearlier, hs⟩ := Option.map_eq_some_iff.mp hv.symm
        unfold Ledger.incr at ha
        rw [hl] at ha
        simp only at ha
        rw [live_update_self (hlive' _), Option.bind_some, hearlier] at ha
        obtain rfl := Option.some.inj ha
        show Except.ok (some (store.incr now k amount (some ttl) db).1) = _
        rw [hi, List.sum_append, hs, List.sum_singleton]

end

/-! ## runs -/

section
variable (store : RedisCounterStore) (reader : IntReader)

/-- every call of the run meets `StartsOnce` -/
def RunsOnce : RedisKeys → List Served → Prop
  | _, [] => True
  | db, e :: run => store.StartsOnce e.now db e.call ∧
      RunsOnce (store.call reader e.now db e.call).2 run

instance decidableRunsOnce : (db : RedisKeys) → (run : List Served) →
    Decidable (store.RunsOnce reader db run)
  | _, [] => .isTrue trivial
  | db, e :: run =>
    have := decidableRunsOnce (store.call reader e.now db e.call).2 run
    inferInstanceAs (Decidable (_ ∧ _))

end

/-- **the run up to a call** keeps the server and the ledger together -/
theorem tallies_after {store : RedisCounterStore} {reader : IntReader} :
    ∀ {pre post : List Served} {e : Served} {now : Int} {db : RedisKeys} {l : Ledger},
    store.Tallies now db l → (∀ x ∈ pre ++ e :: post, now ≤ x.now) →
    ((pre ++ e :: post).map Served.now).Pairwise (· ≤ ·) →
    store.RunsOnce reader db (pre ++ e :: post) →
    store.Tallies e.now (store.after reader db pre) (Ledger.after l pre) ∧
      store.StartsOnce e.now (store.after reader db pre) e.call
  | [], post, e, now, db, l, h, hle, _, hrun =>
    ⟨h.later (hle e List.mem_cons_self), hrun.1⟩
  | x :: pre, post, e, now, db, l, h, hle, hclock, hrun => by
    rw [List.cons_append, List.map_cons, List.pairwise_cons] at hclock
    have hx := @tallies_call store reader x.now db l x.call (h.later (hle x List.mem_cons_self))
      hrun.1
    exact @tallies_after store reader pre post e x.now _ _ hx
      (fun y hy => hclock.1 _ (List.mem_map_of_mem hy)) hclock.2 hrun.2

end RedisCounterStore

/-- **The window of a counter starts once**, in every run in which no `incr` finds a number under
its key that makes the script take the key for new: counting keeps its end, and the total is the
sum of the amounts since it began. -/
theorem window_starts_once (reader : IntReader) (store : RedisCounterStore) (run : List Served)
    (hclock : (run.map Served.now).Pairwise (· ≤ ·))
    (hrun : store.RunsOnce reader (fun _ => none) run) (pre post : List Served) (e : Served)
    (hsplit : run = pre ++ e :: post) (k : Str) (amount ttl : Int)
    (hcall : e.call = .incr k amount (some ttl)) (hpos : 0 < ttl) :
    store.WindowLaw reader e.now k amount ttl (store.after reader (fun _ => none) pre)
      (Ledger.after (fun _ => none) pre) := by
  subst hsplit
  obtain ⟨first, hfirst⟩ : ∃ first, ∀ x ∈ pre ++ e :: post, first ≤ x.now := by
    cases pre with
    | nil =>
      rw [List.nil_append, List.map_cons, List.pairwise_cons] at hclock
      refine ⟨e.now, fun x hx => ?_⟩
      rcases List.mem_cons.mp hx with rfl | hx
      · exact le_rfl
      · exact hclock.1 _ (List.mem_map_of_mem hx)
    | cons y pre =>
      rw [List.cons_append, List.map_cons, List.pairwise_cons] at hclock
      refine ⟨y.now, fun x hx => ?_⟩
      rcases List.mem_cons.mp hx with rfl | hx
      · exact le_rfl
      · exact hclock.1 _ (List.mem_map_of_mem hx)
  have hempty : store.Tallies first (fun _ => none) (fun _ => none) := fun _ => rfl
  obtain ⟨ht, hs⟩ := RedisCounterStore.tallies_after hempty hfirst hclock hrun
  rw [hcall] at hs
  exact RedisCounterStore.incr_law ht hpos hs

def RedisCounterStore.sample : RedisCounterStore := ⟨str "sec_audit"⟩

/-- two workers count in one window, and a third time when it is over -/
def sharedHits : List Served :=
  [⟨0, 0, .incr (str "login") 1 (some 60)⟩, ⟨1, 30000, .incr (str "login") 2 (some 60)⟩,
    ⟨0, 70000, .incr (str "login") 1 (some 60)⟩]

theorem window_starts_once_shared :
    RedisCounterStore.sample.WindowLaw .plain 30000 (str "login") 2 60
      (RedisCounterStore.sample.after .plain (fun _ => none) (sharedHits.take 1))
      (Ledger.after (fun _ => none) (sharedHits.take 1)) :=
  window_starts_once .plain .sample sharedHits (by decide) (by decide +kernel)
    (sharedHits.take 1) (sharedHits.drop 2) ⟨1, 30000, .incr (str "login") 2 (some 60)⟩ rfl
    (str "login") 2 60 rfl (by decide)

/-- a hit that is taken back, and another one half a minute later -/
def takenBack : List Served :=
  [⟨0, 0, .incr (str "login") 1 (some 60)⟩, ⟨0, 1000, .incr (str "login") (-1) (some 60)⟩,
    ⟨1, 30000, .incr (str "login") 1 (some 60)⟩]

/-- the last hit finds the number `0` in a window that ends at 60 s, and moves the end to 90 s -/
theorem window_extended :
    (takenBack.map Served.now).Pairwise (· ≤ ·) ∧
    Windows.live 30000 (RedisCounterStore.sample.after .plain (fun _ => none) (takenBack.take 2))
      (RedisCounterStore.sample.key (str "login")) = some ⟨str "0", some 60000⟩ ∧
    Windows.live 30000 (RedisCounterStore.sample.after .plain (fun _ => none) takenBack)
      (RedisCounterStore.sample.key (str "login")) = some ⟨str "1", some 90000⟩ := by
  decide +kernel

end SecAudit
