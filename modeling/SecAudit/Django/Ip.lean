import Mathlib.Tactic.Common
import SecAudit.Core.Value

/-!
# The address of the client

* `IpLibrary`       what `ipaddress` does;
* `TrustedProxyConfig`  the trusted networks and how many proxies stand in a row;
* `resolveClientIp` the peer, or behind trusted proxies the entry of the forwarded header that the
                    outermost of them wrote;
* `resolve_untrusted`, `resolve_prefix`, `resolve_trusted`  what a client can change of it;
* `client_ip_fixed` the three together.
-/

set_option linter.unusedVariables false

namespace SecAudit
open Py

structure IpLibrary where
  Address : Type
  Network : Type
  /-- `ip_address`, unless it raises `ValueError` -/
  parse : Str → Option Address
  /-- `ip_network(…, strict=False)`, unless it raises `ValueError` -/
  parseNetwork : Str → Option Network
  contains : Network → Address → Bool
  /-- `str(address)` -/
  text : Address → Str
  isGlobal : Address → Bool
  isPrivate : Address → Bool
  isLoopback : Address → Bool

structure ClientIP where
  ip : Str
  trustedRoute : Bool
  isGlobal : Bool := false
  isPrivate : Bool := false
  isLoopback : Bool := false
deriving DecidableEq

structure TrustedProxyConfig (lib : IpLibrary) where
  trustedProxyCidrs : List Str := []
  trustedProxyCount : Option Nat := none
  networks : List lib.Network
  parsed : trustedProxyCidrs.mapM lib.parseNetwork = some networks
  count_pos : ∀ n ∈ trustedProxyCount, 0 < n
  together : trustedProxyCidrs ≠ [] ↔ trustedProxyCount.isSome = true

/-- `TrustedProxyConfig()` -/
def TrustedProxyConfig.off (lib : IpLibrary) : TrustedProxyConfig lib where
  networks := []
  parsed := rfl
  count_pos := by simp
  together := by simp

section
variable {lib : IpLibrary}

/-- `str(meta.get(k) or '')` -/
def metaText (k : Str) (request : List (Str × Str)) : Str := (getItem k request).getD []

def REMOTE_ADDR : Str := str "REMOTE_ADDR"

def HTTP_X_FORWARDED_FOR : Str := str "HTTP_X_FORWARDED_FOR"

/-- `_client_ip` -/
def clientIp (ip : Str) (trustedRoute : Bool) (ipObj : Option lib.Address) : ClientIP :=
  if ip = [] then { ip := [], trustedRoute }
  else match ipObj.or (lib.parse ip) with
    | some address => ⟨lib.text address, trustedRoute, lib.isGlobal address,
        lib.isPrivate address, lib.isLoopback address⟩
    | none => { ip := [], trustedRoute }

/-- `[part.strip() for part in header.split(',') if part.strip()]` -/
def forwardedParts (header : Str) : List Str :=
  ((header.splitOn (cp ',')).map strip).filter fun part => decide (part ≠ [])

/-- the address lies in a trusted network -/
def TrustedProxyConfig.trusts (config : TrustedProxyConfig lib) (address : lib.Address) : Bool :=
  config.networks.any fun network => lib.contains network address

/-- the entry parses, to an address in a trusted network -/
def TrustedProxyConfig.trustsHop (config : TrustedProxyConfig lib) (hop : Str) : Bool :=
  match lib.parse hop with
  | some address => config.trusts address
  | none => false

/-- `parts[-n:]` -/
def lastParts (n : Nat) (parts : List Str) : List Str := parts.drop (parts.length - n)

/-- `parts[-n]` -/
def fromRight (n : Nat) (parts : List Str) : Option Str :=
  if n = 0 then parts.head? else parts[parts.length - n]?

/-- `_client_from_forwarded_for` -/
def clientFromForwardedFor (config : TrustedProxyConfig lib) (header : Str) (count : Nat) :
    Option lib.Address :=
  let parts := forwardedParts header
  if parts = [] ∨ parts.length < count then none
  else if count > 1 ∧ (lastParts (count - 1) parts).all config.trustsHop = false then none
  else (fromRight count parts).bind lib.parse

def resolveClientIp (config : TrustedProxyConfig lib) (request : List (Str × Str)) : ClientIP :=
  let remoteAddr := metaText REMOTE_ADDR request
  if config.trustedProxyCidrs = [] then clientIp remoteAddr false (@none lib.Address)
  else match lib.parse remoteAddr with
    | none => clientIp remoteAddr false (@none lib.Address)
    | some remoteIp =>
      if config.trusts remoteIp then
        match clientFromForwardedFor config (metaText HTTP_X_FORWARDED_FOR request)
          (config.trustedProxyCount.getD 0) with
        | none => clientIp remoteAddr false (some remoteIp)
        | some ip => clientIp (lib.text ip) true (some ip)
      else clientIp remoteAddr false (some remoteIp)

/-! ## what a client can change -/

variable {config : TrustedProxyConfig lib}

/-- the peer is a trusted proxy -/
def TrustedProxyConfig.TrustsPeer (config : TrustedProxyConfig lib)
    (request : List (Str × Str)) : Prop :=
  ∃ address, lib.parse (metaText REMOTE_ADDR request) = some address ∧
    config.trusts address = true

/-- **without a trusted peer the forwarded header is not read** -/
theorem resolve_untrusted {request request' : List (Str × Str)}
    (h : ¬ config.TrustsPeer request)
    (hr : metaText REMOTE_ADDR request' = metaText REMOTE_ADDR request) :
    resolveClientIp config request' = resolveClientIp config request := by
  unfold resolveClientIp
  rw [hr]
  by_cases hc : config.trustedProxyCidrs = []
  · simp only [if_pos hc]
  simp only [if_neg hc]
  rcases hp : lib.parse (metaText REMOTE_ADDR request) with _ | address
  · rfl
  · have ht : config.trusts address = false := by
      rw [← Bool.not_eq_true]
      exact fun ht => h ⟨address, hp, ht⟩
    simp only [ht, Bool.false_eq_true, if_false]

theorem forwardedParts_append (p h : Str) :
    forwardedParts (p ++ cp ',' :: h) = forwardedParts p ++ forwardedParts h := by
  unfold forwardedParts
  rw [List.splitOn_eq_splitOnP, List.splitOnP_append_cons p h (by simp), List.map_append,
    List.filter_append]
  rfl

/-- the entries counted from the right do not move -/
theorem lastParts_append {n : Nat} {l m : List Str} (h : n ≤ m.length) :
    lastParts n (l ++ m) = lastParts n m := by
  unfold lastParts
  rw [List.length_append, Nat.add_sub_assoc h, List.drop_append]
  simp

theorem fromRight_append {n : Nat} {l m : List Str} (h0 : 0 < n) (h : n ≤ m.length) :
    fromRight n (l ++ m) = fromRight n m := by
  unfold fromRight
  rw [if_neg (Nat.ne_of_gt h0), if_neg (Nat.ne_of_gt h0), List.length_append,
    Nat.add_sub_assoc h, List.getElem?_append_right (Nat.le_add_right ..), Nat.add_sub_cancel_left]

/-- text before the header changes nothing -/
theorem clientFromForwardedFor_prefix {n : Nat} {p h : Str} (h0 : 0 < n)
    (hn : n ≤ (forwardedParts h).length) :
    clientFromForwardedFor config (p ++ cp ',' :: h) n = clientFromForwardedFor config h n := by
  have hne : forwardedParts h ≠ [] := by
    intro he
    rw [he] at hn
    exact absurd hn (Nat.not_le_of_gt h0)
  have hl : ¬ (forwardedParts (p ++ cp ',' :: h) = [] ∨
      (forwardedParts (p ++ cp ',' :: h)).length < n) := by
    rw [forwardedParts_append, not_or, not_lt, List.length_append]
    exact ⟨List.append_ne_nil_of_right_ne_nil _ hne, hn.trans (Nat.le_add_left ..)⟩
  have hr : ¬ (forwardedParts h = [] ∨ (forwardedParts h).length < n) := by
    rw [not_or, not_lt]
    exact ⟨hne, hn⟩
  unfold clientFromForwardedFor
  simp only [if_neg hl, if_neg hr]
  rw [forwardedParts_append, lastParts_append ((Nat.sub_le n 1).trans hn), fromRight_append h0 hn]

/-- **text before the header changes nothing**, when a trusted peer sends enough entries -/
theorem resolve_prefix {request : List (Str × Str)} {n : Nat} {p h : Str}
    (ht : config.TrustsPeer request) (hn : config.trustedProxyCount = some n)
    (hh : metaText HTTP_X_FORWARDED_FOR request = h) (hl : n ≤ (forwardedParts h).length) :
    resolveClientIp config (setItem HTTP_X_FORWARDED_FOR (p ++ cp ',' :: h) request)
      = resolveClientIp config request := by
  obtain ⟨address, hp, ha⟩ := ht
  have hc : config.trustedProxyCidrs ≠ [] := by
    rw [config.together, hn]
    rfl
  have hremote : metaText REMOTE_ADDR (setItem HTTP_X_FORWARDED_FOR (p ++ cp ',' :: h) request)
      = metaText REMOTE_ADDR request := by
    unfold metaText
    rw [getItem_setItem_other _ _ (by decide)]
  have hheader : metaText HTTP_X_FORWARDED_FOR
      (setItem HTTP_X_FORWARDED_FOR (p ++ cp ',' :: h) request) = p ++ cp ',' :: h := by
    unfold metaText
    rw [getItem_setItem_same]
    rfl
  unfold resolveClientIp
  simp only [hremote, hheader, hh, if_neg hc, hp, ha, if_true, hn, Option.getD_some,
    clientFromForwardedFor_prefix (config.count_pos n hn) hl]

/-- the client that the header names, behind hops that are all trusted -/
structure Attested (config : TrustedProxyConfig lib) (header ip : Str) : Prop where
  named : ∃ n entry address, config.trustedProxyCount = some n ∧
    n ≤ (forwardedParts header).length ∧
    fromRight n (forwardedParts header) = some entry ∧ lib.parse entry = some address ∧
    ip = lib.text address ∧
    ∀ hop ∈ lastParts (n - 1) (forwardedParts header), config.trustsHop hop = true

theorem clientFromForwardedFor_some {header : Str} {n : Nat} {address : lib.Address}
    (h : clientFromForwardedFor config header n = some address) :
    n ≤ (forwardedParts header).length ∧
    (∃ entry, fromRight n (forwardedParts header) = some entry ∧
      lib.parse entry = some address) ∧
    ∀ hop ∈ lastParts (n - 1) (forwardedParts header), config.trustsHop hop = true := by
  unfold clientFromForwardedFor at h
  simp only at h
  split at h
  · cases h
  split at h
  · cases h
  rename_i hlen hhops
  obtain ⟨entry, he, ha⟩ := Option.bind_eq_some_iff.mp h
  rw [not_or, not_lt] at hlen
  refine ⟨hlen.2, ⟨entry, he, ha⟩, fun hop hm => ?_⟩
  by_cases hn : n > 1
  · rw [not_and, Bool.not_eq_false] at hhops
    exact List.all_eq_true.mp (hhops hn) hop hm
  · -- one proxy, no hop between it and the client
    have h0 : n - 1 = 0 := by omega
    rw [h0] at hm
    unfold lastParts at hm
    rw [Nat.sub_zero, List.drop_length] at hm
    cases hm

theorem clientIp_text {ip : Str} {route : Bool} {address : lib.Address} :
    (clientIp ip route (some address)).trustedRoute = route ∧
      (ip = lib.text address → (clientIp ip route (some address)).ip = lib.text address) := by
  unfold clientIp
  split
  · rename_i h
    exact ⟨rfl, fun he => h.symm.trans he⟩
  · exact ⟨rfl, fun _ => rfl⟩

theorem clientIp_route {ip : Str} {route : Bool} {ipObj : Option lib.Address} :
    (clientIp ip route ipObj).trustedRoute = route := by
  unfold clientIp
  split
  · rfl
  · split <;> rfl

/-- **a trusted route is attested** by the header -/
theorem resolve_trusted {request : List (Str × Str)}
    (h : (resolveClientIp config request).trustedRoute = true) :
    Attested config (metaText HTTP_X_FORWARDED_FOR request) (resolveClientIp config request).ip := by
  unfold resolveClientIp at h ⊢
  simp only at h ⊢
  split at h
  · rw [clientIp_route] at h
    cases h
  rename_i hc
  rw [if_neg hc]
  rcases hp : lib.parse (metaText REMOTE_ADDR request) with _ | remoteIp
  · rw [hp] at h
    simp only [clientIp_route] at h
    cases h
  rw [hp] at h
  simp only at h ⊢
  split at h
  · rename_i ht
    rw [if_pos ht]
    obtain ⟨n, hn⟩ := Option.isSome_iff_exists.mp (config.together.mp hc)
    rw [hn, Option.getD_some] at h ⊢
    rcases hf : clientFromForwardedFor config (metaText HTTP_X_FORWARDED_FOR request) n with _ | ip
    · rw [hf] at h
      simp only [clientIp_route] at h
      cases h
    · obtain ⟨hl, ⟨entry, he, ha⟩, hhops⟩ := clientFromForwardedFor_some hf
      exact ⟨n, entry, ip, hn, hl, he, ha, clientIp_text.2 rfl, hhops⟩
  · rw [clientIp_route] at h
    cases h

end

/-- **A client cannot choose its own address**: without a trusted peer the forwarded header is not
read; behind a trusted peer, text before a header that has enough entries changes nothing; and what
is found on a trusted route stands in the header, behind trusted hops only. -/
theorem client_ip_fixed (lib : IpLibrary) (config : TrustedProxyConfig lib)
    (request : List (Str × Str)) :
    (¬ config.TrustsPeer request → ∀ request' : List (Str × Str),
      (∀ k, k ≠ HTTP_X_FORWARDED_FOR → getItem k request' = getItem k request) →
      resolveClientIp config request' = resolveClientIp config request) ∧
    (config.TrustsPeer request → ∀ (n : Nat) (p h : Str), config.trustedProxyCount = some n →
      metaText HTTP_X_FORWARDED_FOR request = h → n ≤ (forwardedParts h).length →
      resolveClientIp config (setItem HTTP_X_FORWARDED_FOR (p ++ cp ',' :: h) request)
        = resolveClientIp config request) ∧
    ((resolveClientIp config request).trustedRoute = true →
      Attested config (metaText HTTP_X_FORWARDED_FOR request)
        (resolveClientIp config request).ip) := by
  refine ⟨fun h request' hk => ?_, fun ht n p h hn hh hl => ?_, resolve_trusted⟩
  · refine resolve_untrusted h ?_
    unfold metaText
    rw [hk REMOTE_ADDR (by decide)]
  · exact resolve_prefix ht hn hh hl

/-- three addresses and the network `10.0.0.0/8` -/
def IpLibrary.sample : IpLibrary where
  Address := Str
  Network := Str
  parse s := if s ∈ [str "10.0.0.1", str "10.0.0.2", str "203.0.113.7"] then some s else none
  parseNetwork s := if s = str "10.0.0.0/8" then some (str "10.") else none
  contains network address := network.isPrefixOf address
  text address := address
  isGlobal address := !(str "10.").isPrefixOf address
  isPrivate address := (str "10.").isPrefixOf address
  isLoopback _ := false

/-- two trusted proxies -/
def TrustedProxyConfig.twoHops : TrustedProxyConfig .sample where
  trustedProxyCidrs := [str "10.0.0.0/8"]
  trustedProxyCount := some 2
  networks := [str "10."]
  parsed := rfl
  count_pos := by simp
  together := by simp

/-- a client behind the two -/
def proxied : List (Str × Str) :=
  [(REMOTE_ADDR, str "10.0.0.1"), (HTTP_X_FORWARDED_FOR, str "203.0.113.7, 10.0.0.2")]

/-- whatever the client sends before its address is ignored, the first hop being trusted -/
theorem client_ip_fixed_proxied :
    (∀ p : Str, resolveClientIp .twoHops
        (setItem HTTP_X_FORWARDED_FOR (p ++ cp ',' :: str "203.0.113.7, 10.0.0.2") proxied)
      = ⟨str "203.0.113.7", true, true, false, false⟩) ∧
    Attested .twoHops (str "203.0.113.7, 10.0.0.2") (str "203.0.113.7") := by
  have hr : resolveClientIp .twoHops proxied = ⟨str "203.0.113.7", true, true, false, false⟩ := by
    decide +kernel
  have fixed := client_ip_fixed .sample .twoHops proxied
  refine ⟨fun p => ?_, ?_⟩
  · rw [← hr]
    exact fixed.2.1 ⟨str "10.0.0.1", rfl, by decide +kernel⟩ 2 p _ rfl rfl
      (by decide +kernel)
  · have ha := fixed.2.2 (by rw [hr])
    rw [hr] at ha
    exact ha

end SecAudit
