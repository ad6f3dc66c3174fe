import C2Hunter.Outcome

/-!
# The identity of a client

`trusted_client_ip` of `security.py`: the address under which the rate limits of a client are counted.
The header `X-Forwarded-For` is read only if the peer is a trusted proxy; then the client is the last
address in it that is no trusted proxy. One element that is no address makes the function ignore the
whole header, also an element that the client wrote itself.

* `Ipaddress` — the functions of the library that are used.
* `trustedClientIp` — the function.
* `Ipaddress.ipv4` — the library for IPv4, to run the function.
-/

namespace C2Hunter.Security

open List

/-- Functions of `ipaddress` and `str`; `none` where one raises `ValueError`. -/
structure Ipaddress (Address Network : Type) : Type where
  ipAddress : String → Option Address
  /-- `ip_network(text, strict=False)` -/
  ipNetwork : String → Option Network
  /-- `address in network` -/
  contains : Network → Address → Bool
  /-- `str(address)` -/
  text : Address → String
  /-- `text.strip()` -/
  strip : String → String
  strip_empty : strip "" = ""
  ipAddress_empty : ipAddress "" = none

namespace Ipaddress

variable {Address Network : Type} (ip : Ipaddress Address Network)

/-- `any(address in network for network in trusted)`. -/
def isTrusted (trusted : List Network) (address : Address) : Bool :=
  trusted.any fun network => ip.contains network address

/-- `[item.strip() for item in forwarded_for.split(",")]`. -/
def items (forwardedFor : String) : List String :=
  (forwardedFor.toList.splitOn ',').map fun item => ip.strip (String.ofList item)

/-- The last address that is no proxy, and the first one if all are. -/
def clientOf (trusted : List Network) (peerIp : String) (chain : List Address) : String :=
  match chain.reverse.find? fun address => !ip.isTrusted trusted address with
  | some address => ip.text address
  | none =>
    match chain with
    | [] => peerIp
    | address :: _ => ip.text address

/-- `trusted_client_ip`. -/
def trustedClientIp (peerIp : String) (forwardedFor : Option String)
    (trustedProxyCidrs : List String) : String :=
  match ip.ipAddress peerIp, trustedProxyCidrs.mapM ip.ipNetwork, forwardedFor with
  | some peer, some trusted, some header =>
    if header = "" ∨ ip.isTrusted trusted peer = false then peerIp
    else
      match (ip.items header).mapM ip.ipAddress with
      | none => peerIp
      | some chain => ip.clientOf trusted peerIp chain
  | _, _, _ => peerIp

/-! ## What decides -/

variable {ip} {client : Address}

theorem clientOf_append {trusted : List Network} {peerIp : String} {before after : List Address}
    (hclient : ip.isTrusted trusted client = false)
    (hafter : ∀ a ∈ after, ip.isTrusted trusted a = true) :
    ip.clientOf trusted peerIp (before ++ client :: after) = ip.text client := by
  have hnone : after.reverse.find? (fun a => !ip.isTrusted trusted a) = none := by
    refine find?_eq_none.mpr fun a ha => ?_
    simp [hafter a (mem_reverse.mp ha)]
  rw [clientOf.eq_def, reverse_append, reverse_cons, append_assoc, find?_append, hnone,
    Option.none_or, singleton_append, find?_cons_of_pos (by rw [hclient]; rfl)]

/-- Elements that are all addresses, the one of a client among them. -/
theorem mapM_items {items before after : List String} {x : String}
    (hitems : items = before ++ x :: after) (hx : ip.ipAddress x = some client)
    (hparse : ∀ y ∈ items, (ip.ipAddress y).isSome) :
    ∃ chain chain', items.mapM ip.ipAddress = some (chain ++ client :: chain') ∧
      ∀ a ∈ chain', ∃ y ∈ after, ip.ipAddress y = some a := by
  have hall (l : List String) (hl : ∀ y ∈ l, (ip.ipAddress y).isSome) :
      ∃ chain, l.mapM ip.ipAddress = some chain ∧ ∀ a ∈ chain, ∃ y ∈ l, ip.ipAddress y = some a := by
    induction l with
    | nil => exact ⟨[], rfl, by simp⟩
    | cons y l ih =>
      obtain ⟨a, ha⟩ := Option.isSome_iff_exists.mp (hl y mem_cons_self)
      obtain ⟨chain, hchain, hfrom⟩ := ih fun z hz => hl z (mem_cons_of_mem _ hz)
      refine ⟨a :: chain, by simp [mapM_cons, ha, hchain], ?_⟩
      intro b hb
      obtain rfl | hb := mem_cons.mp hb
      · exact ⟨y, mem_cons_self, ha⟩
      · obtain ⟨z, hz, hb⟩ := hfrom b hb
        exact ⟨z, mem_cons_of_mem _ hz, hb⟩
  subst hitems
  obtain ⟨chain, hchain, -⟩ := hall before fun y hy => hparse y (by simp [hy])
  obtain ⟨chain', hchain', hfrom⟩ := hall after fun y hy => hparse y (by simp [hy])
  exact ⟨chain, chain', by simp [mapM_append, mapM_cons, hchain, hx, hchain'], hfrom⟩

/-- The client of a header whose elements are addresses. -/
theorem trustedClientIp_eq {peerIp header x : String} {cidrs before after : List String}
    {peer : Address} {trusted : List Network} (hpeer : ip.ipAddress peerIp = some peer)
    (hcidrs : cidrs.mapM ip.ipNetwork = some trusted) (htrusted : ip.isTrusted trusted peer = true)
    (hitems : ip.items header = before ++ x :: after) (hx : ip.ipAddress x = some client)
    (hclient : ip.isTrusted trusted client = false)
    (hafter : ∀ y ∈ after, ∀ a, ip.ipAddress y = some a → ip.isTrusted trusted a = true)
    (hparse : ∀ y ∈ ip.items header, (ip.ipAddress y).isSome) :
    ip.trustedClientIp peerIp (some header) cidrs = ip.text client := by
  have hne : header ≠ "" := by
    rintro rfl
    have hempty := hparse "" (by simp [items, ip.strip_empty])
    rw [ip.ipAddress_empty] at hempty
    cases hempty
  obtain ⟨chain, chain', hchain, hfrom⟩ := mapM_items hitems hx hparse
  simp only [trustedClientIp, hpeer, hcidrs, hne, htrusted, hchain, false_or, Bool.true_eq_false, if_false]
  refine clientOf_append hclient fun a ha => ?_
  obtain ⟨y, hy, ha⟩ := hfrom a ha
  exact hafter y hy a ha

/-- An octet: up to three digits, none of them a leading zero. -/
def octet (digits : List Char) : Option Nat :=
  let value := digits.foldl (fun n c => 10 * n + (c.toNat - '0'.toNat)) 0
  if digits ≠ [] ∧ digits.length ≤ 3 ∧ digits.all Char.isDigit ∧ value ≤ 255 ∧
      (digits.length = 1 ∨ digits.head? ≠ some '0') then some value
  else none

/-- `ip_address` of a dotted text. -/
def ipv4Address (text : List Char) : Option Nat :=
  match (text.splitOn '.').mapM octet with
  | some [a, b, c, d] => some (((a * 256 + b) * 256 + c) * 256 + d)
  | _ => none

/-- The library for IPv4, with the networks `address/length`. -/
def ipv4 : Ipaddress Nat (Nat × Nat) where
  ipAddress text := ipv4Address text.toList
  ipNetwork text :=
    match text.toList.splitOn '/' with
    | [address, length] => do
      let length ← octet length
      let address ← ipv4Address address
      if length ≤ 32 then some (address, length) else none
    | _ => none
  contains network address := address >>> (32 - network.2) = network.1 >>> (32 - network.2)
  text n := ".".intercalate ([n >>> 24, n >>> 16 % 256, n >>> 8 % 256, n % 256].map toString)
  strip text :=
    String.ofList ((text.toList.dropWhile Char.isWhitespace).reverse.dropWhile Char.isWhitespace).reverse
  strip_empty := rfl
  ipAddress_empty := rfl

end Ipaddress

end C2Hunter.Security
