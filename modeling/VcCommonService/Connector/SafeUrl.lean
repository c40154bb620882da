import Mathlib.Algebra.Group.Nat.Defs
import Mathlib.Algebra.Ring.Nat
import Mathlib.Tactic.Tauto
import VcCommonService.Common

/-!
# Outbound URLs of connectors (`assert-safe-connector-url.ts`)

`URL`, `lookup`, `isIPv4`, `isIPv6` and the package `ip-address` are parameters. Of the package it is
assumed what the comments say: the ranges of the classifiers of `Address4`, and that those of
`Address6` look at an IPv4 address that is embedded. The list of further subnets is only consulted
for IPv4 texts.
-/

namespace VcCommonService.SafeUrl

abbrev Address4 := BitVec 32

abbrev Address6 := BitVec 128

/-- `base/prefixLength` -/
structure Subnet where
  base : Address4
  prefixLength : ℕ

def octets (a b c d : ℕ) : Address4 := BitVec.ofNat 32 (((a * 256 + b) * 256 + c) * 256 + d)

def Subnet.contains (subnet : Subnet) (address : Address4) : Bool :=
  decide (address.toNat / 2 ^ (32 - subnet.prefixLength) =
    subnet.base.toNat / 2 ^ (32 - subnet.prefixLength))

/-- `::ffff:a` -/
def mapped (a : Address4) : Address6 := (0xffff#96 ++ a : BitVec (96 + 32))

/-- `64:ff9b::a` -/
def nat64 (a : Address4) : Address6 := (0x64ff9b0000000000000000#96 ++ a : BitVec (96 + 32))

def embeddings : List (Address4 → Address6) := [mapped, nat64]

/-! ### The package -/

structure Classifiers (α : Type) where
  isPrivate : α → Bool
  isLoopback : α → Bool
  isLinkLocal : α → Bool
  isUnspecified : α → Bool
  isBroadcast : α → Bool
  isMulticast : α → Bool
  isCGNAT : α → Bool

/-- The ranges that the comments give for `Address4`. -/
def ranges : Classifiers Address4 where
  isPrivate a := [⟨octets 10 0 0 0, 8⟩, ⟨octets 172 16 0 0, 12⟩, ⟨octets 192 168 0 0, 16⟩].any
    fun subnet : Subnet => subnet.contains a
  isLoopback a := Subnet.contains ⟨octets 127 0 0 0, 8⟩ a
  isLinkLocal a := Subnet.contains ⟨octets 169 254 0 0, 16⟩ a
  isUnspecified a := a = octets 0 0 0 0
  isBroadcast a := a = octets 255 255 255 255
  isMulticast a := Subnet.contains ⟨octets 224 0 0 0, 4⟩ a
  isCGNAT a := Subnet.contains ⟨octets 100 64 0 0, 10⟩ a

def Classifiers.comap {α β : Type} (c : Classifiers β) (f : α → β) : Classifiers α where
  isPrivate a := c.isPrivate (f a)
  isLoopback a := c.isLoopback (f a)
  isLinkLocal a := c.isLinkLocal (f a)
  isUnspecified a := c.isUnspecified (f a)
  isBroadcast a := c.isBroadcast (f a)
  isMulticast a := c.isMulticast (f a)
  isCGNAT a := c.isCGNAT (f a)

/-- `ip-address`, as the comments describe it. -/
structure IpAddress where
  address4 : Classifiers Address4
  address6 : Classifiers Address6
  isDocumentation : Address6 → Bool
  isHostInSubnet : Subnet → Address4 → Bool
  address4_eq : address4 = ranges
  address6_embedded : ∀ embed ∈ embeddings, address6.comap embed = address4
  isDocumentation_eq : ∀ x, isDocumentation x = decide (x.toNat / 2 ^ 96 = 0x20010db8)
  isHostInSubnet_eq : ∀ subnet a, isHostInSubnet subnet a = subnet.contains a

/-! ### `isDisallowedAddress` -/

def ipv4DisallowedSubnets : List Subnet :=
  [⟨octets 0 0 0 0, 8⟩, ⟨octets 192 0 0 0, 24⟩, ⟨octets 192 0 2 0, 24⟩, ⟨octets 198 18 0 0, 15⟩,
    ⟨octets 198 51 100 0, 24⟩, ⟨octets 203 0 113 0, 24⟩, ⟨octets 240 0 0 0, 4⟩]

def isDisallowedIPv4 (ip : IpAddress) (address : Address4) : Bool :=
  ip.address4.isPrivate address ||
    ip.address4.isLoopback address ||
    ip.address4.isLinkLocal address ||
    ip.address4.isUnspecified address ||
    ip.address4.isBroadcast address ||
    ip.address4.isMulticast address ||
    ip.address4.isCGNAT address ||
    ipv4DisallowedSubnets.any fun subnet => ip.isHostInSubnet subnet address

def isDisallowedIPv6 (ip : IpAddress) (address : Address6) : Bool :=
  ip.address6.isLoopback address ||
    ip.address6.isUnspecified address ||
    ip.address6.isLinkLocal address ||
    ip.address6.isMulticast address ||
    ip.address6.isPrivate address ||
    ip.address6.isCGNAT address ||
    ip.address6.isBroadcast address ||
    ip.isDocumentation address

/-- `URL`, `node:dns` and `node:net`: `ipv4` and `ipv6` give the address of a text that `isIPv4` or
`isIPv6` accepts. -/
structure Network where
  parseUrl : String → Option (String × String)
  lookup : String → Option (List String)
  ipv4 : String → Option Address4
  ipv6 : String → Option Address6

section Checks

variable (ip : IpAddress) (network : Network)

/-- Another address family fails closed. -/
def isDisallowedAddress (address : String) : Bool :=
  match network.ipv4 address with
  | some a => isDisallowedIPv4 ip a
  | none => match network.ipv6 address with
    | some a => isDisallowedIPv6 ip a
    | none => true

/-! ### `assertSafeConnectorUrl` -/

def unresolved : ServiceError :=
  .unprocessableEntity "Connector endpoint hostname could not be resolved."

/-- `hostname.replace(/^\[|\]$/g, '')` -/
def withoutBrackets (hostname : String) : String :=
  let cs := hostname.toList
  let cs := if cs.head? = some '[' then cs.tail else cs
  String.ofList (if cs.getLast? = some ']' then cs.dropLast else cs)

def isIP (hostname : String) : Bool := (network.ipv4 hostname).isSome || (network.ipv6 hostname).isSome

def resolveHostnameAddresses (hostname : String) : Except ServiceError (List String) :=
  match network.lookup hostname with
  | none => .error unresolved
  | some addresses => .ok addresses

def addressesOf (rawUrl : String) : Except ServiceError (List String) :=
  match network.parseUrl rawUrl with
  | none => .error (.unprocessableEntity "Connector endpoint URL is not a valid URL.")
  | some (protocol, hostname) =>
    if protocol ≠ "https:" then
      .error (.unprocessableEntity "Connector endpoint URL must use https.")
    else
      let hostname := withoutBrackets hostname
      if isIP network hostname then .ok [hostname] else resolveHostnameAddresses network hostname

def assertSafeConnectorUrl (rawUrl : String) : Except ServiceError Unit := do
  let addresses ← addressesOf network rawUrl
  if addresses.length = 0 then .error unresolved
  else if addresses.any (isDisallowedAddress ip network) then
    .error (.unprocessableEntity
      "Connector endpoint resolves to a private, loopback, or reserved network address.")
  else .ok ()

end Checks

/-! ### Which addresses the two filters share -/

def classified (a : Address4) : Bool :=
  ranges.isPrivate a || ranges.isLoopback a || ranges.isLinkLocal a || ranges.isUnspecified a ||
    ranges.isBroadcast a || ranges.isMulticast a || ranges.isCGNAT a

def listed (a : Address4) : Bool := ipv4DisallowedSubnets.any fun subnet => subnet.contains a

theorem isDisallowedIPv4_eq (ip : IpAddress) (a : Address4) :
    isDisallowedIPv4 ip a = (classified a || listed a) := by
  have hlisted : (ipv4DisallowedSubnets.any fun subnet => ip.isHostInSubnet subnet a) = listed a := by
    unfold listed
    exact congrArg (List.any ipv4DisallowedSubnets) (funext fun subnet => ip.isHostInSubnet_eq subnet a)
  unfold isDisallowedIPv4 classified
  rw [hlisted, ip.address4_eq]

theorem toNat_append (p : BitVec 96) (a : Address4) :
    (p ++ a : BitVec (96 + 32)).toNat = p.toNat * 2 ^ 32 + a.toNat := by
  rw [BitVec.toNat_append, ← Nat.shiftLeft_add_eq_or_of_lt a.isLt, Nat.shiftLeft_eq]

theorem toNat_embed {embed : Address4 → Address6} (hembed : embed ∈ embeddings) (a : Address4) :
    (embed a).toNat = 0xffff * 2 ^ 32 + a.toNat ∨
      (embed a).toNat = 0x64ff9b0000000000000000 * 2 ^ 32 + a.toNat := by
  rcases List.mem_cons.mp hembed with rfl | hembed
  · exact Or.inl (toNat_append 0xffff#96 a)
  · obtain rfl := List.mem_singleton.mp hembed
    exact Or.inr (toNat_append 0x64ff9b0000000000000000#96 a)

theorem isDocumentation_embed (ip : IpAddress) {embed : Address4 → Address6}
    (hembed : embed ∈ embeddings) (a : Address4) : ip.isDocumentation (embed a) = false := by
  have ha := a.isLt
  have hembedded := toNat_embed hembed a
  rw [ip.isDocumentation_eq, decide_eq_false_iff_not]
  omega

theorem isDisallowedIPv6_embed (ip : IpAddress) {embed : Address4 → Address6}
    (hembed : embed ∈ embeddings) (a : Address4) :
    isDisallowedIPv6 ip (embed a) = classified a := by
  have hcomap := ip.address6_embedded embed hembed
  rw [ip.address4_eq] at hcomap
  unfold classified
  rw [← hcomap, isDisallowedIPv6, isDocumentation_embed ip hembed, Bool.or_false]
  unfold Classifiers.comap
  dsimp only
  ac_rfl

/-- Of the further subnets, only the first and the last address are in a range of the package. -/
theorem classified_iff_of_listed {a : Address4} (h : listed a = true) :
    classified a = true ↔ a = octets 0 0 0 0 ∨ a = octets 255 255 255 255 := by
  have hlt := a.isLt
  simp only [listed, ipv4DisallowedSubnets, Subnet.contains, octets, List.any_cons, List.any_nil,
    Bool.or_false, Bool.or_eq_true, decide_eq_true_eq, BitVec.toNat_ofNat] at h
  simp only [classified, ranges, Subnet.contains, octets, List.any_cons, List.any_nil, Bool.or_false,
    Bool.or_eq_true, decide_eq_true_eq, ← BitVec.toNat_inj, BitVec.toNat_ofNat]
  rcases h with h | h | h | h | h | h | h <;> omega

def Unwrapped (a : Address4) : Prop :=
  listed a = true → a = octets 0 0 0 0 ∨ a = octets 255 255 255 255

theorem embedded_rejected_iff (ip : IpAddress) {embed : Address4 → Address6}
    (hembed : embed ∈ embeddings) (a : Address4) :
    (isDisallowedIPv4 ip a = true → isDisallowedIPv6 ip (embed a) = true) ↔ Unwrapped a := by
  rw [isDisallowedIPv4_eq, isDisallowedIPv6_embed ip hembed, Bool.or_eq_true]
  unfold Unwrapped
  constructor
  · intro h hlisted
    exact (classified_iff_of_listed hlisted).mp (h (Or.inr hlisted))
  · rintro h (hclassified | hlisted)
    · exact hclassified
    · exact (classified_iff_of_listed hlisted).mpr (h hlisted)

/-! ### URLs -/

def Refused (ip : IpAddress) (network : Network) (rawUrl : String) : Prop :=
  ∃ error, assertSafeConnectorUrl ip network rawUrl = .error error

theorem refused_iff {ip : IpAddress} {network : Network} {rawUrl : String} {addresses : List String}
    (h : addressesOf network rawUrl = .ok addresses) (hne : addresses ≠ []) :
    Refused ip network rawUrl ↔ ∃ address ∈ addresses, isDisallowedAddress ip network address = true := by
  have hlength : ¬ addresses.length = 0 := fun hzero => hne (List.eq_nil_of_length_eq_zero hzero)
  unfold Refused assertSafeConnectorUrl
  rw [h, ok_bind, if_neg hlength, ← List.any_eq_true]
  split
  next hany => exact iff_of_true ⟨_, rfl⟩ hany
  next hany => exact iff_of_false nofun hany

/-- An IPv4 address that is rejected is rejected in an IPv6 form as well exactly if it is not one of the
further subnets' own; with its text in place of the IPv4 text, a URL is refused as well exactly if
that holds or another of its addresses is rejected. -/
theorem embedded_refused_iff (ip : IpAddress) {embed : Address4 → Address6}
    (hembed : embed ∈ embeddings) (a : Address4) :
    ((isDisallowedIPv4 ip a = true → isDisallowedIPv6 ip (embed a) = true) ↔ Unwrapped a) ∧
      ∀ (network : Network) (rawUrl rawUrl' x x' : String) (before after : List String),
        addressesOf network rawUrl = .ok (before ++ x :: after) →
        addressesOf network rawUrl' = .ok (before ++ x' :: after) →
        network.ipv4 x = some a → network.ipv4 x' = none → network.ipv6 x' = some (embed a) →
        ((Refused ip network rawUrl → Refused ip network rawUrl') ↔
          Unwrapped a ∨ ∃ y ∈ before ++ after, isDisallowedAddress ip network y = true) := by
  refine ⟨embedded_rejected_iff ip hembed a, ?_⟩
  intro network rawUrl rawUrl' x x' before after haddresses haddresses' hx hx' hembedded
  have hdisallowed : isDisallowedAddress ip network x = isDisallowedIPv4 ip a := by
    rw [isDisallowedAddress, hx]
  have hdisallowed' : isDisallowedAddress ip network x' = isDisallowedIPv6 ip (embed a) := by
    rw [isDisallowedAddress, hx', hembedded]
  have hsplit : ∀ z, (∃ y ∈ before ++ z :: after, isDisallowedAddress ip network y = true) ↔
      isDisallowedAddress ip network z = true ∨
        ∃ y ∈ before ++ after, isDisallowedAddress ip network y = true := by
    intro z
    simp only [List.mem_append, List.mem_cons, or_and_right, exists_or, exists_eq_left]
    exact or_left_comm
  rw [refused_iff haddresses (by simp), refused_iff haddresses' (by simp), hsplit, hsplit, hdisallowed,
    hdisallowed', ← embedded_rejected_iff ip hembed a]
  tauto

/-! ### The package at work -/

/-- The IPv4 address in one of the two forms. -/
def unwrap (x : Address6) : Option Address4 :=
  if x.toNat / 2 ^ 32 = 0xffff ∨ x.toNat / 2 ^ 32 = 0x64ff9b0000000000000000 then
    some (BitVec.ofNat 32 x.toNat)
  else none

def unwrapping (classifier : Address4 → Bool) (own : Address6 → Bool) (x : Address6) : Bool :=
  match unwrap x with
  | some a => classifier a
  | none => own x

theorem unwrap_embed {embed : Address4 → Address6} (hembed : embed ∈ embeddings) (a : Address4) :
    unwrap (embed a) = some a := by
  have ha := a.isLt
  have hembedded := toNat_embed hembed a
  unfold unwrap
  rw [if_pos (by omega)]
  refine congrArg some (BitVec.eq_of_toNat_eq ?_)
  rw [BitVec.toNat_ofNat]
  omega

def commentedPackage : IpAddress where
  address4 := ranges
  address6 :=
    { isPrivate := unwrapping ranges.isPrivate fun x => decide (x.toNat / 2 ^ 121 = 0x7e)
      isLoopback := unwrapping ranges.isLoopback fun x => decide (x.toNat = 1)
      isLinkLocal := unwrapping ranges.isLinkLocal fun x => decide (x.toNat / 2 ^ 118 = 0x3fa)
      isUnspecified := unwrapping ranges.isUnspecified fun x => decide (x.toNat = 0)
      isBroadcast := unwrapping ranges.isBroadcast fun _ => false
      isMulticast := unwrapping ranges.isMulticast fun x => decide (x.toNat / 2 ^ 120 = 0xff)
      isCGNAT := unwrapping ranges.isCGNAT fun _ => false }
  isDocumentation x := decide (x.toNat / 2 ^ 96 = 0x20010db8)
  isHostInSubnet := Subnet.contains
  address4_eq := rfl
  address6_embedded embed hembed := by
    unfold Classifiers.comap unwrapping
    simp only [unwrap_embed hembed]
  isDocumentation_eq _ := rfl
  isHostInSubnet_eq _ _ := rfl

/-- A network that knows one private address and its mapped form. -/
def privateNetwork : Network where
  parseUrl rawUrl :=
    if rawUrl = "https://10.0.0.1/" then some ("https:", "10.0.0.1")
    else if rawUrl = "https://[::ffff:a00:1]/" then some ("https:", "[::ffff:a00:1]")
    else none
  lookup _ := none
  ipv4 text := if text = "10.0.0.1" then some (octets 10 0 0 1) else none
  ipv6 text := if text = "::ffff:a00:1" then some (mapped (octets 10 0 0 1)) else none

theorem embedded_refused_private :
    Refused commentedPackage privateNetwork "https://[::ffff:a00:1]/" := by
  have hembed : mapped ∈ embeddings := List.mem_cons_self ..
  have hunwrapped : Unwrapped (octets 10 0 0 1) := fun hlisted => absurd hlisted (by decide)
  have hrefused : Refused commentedPackage privateNetwork "https://10.0.0.1/" :=
    ⟨.unprocessableEntity
      "Connector endpoint resolves to a private, loopback, or reserved network address.", by rfl⟩
  exact ((embedded_refused_iff commentedPackage hembed (octets 10 0 0 1)).2 privateNetwork
    "https://10.0.0.1/" "https://[::ffff:a00:1]/" "10.0.0.1" "::ffff:a00:1" [] [] (by rfl) (by rfl)
    (by decide +kernel) (by decide +kernel) (by decide +kernel)).mpr (Or.inl hunwrapped) hrefused

/-- `198.18.0.1` is rejected, `::ffff:198.18.0.1` is not. -/
theorem embedded_not_rejected :
    ¬ ∀ (ip : IpAddress), ∀ embed ∈ embeddings, ∀ a,
      isDisallowedIPv4 ip a = true → isDisallowedIPv6 ip (embed a) = true := by
  intro h
  have hmapped := h commentedPackage mapped (List.mem_cons_self ..) (octets 198 18 0 1) (by decide +kernel)
  exact absurd hmapped (by decide +kernel)

end VcCommonService.SafeUrl
