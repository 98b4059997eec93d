/-
Which peers a list of trusted-proxy entries names (`prefixes`, internal/config/config.go, with `isTrusted` of the
limiter). An entry and a peer are brought to one form by different functions: a prefix keeps the family it was written
in, a peer is unmapped to IPv4 and keeps its zone. So an entry in IPv6 form never names an IPv4 peer, and no entry names
a peer with a zone.
-/
import Eth402.Http.Address

namespace Eth402.Http

open Lib

/-! ## The loader -/

/-- `csv`: the values of a comma-separated variable, trimmed, in lower case, without the empty ones. -/
def csv (raw : String) : List String :=
  let value := trimSpace raw
  if value = "" then [] else
    (((chars value).splitOn ',').map fun part => lower (trimSpace (String.ofList part))).filter (· ≠ "")

/-- `Prefix.Masked`. -/
def Prefix.clear (p : Prefix) : Prefix :=
  match p.addr with
  | .v4 a => ⟨.v4 (masked p.bits a), p.bits⟩
  | .v6 a _ => ⟨.v6 (masked p.bits a) "", p.bits⟩

/-- One entry: a prefix, or a bare address as the prefix of one host. -/
def entryPrefix (net : Netip) (value : String) : Option Prefix :=
  match net.parsePrefix value with
  | some p => some p.clear
  | none => (net.parseAddr value).map fun address => ⟨address.withoutZone, address.bitLen⟩

/-- `prefixes`: the prefixes of the entries that can be read, and an error for each other one. -/
def prefixes (net : Netip) (key raw : String) : List Prefix × List String :=
  ((csv raw).filterMap (entryPrefix net),
    ((csv raw).filter fun v => (entryPrefix net v).isNone).map fun v =>
      key ++ " entry \"" ++ v ++ "\" must be an IP address or CIDR prefix")

/-! ## What an entry denotes -/

/-- The host of an address: an IPv4 address is its mapped form, and a zone does not count. -/
def host : Addr → BitVec 128
  | .v4 a => (0xffff#96 ++ a : BitVec (96 + 32))
  | .v6 a _ => a

/-- The hosts of a prefix. -/
def Prefix.Hosts (p : Prefix) (h : BitVec 128) : Prop :=
  match p.addr with
  | .v4 a => sameBits (96 + p.bits) (host (.v4 a)) h = true
  | .v6 a _ => sameBits p.bits a h = true

/-- The hosts an entry denotes. -/
def Denotes (net : Netip) (value : String) (h : BitVec 128) : Prop :=
  match net.parsePrefix value with
  | some p => p.Hosts h
  | none => ∃ address, net.parseAddr value = some address ∧ host address = h

def Addr.isV4 : Addr → Bool
  | .v4 _ => true
  | .v6 _ _ => false

/-- An entry written in IPv4 form, or in IPv6 form, denotes the host. -/
def Covered (net : Netip) (raw : String) (v4 : Bool) (h : BitVec 128) : Prop :=
  ∃ value ∈ csv raw, Denotes net value h ∧ ∃ p, entryPrefix net value = some p ∧ p.addr.isV4 = v4

/-- What the entries have to be for the peer: an entry in IPv6 form that denotes an IPv4 peer is not the only one, and
one that denotes an IPv6 peer denotes it without a zone. -/
def Recognised (net : Netip) (raw : String) (peer : Addr) : Prop :=
  match peer.unmap with
  | .v4 _ => Covered net raw false (host peer) → Covered net raw true (host peer)
  | .v6 _ zone => Covered net raw false (host peer) → zone = ""

/-! ## Bits -/

theorem toNat_host (a : BitVec 32) : (host (.v4 a)).toNat = 0xffff * 2 ^ 32 + a.toNat := by
  show (0xffff#96 ++ a : BitVec (96 + 32)).toNat = _
  rw [BitVec.toNat_append, ← Nat.shiftLeft_add_eq_or_of_lt a.isLt, Nat.shiftLeft_eq]
  rfl

theorem host_shift (a : BitVec 32) : host (.v4 a) >>> 32 = 0xffff#128 := by
  apply BitVec.eq_of_toNat_eq
  have := a.isLt
  rw [BitVec.toNat_ushiftRight, toNat_host, Nat.shiftRight_eq_div_pow]
  show _ = 0xffff
  omega

theorem sameBits_iff {w : Nat} (n : Nat) (a b : BitVec w) :
    sameBits n a b = true ↔ a.toNat / 2 ^ (w - n) = b.toNat / 2 ^ (w - n) := by
  rw [sameBits, decide_eq_true_eq, ← BitVec.toNat_inj, BitVec.toNat_ushiftRight, BitVec.toNat_ushiftRight,
    Nat.shiftRight_eq_div_pow, Nat.shiftRight_eq_div_pow]

theorem is4In6_iff (a : BitVec 128) : Addr.is4In6 a = true ↔ a.toNat / 2 ^ 32 = 0xffff := by
  rw [Addr.is4In6, decide_eq_true_eq, ← BitVec.toNat_inj, BitVec.toNat_ushiftRight, Nat.shiftRight_eq_div_pow]
  rfl

theorem host_of_is4In6 {a : BitVec 128} (h : Addr.is4In6 a = true) : host (.v4 (a.setWidth 32)) = a := by
  have h := (is4In6_iff a).1 h
  apply BitVec.eq_of_toNat_eq
  rw [toNat_host, BitVec.toNat_setWidth]
  omega

theorem sameBits_mapped (n : Nat) (a b : BitVec 32) :
    sameBits (96 + n) (host (.v4 a)) (host (.v4 b)) = sameBits n a b := by
  rw [Bool.eq_iff_iff, sameBits_iff, sameBits_iff, toNat_host, toNat_host]
  have hwidth : 128 - (96 + n) = 32 - n := by omega
  have hsplit : 2 ^ 32 = 2 ^ (32 - (32 - n)) * 2 ^ (32 - n) := by
    rw [← Nat.pow_add]
    congr 1
    omega
  rw [hwidth, hsplit, ← Nat.mul_assoc, Nat.mul_comm _ (2 ^ (32 - n)), Nat.mul_add_div (Nat.two_pow_pos _),
    Nat.mul_add_div (Nat.two_pow_pos _)]
  omega

theorem is4In6_of_sameBits {n : Nat} {a : BitVec 32} {b : BitVec 128} (h : sameBits (96 + n) (host (.v4 a)) b = true) :
    Addr.is4In6 b = true := by
  have h := (sameBits_iff _ _ _).1 h
  have hsplit : 2 ^ 32 = 2 ^ (128 - (96 + n)) * 2 ^ (32 - (128 - (96 + n))) := by
    rw [← Nat.pow_add]
    congr 1
    omega
  have ha := (is4In6_iff _).1 (decide_eq_true (host_shift a))
  rw [is4In6_iff]
  rw [hsplit, ← Nat.div_div_eq_div_mul, ← h, Nat.div_div_eq_div_mul, ← hsplit, ha]

/-! ## The limiter and the entries -/

theorem host_unmap (a : Addr) : host a.unmap = host a := by
  cases a with
  | v4 x => rfl
  | v6 x zone =>
    by_cases hmapped : Addr.is4In6 x = true
    · rw [Addr.unmap, if_pos hmapped]
      exact host_of_is4In6 hmapped
    · rw [Addr.unmap, if_neg hmapped]

theorem unmap_v6 {a : Addr} {x : BitVec 128} {zone : String} (h : a.unmap = .v6 x zone) : Addr.is4In6 x = false := by
  cases a with
  | v4 y => cases h
  | v6 y z =>
    by_cases hmapped : Addr.is4In6 y = true
    · rw [Addr.unmap, if_pos hmapped] at h
      cases h
    · rw [Addr.unmap, if_neg hmapped] at h
      obtain ⟨rfl, -⟩ := Addr.v6.inj h
      simpa using hmapped

theorem sameBits_masked {w : Nat} (n : Nat) (a b : BitVec w) : sameBits n (masked n a) b = sameBits n a b := by
  rw [sameBits, masked_shift, sameBits]

theorem sameBits_all {w : Nat} (a b : BitVec w) : sameBits w a b = true ↔ a = b := by
  rw [sameBits_iff, Nat.sub_self, Nat.pow_zero, Nat.div_one, Nat.div_one, BitVec.toNat_inj]

/-- Clearing the host bits of a prefix leaves its hosts. -/
theorem hosts_clear (p : Prefix) (h : BitVec 128) : p.clear.Hosts h ↔ p.Hosts h := by
  obtain ⟨addr, n⟩ := p
  cases addr with
  | v4 a =>
    have hsame : sameBits (96 + n) (host (.v4 (masked n a))) (host (.v4 a)) = true := by
      rw [sameBits_mapped, sameBits_masked]
      exact decide_eq_true rfl
    show sameBits (96 + n) (host (.v4 (masked n a))) h = true ↔ sameBits (96 + n) (host (.v4 a)) h = true
    rw [sameBits, of_decide_eq_true hsame, sameBits]
  | v6 a zone =>
    show sameBits n (masked n a) h = true ↔ sameBits n a h = true
    rw [sameBits_masked]

theorem denotes_iff (net : Netip) (value : String) (h : BitVec 128) :
    Denotes net value h ↔ ∃ p, entryPrefix net value = some p ∧ p.Hosts h := by
  unfold Denotes entryPrefix
  cases net.parsePrefix value with
  | some p => simp [hosts_clear]
  | none =>
    cases net.parseAddr value with
    | none => simp
    | some address =>
      cases address with
      | v4 a =>
        have := sameBits_all (host (.v4 a)) h
        simpa [Prefix.Hosts, Addr.withoutZone, Addr.bitLen] using this.symm
      | v6 a zone =>
        have := sameBits_all a h
        simpa [Prefix.Hosts, Addr.withoutZone, Addr.bitLen, host] using this.symm

theorem contains_v4 (p : Prefix) (b : BitVec 32) :
    p.contains (.v4 b) = true ↔ p.addr.isV4 = true ∧ p.Hosts (host (.v4 b)) := by
  obtain ⟨addr, n⟩ := p
  cases addr with
  | v4 a => simp [Prefix.contains, Prefix.Hosts, Addr.isV4, sameBits_mapped]
  | v6 a zone => simp [Prefix.contains, Addr.isV4]

theorem isV4_eq_false {p : Prefix} {b : BitVec 128} (hb : Addr.is4In6 b = false) (h : p.Hosts b) :
    p.addr.isV4 = false := by
  obtain ⟨addr, n⟩ := p
  cases addr with
  | v4 a => exact absurd (is4In6_of_sameBits h) (by simp [hb])
  | v6 a zone => rfl

theorem contains_v6 (p : Prefix) {b : BitVec 128} (hb : Addr.is4In6 b = false) (zone : String) :
    p.contains (.v6 b zone) = true ↔ zone = "" ∧ p.Hosts b := by
  obtain ⟨addr, n⟩ := p
  cases addr with
  | v4 a =>
    have : ¬ Prefix.Hosts ⟨.v4 a, n⟩ b := fun h => Bool.noConfusion (isV4_eq_false hb h)
    simp [Prefix.contains, this]
  | v6 a z => simp [Prefix.contains, Prefix.Hosts]

theorem isTrusted_iff (net : Netip) (key raw : String) (peer : Addr) :
    isTrusted (prefixes net key raw).1 peer = true ↔
      ∃ value ∈ csv raw, ∃ p, entryPrefix net value = some p ∧ p.contains peer.unmap = true := by
  simp only [isTrusted, prefixes, List.any_eq_true, List.mem_filterMap]
  constructor
  · rintro ⟨p, ⟨value, hvalue, hp⟩, hcontains⟩
    exact ⟨value, hvalue, p, hp, hcontains⟩
  · rintro ⟨value, hvalue, p, hp, hcontains⟩
    exact ⟨p, ⟨value, hvalue, hp⟩, hcontains⟩

theorem covered_iff (net : Netip) (raw : String) (v4 : Bool) (h : BitVec 128) :
    Covered net raw v4 h ↔ ∃ value ∈ csv raw, ∃ p, entryPrefix net value = some p ∧ p.addr.isV4 = v4 ∧ p.Hosts h := by
  unfold Covered
  constructor
  · rintro ⟨value, hvalue, hdenotes, p, hp, hfamily⟩
    obtain ⟨q, hq, hhosts⟩ := (denotes_iff net value h).1 hdenotes
    obtain rfl : p = q := Option.some.inj (hp.symm.trans hq)
    exact ⟨value, hvalue, p, hp, hfamily, hhosts⟩
  · rintro ⟨value, hvalue, p, hp, hfamily, hhosts⟩
    exact ⟨value, hvalue, (denotes_iff net value h).2 ⟨p, hp, hhosts⟩, p, hp, hfamily⟩

theorem denoted_iff (net : Netip) (raw : String) (h : BitVec 128) :
    (∃ value ∈ csv raw, Denotes net value h) ↔ Covered net raw true h ∨ Covered net raw false h := by
  constructor
  · rintro ⟨value, hvalue, hdenotes⟩
    obtain ⟨p, hp, -⟩ := (denotes_iff net value h).1 hdenotes
    cases hfamily : p.addr.isV4 with
    | true => exact .inl ⟨value, hvalue, hdenotes, p, hp, hfamily⟩
    | false => exact .inr ⟨value, hvalue, hdenotes, p, hp, hfamily⟩
  · rintro (⟨value, hvalue, hdenotes, -⟩ | ⟨value, hvalue, hdenotes, -⟩)
    · exact ⟨value, hvalue, hdenotes⟩
    · exact ⟨value, hvalue, hdenotes⟩

theorem isTrusted_of_v4 (net : Netip) (key raw : String) {peer : Addr} {b : BitVec 32} (h : peer.unmap = .v4 b) :
    isTrusted (prefixes net key raw).1 peer = true ↔ Covered net raw true (host peer) := by
  rw [isTrusted_iff, covered_iff, ← host_unmap, h]
  simp only [contains_v4]

theorem isTrusted_of_v6 (net : Netip) (key raw : String) {peer : Addr} {b : BitVec 128} {zone : String}
    (h : peer.unmap = .v6 b zone) :
    isTrusted (prefixes net key raw).1 peer = true ↔ zone = "" ∧ Covered net raw false (host peer) := by
  have hb := unmap_v6 h
  rw [isTrusted_iff, covered_iff, ← host_unmap, h]
  simp only [contains_v6 _ hb]
  constructor
  · rintro ⟨value, hvalue, p, hp, hzone, hhosts⟩
    exact ⟨hzone, value, hvalue, p, hp, isV4_eq_false hb hhosts, hhosts⟩
  · rintro ⟨hzone, value, hvalue, p, hp, -, hhosts⟩
    exact ⟨value, hvalue, p, hp, hzone, hhosts⟩

/-- For every list of entries and every peer: the limiter trusts the peer exactly when an entry denotes its host, if and
only if the entries are written in the form the peer is compared in. -/
theorem isTrusted_exact_iff (net : Netip) (key raw : String) (peer : Addr) :
    (isTrusted (prefixes net key raw).1 peer = true ↔ ∃ value ∈ csv raw, Denotes net value (host peer)) ↔
      Recognised net raw peer := by
  rw [denoted_iff]
  unfold Recognised
  cases h : peer.unmap with
  | v4 b =>
    rw [isTrusted_of_v4 net key raw h]
    tauto
  | v6 b zone =>
    have hv4 : ¬ Covered net raw true (host peer) := by
      rw [covered_iff, ← host_unmap, h]
      rintro ⟨value, -, p, -, hfamily, hhosts⟩
      rw [isV4_eq_false (unmap_v6 h) hhosts] at hfamily
      cases hfamily
    rw [isTrusted_of_v6 net key raw h]
    tauto

/-- Two accepted lists that name a proxy the limiter does not trust: the mapped form of its IPv4 address, and the
address of a peer that arrives with a zone. -/
theorem proxy_not_recognised :
    ((prefixes sampleNetip "ETH402_TRUSTED_PROXIES" "::ffff:10.0.0.1").2 = [] ∧
      (∃ value ∈ csv "::ffff:10.0.0.1", Denotes sampleNetip value (host (.v4 0x0a000001#32))) ∧
      isTrusted (prefixes sampleNetip "ETH402_TRUSTED_PROXIES" "::ffff:10.0.0.1").1 (.v4 0x0a000001#32) = false) ∧
    (prefixes sampleNetip "ETH402_TRUSTED_PROXIES" "fe80::1").2 = [] ∧
      (∃ value ∈ csv "fe80::1",
        Denotes sampleNetip value (host (.v6 0xfe800000000000000000000000000001#128 "eth0"))) ∧
      isTrusted (prefixes sampleNetip "ETH402_TRUSTED_PROXIES" "fe80::1").1
        (.v6 0xfe800000000000000000000000000001#128 "eth0") =
        false := by
  refine ⟨⟨by decide +kernel, ⟨"::ffff:10.0.0.1", by decide +kernel, ?_⟩, by decide +kernel⟩, by decide +kernel,
    ⟨"fe80::1", by decide +kernel, ?_⟩, by decide +kernel⟩
  · exact ⟨.v6 0xffff0a000001#128 "", by decide +kernel, by decide⟩
  · exact ⟨.v6 0xfe800000000000000000000000000001#128 "", by decide +kernel, rfl⟩

end Eth402.Http
