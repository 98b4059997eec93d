/-
Which bucket of the rate limiter a request falls into (internal/httpapi/server.go: `clientAddress`, `isTrusted`,
`forwardedFor`, `bucketKey`). A trusted proxy appends the address of its own peer to the header, so behind trusted
proxies the last entry that is not one of them is the client.
-/
import Eth402.Lib.Text
import Mathlib.Tactic.Common

namespace Eth402.Http

open Lib

/-! ## Addresses -/

/-- `netip.Addr`: an IPv4 address, or an IPv6 address with its zone, empty when there is none. -/
inductive Addr
  | v4 (bits : BitVec 32)
  | v6 (bits : BitVec 128) (zone : String)
  deriving DecidableEq, Repr

/-- `netip.Prefix`: its address has no zone. -/
structure Prefix where
  addr : Addr
  bits : Nat
  deriving DecidableEq, Repr

namespace Addr

/-- `Is4In6`: the address lies in `::ffff:0:0/96`. -/
def is4In6 (bits : BitVec 128) : Bool := bits >>> 32 = 0xffff#128

/-- `Unmap`. -/
def unmap : Addr → Addr
  | .v4 a => .v4 a
  | .v6 a zone => if is4In6 a then .v4 (a.setWidth 32) else .v6 a zone

/-- `WithZone("")`. -/
def withoutZone : Addr → Addr
  | .v4 a => .v4 a
  | .v6 a _ => .v6 a ""

def zone : Addr → String
  | .v4 _ => ""
  | .v6 _ zone => zone

/-- `BitLen`. -/
def bitLen : Addr → Nat
  | .v4 _ => 32
  | .v6 _ _ => 128

end Addr

/-- The address with all but its first `n` bits cleared. -/
def masked {w : Nat} (n : Nat) (a : BitVec w) : BitVec w := (a >>> (w - n)) <<< (w - n)

/-- Two addresses have their first `n` bits in common. -/
def sameBits {w : Nat} (n : Nat) (a b : BitVec w) : Bool := a >>> (w - n) = b >>> (w - n)

/-- `Prefix.Contains`: of one family, without a zone, and equal in the bits of the prefix. -/
def Prefix.contains (p : Prefix) (ip : Addr) : Bool :=
  match p.addr, ip with
  | .v4 a, .v4 b => sameBits p.bits a b
  | .v6 a _, .v6 b zone => zone = "" && sameBits p.bits a b
  | _, _ => false

theorem masked_shift {w : Nat} (n : Nat) (a : BitVec w) : masked n a >>> (w - n) = a >>> (w - n) := by
  unfold masked
  ext i hi
  simp only [BitVec.getElem_ushiftRight, BitVec.getLsbD_shiftLeft, BitVec.getLsbD_ushiftRight]
  by_cases h : w - n + i < w
  · simp [h]
  · have : a.getLsbD (w - n + i) = false := BitVec.getLsbD_of_ge a _ (by omega)
    simp [h, this]

/-- `net/netip` and `net.SplitHostPort`. -/
structure Netip where
  parseAddr : String → Option Addr
  parsePrefix : String → Option Prefix
  addrString : Addr → String
  splitHostPort : String → Option String

/-- What the limiter reads of a request: the peer and the lines of the header `X-Forwarded-For`. -/
structure Request where
  remoteAddr : String
  forwardedFor : List String

/-- `unicode.IsSpace`. -/
def isSpace (c : Char) : Bool :=
  c.toNat ∈ [9, 10, 11, 12, 13, 32, 0x85, 0xa0, 0x1680, 0x2028, 0x2029, 0x202f, 0x205f, 0x3000] ||
    (0x2000 ≤ c.toNat && c.toNat ≤ 0x200a)

/-- `strings.TrimSpace`. -/
def trimSpace (s : String) : String :=
  String.ofList ((((chars s).dropWhile isSpace).reverse.dropWhile isSpace).reverse)

/-- The entries of one line. -/
def lineEntries (line : String) : List String :=
  ((chars line).splitOn ',').map fun entry => trimSpace (String.ofList entry)

/-- The entries of all lines, from left to right. -/
def entries (lines : List String) : List String := lines.flatMap lineEntries

section Code

variable (net : Netip) (trusted : List Prefix)

/-- `isTrusted`. -/
def isTrusted (address : Addr) : Bool := trusted.any fun p => p.contains address.unmap

/-- `Prefix.String`. -/
def prefixString (p : Prefix) : String := net.addrString p.addr ++ "/" ++ toString p.bits

/-- `bucketKey`. -/
def bucketKey (address : Addr) : String :=
  match address.unmap.withoutZone with
  | .v4 a => net.addrString (.v4 a)
  | .v6 a _ => prefixString net ⟨.v6 (masked 64 a) "", 64⟩

/-- The loop of `clientAddress` over the entries, from right to left. -/
def firstUntrusted (peer : Addr) : List String → String
  | [] => bucketKey net peer
  | entry :: rest =>
    match net.parseAddr entry with
    | none => bucketKey net peer
    | some address => if isTrusted trusted address then firstUntrusted peer rest else bucketKey net address

/-- `clientAddress`. -/
def clientAddress (r : Request) : String :=
  let peer := (net.splitHostPort r.remoteAddr).getD r.remoteAddr
  match net.parseAddr (trimSpace peer) with
  | none => peer
  | some address =>
    if isTrusted trusted address then firstUntrusted net trusted address (entries r.forwardedFor).reverse
    else bucketKey net address

end Code

/-! ## Appending to the header -/

variable {net : Netip} {trusted : List Prefix}

/-- Addresses printed as numbers. -/
def numberString : Addr → String
  | .v4 a => String.ofList ('4' :: Nat.toDigits 10 a.toNat)
  | .v6 a zone => String.ofList ('6' :: Nat.toDigits 10 a.toNat) ++ zone

/-- A library that reads a few addresses. -/
def sampleNetip : Netip where
  parseAddr s := [("10.0.0.1", .v4 0x0a000001#32), ("10.0.0.2", .v4 0x0a000002#32), ("203.0.113.9", .v4 0xcb007109#32),
    ("::ffff:10.0.0.1", .v6 0xffff0a000001#128 ""), ("fe80::1%eth0", .v6 0xfe800000000000000000000000000001#128 "eth0"),
    ("fe80::1", .v6 0xfe800000000000000000000000000001#128 "")].lookup s
  parsePrefix _ := none
  addrString := numberString
  splitHostPort _ := none

end Eth402.Http
