/-
IP addresses and networks. A network is an address and the length of its
prefix; it contains the addresses that agree with it on the prefix. The
bound on the length is a field.
-/
import Mathlib.Data.Nat.Notation

/-- A prefix of `w`-bit addresses. -/
structure Prefix (w : ℕ) where
  addr : BitVec w
  len : ℕ
  len_le : len ≤ w
  deriving DecidableEq

namespace Prefix

variable {w : ℕ}

def contains (n : Prefix w) (a : BitVec w) : Bool := n.addr >>> (w - n.len) = a >>> (w - n.len)

/-- The prefix of all bits. -/
def host (a : BitVec w) : Prefix w := ⟨a, w, Nat.le_refl w⟩

theorem contains_host {a b : BitVec w} : (host a).contains b = true ↔ a = b := by
  simp [contains, host]

end Prefix

/-- `std::net::IpAddr`. -/
inductive IpAddr
  | v4 (addr : BitVec 32)
  | v6 (addr : BitVec 128)
  deriving DecidableEq

/-- `ipnet::IpNet`. -/
inductive IpNet
  | v4 (net : Prefix 32)
  | v6 (net : Prefix 128)
  deriving DecidableEq

namespace IpAddr

def isIpv4 : IpAddr → Bool
  | .v4 _ => true
  | .v6 _ => false

end IpAddr

namespace IpNet

/-- `IpNet::new`, which fails on a prefix longer than the address. -/
def new (ip : IpAddr) (len : ℕ) : Option IpNet :=
  match ip with
  | .v4 addr => if h : len ≤ 32 then some (.v4 ⟨addr, len, h⟩) else none
  | .v6 addr => if h : len ≤ 128 then some (.v6 ⟨addr, len, h⟩) else none

/-- `IpNet::contains`: never an address of the other family. -/
def contains : IpNet → IpAddr → Bool
  | .v4 net, .v4 addr => net.contains addr
  | .v6 net, .v6 addr => net.contains addr
  | _, _ => false

/-- The network of one address. -/
def host : IpAddr → IpNet
  | .v4 addr => .v4 (.host addr)
  | .v6 addr => .v6 (.host addr)

theorem contains_host {a b : IpAddr} : (host a).contains b = true ↔ a = b := by
  cases a <;> cases b <;> simp [host, contains, Prefix.contains_host]

end IpNet
