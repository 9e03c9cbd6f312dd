import CompanyRegistry.Event.Basic

/-!
# Balancing partitions

A message without a key goes to the partition that has received the fewest octets so far; of several
such, to the one listed first.
-/

namespace CompanyRegistry

/-- Octets sent to each partition so far. -/
structure Balancer where
  sent : List (Int32 × UInt64) := []

namespace Balancer

/-- The octets sent to a partition. -/
def load (b : Balancer) (p : Int32) : UInt64 := (b.sent.lookup p).getD 0

/-- The balancer after so many more octets went to a partition. -/
def add (b : Balancer) (p : Int32) (size : UInt64) : Balancer :=
  ⟨(p, b.load p + size) :: b.sent.filter (·.1 ≠ p)⟩

/-- The first of the listed partitions with the least load, given the best one before them. -/
def leastFrom (b : Balancer) (best : Int32) : List Int32 → Int32
  | [] => best
  | p :: ps => leastFrom b (if b.load p < b.load best then p else best) ps

/-- The first partition with the least load; `none` without partitions. -/
def least? (b : Balancer) : List Int32 → Option Int32
  | [] => none
  | p :: ps => some (b.leastFrom p ps)

/-- Chooses a partition for a message and counts its octets there. -/
def balance (b : Balancer) (m : Message) (partitions : List Int32) : Option Int32 × Balancer :=
  match b.least? partitions with
  | none => (none, b)
  | some p => (some p, b.add p (UInt64.ofNat m.size))

end Balancer

end CompanyRegistry
