namespace PushGateway

/-- A length of time in whole nanoseconds, below 2^64 seconds. -/
structure Duration where
  secs : UInt64
  nanos : Fin 1000000000
  deriving Repr, DecidableEq, Inhabited

namespace Duration

def zero : Duration := ⟨0, 0⟩

def seconds (n : UInt64) : Duration := ⟨n, 0⟩

def toNanos (d : Duration) : Nat := d.secs.toNat * 1000000000 + d.nanos.val

/-- The time in milliseconds, rounded down. -/
def toMillis (d : Duration) : Nat := d.secs.toNat * 1000 + d.nanos.val / 1000000

def ofMillis (n : UInt64) : Duration :=
  ⟨n / 1000, ⟨n.toNat % 1000 * 1000000, by omega⟩⟩

/-- Seconds and nanoseconds, where whole seconds among the nanoseconds are carried over. There is none
beyond 2^64 seconds. -/
def ofParts? (secs : UInt64) (nanos : UInt32) : Option Duration :=
  let total := secs.toNat + nanos.toNat / 1000000000
  if total < 18446744073709551616 then
    some ⟨UInt64.ofNat total, ⟨nanos.toNat % 1000000000, Nat.mod_lt _ (by decide)⟩⟩
  else none

theorem toMillis_eq (d : Duration) : d.toMillis = d.toNanos / 1000000 := by
  simp only [toMillis, toNanos]
  omega

end Duration
end PushGateway
