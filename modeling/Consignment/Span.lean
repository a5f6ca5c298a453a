/-! Lengths of time to the nanosecond. The bound is what a count of seconds in a word can say. -/
namespace Consignment

structure Span where
  nanos : Nat
  bounded : nanos < 0x10000000000000000 * 1000000000
deriving DecidableEq

namespace Span

def zero : Span := ⟨0, by decide⟩

instance : Inhabited Span := ⟨zero⟩

instance : LE Span := ⟨fun a b => a.nanos ≤ b.nanos⟩

instance (a b : Span) : Decidable (a ≤ b) := inferInstanceAs (Decidable (a.nanos ≤ b.nanos))

instance : Min Span := minOfLe

def ofNanos? (n : Nat) : Option Span :=
  if h : n < 0x10000000000000000 * 1000000000 then some ⟨n, h⟩ else none

def ofMillis (ms : UInt64) : Span :=
  ⟨ms.toNat * 1000000, by have := ms.toNat_lt; omega⟩

def ofSeconds (s : UInt64) : Span :=
  ⟨s.toNat * 1000000000, by have := s.toNat_lt; omega⟩

def seconds (d : Span) : Nat := d.nanos / 1000000000

/-- What is left over whole seconds, in nanoseconds. -/
def fraction (d : Span) : Nat := d.nanos % 1000000000

def wholeMillis (d : Span) : Nat := d.nanos / 1000000

def ceilMillis (d : Span) : Nat := (d.nanos + 999999) / 1000000

theorem le_ceilMillis (d : Span) : d.nanos ≤ d.ceilMillis * 1000000 := by
  unfold ceilMillis
  omega

theorem ceilMillis_lt (d : Span) : d.ceilMillis * 1000000 < d.nanos + 1000000 := by
  unfold ceilMillis
  omega

def add? (a b : Span) : Option Span := ofNanos? (a.nanos + b.nanos)

theorem nanos_min (a b : Span) : (min a b).nanos = min a.nanos b.nanos := by
  show (if a.nanos ≤ b.nanos then a else b).nanos = _
  split <;> omega

/-- Thirty years, the longest wait there is. -/
def longestWait : Nat := 86400 * 365 * 30 * 1000

/-- How long a wait of this length lasts. The clock ticks in milliseconds, and a wait ends at the
first tick not before its time. -/
def ticks (d : Span) : Nat := min d.ceilMillis longestWait

end Span
end Consignment
