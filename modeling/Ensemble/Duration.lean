/-!
# Durations

A duration is a count of whole seconds of 64 bits and a rest below one second in nanoseconds.
-/

namespace Ensemble

/-- A span of time. -/
structure Duration where
  secs : UInt64
  nanos : Nat
  nanos_lt : nanos < 1000000000 := by decide
deriving DecidableEq

namespace Duration

/-- No time at all. -/
def zero : Duration := ⟨0, 0, by decide⟩

instance : Inhabited Duration := ⟨zero⟩

/-- The duration in nanoseconds. -/
def toNanos (d : Duration) : Nat := d.secs.toNat * 1000000000 + d.nanos

/-- The whole milliseconds of the duration. -/
def toMillis (d : Duration) : Nat := d.toNanos / 1000000

/-- The least number of whole milliseconds that is not shorter than the duration. -/
def ceilMillis (d : Duration) : Nat := (d.toNanos + 999999) / 1000000

/-- The whole milliseconds in a word of 64 bits; what is beyond it wraps around. -/
def millisWord (d : Duration) : UInt64 := UInt64.ofNat d.toMillis

/-- The duration of a number of milliseconds. -/
def ofMillis (ms : UInt64) : Duration :=
  ⟨ms / 1000, (ms % 1000).toNat * 1000000, by
    have h : (ms % 1000).toNat < 1000 := by
      rw [UInt64.toNat_mod]; exact Nat.mod_lt _ (by decide)
    omega⟩

/-- The duration of seconds and any number of nanoseconds: whole seconds among the nanoseconds are
carried, and there is none when the seconds leave 64 bits. -/
def ofParts? (secs nanos : Nat) : Option Duration :=
  let total := secs + nanos / 1000000000
  if total < UInt64.size then
    some ⟨UInt64.ofNat total, nanos % 1000000000, Nat.mod_lt _ (by decide)⟩
  else none

/-- A fraction of `width` decimal places without the zeros at its end, behind a point. -/
def fraction (n width : Nat) : String :=
  let ds := Nat.toDigits 10 n
  let places := List.replicate (width - ds.length) '0' ++ ds
  let kept := (places.reverse.dropWhile (· == '0')).reverse
  if kept.isEmpty then "" else "." ++ String.ofList kept

/-- The duration in the greatest of `s`, `ms`, `µs` and `ns` in which its whole part is not zero. -/
def describe (d : Duration) : String :=
  if d.secs ≠ 0 then toString d.secs.toNat ++ fraction d.nanos 9 ++ "s"
  else if 1000000 ≤ d.nanos then
    toString (d.nanos / 1000000) ++ fraction (d.nanos % 1000000) 6 ++ "ms"
  else if 1000 ≤ d.nanos then toString (d.nanos / 1000) ++ fraction (d.nanos % 1000) 3 ++ "µs"
  else toString d.nanos ++ "ns"

end Duration

end Ensemble
