import Mathlib

/-! Readings of the clock: a wall reading in nanoseconds since the zero time, and beside it a monotonic one when the
reading was taken in this process. -/

namespace UrConnect.Extender

abbrev Duration := ℤ

structure Time where
  wall : ℤ
  monotonic : Option ℤ
deriving DecidableEq

namespace Time

def unixEpoch : ℤ := 62135596800 * 1000000000

def sinceBoth (a b : Time) : ℤ :=
  match a.monotonic, b.monotonic with
  | some x, some y => x - y
  | _, _ => a.wall - b.wall

def sub (a b : Time) : Duration := max (-2 ^ 63) (min (2 ^ 63 - 1) (sinceBoth a b))

end Time

end UrConnect.Extender
