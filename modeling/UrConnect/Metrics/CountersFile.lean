import Mathlib.Data.Fintype.Pi
import Mathlib.Logic.Function.Basic
import UrConnect.Lib.Table

/-! The cumulative counters of a process, the file they are kept in, and the merges of the two. -/

namespace UrConnect.Metrics

open UrConnect.Lib

inductive ProxyField
  | totalRx
  | totalTx
  | billableRx
  | billableTx
deriving DecidableEq

instance : Fintype ProxyField :=
  ⟨{.totalRx, .totalTx, .billableRx, .billableTx}, by intro f; cases f <;> decide⟩

structure ProxyCounters where
  bytes : ProxyField → ℕ
  lastSeen : ℤ
deriving DecidableEq

abbrev Proxies := Table String ProxyCounters

def second : ℤ := 1000000000

def unix (now : ℤ) : ℤ := now / second

end UrConnect.Metrics
