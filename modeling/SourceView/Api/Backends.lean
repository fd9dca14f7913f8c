import SourceView.Pool.Directory

/-! The list of backends as a browser gets it. -/

namespace SourceView

/-- How a pool's tokens are spread. -/
structure PoolStats where
  size : Nat
  idle : Nat
  pending : Nat
  checkedOut : Nat
  deriving DecidableEq, Repr

/-- A pool's tallies. -/
def Pool.stats {κ τ : Type} (pool : Pool κ τ) : PoolStats where
  size := pool.size
  idle := pool.idle
  pending := pool.pending
  checkedOut := pool.checkedOut

/-- What a browser is told of a backend. -/
structure BackendSummary where
  id : String
  address : String
  offer : Offer
  stats : PoolStats
  deriving DecidableEq

/-- What a browser is told of the backend that a pool leads to. -/
def Pool.summary {κ τ : Type} (id : String) (pool : Pool κ τ) : BackendSummary where
  id := id
  address := pool.address
  offer := pool.offer
  stats := pool.stats

end SourceView
