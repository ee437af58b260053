import ScriptPool.Pool.Basic

/-!
# Opening and closing a pool

A new pool has no interpreters.  To close it, it is first marked as closed, so that requests are
turned away and nothing is planned any more, and drained later: what is idle then is discarded, and
what is still on loan will be on its return.
-/

set_option autoImplicit false

namespace ScriptPool
namespace Pool

/-- A pool without interpreters, for a configuration that makes sense. -/
def ofConfig (config : PoolConfig) : Except PoolError Pool := do
  let config := config.normalized
  config.validate.mapError .config
  pure {
    config
    recent := { window := config.tunables.requestWindow }
    memory := .new config.enableMemoryPooling config.memoryPoolSize config.memoryBlockSize }

/-- Marks the pool as closed. -/
def close (p : Pool) : Pool := { p with closed := true }

/-- Empties a closed pool. -/
def drain (p : Pool) : Transition Pool := do
  let p ← { p with drained := true, idle := [], available := 0 }.discardAll p.idle
  pure { p with memory := p.memory.clear }

end Pool
end ScriptPool
