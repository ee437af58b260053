/-!
# Scratch memory

A free list of memory blocks of one size.  Blocks are zeroed when they are handed back, so a block
that is handed out holds nothing of what anyone wrote before; blocks of another size and blocks
beyond the capacity are dropped.
-/

set_option autoImplicit false

namespace ScriptPool

/-- A block of zeros. -/
def zeroBlock (size : Nat) : ByteArray := ⟨Array.replicate size 0⟩

/-- Does a block hold nothing but zeros? -/
def isZeroBlock (block : ByteArray) : Bool := block.data.all (· == 0)

/-- Blocks to be handed out again. -/
structure MemoryBlocks where
  enabled : Bool
  capacity : Nat
  blockSize : Nat
  /-- The blocks that are ready, the next one first. -/
  free : List ByteArray := []
  /-- Requests met from the free list. -/
  hits : Nat := 0
  /-- Requests that found the free list empty. -/
  misses : Nat := 0
  deriving Inhabited

namespace MemoryBlocks

/-- A full free list, unless it is disabled. -/
def new (enabled : Bool) (capacity blockSize : Nat) : MemoryBlocks where
  enabled := enabled
  capacity := capacity
  blockSize := blockSize
  free := if enabled then List.replicate capacity (zeroBlock blockSize) else []

/-- A free list that keeps nothing. -/
def disabled (blockSize : Nat) : MemoryBlocks := new false 0 blockSize

/-- Hands out a block.  Without the free list, and where it is empty, the block is a new one. -/
def get (m : MemoryBlocks) : ByteArray × MemoryBlocks :=
  if !m.enabled then (zeroBlock m.blockSize, m)
  else
    match m.free with
    | block :: free => (block, { m with free, hits := m.hits + 1 })
    | [] => (zeroBlock m.blockSize, { m with misses := m.misses + 1 })

/-- Takes a block back. -/
def put (m : MemoryBlocks) (block : ByteArray) : MemoryBlocks :=
  if m.enabled && block.size == m.blockSize && m.free.length < m.capacity then
    { m with free := zeroBlock block.size :: m.free }
  else m

/-- Drops the blocks that are ready. -/
def clear (m : MemoryBlocks) : MemoryBlocks := { m with free := [] }

end MemoryBlocks
end ScriptPool
