import ScriptPool.Pool.Memory

/-!
# Scratch memory holds nothing

A block that is handed out is taken from the free list as it is, without another look at it.  So
what it holds, and how long it is, was decided when it was put there, possibly long before and by
somebody else: whoever hands a block back may have written anything, and may hand back a block that
was never theirs.  The blocks in the free list are all of the one size and zeroed, since nothing
else is let in, and this is kept by everything that callers do.

The counts are natural numbers here, so they never wrap around.

## What is here

* `IsZeroed` — a block of a size with nothing in it.
* `MemoryBlocks.get_cases`, `MemoryBlocks.put_cases` — what a request does, and what handing back.
* `MemoryBlocks.after`, `MemoryBlocks.handedOut` — what has become of a free list, and which blocks
  callers were given.
* `MemoryBlocks.IsSound` — what is true of a free list at any time, since every call keeps it.
* `MemoryBlocks.blocks_of_history` — **after any history,** no block holds anything, the free list
  is within its capacity, and every request is counted.
-/

set_option autoImplicit false

namespace ScriptPool

/-- A block of a size, all of whose bytes are zero. -/
structure IsZeroed (size : Nat) (block : ByteArray) : Prop where
  size_eq : block.size = size
  zero : ∀ i (h : i < block.size), block[i] = 0

theorem isZeroed_zeroBlock (size : Nat) : IsZeroed size (zeroBlock size) where
  size_eq := Array.size_replicate
  zero _ _ := Array.getElem_replicate _

namespace MemoryBlocks

variable {m m' : MemoryBlocks}

/-! ## Calls -/

/-- **What a request does.**  Without the free list the block is a new one, and nothing is counted;
with it, it is the next block or a new one. -/
theorem get_cases (m : MemoryBlocks) :
    (m.enabled = false ∧ m.get = (zeroBlock m.blockSize, m))
    ∨ (m.enabled = true ∧ ∃ block free, m.free = block :: free
        ∧ m.get = (block, { m with free, hits := m.hits + 1 }))
    ∨ (m.enabled = true ∧ m.free = []
        ∧ m.get = (zeroBlock m.blockSize, { m with misses := m.misses + 1 })) := by
  cases henabled : m.enabled with
  | false => exact .inl ⟨rfl, by rw [get, henabled]; rfl⟩
  | true =>
    cases hfree : m.free with
    | nil => exact .inr (.inr ⟨rfl, rfl, by rw [get, henabled, hfree]; rfl⟩)
    | cons block free =>
      exact .inr (.inl ⟨rfl, block, free, rfl, by rw [get, henabled, hfree]; rfl⟩)

/-- **What handing back does.**  A block is dropped, or it is of the right size, there is room for
it, and a block of zeros is what is kept. -/
theorem put_cases (m : MemoryBlocks) (block : ByteArray) :
    m.put block = m
    ∨ (m.enabled = true ∧ block.size = m.blockSize ∧ m.free.length < m.capacity
        ∧ m.put block = { m with free := zeroBlock m.blockSize :: m.free }) := by
  rw [put]
  split
  case isTrue hkept =>
    simp only [Bool.and_eq_true, beq_iff_eq, decide_eq_true_eq] at hkept
    obtain ⟨⟨henabled, hsize⟩, hroom⟩ := hkept
    exact .inr ⟨henabled, hsize, hroom, by rw [hsize]⟩
  case isFalse => exact .inl rfl

/-! ## Histories -/

/-- Something that a caller does. -/
inductive Call where
  | get
  | put (block : ByteArray)
  | clear

/-- What callers have done, the latest call first. -/
abbrev History := List Call

/-- How often a block was asked for. -/
def History.gets : History → Nat
  | [] => 0
  | .get :: earlier => gets earlier + 1
  | .put _ :: earlier => gets earlier
  | .clear :: earlier => gets earlier

/-- The free list after a history. -/
def after (m : MemoryBlocks) : History → MemoryBlocks
  | [] => m
  | .get :: earlier => (m.after earlier).get.2
  | .put block :: earlier => (m.after earlier).put block
  | .clear :: earlier => (m.after earlier).clear

/-- The blocks that were handed out, the latest first. -/
def handedOut (m : MemoryBlocks) : History → List ByteArray
  | [] => []
  | .get :: earlier => (m.after earlier).get.1 :: m.handedOut earlier
  | .put _ :: earlier => m.handedOut earlier
  | .clear :: earlier => m.handedOut earlier

/-- A block is handed out each time that one is asked for. -/
theorem length_handedOut (m : MemoryBlocks) (history : History) :
    (m.handedOut history).length = history.gets := by
  induction history with
  | nil => rfl
  | cons c earlier ih =>
    cases c with
    | get => exact congrArg Nat.succ ih
    | put _ => exact ih
    | clear => exact ih

/-! ## What every call keeps -/

/-- Two free lists have the same settings. -/
structure SameSettings (m m' : MemoryBlocks) : Prop where
  enabled : m'.enabled = m.enabled
  capacity : m'.capacity = m.capacity
  blockSize : m'.blockSize = m.blockSize

/-- What is true of a free list after a number of requests. -/
structure IsSound (gets : Nat) (m : MemoryBlocks) : Prop where
  zeroed : ∀ block ∈ m.free, IsZeroed m.blockSize block
  length_le : m.free.length ≤ m.capacity
  counted : m.enabled = true → m.hits + m.misses = gets
  idle : m.enabled = false → m.free = [] ∧ m.hits = 0 ∧ m.misses = 0

variable {gets : Nat}

theorem isSound_new (enabled : Bool) (capacity blockSize : Nat) :
    (new enabled capacity blockSize).IsSound 0 where
  zeroed block h := by
    cases enabled with
    | false => cases h
    | true =>
      rw [List.eq_of_mem_replicate h]
      exact isZeroed_zeroBlock blockSize
  length_le := by
    cases enabled with
    | false => exact Nat.zero_le _
    | true => exact Nat.le_of_eq List.length_replicate
  counted _ := rfl
  idle h := by
    cases h
    exact ⟨rfl, rfl, rfl⟩

namespace IsSound

/-- **A block that is handed out is zeroed,** whether it is a new one or not. -/
theorem zeroed_get (h : m.IsSound gets) : IsZeroed m.blockSize m.get.1 := by
  obtain ⟨-, hget⟩ | ⟨-, block, free, hfree, hget⟩ | ⟨-, -, hget⟩ := m.get_cases
  · rw [hget]
    exact isZeroed_zeroBlock _
  · rw [hget]
    exact h.zeroed block (hfree ▸ List.mem_cons_self)
  · rw [hget]
    exact isZeroed_zeroBlock _

theorem get (h : m.IsSound gets) : m.get.2.IsSound (gets + 1) := by
  obtain ⟨hdisabled, hget⟩ | ⟨henabled, block, free, hfree, hget⟩ | ⟨henabled, hfree, hget⟩ :=
    m.get_cases
  · rw [hget]
    exact { h with counted := fun htrue => by rw [hdisabled] at htrue; cases htrue }
  · have hlength := h.length_le
    have hcounted := h.counted henabled
    rw [hfree] at hlength
    rw [hget]
    exact {
      zeroed := fun b hb => h.zeroed b (hfree ▸ List.mem_cons_of_mem block hb)
      length_le := Nat.le_of_succ_le hlength
      counted := fun _ => show m.hits + 1 + m.misses = gets + 1 by omega
      idle := fun hfalse => by rw [henabled] at hfalse; cases hfalse }
  · have hcounted := h.counted henabled
    rw [hget]
    exact { h with
      counted := fun _ => show m.hits + (m.misses + 1) = gets + 1 by omega
      idle := fun hfalse => by rw [henabled] at hfalse; cases hfalse }

theorem put (h : m.IsSound gets) (block : ByteArray) : (m.put block).IsSound gets := by
  obtain hput | ⟨henabled, -, hroom, hput⟩ := m.put_cases block
  · rwa [hput]
  · rw [hput]
    exact { h with
      zeroed := by
        intro b hb
        rcases List.mem_cons.1 hb with rfl | hb
        · exact isZeroed_zeroBlock _
        · exact h.zeroed b hb
      length_le := hroom
      idle := fun hfalse => by rw [henabled] at hfalse; cases hfalse }

theorem clear (h : m.IsSound gets) : m.clear.IsSound gets :=
  { h with
    zeroed := fun _ hb => absurd hb List.not_mem_nil
    length_le := Nat.zero_le _
    idle := fun hfalse => ⟨rfl, (h.idle hfalse).2⟩ }

end IsSound

/-! ## After a history -/

theorem SameSettings.trans {m'' : MemoryBlocks} (h : m.SameSettings m')
    (h' : m'.SameSettings m'') : m.SameSettings m'' :=
  ⟨h'.enabled.trans h.enabled, h'.capacity.trans h.capacity, h'.blockSize.trans h.blockSize⟩

theorem sameSettings_get (m : MemoryBlocks) : m.SameSettings m.get.2 := by
  obtain ⟨-, hget⟩ | ⟨-, block, free, -, hget⟩ | ⟨-, -, hget⟩ := m.get_cases
  all_goals
    rw [hget]
    exact ⟨rfl, rfl, rfl⟩

theorem sameSettings_put (m : MemoryBlocks) (block : ByteArray) :
    m.SameSettings (m.put block) := by
  obtain hput | ⟨-, -, -, hput⟩ := m.put_cases block
  all_goals
    rw [hput]
    exact ⟨rfl, rfl, rfl⟩

/-- A history does not change the settings. -/
theorem sameSettings_after (m : MemoryBlocks) (history : History) :
    m.SameSettings (m.after history) := by
  induction history with
  | nil => exact ⟨rfl, rfl, rfl⟩
  | cons c earlier ih =>
    cases c with
    | get => exact ih.trans (sameSettings_get _)
    | put block => exact ih.trans (sameSettings_put _ block)
    | clear => exact ih.trans ⟨rfl, rfl, rfl⟩

/-- **Every call keeps it,** so it is true after any history. -/
theorem IsSound.after (h : m.IsSound 0) (history : History) :
    (m.after history).IsSound history.gets := by
  induction history with
  | nil => exact h
  | cons c earlier ih =>
    cases c with
    | get => exact ih.get
    | put block => exact ih.put block
    | clear => exact ih.clear

theorem IsSound.zeroed_handedOut (h : m.IsSound 0) (history : History) :
    ∀ block ∈ m.handedOut history, IsZeroed m.blockSize block := by
  induction history with
  | nil => exact fun _ hb => absurd hb List.not_mem_nil
  | cons c earlier ih =>
    cases c with
    | get =>
      intro block hb
      rcases List.mem_cons.1 hb with rfl | hb
      · exact (m.sameSettings_after earlier).blockSize ▸ (h.after earlier).zeroed_get
      · exact ih block hb
    | put _ => exact ih
    | clear => exact ih

/-- **Only a request that finds the free list empty is a miss.** -/
theorem free_of_miss {c : Call} {earlier : History}
    (h : (m.after (c :: earlier)).misses ≠ (m.after earlier).misses) :
    c = .get ∧ (m.after earlier).free = [] := by
  cases c with
  | get =>
    obtain ⟨-, hget⟩ | ⟨-, block, free, -, hget⟩ | ⟨-, hfree, -⟩ := (m.after earlier).get_cases
    · exact absurd (congrArg (·.2.misses) hget) h
    · exact absurd (congrArg (·.2.misses) hget) h
    · exact ⟨rfl, hfree⟩
  | put block =>
    obtain hput | ⟨-, -, -, hput⟩ := (m.after earlier).put_cases block
    · exact absurd (congrArg misses hput) h
    · exact absurd (congrArg misses hput) h
  | clear => exact absurd rfl h

/-- **After any history,** blocks of any length and content having been handed back: what is in the
free list, and what was handed out, are blocks of the right size that hold nothing, one for each
request.  The free list is within its capacity.  Every request counts as a hit or a miss, and as a
miss only if the free list was empty.  A disabled free list stays empty and counts nothing. -/
theorem blocks_of_history (enabled : Bool) (capacity blockSize : Nat) (history : History) :
    let opened := new enabled capacity blockSize
    let m := opened.after history
    (∀ block ∈ m.free, IsZeroed blockSize block)
    ∧ m.free.length ≤ capacity
    ∧ (opened.handedOut history).length = history.gets
    ∧ (∀ block ∈ opened.handedOut history, IsZeroed blockSize block)
    ∧ (enabled = true → m.hits + m.misses = history.gets)
    ∧ (∀ c, (opened.after (c :: history)).misses ≠ m.misses → c = .get ∧ m.free = [])
    ∧ (enabled = false → m.free = [] ∧ m.hits = 0 ∧ m.misses = 0) := by
  intro opened m
  have hsettings : opened.SameSettings m := opened.sameSettings_after history
  have hopened : opened.IsSound 0 := isSound_new enabled capacity blockSize
  have hsound : m.IsSound history.gets := hopened.after history
  refine ⟨fun block hb => ?_, ?_, opened.length_handedOut history,
    hopened.zeroed_handedOut history, fun henabled => ?_, fun c => free_of_miss,
    fun hdisabled => ?_⟩
  · have hzeroed := hsound.zeroed block hb
    rwa [hsettings.blockSize] at hzeroed
  · have hlength := hsound.length_le
    rwa [hsettings.capacity] at hlength
  · exact hsound.counted (hsettings.enabled.trans henabled)
  · exact hsound.idle (hsettings.enabled.trans hdisabled)

/-- Two blocks are taken from a free list that has one, both are handed back with something in them,
as is one that is too short, and one is taken again. -/
def borrowed : History :=
  [.get, .put ⟨#[1]⟩, .put ⟨#[7, 7]⟩, .put ⟨#[8, 8]⟩, .get, .get]

/-- There is room for one of them only.  All three that were handed out hold nothing, one of the
requests was a miss, and the next one is a miss as well. -/
theorem blocks_of_history_borrowed :
    (∀ block ∈ (new true 1 2).handedOut borrowed, IsZeroed 2 block)
    ∧ ((new true 1 2).after borrowed).hits + ((new true 1 2).after borrowed).misses = 3
    ∧ ((new true 1 2).after (.get :: borrowed)).misses = 2
    ∧ ((new true 1 2).after borrowed).free = []
    ∧ ((new false 1 2).after borrowed).hits = 0 := by
  obtain ⟨-, -, -, hzeroed, hcounted, hmiss, -⟩ := blocks_of_history true 1 2 borrowed
  obtain ⟨-, -, -, -, -, -, hidle⟩ := blocks_of_history false 1 2 borrowed
  exact ⟨hzeroed, hcounted rfl, by decide, (hmiss .get (by decide)).2, (hidle rfl).2.1⟩

end MemoryBlocks
end ScriptPool
