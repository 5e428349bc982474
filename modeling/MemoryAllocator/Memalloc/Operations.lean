import MemoryAllocator.Memalloc.State

namespace MemoryAllocator.Memalloc

/-- The test `curr->s.is_free && curr->s.size >= size` of `get_free_block`. -/
def fits (size curr : Nat) : MemallocM Bool := do
  if (← load (curr + 8) 4) = 0 then pure false
  else do
    let recorded ← load curr 8
    pure (size ≤ recorded)

/-- The loop of `get_free_block` from `curr`, on `fuel` passes. -/
def getFreeBlockFrom (size : Nat) : Nat → Nat → MemallocM Nat
  | 0, _ => throw .diverges
  | fuel + 1, curr =>
    if curr = 0 then pure 0
    else do
      if ← fits size curr then pure curr
      else do
        let next ← load (curr + 16) 8
        getFreeBlockFrom size fuel next

/-- `get_free_block`: the first header from `head` that is free and holds `size` bytes. -/
def getFreeBlock (size : Nat) : MemallocM Nat := do
  let s ← get
  getFreeBlockFrom size (s.regions.length + 1) s.head

/-- `malloc`; `proposed` is the address `VirtualAlloc` would reserve at. -/
def malloc (proposed : Option Nat) (size : Nat) : MemallocM Nat :=
  if size = 0 then pure 0
  else do
    let header ← getFreeBlock size
    if header ≠ 0 then do
      store (header + 8) 4 0
      pure (header + headerSize)
    else do
      let block ← virtualAlloc proposed (sizeAdd headerSize size)
      if block = 0 then pure 0
      else do
        store block 8 size
        store (block + 8) 4 0
        store (block + 16) 8 0
        if (← get).head = 0 then setHead block
        let tail := (← get).tail
        if tail ≠ 0 then store (tail + 16) 8 block
        setTail block
        pure (block + headerSize)

/-- The loop of `free` that finds the header whose `next` is `tail` and makes it the tail. -/
def unlinkTail (tail : Nat) : Nat → Nat → MemallocM Unit
  | 0, _ => throw .diverges
  | fuel + 1, tmp =>
    if tmp = 0 then pure ()
    else do
      if (← load (tmp + 16) 8) = tail then do
        store (tmp + 16) 8 0
        setTail tmp
      else do
        let next ← load (tmp + 16) 8
        unlinkTail tail fuel next

/-- `free`: the tail's reservation is released, any other block is marked free. -/
def free (block : Nat) : MemallocM Unit :=
  if block = 0 then pure ()
  else do
    let header := block - headerSize
    let s ← get
    if header = s.tail then do
      if s.head = s.tail then do
        setHead 0
        setTail 0
      else unlinkTail s.tail (s.regions.length + 1) s.head
      virtualFree header
    else store (header + 8) 4 1

/-- `calloc`. -/
def calloc (proposed : Option Nat) (num nsize : Nat) : MemallocM Nat :=
  if num = 0 ∨ nsize = 0 then pure 0
  else
    let size := sizeMul num nsize
    if nsize ≠ size / num then pure 0
    else do
      let block ← malloc proposed size
      if block = 0 then pure 0
      else do
        memset block 0 size
        pure block

/-- `realloc`. -/
def realloc (proposed : Option Nat) (block size : Nat) : MemallocM Nat :=
  if block = 0 ∨ size = 0 then malloc proposed size
  else do
    let header := block - headerSize
    if (← load header 8) ≥ size then pure block
    else do
      let ret ← malloc proposed size
      if ret ≠ 0 then do
        memcpy ret block (← load header 8)
        free block
      pure ret

end MemoryAllocator.Memalloc
