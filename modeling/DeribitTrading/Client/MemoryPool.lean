import Mathlib.Data.List.Nodup
import Mathlib.Data.List.Range

/-!
`MemoryPool` of `utils.cpp`. The free list accepts any pointer, so which
addresses are blocks of the pool is a predicate beside the list, not a
property of its type. `freeBlocks` is kept with its back at the head.
-/
namespace DeribitTrading

abbrev Addr := Nat

structure MemoryPool where
  blockSize : Nat
  blockCount : Nat
  memory : Addr
  freeBlocks : List Addr

namespace MemoryPool

def block (p : MemoryPool) (i : Nat) : Addr := p.memory + i * p.blockSize

/-- The constructor, given the address that `new char[blockSize * blockCount]` returns. -/
def create (memory : Addr) (blockSize blockCount : Nat) : MemoryPool where
  blockSize := blockSize
  blockCount := blockCount
  memory := memory
  freeBlocks := ((List.range blockCount).map fun i => memory + i * blockSize).reverse

/-- `none` is the null pointer of an exhausted pool. -/
def allocate (p : MemoryPool) : Option Addr × MemoryPool :=
  match p.freeBlocks with
  | [] => (none, p)
  | ptr :: rest => (some ptr, { p with freeBlocks := rest })

def deallocate (p : MemoryPool) (ptr : Addr) : MemoryPool :=
  { p with freeBlocks := ptr :: p.freeBlocks }

/-- The address is the start of one of the pool's blocks. -/
def IsBlock (p : MemoryPool) (ptr : Addr) : Prop := ∃ i < p.blockCount, ptr = p.block i

@[simp] theorem allocate_nil {p : MemoryPool} (exhausted : p.freeBlocks = []) :
    p.allocate = (none, p) := by
  simp only [allocate, exhausted]

@[simp] theorem allocate_cons {p : MemoryPool} {ptr : Addr} {rest : List Addr}
    (free : p.freeBlocks = ptr :: rest) :
    p.allocate = (some ptr, { p with freeBlocks := rest }) := by
  simp only [allocate, free]

theorem create_freeBlocks_length (memory : Addr) (blockSize blockCount : Nat) :
    (create memory blockSize blockCount).freeBlocks.length = blockCount := by
  simp [create]

theorem create_isBlock (memory : Addr) (blockSize blockCount : Nat) :
    ∀ ptr ∈ (create memory blockSize blockCount).freeBlocks,
      (create memory blockSize blockCount).IsBlock ptr := by
  intro ptr member
  simp only [create, List.mem_reverse, List.mem_map, List.mem_range] at member
  obtain ⟨i, below, rfl⟩ := member
  exact ⟨i, below, rfl⟩

theorem create_nodup (memory : Addr) {blockSize : Nat} (positive : 0 < blockSize)
    (blockCount : Nat) : (create memory blockSize blockCount).freeBlocks.Nodup := by
  simp only [create, List.nodup_reverse]
  apply List.Nodup.map _ List.nodup_range
  intro i j same
  exact Nat.eq_of_mul_eq_mul_right positive (Nat.add_left_cancel same)

end MemoryPool
end DeribitTrading
