import Mathlib.Data.Nat.SuccPred
import Mathlib.Order.CompletePartialOrder
import Mathlib.Order.SuccPred.IntervalSucc
import DeribitTrading.Client.MemoryPool
import DeribitTrading.Library.Runs

/-!
The blocks of a `MemoryPool` that any number of threads share. Each call runs
under `poolMutex`, so what the threads do is one sequence of calls; who holds
which block is known to the callers alone, and is kept beside the pool.
-/
namespace DeribitTrading
open Runs
open scoped List

namespace MemoryPool

/-- The constructor in the arithmetic of `size_t`, where `i * blockSize` wraps around. -/
def construct (memory : Addr) (blockSize blockCount : Nat) : MemoryPool where
  blockSize := blockSize
  blockCount := blockCount
  memory := memory
  freeBlocks :=
    ((List.range blockCount).map fun i => memory + i * blockSize % 2 ^ 64).reverse

/-- The addresses that `new char[blockSize * blockCount]` returned, as many as the
product has in `size_t`. -/
def region (p : MemoryPool) : Set Addr :=
  Set.Ico p.memory (p.memory + p.blockSize * p.blockCount % 2 ^ 64)

/-- The bytes that a caller of `allocate` may use. -/
def bytesOf (p : MemoryPool) (ptr : Addr) : Set Addr := Set.Ico ptr (ptr + p.blockSize)

def blocks (p : MemoryPool) : List Addr := (List.range p.blockCount).map p.block

theorem mem_blocks_iff {p : MemoryPool} {ptr : Addr} : ptr ∈ p.blocks ↔ p.IsBlock ptr := by
  simp only [blocks, IsBlock, List.mem_map, List.mem_range]
  constructor
  · intro listed
    obtain ⟨i, below, rfl⟩ := listed
    exact ⟨i, below, rfl⟩
  · intro isBlock
    obtain ⟨i, below, rfl⟩ := isBlock
    exact ⟨i, below, rfl⟩

theorem construct_eq_create (memory : Addr) {blockSize blockCount : Nat}
    (fits : blockSize * blockCount < 2 ^ 64) :
    construct memory blockSize blockCount = create memory blockSize blockCount := by
  unfold construct create
  congr 2
  apply List.map_congr_left
  intro i member
  have within : i * blockSize ≤ blockSize * blockCount := by
    rw [Nat.mul_comm]
    exact Nat.mul_le_mul_left _ (List.mem_range.mp member).le
  rw [Nat.mod_eq_of_lt (within.trans_lt fits)]

theorem block_zero (p : MemoryPool) : p.block 0 = p.memory := by
  rw [block, Nat.zero_mul, Nat.add_zero]

theorem block_succ (p : MemoryPool) (i : Nat) : p.block (i + 1) = p.block i + p.blockSize := by
  rw [block, block, Nat.succ_mul, Nat.add_assoc]

theorem block_monotone (p : MemoryPool) : Monotone p.block := by
  apply monotone_nat_of_le_succ
  intro i
  rw [block_succ]
  exact Nat.le_add_right _ _

theorem construct_blocks_nodup (memory : Addr) {blockSize : Nat} (positive : 0 < blockSize)
    (blockCount : Nat) : (construct memory blockSize blockCount).blocks.Nodup :=
  List.nodup_reverse.mp (create_nodup memory positive blockCount)

theorem allocate_eq_none_iff {p : MemoryPool} : p.allocate.1 = none ↔ p.freeBlocks = [] := by
  rcases free : p.freeBlocks with _ | ⟨ptr, rest⟩
  · simp [allocate_nil free]
  · simp [allocate_cons free]

/-- The blocks lie one behind the other, so those of different numbers share no byte. -/
theorem disjoint_bytesOf {p : MemoryPool} {a b : Addr} (first : p.IsBlock a)
    (second : p.IsBlock b) (different : a ≠ b) : Disjoint (p.bytesOf a) (p.bytesOf b) := by
  obtain ⟨i, _, rfl⟩ := first
  obtain ⟨j, _, rfl⟩ := second
  have numbers : i ≠ j := by
    intro same
    exact different (congrArg p.block same)
  rw [bytesOf, bytesOf, ← block_succ, ← block_succ]
  exact p.block_monotone.pairwise_disjoint_on_Ico_succ numbers

theorem region_eq {p : MemoryPool} (fits : p.blockSize * p.blockCount < 2 ^ 64) :
    p.region = Set.Ico (p.block 0) (p.block p.blockCount) := by
  rw [region, Nat.mod_eq_of_lt fits, Nat.mul_comm, block_zero, block]

theorem bytesOf_subset_region {p : MemoryPool} (fits : p.blockSize * p.blockCount < 2 ^ 64)
    {ptr : Addr} (isBlock : p.IsBlock ptr) : p.bytesOf ptr ⊆ p.region := by
  obtain ⟨i, below, rfl⟩ := isBlock
  rw [region_eq fits, bytesOf, ← block_succ]
  exact Set.Ico_subset_Ico (p.block_monotone (Nat.zero_le i)) (p.block_monotone below)

end MemoryPool

/-- A call of one of the threads. -/
inductive PoolCall where
  | allocate (thread : Nat)
  | deallocate (thread : Nat) (ptr : Addr)
  deriving DecidableEq, Repr

/-- The pool, and the blocks that `allocate` returned and nobody gave back yet. -/
structure SharedPool where
  pool : MemoryPool
  held : List Addr

namespace SharedPool

def initial (memory : Addr) (blockSize blockCount : Nat) : SharedPool where
  pool := .construct memory blockSize blockCount
  held := []

/-- Any thread may give back any block that is held, and no other address. -/
def next (s : SharedPool) : PoolCall → Option SharedPool
  | .allocate _ =>
      match s.pool.allocate with
      | (none, pool) => some { s with pool }
      | (some ptr, pool) => some { pool, held := ptr :: s.held }
  | .deallocate _ ptr =>
      if ptr ∈ s.held then
        some { pool := s.pool.deallocate ptr, held := s.held.erase ptr }
      else none

/-- All that a call does: nothing, or one block moved from one list to the other. -/
theorem next_cases {s t : SharedPool} {call : PoolCall} (taken : s.next call = some t) :
    (s.pool.freeBlocks = [] ∧ t = s) ∨
      (∃ ptr rest, s.pool.freeBlocks = ptr :: rest ∧
        t = ⟨{ s.pool with freeBlocks := rest }, ptr :: s.held⟩) ∨
      ∃ ptr ∈ s.held, t = ⟨s.pool.deallocate ptr, s.held.erase ptr⟩ := by
  cases call with
  | allocate thread =>
      unfold next at taken
      rcases free : s.pool.freeBlocks with _ | ⟨ptr, rest⟩
      · rw [MemoryPool.allocate_nil free] at taken
        exact .inl ⟨rfl, (Option.some.inj taken).symm⟩
      · rw [MemoryPool.allocate_cons free] at taken
        exact .inr (.inl ⟨ptr, rest, rfl, (Option.some.inj taken).symm⟩)
  | deallocate thread ptr =>
      unfold next at taken
      dsimp only at taken
      split at taken
      · rename_i member
        exact .inr (.inr ⟨ptr, member, (Option.some.inj taken).symm⟩)
      · cases taken

/-- The blocks that are held and those that are free are all there are. -/
def Partitioned (p : MemoryPool) (s : SharedPool) : Prop :=
  s.held ++ s.pool.freeBlocks ~ p.blocks

theorem initial_partitioned (memory : Addr) {blockSize blockCount : Nat}
    (fits : blockSize * blockCount < 2 ^ 64) :
    (initial memory blockSize blockCount).Partitioned
      (.construct memory blockSize blockCount) := by
  unfold initial
  rw [MemoryPool.construct_eq_create memory fits]
  exact List.reverse_perm _

theorem Partitioned.next {p : MemoryPool} {s t : SharedPool} {call : PoolCall}
    (all : s.Partitioned p) (taken : s.next call = some t) : t.Partitioned p := by
  obtain ⟨_, rfl⟩ | ⟨ptr, rest, free, rfl⟩ | ⟨ptr, member, rfl⟩ := next_cases taken
  · exact all
  · unfold Partitioned at all
    rw [free] at all
    exact List.perm_middle.symm.trans all
  · have back : ptr :: s.held.erase ptr ~ s.held := (List.perm_cons_erase member).symm
    exact List.perm_middle.trans ((back.append_right s.pool.freeBlocks).trans all)

/-- What the threads may rely on, of the pool `p` as it was constructed. -/
structure Sound (p : MemoryPool) (s : SharedPool) : Prop where
  partition : s.held ++ s.pool.freeBlocks ~ p.blocks
  nodup : (s.held ++ s.pool.freeBlocks).Nodup
  inside : ∀ ptr ∈ s.held, p.bytesOf ptr ⊆ p.region
  apart : s.held.Pairwise fun a b => Disjoint (p.bytesOf a) (p.bytesOf b)
  exhausted : s.pool.allocate.1 = none ↔ ∀ i < p.blockCount, p.block i ∈ s.held

theorem Partitioned.isBlock {p : MemoryPool} {s : SharedPool} (all : s.Partitioned p)
    {ptr : Addr} (member : ptr ∈ s.held ++ s.pool.freeBlocks) : p.IsBlock ptr :=
  MemoryPool.mem_blocks_iff.mp (all.mem_iff.mp member)

theorem Partitioned.allocate_eq_none_iff {p : MemoryPool} {s : SharedPool}
    (all : s.Partitioned p) (nodup : (s.held ++ s.pool.freeBlocks).Nodup) :
    s.pool.allocate.1 = none ↔ ∀ i < p.blockCount, p.block i ∈ s.held := by
  rw [MemoryPool.allocate_eq_none_iff]
  constructor
  · intro free i below
    have member : p.block i ∈ s.held ++ s.pool.freeBlocks :=
      all.mem_iff.mpr (MemoryPool.mem_blocks_iff.mpr ⟨i, below, rfl⟩)
    rwa [free, List.append_nil] at member
  · intro held
    by_contra left
    obtain ⟨ptr, free⟩ := List.exists_mem_of_ne_nil _ left
    obtain ⟨i, below, rfl⟩ := all.isBlock (List.mem_append_right s.held free)
    exact (List.disjoint_of_nodup_append nodup) (held i below) free

theorem Partitioned.sound {p : MemoryPool} {s : SharedPool} (all : s.Partitioned p)
    (fits : p.blockSize * p.blockCount < 2 ^ 64) (distinct : p.blocks.Nodup) : s.Sound p := by
  have nodup : (s.held ++ s.pool.freeBlocks).Nodup := all.nodup_iff.mpr distinct
  have isBlock : ∀ ptr ∈ s.held, p.IsBlock ptr := by
    intro ptr member
    exact all.isBlock (List.mem_append_left _ member)
  refine ⟨all, nodup, ?_, ?_, all.allocate_eq_none_iff nodup⟩
  · intro ptr member
    exact MemoryPool.bytesOf_subset_region fits (isBlock ptr member)
  · have different : s.held.Pairwise (· ≠ ·) := (List.nodup_append.mp nodup).1
    apply different.imp_of_mem
    intro a b first second apart
    exact MemoryPool.disjoint_bytesOf (isBlock a first) (isBlock b second) apart

/-- Whatever the threads do, as long as they give back only what is held, no two
of them are given the same byte, and none is turned away while a block is free. -/
theorem block_pool_sound (memory : Addr) {blockSize blockCount : Nat} (positive : 0 < blockSize)
    (fits : blockSize * blockCount < 2 ^ 64) {calls : List PoolCall} {s : SharedPool}
    (run : Trace (Takes next) (initial memory blockSize blockCount) calls s) :
    s.Sound (.construct memory blockSize blockCount) := by
  have all : s.Partitioned (.construct memory blockSize blockCount) := by
    apply run.invariant _ (initial_partitioned memory fits)
    intro a call b kept taken
    exact kept.next taken
  exact all.sound fits (MemoryPool.construct_blocks_nodup memory positive blockCount)

/-- Two threads take both blocks, a third gets none, and the second frees what the first took. -/
def sampleCalls : List PoolCall :=
  [.allocate 0, .allocate 1, .allocate 2, .deallocate 1 4104, .allocate 2]

theorem sample_pool_sound :
    ∃ s, Trace (Takes next) (initial 4096 8 2) sampleCalls s ∧ s.held = [4104, 4096] ∧
      s.Sound (.construct 4096 8 2) := by
  have reached : (follow next (initial 4096 8 2) sampleCalls).any
      (fun s => s.held = [4104, 4096]) = true := by decide
  obtain ⟨s, run, held⟩ := exists_trace_of_follow reached
  exact ⟨s, run, of_decide_eq_true held, block_pool_sound 4096 (by decide) (by decide) run⟩

end SharedPool
end DeribitTrading
