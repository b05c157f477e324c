import DeribitTrading.Library.Runs

/-!
The first-in first-out queue as the sequence of its operations: what a bounded
or an unbounded queue is for, whatever it is built of.
-/
namespace Fifo
open Runs
open scoped List

variable {α : Type*}

inductive Op (α : Type*) where
  | put (a : α)
  | take (a : α)
  deriving DecidableEq, Repr

/-- An item is put behind all others where there is room for it, and the first is taken. -/
inductive Step (room : ℕ → Prop) : List α → Op α → List α → Prop
  | put {items : List α} (a : α) : room items.length → Step room items (.put a) (items ++ [a])
  | take (a : α) (items : List α) : Step room (a :: items) (.take a) items

def Op.added : Op α → Option α
  | .put a => some a
  | .take _ => none

def Op.removed : Op α → Option α
  | .put _ => none
  | .take a => some a

def added (log : List (Op α)) : List α := log.filterMap Op.added

def removed (log : List (Op α)) : List α := log.filterMap Op.removed

/-- What has been put and not yet taken. -/
def contents (log : List (Op α)) : List α := (added log).drop (removed log).length

variable {room : ℕ → Prop} {log : List (Op α)} {items items' : List α}

/-- Nothing is lost, made up or overtaken. -/
theorem conserved (run : Trace (Step room) items log items') :
    items ++ added log = removed log ++ items' := by
  induction run with
  | nil items => simp [added, removed]
  | cons head tail ih =>
      cases head with
      | put a free =>
          rw [List.append_assoc] at ih
          exact ih
      | take a rest => exact congrArg (List.cons a) ih

theorem removed_isPrefix (run : Trace (Step room) [] log items) : removed log <+: added log :=
  ⟨items, (conserved run).symm⟩

theorem contents_eq (run : Trace (Step room) [] log items) : contents log = items := by
  have same : added log = removed log ++ items := conserved run
  rw [contents, same, List.drop_left]

/-- A queue with room below a bound never holds more. -/
theorem length_le {bound : ℕ} (bounded : ∀ n, room n → n < bound)
    (run : Trace (Step room) items log items') (start : items.length ≤ bound) :
    items'.length ≤ bound := by
  refine @Trace.invariant _ _ _ (fun items => items.length ≤ bound) ?_ _ _ _ run start
  intro items op items' short taken
  cases taken with
  | put a free =>
      have less := bounded _ free
      rw [List.length_append, List.length_singleton]
      omega
  | take a rest =>
      rw [List.length_cons] at short
      omega

end Fifo
