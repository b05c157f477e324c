import Mathlib.Data.List.Basic
import Mathlib.Data.List.Nodup
import Mathlib.Data.List.Flatten
import Mathlib.Algebra.GroupWithZero.Nat

/-!
Threads kept in a list, of which one at a time moves. What a step of one thread
does to an assertion of all of them, to what they hold together, and to a sum
over them, for threads of any type.
-/
namespace Interleaving
open scoped List

variable {τ α : Type*}

/-- Every thread meets its assertion. -/
def Each (P : ℕ → τ → Prop) (threads : List τ) : Prop :=
  ∀ j c, threads[j]? = some c → P j c

theorem Each.nil {P : ℕ → τ → Prop} : Each P [] := by
  intro j c there
  simp at there

theorem Each.replicate {P : ℕ → τ → Prop} {a : τ} (all : ∀ j, P j a) (n : ℕ) :
    Each P (List.replicate n a) := by
  intro j c there
  rw [List.getElem?_replicate] at there
  split at there
  · cases there
    exact all j
  · cases there

theorem Each.mono {P Q : ℕ → τ → Prop} {threads : List τ} (each : Each P threads)
    (weaker : ∀ j c, threads[j]? = some c → P j c → Q j c) : Each Q threads := by
  intro j c there
  exact weaker j c there (each j c there)

/-- One thread establishes its own assertion and does not disturb the others'. -/
theorem Each.set {P Q : ℕ → τ → Prop} {threads : List τ} (each : Each P threads) {i : ℕ}
    {b : τ} (own : Q i b)
    (others : ∀ j c, j ≠ i → threads[j]? = some c → P j c → Q j c) :
    Each Q (threads.set i b) := by
  intro j c there
  rw [List.getElem?_set] at there
  split at there
  · rename_i same
    split at there
    · cases there
      exact same ▸ own
    · cases there
  · rename_i other
    exact others j c (Ne.symm other) there (each j c there)

theorem getElem?_snoc (threads : List τ) (b : τ) (j : ℕ) :
    (threads ++ [b])[j]? = if j = threads.length then some b else threads[j]? := by
  rcases Nat.lt_trichotomy j threads.length with below | same | above
  · rw [List.getElem?_append_left below, if_neg (Nat.ne_of_lt below)]
  · rw [same, List.getElem?_concat_length, if_pos rfl]
  · rw [if_neg (Nat.ne_of_gt above), List.getElem?_eq_none (Nat.le_of_lt above),
      List.getElem?_eq_none]
    rw [List.length_append, List.length_singleton]
    exact above

theorem Each.append {P Q : ℕ → τ → Prop} {threads : List τ} (each : Each P threads) {b : τ}
    (own : Q threads.length b) (others : ∀ j c, threads[j]? = some c → P j c → Q j c) :
    Each Q (threads ++ [b]) := by
  intro j c there
  rw [getElem?_snoc] at there
  split at there
  · rename_i last
    cases there
    exact last ▸ own
  · exact others j c there (each j c there)

theorem Each.map {P Q : ℕ → τ → Prop} {threads : List τ} (each : Each P threads) {f : τ → τ}
    (mapped : ∀ j c, threads[j]? = some c → P j c → Q j (f c)) : Each Q (threads.map f) := by
  intro j c there
  rw [List.getElem?_map, Option.map_eq_some_iff] at there
  obtain ⟨c, here, rfl⟩ := there
  exact mapped j c here (each j c here)

/-- What one thread gives up and takes, seen in what all threads hold. -/
theorem flatMap_set_perm (held : τ → List α) {threads : List τ} {i : ℕ} {a : τ}
    (here : threads[i]? = some a) (b : τ) :
    held a ++ (threads.set i b).flatMap held ~ held b ++ threads.flatMap held := by
  induction threads generalizing i with
  | nil => simp at here
  | cons c rest ih =>
      cases i with
      | zero =>
          cases here
          simpa using List.perm_append_comm_assoc (held a) (held b) (rest.flatMap held)
      | succ i =>
          have moved := ih here
          simp only [List.set_cons_succ, List.flatMap_cons]
          calc held a ++ (held c ++ (rest.set i b).flatMap held)
              ~ held c ++ (held a ++ (rest.set i b).flatMap held) :=
                List.perm_append_comm_assoc ..
            _ ~ held c ++ (held b ++ rest.flatMap held) := moved.append_left _
            _ ~ held b ++ (held c ++ rest.flatMap held) := List.perm_append_comm_assoc ..

/-- A step that only moves things between the thread and a common store keeps
what there is in all. -/
theorem conserved (held : τ → List α) {threads : List τ} {i : ℕ} {a b : τ} {store store' : List α}
    (here : threads[i]? = some a) (kept : store' ++ held b ~ store ++ held a) :
    store' ++ (threads.set i b).flatMap held ~ store ++ threads.flatMap held := by
  have moved := flatMap_set_perm held here b
  refine (List.perm_append_left_iff (held a)).mp ?_
  calc held a ++ (store' ++ (threads.set i b).flatMap held)
      ~ store' ++ (held a ++ (threads.set i b).flatMap held) := List.perm_append_comm_assoc ..
    _ ~ store' ++ (held b ++ threads.flatMap held) := moved.append_left _
    _ ~ store' ++ held b ++ threads.flatMap held := by rw [List.append_assoc]
    _ ~ store ++ held a ++ threads.flatMap held := kept.append_right _
    _ ~ store ++ (held a ++ threads.flatMap held) := by rw [List.append_assoc]
    _ ~ held a ++ (store ++ threads.flatMap held) := List.perm_append_comm_assoc ..

/-- What is held without repetition has one holder. -/
theorem holder_unique (held : τ → List α) {threads : List τ} {i j : ℕ} {a b : τ} {x : α}
    (nodup : (threads.flatMap held).Nodup) (first : threads[i]? = some a)
    (second : threads[j]? = some b) (ofFirst : x ∈ held a) (ofSecond : x ∈ held b) : i = j := by
  by_contra different
  have pairwise := (List.nodup_flatMap.mp nodup).2
  rcases Nat.lt_or_gt_of_ne different with below | below
  · obtain ⟨hi, rfl⟩ := List.getElem?_eq_some_iff.mp first
    obtain ⟨hj, rfl⟩ := List.getElem?_eq_some_iff.mp second
    exact List.pairwise_iff_getElem.mp pairwise i j hi hj below ofFirst ofSecond
  · obtain ⟨hi, rfl⟩ := List.getElem?_eq_some_iff.mp first
    obtain ⟨hj, rfl⟩ := List.getElem?_eq_some_iff.mp second
    exact List.pairwise_iff_getElem.mp pairwise j i hj hi below ofSecond ofFirst

theorem sum_set (weight : τ → ℕ) {threads : List τ} {i : ℕ} {a : τ}
    (here : threads[i]? = some a) (b : τ) :
    ((threads.set i b).map weight).sum + weight a = (threads.map weight).sum + weight b := by
  induction threads generalizing i with
  | nil => simp at here
  | cons c rest ih =>
      cases i with
      | zero =>
          cases here
          simp only [List.set_cons_zero, List.map_cons, List.sum_cons]
          omega
      | succ i =>
          have moved := ih here
          simp only [List.set_cons_succ, List.map_cons, List.sum_cons]
          omega

/-- A thread that moves keeps its place among those it belongs to. -/
theorem filter_set_own {p : τ → Bool} {threads : List τ} {i : ℕ} {a b : τ}
    (here : threads[i]? = some a) (own : p a) (still : p b) :
    ∃ before after, threads.filter p = before ++ a :: after ∧
      (threads.set i b).filter p = before ++ b :: after := by
  induction threads generalizing i with
  | nil => simp at here
  | cons c rest ih =>
      cases i with
      | zero =>
          cases here
          exact ⟨[], rest.filter p, by simp [own], by simp [still]⟩
      | succ i =>
          obtain ⟨before, after, old, new⟩ := ih here
          rw [List.set_cons_succ, List.filter_cons, List.filter_cons]
          split
          · exact ⟨c :: before, after, congrArg (List.cons c) old, congrArg (List.cons c) new⟩
          · exact ⟨before, after, old, new⟩

theorem filter_set_other {p : τ → Bool} {threads : List τ} {i : ℕ} {a b : τ}
    (here : threads[i]? = some a) (other : p a = false) (still : p b = false) :
    (threads.set i b).filter p = threads.filter p := by
  induction threads generalizing i with
  | nil => rfl
  | cons c rest ih =>
      cases i with
      | zero =>
          cases here
          simp [other, still]
      | succ i => rw [List.set_cons_succ, List.filter_cons, List.filter_cons, ih here]

end Interleaving
