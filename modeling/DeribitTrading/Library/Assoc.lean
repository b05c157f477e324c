import Mathlib.Data.List.Nodup
import Mathlib.Data.List.Perm.Basic
import Mathlib.Data.List.Pairwise

/-!
Association lists read by their first entry for a key. What a reader can tell
apart: with distinct keys everything but the order, with sorted keys everything.
-/
namespace Assoc
open scoped List

variable {κ α β : Type*}

/-- No key is entered twice. -/
def Distinct (xs : List (κ × α)) : Prop := (xs.map Prod.fst).Nodup

instance [DecidableEq κ] (xs : List (κ × α)) : Decidable (Distinct xs) :=
  inferInstanceAs (Decidable (List.Nodup _))

theorem Distinct.nodup {xs : List (κ × α)} (distinct : Distinct xs) : xs.Nodup :=
  List.Nodup.of_map _ distinct

theorem distinct_of_sorted {r : κ → κ → Prop} [Std.Asymm r] {xs : List (κ × α)}
    (sorted : xs.Pairwise fun x y => r x.1 y.1) : Distinct xs := by
  refine List.pairwise_map.mpr (sorted.imp ?_)
  intro x y before equal
  rw [equal] at before
  exact Std.Asymm.asymm _ _ before before

/-- Lists that `f` and `g` map to the same one, element by element. -/
theorem map_eq_map_iff_zip {γ δ ε : Type*} (f : γ → ε) (g : δ → ε) (xs : List γ) (ys : List δ) :
    xs.map f = ys.map g ↔ xs.length = ys.length ∧ ∀ p ∈ xs.zip ys, f p.1 = g p.2 := by
  induction xs generalizing ys with
  | nil =>
      cases ys with
      | nil => simp
      | cons y ys => simp
  | cons x xs ih =>
      cases ys with
      | nil => simp
      | cons y ys =>
          rw [List.map_cons, List.map_cons, List.cons.injEq, ih, List.zip_cons_cons,
            List.forall_mem_cons, List.length_cons, List.length_cons, Nat.add_right_cancel_iff]
          exact and_left_comm

variable [BEq κ] [LawfulBEq κ]

theorem lookup_cons_ne {x : κ × α} {k : κ} (other : x.1 ≠ k) (xs : List (κ × α)) :
    (x :: xs).lookup k = xs.lookup k := by
  rw [List.lookup_cons, beq_eq_false_iff_ne.mpr (Ne.symm other)]

theorem find?_eq_lookup (xs : List (κ × α)) (k : κ) :
    (xs.find? fun x => x.1 == k).map Prod.snd = xs.lookup k := by
  induction xs with
  | nil => rfl
  | cons x xs ih =>
      obtain ⟨key, a⟩ := x
      by_cases same : key = k
      · subst same
        simp
      · rw [lookup_cons_ne same, ← ih, List.find?_cons_of_neg]
        simpa using same

theorem lookup_map_snd (xs : List (κ × α)) (f : κ → α → β) (k : κ) :
    (xs.map fun x => (x.1, f x.1 x.2)).lookup k = (xs.lookup k).map (f k) := by
  induction xs with
  | nil => rfl
  | cons x xs ih =>
      rw [List.map_cons]
      by_cases same : x.1 = k
      · subst same
        rw [List.lookup_cons_self, List.lookup_cons_self, Option.map_some]
      · rw [lookup_cons_ne same, lookup_cons_ne (x := (x.1, f x.1 x.2)) same, ih]

theorem mem_of_lookup {xs : List (κ × α)} {k : κ} {a : α} (found : xs.lookup k = some a) :
    (k, a) ∈ xs := by
  obtain ⟨before, after, rfl, _⟩ := List.lookup_eq_some_iff.mp found
  simp

theorem lookup_isSome_iff_mem (xs : List (κ × α)) (k : κ) :
    (xs.lookup k).isSome ↔ k ∈ xs.map Prod.fst := by
  rw [List.lookup_isSome_iff, List.mem_map]
  constructor
  · intro ⟨x, there, same⟩
    exact ⟨x, there, (eq_of_beq same).symm⟩
  · intro ⟨x, there, same⟩
    exact ⟨x, there, beq_iff_eq.mpr same.symm⟩

theorem lookup_of_mem {xs : List (κ × α)} (distinct : Distinct xs) {k : κ} {a : α}
    (there : (k, a) ∈ xs) : xs.lookup k = some a := by
  induction xs with
  | nil => cases there
  | cons x xs ih =>
      obtain ⟨fresh, rest⟩ := List.nodup_cons.mp distinct
      rcases List.mem_cons.mp there with same | later
      · cases same
        exact List.lookup_cons_self
      · rw [lookup_cons_ne, ih rest later]
        intro same
        exact fresh (same ▸ List.mem_map_of_mem later)

theorem lookup_eq_some_iff_mem {xs : List (κ × α)} (distinct : Distinct xs) (k : κ) (a : α) :
    xs.lookup k = some a ↔ (k, a) ∈ xs := ⟨mem_of_lookup, lookup_of_mem distinct⟩

theorem lookup_perm {xs ys : List (κ × α)} (distinct : Distinct xs) (perm : xs ~ ys) (k : κ) :
    xs.lookup k = ys.lookup k := by
  have distinct' : Distinct ys := (perm.map Prod.fst).nodup_iff.mp distinct
  ext a
  rw [lookup_eq_some_iff_mem distinct, lookup_eq_some_iff_mem distinct', perm.mem_iff]

/-- With distinct keys the readings determine the entries. -/
theorem perm_of_lookup {xs ys : List (κ × α)} (first : Distinct xs) (second : Distinct ys)
    (same : ∀ k, xs.lookup k = ys.lookup k) : xs ~ ys := by
  refine (List.perm_ext_iff_of_nodup first.nodup second.nodup).mpr ?_
  intro ⟨k, a⟩
  rw [← lookup_eq_some_iff_mem first, ← lookup_eq_some_iff_mem second, same k]

/-- And if the keys are in order, the readings determine the whole list. -/
theorem eq_of_lookup {r : κ → κ → Prop} [Std.Asymm r] {xs ys : List (κ × α)}
    (first : xs.Pairwise fun x y => r x.1 y.1) (second : ys.Pairwise fun x y => r x.1 y.1)
    (same : ∀ k, xs.lookup k = ys.lookup k) : xs = ys := by
  refine List.Perm.eq_of_pairwise ?_ first second
    (perm_of_lookup (distinct_of_sorted first) (distinct_of_sorted second) same)
  intro x y _ _ before after
  exact absurd after (Std.Asymm.asymm _ _ before)

/-- Lists with the same keys, read side by side. -/
theorem lookup_zip {xs : List (κ × α)} {ys : List (κ × β)}
    (keys : xs.map Prod.fst = ys.map Prod.fst) {k : κ} {a : α} (found : xs.lookup k = some a) :
    ∃ b, ys.lookup k = some b ∧ ((k, a), (k, b)) ∈ xs.zip ys := by
  induction xs generalizing ys with
  | nil => cases found
  | cons x xs ih =>
      cases ys with
      | nil => cases keys
      | cons y ys =>
          obtain ⟨head, tail⟩ := List.cons.inj keys
          by_cases same : x.1 = k
          · subst same
            rw [List.lookup_cons_self] at found
            cases found
            refine ⟨y.2, by rw [head, List.lookup_cons_self], ?_⟩
            rw [List.zip_cons_cons, List.mem_cons]
            exact .inl (Prod.ext rfl (Prod.ext head rfl))
          · rw [lookup_cons_ne same] at found
            obtain ⟨b, there, paired⟩ := ih tail found
            refine ⟨b, ?_, List.mem_cons_of_mem _ paired⟩
            rw [lookup_cons_ne (head ▸ same), there]

end Assoc
