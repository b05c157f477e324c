import Mathlib.Data.List.Basic
import Mathlib.Data.List.Nodup

/-!
Nodes linked by pointers into one chain. A node's pointer is looked up by
`links`, which fails where there is no such node; the nodes stay arbitrary.
-/
namespace Chain

variable {β : Type*} {links links' : β → Option (Option β)} {chain before after : List β}
  {a b : β}

/-- Each node points to the one behind it in the list, and the last to none. -/
def Linked (links : β → Option (Option β)) (chain : List β) : Prop :=
  ∀ before a after, chain = before ++ a :: after → links a = some after.head?

theorem linked_cons_iff :
    Linked links (a :: chain) ↔ links a = some chain.head? ∧ Linked links chain := by
  constructor
  · intro linked
    refine ⟨linked [] a chain rfl, ?_⟩
    intro before b after same
    exact linked (a :: before) b after (congrArg (List.cons a) same)
  · intro both before b after same
    cases before with
    | nil =>
        cases same
        exact both.1
    | cons c before =>
        cases same
        exact both.2 before b after rfl

theorem linked_nil : Linked links [] := by
  intro before a after same
  cases before with
  | nil => cases same
  | cons b before => cases same

theorem Linked.single (last : links a = some none) : Linked links [a] :=
  linked_cons_iff.mpr ⟨last, linked_nil⟩

theorem Linked.exists_next (linked : Linked links chain) (there : a ∈ chain) :
    ∃ next, links a = some next := by
  obtain ⟨before, after, same⟩ := List.append_of_mem there
  exact ⟨after.head?, linked before a after same⟩

/-- Who follows a pointer stays on the chain. -/
theorem Linked.next_mem (linked : Linked links chain) (there : a ∈ chain)
    (next : links a = some (some b)) : b ∈ chain := by
  obtain ⟨before, after, same⟩ := List.append_of_mem there
  rw [linked before a after same, Option.some.injEq] at next
  obtain ⟨rest, rfl⟩ := List.head?_eq_some_iff.mp next
  rw [same]
  simp

theorem Linked.eq_snoc (linked : Linked links chain) (there : a ∈ chain)
    (last : links a = some none) : ∃ before, chain = before ++ [a] := by
  obtain ⟨before, after, same⟩ := List.append_of_mem there
  rw [linked before a after same, Option.some.injEq, List.head?_eq_none_iff] at last
  exact ⟨before, by rw [same, last]⟩

/-- The pointer at the end of the first part leads to the start of the second. -/
theorem Linked.border (linked : Linked links (before ++ after)) (last : before.getLast? = some a) :
    links a = some after.head? := by
  obtain ⟨earlier, same⟩ := List.getLast?_eq_some_iff.mp last
  refine linked earlier a after ?_
  rw [same, List.append_assoc, List.singleton_append]

theorem Linked.congr (linked : Linked links chain) (kept : ∀ a ∈ chain, links' a = links a) :
    Linked links' chain := by
  intro before a after same
  have there : a ∈ chain := by
    rw [same]
    simp
  rw [kept a there]
  exact linked before a after same

/-- A new last node. -/
theorem Linked.snoc (linked : Linked links (chain ++ [a])) (set : links' a = some (some b))
    (fresh : links' b = some none) (kept : ∀ c ∈ chain, links' c = links c) :
    Linked links' (chain ++ [a] ++ [b]) := by
  induction chain with
  | nil => exact linked_cons_iff.mpr ⟨set, .single fresh⟩
  | cons c chain ih =>
      obtain ⟨here, rest⟩ := linked_cons_iff.mp linked
      have later : Linked links' (chain ++ [a] ++ [b]) :=
        ih rest fun d there => kept d (List.mem_cons_of_mem c there)
      refine linked_cons_iff.mpr ⟨?_, later⟩
      rw [kept c (List.mem_cons_self ..), here]
      cases chain with
      | nil => rfl
      | cons d chain => rfl

/-- A pointer leads one place on. -/
theorem Linked.idxOf_next [DecidableEq β] (linked : Linked links chain) (once : chain.Nodup)
    (there : a ∈ chain) (next : links a = some (some b)) :
    chain.idxOf b = chain.idxOf a + 1 := by
  induction chain with
  | nil => cases there
  | cons c chain ih =>
      obtain ⟨here, rest⟩ := linked_cons_iff.mp linked
      obtain ⟨apart, once⟩ := List.nodup_cons.mp once
      by_cases same : a = c
      · subst same
        rw [here, Option.some.injEq] at next
        obtain ⟨rest, rfl⟩ := List.head?_eq_some_iff.mp next
        have other : a ≠ b := fun same => apart (same ▸ List.mem_cons_self)
        rw [List.idxOf_cons_ne _ other, List.idxOf_cons_self, List.idxOf_cons_self]
      · have later : a ∈ chain := (List.mem_cons.mp there).resolve_left same
        have other : c ≠ b := fun same => apart (same ▸ rest.next_mem later next)
        rw [List.idxOf_cons_ne _ other, List.idxOf_cons_ne _ (Ne.symm same), ih rest once later]

end Chain
