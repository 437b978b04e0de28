import Mathlib

/-!
# Taking from the head of a list by a rule

A rule `R xs a` says when `a` may be taken behind the elements `xs` taken already. What can be
taken that way is `Grown R`, and `Longest R xs taken` says that `taken` is the longest beginning of
`xs` of that kind.

* `Grown.of_append`: every beginning of what was taken was taken by the rule;
* `longest_of_stuck`: taking until the rule forbids the next element takes the longest beginning.
-/

namespace KS3.Greedy

variable {α : Type*} {R : List α → α → Prop} {xs taken rest : List α} {a : α}

/-- A list whose elements are taken one behind the other by the rule. -/
inductive Grown (R : List α → α → Prop) : List α → Prop
  | nil : Grown R []
  | snoc {xs : List α} {a : α} : Grown R xs → R xs a → Grown R (xs ++ [a])

/-- The longest beginning of a list that can be taken by the rule. -/
structure Longest (R : List α → α → Prop) (xs taken : List α) : Prop where
  grown : Grown R taken
  begins : taken <+: xs
  maximal : ∀ taken', Grown R taken' → taken' <+: xs → taken' <+: taken

/-- The last element was taken by the rule. -/
theorem Grown.snoc_inv (h : Grown R (xs ++ [a])) : Grown R xs ∧ R xs a := by
  generalize hys : xs ++ [a] = ys at h
  cases h with
  | nil => simp at hys
  | snoc hgrown hrule =>
    obtain ⟨rfl, heq⟩ := List.append_inj' hys rfl
    obtain rfl := List.singleton_inj.1 heq
    exact ⟨hgrown, hrule⟩

theorem Grown.of_append (h : Grown R (xs ++ rest)) : Grown R xs := by
  induction rest using List.reverseRecOn with
  | nil => rwa [List.append_nil] at h
  | append_singleton rest a ih =>
    rw [← List.append_assoc] at h
    exact ih h.snoc_inv.1

/-- **Elements are taken until the rule forbids the next one.** -/
theorem longest_of_stuck (h : Grown R taken) (rest : List α)
    (hstuck : ∀ a ∈ rest.head?, ¬ R taken a) : Longest R (taken ++ rest) taken := by
  refine ⟨h, List.prefix_append _ _, fun taken' h' hbegins => ?_⟩
  rcases List.prefix_or_prefix_of_prefix hbegins (List.prefix_append taken rest) with hle | hge
  · exact hle
  -- the other list goes on behind the one taken: if it does, then with the next element
  obtain ⟨more, rfl⟩ := hge
  rcases more with _ | ⟨a, more⟩
  · rw [List.append_nil]
  · have hnext : a ∈ rest.head? := by
      obtain ⟨last, hlast⟩ := (List.prefix_append_right_inj taken).1 hbegins
      rw [← hlast]
      rfl
    have hgrown : Grown R (taken ++ [a]) := by
      rw [List.append_cons] at h'
      exact h'.of_append
    exact absurd hgrown.snoc_inv.2 (hstuck a hnext)

end KS3.Greedy
