import Mathlib

/-!
# Words that can be told apart from the left

A set of words is free of prefixes if no word begins another one. A string can then be cut into
words from the left in one way only: a parse that cannot be carried on is the longest one, and
every other parse of the string is a beginning of it (`Parses.maximal_of_stuck`).
-/

namespace KS3.PrefixCode

variable {α : Type*} {W : List α → Prop} {bs rest : List α} {ws : List (List α)}

/-- No word is empty, and none begins another one. -/
structure Free (W : List α → Prop) : Prop where
  ne_nil : ∀ w, W w → w ≠ []
  eq_of_prefix : ∀ u v, W u → W v → u <+: v → u = v

/-- The string is the words one behind the other, and a rest. -/
structure Parses (W : List α → Prop) (bs : List α) (ws : List (List α)) (rest : List α) : Prop where
  flatten_append : ws.flatten ++ rest = bs
  words : ∀ w ∈ ws, W w

/-- The longest sequence of words the string begins with: every other one is a beginning of it. -/
structure MaximalParse (W : List α → Prop) (bs : List α) (ws : List (List α)) (rest : List α) :
    Prop extends Parses W bs ws rest where
  maximal : ∀ ws' rest', Parses W bs ws' rest' → ws' <+: ws

theorem Parses.nil (rest : List α) : Parses W rest [] rest := ⟨rfl, by simp⟩

theorem Parses.cons {w : List α} (hw : W w) (h : Parses W bs ws rest) :
    Parses W (w ++ bs) (w :: ws) rest where
  flatten_append := by rw [List.flatten_cons, List.append_assoc, h.flatten_append]
  words := List.forall_mem_cons.2 ⟨hw, h.words⟩

/-- **A parse that cannot be carried on is the longest one.** -/
theorem Parses.maximal_of_stuck (hW : Free W) (h : Parses W bs ws rest)
    (hstuck : ∀ w, W w → ¬ w <+: rest) : MaximalParse W bs ws rest := by
  refine ⟨h, fun ws' => ?_⟩
  induction ws' generalizing bs ws with
  | nil => exact fun _ _ => List.nil_prefix
  | cons w' ws' ih =>
    intro rest' h'
    have hw' : W w' := h'.words w' List.mem_cons_self
    have hbegin : w' <+: bs :=
      ⟨ws'.flatten ++ rest', by rw [← h'.flatten_append, List.flatten_cons, List.append_assoc]⟩
    rcases ws with _ | ⟨w, ws⟩
    · -- the string is a rest that begins with no word
      have hrest : rest = bs := h.flatten_append
      exact absurd (hrest ▸ hbegin) (hstuck w' hw')
    · have hw : W w := h.words w List.mem_cons_self
      have hfirst : w <+: bs :=
        ⟨ws.flatten ++ rest, by rw [← h.flatten_append, List.flatten_cons, List.append_assoc]⟩
      have heq : w' = w := by
        rcases List.prefix_or_prefix_of_prefix hbegin hfirst with hle | hle
        · exact hW.eq_of_prefix w' w hw' hw hle
        · exact (hW.eq_of_prefix w w' hw hw' hle).symm
      subst heq
      have htail : Parses W (ws.flatten ++ rest) ws rest :=
        ⟨rfl, fun v hv => h.words v (List.mem_cons_of_mem _ hv)⟩
      have htail' : Parses W (ws.flatten ++ rest) ws' rest' := by
        refine ⟨?_, fun v hv => h'.words v (List.mem_cons_of_mem _ hv)⟩
        have hboth := h'.flatten_append.trans h.flatten_append.symm
        rw [List.flatten_cons, List.flatten_cons, List.append_assoc, List.append_assoc] at hboth
        exact List.append_cancel_left hboth
      exact List.cons_prefix_cons.2 ⟨rfl, ih htail rest' htail'⟩

end KS3.PrefixCode
