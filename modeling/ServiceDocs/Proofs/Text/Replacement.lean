import Mathlib.Data.List.Infix
import ServiceDocs.Text.Blank

/-!
# Replacement in a text

A text is searched for a pattern from left to right, and what is put in is not searched again. If a
text is made of parts and the pattern occurs in it only as one of the parts, replacing the pattern
replaces these parts.
-/

namespace ServiceDocs.Text

variable {pattern text : List Char}

/-- The rest of an occurrence is passed over. -/
lemma replaceFrom_length_append (xs ys : List Char) :
    replaceFrom pattern text xs.length (xs ++ ys) = replace pattern text ys := by
  induction xs with
  | nil => rfl
  | cons x xs ih => exact ih

lemma replace_pattern_append (hne : pattern ≠ []) (cs : List Char) :
    replace pattern text (pattern ++ cs) = text ++ replace pattern text cs := by
  obtain ⟨c, rest, rfl⟩ := List.exists_cons_of_ne_nil hne
  have hprefix : (c :: rest).isPrefixOf (c :: (rest ++ cs)) = true :=
    List.isPrefixOf_iff_prefix.mpr (List.prefix_append (c :: rest) cs)
  rw [List.cons_append, replace, replaceFrom, if_pos hprefix]
  exact congrArg (text ++ ·) (replaceFrom_length_append rest cs)

lemma replace_cons_of_not_prefix {c : Char} {cs : List Char} (h : ¬ pattern <+: c :: cs) :
    replace pattern text (c :: cs) = c :: replace pattern text cs := by
  rw [replace, replaceFrom, if_neg (by rwa [List.isPrefixOf_iff_prefix])]

/-- Where no occurrence begins, nothing is replaced. -/
lemma replace_append_of_not_prefix {xs ys : List Char}
    (h : ∀ us, us ≠ [] → us <:+ xs → ¬ pattern <+: us ++ ys) :
    replace pattern text (xs ++ ys) = xs ++ replace pattern text ys := by
  induction xs with
  | nil => rfl
  | cons x xs ih =>
    have hhead : ¬ pattern <+: x :: (xs ++ ys) :=
      h (x :: xs) (List.cons_ne_nil x xs) List.suffix_rfl
    rw [List.cons_append, replace_cons_of_not_prefix hhead,
      ih fun us hne hus => h us hne (hus.trans (List.suffix_cons x xs))]
    rfl

lemma replace_eq_self {cs : List Char} (h : ¬ pattern <:+: cs) :
    replace pattern text cs = cs := by
  have hnone : ∀ us, us ≠ [] → us <:+ cs → ¬ pattern <+: us ++ [] := by
    intro us _ hus hprefix
    rw [List.append_nil] at hprefix
    exact h (List.infix_iff_prefix_suffix.mpr ⟨us, hprefix, hus⟩)
  have hreplace : replace pattern text (cs ++ []) = cs ++ replace pattern text [] :=
    replace_append_of_not_prefix hnone
  rw [List.append_nil] at hreplace
  rw [hreplace]
  exact List.append_nil cs

lemma erase_eq_self {cs : List Char} (h : ¬ pattern <:+: cs) : erase pattern cs = cs :=
  replace_eq_self h

/-! ### Texts for characters -/

/-- A character is replaced wherever it stands. -/
lemma replace_singleton (c : Char) (text cs : List Char) :
    replace [c] text cs = cs.flatMap fun d => if d = c then text else [d] := by
  induction cs with
  | nil => rfl
  | cons d cs ih =>
    rw [List.flatMap_cons, ← ih]
    by_cases hd : d = c
    · subst hd
      rw [if_pos rfl]
      exact replace_pattern_append (List.cons_ne_nil d []) cs
    · have hhead : ¬ [c] <+: d :: cs := by simp [Ne.symm hd]
      rw [if_neg hd, replace_cons_of_not_prefix hhead]
      rfl

/-- A text is written for each character, and the pattern occurs in what is written only as the text
of a character; then replacing it changes the text of this character only. -/
lemma replace_flatMap {f g : Char → List Char} (hne : pattern ≠ [])
    (h : ∀ c, f c = pattern ∧ g c = text ∨ g c = f c ∧
      ∀ us, us ≠ [] → us <:+ f c → ∀ cs : List Char, ¬ pattern <+: us ++ cs.flatMap f)
    (cs : List Char) : replace pattern text (cs.flatMap f) = cs.flatMap g := by
  induction cs with
  | nil => rfl
  | cons c cs ih =>
    rw [List.flatMap_cons, List.flatMap_cons, ← ih]
    obtain ⟨hf, hg⟩ | ⟨hg, hnone⟩ := h c
    · rw [hf, hg, replace_pattern_append hne]
    · rw [hg, replace_append_of_not_prefix fun us hne hus => hnone us hne hus cs]

end ServiceDocs.Text
