import ServiceDocs.Java.Bracket
import ServiceDocs.Proofs.Java.Tokens

/-!
# Balanced brackets

Items whose brackets fit are found again when their tokens are grouped.
-/

namespace ServiceDocs.Java.Item

/-! ### Tokens of items -/

mutual

/-- The tokens of an item. -/
def tokens : Item → List Token
  | .token t                  => [t]
  | .group opening is closing => opening :: (tokensAll is ++ closing.toList)
termination_by structural i => i

/-- The tokens of several items. -/
def tokensAll : List Item → List Token
  | []      => []
  | i :: is => i.tokens ++ tokensAll is
termination_by structural is => is

end

@[simp] lemma tokensAll_append (is js : List Item) :
    tokensAll (is ++ js) = tokensAll is ++ tokensAll js := by
  induction is with
  | nil => rfl
  | cons i is ih => rw [List.cons_append, tokensAll, ih, tokensAll, List.append_assoc]

/-! ### Grouping -/

/-- The token is no bracket. -/
def IsNoBracket (t : Token) : Prop :=
  opens t = false ∧ ∀ opening, closes opening t = false ∧ reaches opening t = false

mutual

/-- All brackets of the item fit. -/
def IsBalanced : Item → Prop
  | .token t                         => IsNoBracket t
  | .group opening is (some closing) =>
    opens opening = true ∧ closes opening closing = true ∧ AreBalanced is
  | .group _ _ none                  => False
termination_by structural i => i

/-- All brackets of the items fit. -/
def AreBalanced : List Item → Prop
  | []      => True
  | i :: is => i.IsBalanced ∧ AreBalanced is
termination_by structural is => is

end

@[simp] lemma areBalanced_append (is js : List Item) :
    AreBalanced (is ++ js) ↔ AreBalanced is ∧ AreBalanced js := by
  induction is with
  | nil => simp [AreBalanced]
  | cons i is ih => rw [List.cons_append, AreBalanced, ih, AreBalanced, and_assoc]

lemma closeWith_of_isNoBracket {t : Token} (h : IsNoBracket t) (items : List Item)
    (frames : List Frame) : closeWith t items frames = none := by
  cases frames with
  | nil => rfl
  | cons f frames =>
    have hf := h.2 f.opening
    simp [closeWith, hf.1, hf.2]

lemma opens_of_closes {opening t : Token} (h : closes opening t = true) : opens t = false := by
  simp only [closes, Bool.or_eq_true, Bool.and_eq_true, isSignToken, decide_eq_true_eq] at h
  rcases h with (⟨-, -, htext⟩ | ⟨-, -, htext⟩) | ⟨-, -, htext⟩ <;>
    simp [opens, isSignToken, htext]

mutual

lemma groupFrom_tokens (before : List Item) (frames : List Frame) (ts : List Token) :
    (i : Item) → i.IsBalanced →
      groupFrom before frames (i.tokens ++ ts) = groupFrom (i :: before) frames ts
  | .token t, h => by
    rw [tokens, List.singleton_append, groupFrom, if_neg (by simp [h.1]),
      closeWith_of_isNoBracket h]
  | .group opening is (some closing), h => by
    obtain ⟨hopens, hcloses, his⟩ := h
    have hclosing : opens closing = false := opens_of_closes hcloses
    rw [tokens, List.cons_append, groupFrom, if_pos hopens, List.append_assoc,
      groupFrom_tokensAll _ _ _ is his, List.append_nil, Option.toList_some,
      List.singleton_append, groupFrom, if_neg (by simp [hclosing]), closeWith, if_pos hcloses,
      List.reverse_reverse]

lemma groupFrom_tokensAll (before : List Item) (frames : List Frame) (ts : List Token) :
    (is : List Item) → AreBalanced is →
      groupFrom before frames (tokensAll is ++ ts) = groupFrom (is.reverse ++ before) frames ts
  | [],      _ => rfl
  | i :: is, h => by
    rw [tokensAll, List.append_assoc, groupFrom_tokens before frames _ i h.1,
      groupFrom_tokensAll (i :: before) frames ts is h.2, List.reverse_cons, List.append_assoc,
      List.singleton_append]

end

/-- Balanced items are found again. -/
theorem ofTokens_tokensAll {is : List Item} (h : AreBalanced is) :
    ofTokens (tokensAll is) = is := by
  rw [ofTokens, ← List.append_nil (tokensAll is), groupFrom_tokensAll _ _ _ _ h, groupFrom,
    closeAll, List.append_nil, List.reverse_reverse]

end ServiceDocs.Java.Item
