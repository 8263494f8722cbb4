import Mathlib.Data.List.Basic
import Mathlib.Tactic.Common
import ServiceDocs.Java.Declaration

/-!
# Addresses in syntax trees

The same text may stand in a source many times, so what is found in a tree is told apart by its
address: the way from the root down to it. The order of addresses is the order in the source, where
nested declarations come before the one around them.
-/

namespace ServiceDocs.Java

/-- The way from a tree down to a tree in it. Each number says which child comes next. -/
abbrev Address := List ℕ

namespace Address

/-! ### Order -/

/-- The ways part, and the first one goes further to the left. -/
inductive Earlier : Address → Address → Prop
  | head {i j : ℕ} (h : i < j) (a b : Address) : Earlier (i :: a) (j :: b)
  | tail (i : ℕ) {a b : Address} (h : Earlier a b) : Earlier (i :: a) (i :: b)

/-- The first address is further to the left, or below the second one. -/
def FoundBefore (a b : Address) : Prop :=
  Earlier a b ∨ ∃ c, c ≠ [] ∧ a = b ++ c

lemma not_earlier_self (a : Address) : ¬ Earlier a a := by
  intro h
  induction a with
  | nil => cases h
  | cons i a ih =>
    cases h with
    | head h => exact absurd h (Nat.lt_irrefl i)
    | tail _ h => exact ih h

lemma not_foundBefore_self (a : Address) : ¬ FoundBefore a a := by
  rintro (h | ⟨c, hne, hc⟩)
  · exact not_earlier_self a h
  · exact hne (List.self_eq_append_right.mp hc)

lemma Earlier.append {a b : Address} (h : Earlier a b) (c d : Address) :
    Earlier (a ++ c) (b ++ d) := by
  induction h with
  | head h a b => exact .head h (a ++ c) (b ++ d)
  | tail i _ ih => exact .tail i ih

lemma Earlier.append_left {a b : Address} (h : Earlier a b) (c : Address) :
    Earlier (c ++ a) (c ++ b) := by
  induction c with
  | nil => exact h
  | cons i c ih => exact .tail i ih

lemma FoundBefore.append_left {a b : Address} (h : FoundBefore a b) (c : Address) :
    FoundBefore (c ++ a) (c ++ b) := by
  rcases h with h | ⟨d, hne, rfl⟩
  · exact .inl (h.append_left c)
  · exact .inr ⟨d, hne, by rw [List.append_assoc]⟩

/-! ### Enumerations -/

/-- The list has the addresses with a property and no others, and it is in order. -/
structure Enumerates (R : Address → Address → Prop) (P : Address → Prop) (as : List Address) :
    Prop where
  ordered : as.Pairwise R
  mem_iff : ∀ a, a ∈ as ↔ P a

namespace Enumerates

variable {R : Address → Address → Prop} {P Q : Address → Prop} {as bs : List Address}

lemma nil (h : ∀ a, ¬ P a) : Enumerates R P [] where
  ordered := .nil
  mem_iff a := iff_of_false List.not_mem_nil (h a)

lemma singleton (a : Address) : Enumerates R (· = a) [a] where
  ordered := List.pairwise_singleton R a
  mem_iff _ := List.mem_singleton

lemma congr (has : Enumerates R P as) (h : ∀ a, P a ↔ Q a) : Enumerates R Q as where
  ordered := has.ordered
  mem_iff a := (has.mem_iff a).trans (h a)

lemma append (has : Enumerates R P as) (hbs : Enumerates R Q bs)
    (h : ∀ a b, P a → Q b → R a b) : Enumerates R (fun a => P a ∨ Q a) (as ++ bs) where
  ordered := by
    refine List.pairwise_append.mpr ⟨has.ordered, hbs.ordered, fun a ha b hb => ?_⟩
    exact h a b ((has.mem_iff a).mp ha) ((hbs.mem_iff b).mp hb)
  mem_iff a := by rw [List.mem_append, has.mem_iff, hbs.mem_iff]

lemma map (has : Enumerates R P as) {f : Address → Address}
    (hf : ∀ a b, R a b → R (f a) (f b)) :
    Enumerates R (fun a => ∃ b, P b ∧ f b = a) (as.map f) where
  ordered := List.Pairwise.map f hf has.ordered
  mem_iff a := by simp only [List.mem_map, has.mem_iff]

/-- Enumerations one behind the other. -/
lemma flatMap {S : Address → Address → Prop} {T : Address → Address → Prop}
    {f : Address → List Address} (has : Enumerates S P as)
    (hf : ∀ a, P a → Enumerates R (T a) (f a))
    (h : ∀ a b c d, S a b → T a c → T b d → R c d) :
    Enumerates R (fun c => ∃ a, P a ∧ T a c) (as.flatMap f) where
  ordered := by
    have hmem : ∀ a ∈ as, ∀ c ∈ f a, T a c := fun a ha c hc =>
      ((hf a ((has.mem_iff a).mp ha)).mem_iff c).mp hc
    refine List.pairwise_flatMap.mpr ⟨fun a ha => (hf a ((has.mem_iff a).mp ha)).ordered, ?_⟩
    refine has.ordered.imp_of_mem fun ha hb hab c hc d hd => ?_
    exact h _ _ c d hab (hmem _ ha c hc) (hmem _ hb d hd)
  mem_iff c := by
    rw [List.mem_flatMap]
    refine exists_congr fun a => ?_
    rw [has.mem_iff]
    exact and_congr_right fun ha => (hf a ha).mem_iff c

lemma nodup (has : Enumerates R P as) (hR : ∀ a, ¬ R a a) : as.Nodup := by
  refine has.ordered.imp fun {a b} hab heq => ?_
  exact hR a (by rwa [← heq] at hab)

end Enumerates

end Address

/-! ### Trees at addresses -/

namespace Tree

/-- The tree at an address below the root, with the trees in front of it. -/
def place? (t : Tree) : Address → Option Placed
  | []          => none
  | [i]         => (t.children[i]?).map (⟨(t.children.take i).reverse, ·⟩)
  | i :: j :: a => (t.children[i]?).bind (·.place? (j :: a))

lemma place?_cons {t u : Tree} {i : ℕ} (h : t.children[i]? = some u) {a : Address} (ha : a ≠ []) :
    t.place? (i :: a) = u.place? a := by
  obtain ⟨j, b, rfl⟩ := List.exists_cons_of_ne_nil ha
  rw [place?, h, Option.bind_some]

lemma place?_append (t : Tree) {a b : Address} (ha : a ≠ []) (hb : b ≠ []) :
    t.place? (a ++ b) = (t.place? a).bind (·.tree.place? b) := by
  induction a generalizing t with
  | nil => exact absurd rfl ha
  | cons i a ih =>
    cases hi : t.children[i]? with
    | none =>
      obtain ⟨j, b, rfl⟩ := List.exists_cons_of_ne_nil hb
      cases a <;> simp [place?, hi]
    | some u =>
      rw [List.cons_append, place?_cons hi (by simp [hb])]
      cases a with
      | nil => simp [place?, hi]
      | cons j a => rw [ih u (List.cons_ne_nil j a), place?_cons hi (List.cons_ne_nil j a)]

/-- A tree is larger than the trees in it. -/
lemma sizeOf_lt_of_getElem? {t u : Tree} {i : ℕ} (h : t.children[i]? = some u) :
    sizeOf u < sizeOf t := by
  have hmem : u ∈ t.children := List.mem_of_getElem? h
  cases t with
  | leaf role kind gap text => cases hmem
  | node role kind ts =>
    have hlt : sizeOf u < sizeOf ts := List.sizeOf_lt_of_mem hmem
    rw [Tree.node.sizeOf_spec]
    omega

lemma sizeOf_lt_of_place? {t : Tree} {a : Address} {p : Placed} (h : t.place? a = some p) :
    sizeOf p.tree < sizeOf t := by
  induction a generalizing t with
  | nil => cases h
  | cons i a ih =>
    cases hi : t.children[i]? with
    | none => cases a <;> simp [place?, hi] at h
    | some u =>
      have hu := sizeOf_lt_of_getElem? hi
      cases a with
      | nil =>
        rw [place?, hi, Option.map_some, Option.some.injEq] at h
        rw [← h]
        exact hu
      | cons j a =>
        rw [place?_cons hi (List.cons_ne_nil j a)] at h
        exact Nat.lt_trans (ih h) hu

end Tree

end ServiceDocs.Java
