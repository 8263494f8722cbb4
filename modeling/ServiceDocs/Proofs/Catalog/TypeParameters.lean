import Mathlib.Data.List.Forall2
import Mathlib.Data.List.Induction
import Mathlib.Tactic.Common
import ServiceDocs.Catalog.Basic

/-!
# Type parameters

The type parameters of a declaration stand for arguments. They are replaced wherever they are
written without arguments of their own, and all at once: in an argument that has been put in, a name
that is also one of the parameters is left as it is.
-/

namespace ServiceDocs.TypeExpr

/-! ### Positions of parameters -/

/-- The type parameter at position `i` is called `p`, and no later one is. -/
def IsParameter (parameters : List String) (i : ℕ) (p : String) : Prop :=
  parameters[i]? = some p ∧ p ∉ parameters.drop (i + 1)

lemma isParameter_concat {ps : List String} {q : String} {i : ℕ} {p : String} :
    IsParameter (ps ++ [q]) i p ↔ i = ps.length ∧ p = q ∨ p ≠ q ∧ IsParameter ps i p := by
  unfold IsParameter
  obtain hlt | rfl | hgt := Nat.lt_trichotomy i ps.length
  · rw [List.getElem?_append_left hlt, List.drop_append_of_le_length hlt, List.mem_append, not_or,
      List.mem_singleton]
    simp only [Nat.ne_of_lt hlt, false_and, false_or]
    tauto
  · simp [eq_comm]
  · have hnone : (ps ++ [q])[i]? = none := by
      rw [List.getElem?_eq_none_iff, List.length_append]
      exact hgt
    have hnone' : ps[i]? = none := List.getElem?_eq_none_iff.mpr (Nat.le_of_lt hgt)
    simp [hnone, hnone', Nat.ne_of_gt hgt]

lemma exists_isParameter {ps : List String} {p : String} (h : p ∈ ps) : ∃ i, IsParameter ps i p := by
  induction ps using List.reverseRecOn with
  | nil => cases h
  | append_singleton ps q ih =>
    by_cases hpq : p = q
    · exact ⟨ps.length, isParameter_concat.mpr (.inl ⟨rfl, hpq⟩)⟩
    · have hmem : p ∈ ps := by simpa [hpq] using h
      obtain ⟨i, hi⟩ := ih hmem
      exact ⟨i, isParameter_concat.mpr (.inr ⟨hpq, hi⟩)⟩

/-! ### Bindings -/

/-- The parameters stand for the arguments at their positions, or for the unknown type where there
are too few of them. -/
structure BindsByPosition (σ : Bindings) (parameters : List String) (args : List TypeExpr) :
    Prop where
  parameter : ∀ i p, IsParameter parameters i p → σ.lookup p = some (args.getD i .unknown)
  other : ∀ name, name ∉ parameters → σ.lookup name = none

lemma BindsByPosition.concat {σ : Bindings} {ps : List String} {args : List TypeExpr}
    (h : BindsByPosition σ ps args) (q : String) :
    BindsByPosition ((q, args.getD ps.length .unknown) :: σ) (ps ++ [q]) args where
  parameter := by
    intro i p hp
    obtain ⟨rfl, rfl⟩ | ⟨hne, hp⟩ := isParameter_concat.mp hp
    · exact List.lookup_cons_self
    · rw [List.lookup_cons, beq_false_of_ne hne]
      exact h.parameter i p hp
  other := by
    intro name hname
    rw [List.mem_append, not_or, List.mem_singleton] at hname
    rw [List.lookup_cons, beq_false_of_ne hname.2]
    exact h.other name hname.1

lemma bindsByPosition_bindings (d : Declaration) (args : List TypeExpr) :
    BindsByPosition (d.bindings args) d.typeParameters args := by
  rw [Declaration.bindings]
  induction d.typeParameters using List.reverseRecOn with
  | nil => exact ⟨by simp [IsParameter], by simp⟩
  | append_singleton ps q ih => simpa using ih.concat q

/-! ### Instances -/

/-- The second type is the first one with the arguments in place of the type parameters. -/
inductive Instantiates (parameters : List String) (args : List TypeExpr) :
    TypeExpr → TypeExpr → Prop where
  | parameter {i : ℕ} {p : String} (h : IsParameter parameters i p) :
      Instantiates parameters args (.named p []) (args.getD i .unknown)
  | other {name : String} (h : name ∉ parameters) :
      Instantiates parameters args (.named name []) (.named name [])
  | applied {name : String} {a b : TypeExpr} {as bs : List TypeExpr}
      (h : List.Forall₂ (Instantiates parameters args) (a :: as) (b :: bs)) :
      Instantiates parameters args (.named name (a :: as)) (.named name (b :: bs))
  | array {t u : TypeExpr} (h : Instantiates parameters args t u) :
      Instantiates parameters args (.array t) (.array u)
  | unknown : Instantiates parameters args .unknown .unknown

section Instantiates

variable {σ : Bindings} {ps : List String} {args : List TypeExpr}

mutual

/-- Substitution puts the arguments in, and there is no other way to do so. -/
lemma instantiates_iff (h : BindsByPosition σ ps args) :
    (t u : TypeExpr) → (Instantiates ps args t u ↔ u = t.substitute σ)
  | .named name [],        u => by
    rw [substitute_named_nil]
    constructor
    · rintro (hp | hname)
      · rw [h.parameter _ _ hp]
        rfl
      · rw [h.other _ hname]
        rfl
    · rintro rfl
      by_cases hname : name ∈ ps
      · obtain ⟨i, hi⟩ := exists_isParameter hname
        rw [h.parameter i name hi]
        exact .parameter hi
      · rw [h.other name hname]
        exact .other hname
  | .named name (a :: as), u => by
    have hall := forall₂_instantiates_iff h (a :: as)
    rw [substitute_named_cons]
    constructor
    · rintro (_ | _ | hargs)
      rw [(hall _).mp hargs]
    · rintro rfl
      exact .applied ((hall _).mpr rfl)
  | .array t,              u => by
    rw [substitute_array]
    constructor
    · rintro (_ | _ | _ | htu)
      rw [(instantiates_iff h t _).mp htu]
    · rintro rfl
      exact .array ((instantiates_iff h t _).mpr rfl)
  | .unknown,              u => by
    rw [substitute_unknown]
    constructor
    · rintro ⟨⟩
      rfl
    · rintro rfl
      exact .unknown

lemma forall₂_instantiates_iff (h : BindsByPosition σ ps args) :
    (ts us : List TypeExpr) →
      (List.Forall₂ (Instantiates ps args) ts us ↔ us = substituteAll σ ts)
  | [],      us => List.forall₂_nil_left_iff
  | t :: ts, us => by
    rw [List.forall₂_cons_left_iff]
    constructor
    · rintro ⟨u, vs, htu, htsvs, rfl⟩
      rw [(instantiates_iff h t u).mp htu, (forall₂_instantiates_iff h ts vs).mp htsvs]
      rfl
    · rintro rfl
      exact ⟨_, _, (instantiates_iff h t _).mpr rfl, (forall₂_instantiates_iff h ts _).mpr rfl, rfl⟩

end

end Instantiates

end ServiceDocs.TypeExpr
