import Mathlib.Algebra.GroupWithZero.Nat
import Mathlib.Tactic.Common
import ServiceDocs.Field.Basic

/-!
# Fields in depth-first order

A list of trees is visited depth first: each field comes in front of the fields below it, and the
children of a field in their order. A visit keeps the number of fields above the field.

These depths alone determine the trees up to what is said about their fields: the fields below the
first root are those up to the next visit at the depth of the root.
-/

namespace ServiceDocs.Field

/-- To prove something about all lists of trees, one may assume it of the children of the first
root and of the other trees. -/
@[elab_as_elim]
theorem forest_induction {motive : List Field → Prop} (nil : motive [])
    (cons : ∀ f fs, motive f.children → motive fs → motive (f :: fs)) :
    ∀ fs, motive fs
  | [] => nil
  | ⟨name, type, shape, element, required, range, description, sample, opaqueType, children⟩ :: fs =>
    cons ⟨name, type, shape, element, required, range, description, sample, opaqueType, children⟩
      fs (forest_induction nil cons children) (forest_induction nil cons fs)

/-! ### Visits -/

/-- A field with the number of fields above it. -/
structure Visit where
  depth : ℕ
  field : Field

mutual

/-- The visits of a tree whose root is at the given depth. -/
def visits (depth : ℕ) : Field → List Visit
  | ⟨name, type, shape, element, required, range, description, sample, opaqueType, children⟩ =>
    ⟨depth, ⟨name, type, shape, element, required, range, description, sample, opaqueType,
      children⟩⟩ :: visitsAll (depth + 1) children
termination_by structural f => f

/-- The visits of a list of trees. -/
def visitsAll (depth : ℕ) : List Field → List Visit
  | []      => []
  | f :: fs => visits depth f ++ visitsAll depth fs
termination_by structural fs => fs

end

section Visits

variable {depth : ℕ}

@[simp] lemma visitsAll_nil : visitsAll depth [] = [] := rfl

@[simp] lemma visitsAll_cons (f : Field) (fs : List Field) :
    visitsAll depth (f :: fs) =
      ⟨depth, f⟩ :: (visitsAll (depth + 1) f.children ++ visitsAll depth fs) := by
  cases f; rfl

lemma countAll_cons (f : Field) (fs : List Field) :
    countAll (f :: fs) = 1 + countAll f.children + countAll fs := by
  rw [countAll, count_eq]

lemma countAll_eq_sum (fs : List Field) : countAll fs = (fs.map count).sum := by
  induction fs with
  | nil => rfl
  | cons f fs ih => rw [countAll, ih, List.map_cons, List.sum_cons]

lemma length_visitsAll (fs : List Field) : (visitsAll depth fs).length = countAll fs := by
  induction fs using forest_induction generalizing depth with
  | nil => rfl
  | cons f fs ihChildren ih =>
    rw [visitsAll_cons, countAll_cons, List.length_cons, List.length_append, ihChildren, ih]
    omega

/-- The fields that are visited do not depend on the depth of the roots. -/
lemma map_field_visitsAll (d d' : ℕ) (fs : List Field) :
    (visitsAll d fs).map Visit.field = (visitsAll d' fs).map Visit.field := by
  induction fs using forest_induction generalizing d d' with
  | nil => rfl
  | cons f fs ihChildren ih =>
    rw [visitsAll_cons, visitsAll_cons, List.map_cons, List.map_cons, List.map_append,
      List.map_append, ihChildren (d + 1) (d' + 1), ih d d']

/-- What is true of the roots and passes on to children is true of all fields. -/
lemma forall_mem_visitsAll {P : Field → Prop} (hP : ∀ f, P f → ∀ c ∈ f.children, P c)
    {fs : List Field} (hfs : ∀ f ∈ fs, P f) : ∀ v ∈ visitsAll depth fs, P v.field := by
  induction fs using forest_induction generalizing depth with
  | nil => simp
  | cons f fs ihChildren ih =>
    obtain ⟨hf, hfs⟩ := List.forall_mem_cons.mp hfs
    rw [visitsAll_cons, List.forall_mem_cons, List.forall_mem_append]
    exact ⟨hf, ihChildren (hP f hf), ih hfs⟩

end Visits

/-! ### Outlines -/

/-- A tree of nodes about which nothing is said. -/
inductive Outline where
  | node (below : List Outline)

mutual

/-- The outline of a tree. -/
def outline : Field → Outline
  | ⟨_, _, _, _, _, _, _, _, _, children⟩ => .node (outlines children)
termination_by structural f => f

/-- The outlines of a list of trees. -/
def outlines : List Field → List Outline
  | []      => []
  | f :: fs => f.outline :: outlines fs
termination_by structural fs => fs

end

lemma outlines_cons (f : Field) (fs : List Field) :
    outlines (f :: fs) = .node (outlines f.children) :: outlines fs := by
  cases f; rfl

/-- The depths of the visits. -/
def depths (depth : ℕ) (fs : List Field) : List ℕ :=
  (visitsAll depth fs).map Visit.depth

section Depths

variable {depth : ℕ}

@[simp] lemma depths_nil : depths depth [] = [] := rfl

@[simp] lemma depths_cons (f : Field) (fs : List Field) :
    depths depth (f :: fs) = depth :: (depths (depth + 1) f.children ++ depths depth fs) := by
  simp [depths]

lemma le_of_mem_depths {fs : List Field} : ∀ d ∈ depths depth fs, depth ≤ d := by
  induction fs using forest_induction generalizing depth with
  | nil => simp
  | cons f fs ihChildren ih =>
    rw [depths_cons, List.forall_mem_cons, List.forall_mem_append]
    exact ⟨Nat.le_refl depth, fun d hd => Nat.le_of_succ_le (ihChildren d hd), ih⟩

lemma takeWhile_depths (fs : List Field) : (depths depth fs).takeWhile (depth < ·) = [] := by
  cases fs with
  | nil => rfl
  | cons f fs => simp

/-- The depths below a root go up to the next visit that is not deeper than the root. -/
lemma takeWhile_depths_append (fs gs : List Field) :
    (depths (depth + 1) fs ++ depths depth gs).takeWhile (depth < ·) = depths (depth + 1) fs := by
  rw [List.takeWhile_append_of_pos, takeWhile_depths, List.append_nil]
  intro d hd
  exact decide_eq_true (le_of_mem_depths d hd)

/-- Trees with the same depths in depth-first order have the same outlines. -/
theorem outlines_eq_of_depths_eq {fs gs : List Field} (h : depths depth fs = depths depth gs) :
    outlines fs = outlines gs := by
  induction fs using forest_induction generalizing depth gs with
  | nil =>
    cases gs with
    | nil => rfl
    | cons g gs => simp at h
  | cons f fs ihChildren ih =>
    cases gs with
    | nil => simp at h
    | cons g gs =>
      rw [depths_cons, depths_cons, List.cons.injEq] at h
      have hbelow : depths (depth + 1) f.children = depths (depth + 1) g.children := by
        rw [← takeWhile_depths_append f.children fs, h.2, takeWhile_depths_append]
      have hrest : depths depth fs = depths depth gs := by
        rw [hbelow] at h
        exact List.append_cancel_left h.2
      rw [outlines_cons, outlines_cons, ihChildren hbelow, ih hrest]

end Depths

end ServiceDocs.Field
