import Mathlib.Tactic.Common
import ServiceDocs.Expansion

/-!
# The trail of an expansion

All steps of an expansion share one trail of types. Each step leaves the trail as it has found it,
so what a member is expanded to does not depend on the members in front of it. This gives the
expansion a reading without state: `fieldBelow` and `fieldsBelow` are the field of a member and the
fields of a type below a given trail, and they satisfy the equations one expects.
-/

namespace ServiceDocs.TypeSource

variable (src : TypeSource)

/-- The field of a member below the types of a trail, with `room` levels left. -/
def fieldBelow (room : Nat) (trail : Trail) (m : Member) : Field :=
  (src.fieldOf (src.expand room) m trail).1

/-- The fields of a type below the types of a trail, with `room` levels left. -/
def fieldsBelow (room : Nat) (trail : Trail) (t : TypeExpr) : Option (List Field) :=
  (src.expand room t trail).1

/-! ### Steps with a trail -/

section Steps

variable {α β : Type} (trail : Trail)

lemma bind_apply (x : StateM Trail α) (f : α → StateM Trail β) :
    (x >>= f) trail = f (x trail).1 (x trail).2 := rfl

lemma pure_apply (a : α) : (pure a : StateM Trail α) trail = (a, trail) := rfl

lemma get_apply : (get : StateM Trail Trail) trail = (trail, trail) := rfl

lemma modify_apply (f : Trail → Trail) :
    (modify f : StateM Trail PUnit) trail = (⟨⟩, f trail) := rfl

end Steps

/-! ### The trail is restored -/

/-- A step that leaves the trail alone can be taken for every item of a list. -/
lemma mapM_restoring {α β : Type} (step : α → StateM Trail β)
    (hstep : ∀ a trail, (step a trail).2 = trail) (as : List α) (trail : Trail) :
    as.mapM step trail = (as.map fun a => (step a trail).1, trail) := by
  induction as with
  | nil => rfl
  | cons a as ih =>
    rw [List.mapM_cons, bind_apply, bind_apply, pure_apply, hstep a trail, ih, List.map_cons]

lemma fieldOf_restores {below : TypeExpr → StateM Trail (Option (List Field))}
    (hbelow : ∀ t trail, (below t trail).2 = trail) (m : Member) (trail : Trail) :
    (src.fieldOf below m trail).2 = trail := by
  cases he : src.element? m.type with
  | some e =>
    by_cases ht : src.isTerminal e
    · simp only [fieldOf, he, ht, if_true]
      rfl
    · simp only [fieldOf, he, ht]
      exact hbelow e trail
  | none =>
    by_cases ht : src.isTerminal m.type
    · simp only [fieldOf, he, ht, if_true]
      rfl
    · simp only [fieldOf, he, ht]
      exact hbelow m.type trail

/-- One level of an expansion: the members of the type are looked at below the type itself, and
afterwards the trail is the one from before. -/
lemma expand_succ (room : Nat) (trail : Trail) (t : TypeExpr)
    (hroom : ∀ t trail, (src.expand room t trail).2 = trail) :
    src.expand (room + 1) t trail =
      (if t ∈ trail then some []
        else (src.members? t).map (List.map (src.fieldBelow room (t :: trail))), trail) := by
  rw [expand, bind_apply, get_apply]
  by_cases ht : t ∈ trail
  · rw [if_pos ht, if_pos ht, pure_apply]
  · rw [if_neg ht, if_neg ht]
    cases src.members? t with
    | none => rfl
    | some ms =>
      have hmap := mapM_restoring (src.fieldOf (src.expand room))
        (src.fieldOf_restores hroom) ms (t :: trail)
      simp only [bind_apply, modify_apply, pure_apply, hmap, List.tail_cons, Option.map_some]
      rfl

/-- Every type that an expansion puts on the trail is taken off again. -/
theorem expand_restores (room : Nat) (t : TypeExpr) (trail : Trail) :
    (src.expand room t trail).2 = trail := by
  induction room generalizing t trail with
  | zero => rfl
  | succ room ih => rw [src.expand_succ room trail t ih]

/-! ### Equations without the trail -/

@[simp] lemma fieldsBelow_zero (trail : Trail) (t : TypeExpr) :
    src.fieldsBelow 0 trail t = some [] := rfl

lemma fieldsBelow_succ (room : Nat) (trail : Trail) (t : TypeExpr) :
    src.fieldsBelow (room + 1) trail t =
      if t ∈ trail then some []
      else (src.members? t).map (List.map (src.fieldBelow room (t :: trail))) := by
  rw [fieldsBelow, src.expand_succ room trail t (src.expand_restores room)]

lemma fieldsBelow_of_mem {trail : Trail} {t : TypeExpr} (ht : t ∈ trail) (room : Nat) :
    src.fieldsBelow room trail t = some [] := by
  cases room with
  | zero => rfl
  | succ room => rw [fieldsBelow_succ, if_pos ht]

/-- The type that is looked at for the fields of a type: the type of the elements of a collection,
and the type itself if it is none. -/
def targetOf (t : TypeExpr) : TypeExpr :=
  (src.element? t).getD t

lemma fieldBelow_eq (room : Nat) (trail : Trail) (m : Member) :
    src.fieldBelow room trail m =
      match src.element? m.type with
      | some e =>
        if src.isTerminal e then
          { m.toField .array with element := some e, sample := some (src.sample e) }
        else { m.toField .array with element := some e }.withFields (src.fieldsBelow room trail e)
      | none =>
        if src.isTerminal m.type then
          { m.toField .literal with sample := some (src.sample m.type) }
        else (m.toField .object).withFields (src.fieldsBelow room trail m.type) := by
  cases he : src.element? m.type with
  | some e =>
    by_cases ht : src.isTerminal e
    · simp only [fieldBelow, fieldOf, he, ht, if_true]
      rfl
    · simp only [fieldBelow, fieldOf, he, ht]
      rfl
  | none =>
    by_cases ht : src.isTerminal m.type
    · simp only [fieldBelow, fieldOf, he, ht, if_true]
      rfl
    · simp only [fieldBelow, fieldOf, he, ht]
      rfl

section Parts

variable (room : Nat) (trail : Trail) (m : Member)

@[simp] lemma name_fieldBelow : (src.fieldBelow room trail m).name = m.name := by
  rw [fieldBelow_eq]; split <;> split <;> rfl

@[simp] lemma type_fieldBelow : (src.fieldBelow room trail m).type = m.type := by
  rw [fieldBelow_eq]; split <;> split <;> rfl

@[simp] lemma required_fieldBelow : (src.fieldBelow room trail m).required = m.required := by
  rw [fieldBelow_eq]; split <;> split <;> rfl

@[simp] lemma range_fieldBelow : (src.fieldBelow room trail m).range = m.range := by
  rw [fieldBelow_eq]; split <;> split <;> rfl

@[simp] lemma description_fieldBelow :
    (src.fieldBelow room trail m).description = m.description := by
  rw [fieldBelow_eq]; split <;> split <;> rfl

@[simp] lemma element_fieldBelow :
    (src.fieldBelow room trail m).element = src.element? m.type := by
  rw [fieldBelow_eq]
  split <;> split <;> simp [Field.withFields, Member.toField, *]

@[simp] lemma shape_fieldBelow :
    (src.fieldBelow room trail m).shape =
      if (src.element? m.type).isSome then .array
      else if src.isTerminal m.type then .literal else .object := by
  rw [fieldBelow_eq]
  split <;> split <;> simp [Field.withFields, Member.toField, *]

/-- Only a compound type has fields below it. -/
lemma children_fieldBelow :
    (src.fieldBelow room trail m).children =
      if src.isTerminal (src.targetOf m.type) then []
      else (src.fieldsBelow room trail (src.targetOf m.type)).getD [] := by
  rw [fieldBelow_eq]
  split <;> split <;> simp [Field.withFields, Member.toField, targetOf, *]

lemma opaqueType_fieldBelow :
    (src.fieldBelow room trail m).opaqueType =
      (!src.isTerminal (src.targetOf m.type)
        && (src.fieldsBelow room trail (src.targetOf m.type)).isNone) := by
  rw [fieldBelow_eq]
  split <;> split <;> simp [Field.withFields, Member.toField, targetOf, *]

end Parts

end ServiceDocs.TypeSource
