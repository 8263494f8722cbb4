import ServiceDocs.Catalog.Basic
import ServiceDocs.Proofs.Expansion.Trail

/-!
# Responses and parameters

A type is documented in one way, whether a method returns it or takes it. The response of a method
can be read off the field that a parameter of the returned type has: if this is an object and is not
marked, the response has the fields below it, and else it is this field, with the name and the
description of a result.

So a response is only empty if nothing is returned, or an object without any fields.
-/

namespace ServiceDocs.TypeSource

open ServiceDocs.Field

variable (src : TypeSource)

/-! ### The field of a type -/

/-- Besides what is said about a member, its field depends on its type only. -/
lemma fieldBelow_of_type_eq {p q : Member} (h : q.type = p.type) (room : ℕ) (trail : Trail) :
    src.fieldBelow room trail q =
      { src.fieldBelow room trail p with
        name := q.name
        required := q.required
        range := q.range
        description := q.description } := by
  rw [fieldBelow_eq, fieldBelow_eq, h]
  split <;> split <;> simp [Field.withFields, Member.toField, h]

section Parameter

variable {src} {p : Member} (depth : ℕ)

/-- The result of a method as a whole is the field of a parameter of its type. -/
lemma resultField_eq_field {m : Method} (h : p.type = m.returnType) :
    src.resultField depth m =
      { src.field depth p with
        name := resultName
        required := false
        range := none
        description := m.returnDescription } :=
  src.fieldBelow_of_type_eq h.symm depth []

lemma shape_field : (src.field depth p).shape = .object ↔ src.isObject p.type = true := by
  show (src.fieldBelow depth [] p).shape = .object ↔ _
  rw [shape_fieldBelow, isObject]
  cases src.element? p.type with
  | some e => simp
  | none => by_cases hterminal : src.isTerminal p.type <;> simp [hterminal]

/-- The field of an object has the fields of its type below it, if these can be resolved. -/
lemma field_of_isObject (h : src.isObject p.type = true) :
    (src.field depth p).opaqueType = (src.fieldsBelow depth [] p.type).isNone ∧
      (src.field depth p).children = (src.fieldsBelow depth [] p.type).getD [] := by
  rw [isObject, Bool.and_eq_true, Option.isNone_iff_eq_none, Bool.not_eq_true'] at h
  have htarget : src.targetOf p.type = p.type := by
    rw [targetOf, h.1]
    rfl
  show (src.fieldBelow depth [] p).opaqueType = _ ∧ (src.fieldBelow depth [] p).children = _
  rw [opaqueType_fieldBelow, children_fieldBelow, htarget, h.2]
  exact ⟨rfl, rfl⟩

/-! ### Responses -/

variable {depth}

lemma response_eq_of_parameter {m : Method} (htype : p.type = m.returnType)
    (hvoid : m.returnType.isVoid = false) :
    src.response depth m =
      if (src.field depth p).shape = .object ∧ (src.field depth p).opaqueType = false then
        (src.field depth p).children
      else [src.resultField depth m] := by
  rw [response, hvoid, if_neg Bool.false_ne_true, ← htype]
  by_cases hobject : src.isObject p.type = true
  · obtain ⟨hmarked, hchildren⟩ := field_of_isObject depth hobject
    rw [if_pos hobject]
    show (src.fieldsBelow depth [] p.type).getD _ = _
    cases hfields : src.fieldsBelow depth [] p.type with
    | none =>
      rw [hfields] at hmarked
      rw [if_neg fun h => Bool.false_ne_true (h.2.symm.trans hmarked)]
      rfl
    | some fields =>
      rw [hfields] at hmarked hchildren
      rw [if_pos ⟨(shape_field depth).mpr hobject, hmarked⟩, hchildren]
      rfl
  · rw [if_neg hobject, if_neg fun h => hobject ((shape_field depth).mp h.1)]

end Parameter

/-- The response of a method, compared with the field of any parameter of the type that the method
returns: it has the fields below this field if it is an object and is not marked, and else it is
this field, said to be the result. It is empty if and only if nothing is returned, or an object
below which there are no fields. -/
theorem response_follows_parameter {depth : ℕ} {m caller : Method} {p : Member} {n : Field}
    (hn : (p, n) ∈ caller.parameters.zip (src.entry depth caller).request)
    (htype : p.type = m.returnType) :
    (m.returnType.isVoid = false →
      (src.entry depth m).response =
        if n.shape = .object ∧ n.opaqueType = false then n.children
        else
          [{ n with
              name := "result"
              required := false
              range := none
              description := m.returnDescription }]) ∧
      ((src.entry depth m).response = [] ↔
        m.returnType.isVoid = true ∨
          n.shape = .object ∧ n.opaqueType = false ∧ n.children = []) := by
  have hfield : n = src.field depth p := by
    rw [entry, ← List.map_prod_left_eq_zip, List.mem_map] at hn
    obtain ⟨q, _, hq⟩ := hn
    obtain ⟨rfl, rfl⟩ := Prod.mk.inj hq
    rfl
  subst hfield
  have hresponse : m.returnType.isVoid = false → (src.entry depth m).response = _ :=
    response_eq_of_parameter htype
  refine ⟨?_, ?_⟩
  · intro hvoid
    rw [hresponse hvoid, resultField_eq_field depth htype]
    rfl
  · cases hvoid : m.returnType.isVoid with
    | true =>
      have hempty : (src.entry depth m).response = [] := by
        rw [entry, response, if_pos hvoid]
      simp [hempty]
    | false =>
      rw [hresponse hvoid]
      split_ifs with hobject
      · simp [hobject.1, hobject.2]
      · have hno : ¬ ((src.field depth p).shape = .object ∧
            (src.field depth p).opaqueType = false ∧ (src.field depth p).children = []) :=
          fun h => hobject ⟨h.1, h.2.1⟩
        simp [hno]

/-- Nodes that refer to each other: a method that returns a node shows what is below a parameter of
this type, and one that returns a list of nodes shows the list itself. -/
theorem response_follows_parameter_recursive :
    let node : Declaration :=
      { name := "Node", package := "", kind := .classType, path := "Node.java"
        fields := [{ name := "label", type := .ofName "String" },
          { name := "next", type := .ofName "Node" },
          { name := "others", type := .named "List" [.ofName "Node"] }] }
    let src := (Catalog.mk [node]).source
    let first : Member := { name := "first", type := .ofName "Node", required := true }
    let rest : Member := { name := "rest", type := .named "List" [.ofName "Node"] }
    let m : Method :=
      { name := "link", package := "", declaringType := "Api", parameters := [first, rest]
        returnType := .ofName "Node" }
    let all : Method :=
      { name := "all", package := "", declaringType := "Api", parameters := []
        returnType := .named "List" [.ofName "Node"], returnDescription := some "in order" }
    (src.entry 2 m).response = (src.field 2 first).children ∧
      (src.entry 2 m).response.map (·.name) = ["label", "next", "others"] ∧
      (src.entry 2 all).response =
        [{ src.field 2 rest with name := "result", description := some "in order" }] := by
  intro node src first rest m all
  have hfirst : (first, src.field 2 first) ∈ m.parameters.zip (src.entry 2 m).request :=
    List.mem_cons_self
  have hrest : (rest, src.field 2 rest) ∈ m.parameters.zip (src.entry 2 m).request :=
    List.mem_cons_of_mem _ List.mem_cons_self
  have hresponse := (src.response_follows_parameter (m := m) hfirst rfl).1 rfl
  have hall := (src.response_follows_parameter (m := all) hrest rfl).1 rfl
  refine ⟨hresponse, ?_, hall⟩
  rw [hresponse]
  rfl

end ServiceDocs.TypeSource
