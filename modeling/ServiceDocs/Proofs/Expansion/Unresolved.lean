import ServiceDocs.Catalog.Basic
import ServiceDocs.Page.Table
import ServiceDocs.Proofs.Expansion.Unfolding

/-!
# Types that cannot be resolved

A field is marked if its type has to be looked into and its members are not known. Whether they are
known is not found out at the limit of depth: there no field is marked, and a type that is declared
nowhere is shown by its name.

The limit counts the types above a field. Of the fields of a result that is an object, one such
type is not shown: the type of the result itself.
-/

namespace ServiceDocs.TypeSource

open ServiceDocs.Field

variable (src : TypeSource)

/-- The type is not terminal, and its members are not known. -/
def IsUnresolved (t : TypeExpr) : Prop :=
  ¬ src.isTerminal t ∧ src.members? t = none

instance (t : TypeExpr) : Decidable (src.IsUnresolved t) :=
  inferInstanceAs (Decidable (_ ∧ _))

/-- The number of types above the fields of the result of a method: the fields of an object stand
below its type. -/
def levelOfResponse (m : Method) : ℕ :=
  if src.isObject m.returnType ∧ (src.members? m.returnType).isSome then 1 else 0

/-! ### One field -/

lemma fieldsBelow_eq_none_iff {room : ℕ} {trail : Trail} {t : TypeExpr} :
    src.fieldsBelow room trail t = none ↔ src.members? t = none ∧ t ∉ trail ∧ room ≠ 0 := by
  cases room with
  | zero => simp
  | succ room =>
    rw [fieldsBelow_succ]
    split_ifs with hmem <;> simp [hmem]

/-- With no type on the trail that could not be resolved, only the room matters. -/
lemma opaqueType_fieldBelow_iff {room : ℕ} {trail : Trail}
    (htrail : ∀ t ∈ trail, (src.members? t).isSome) (m : Member) :
    (src.fieldBelow room trail m).opaqueType = true ↔
      src.IsUnresolved (src.targetOf m.type) ∧ room ≠ 0 := by
  rw [opaqueType_fieldBelow, Bool.and_eq_true, Bool.not_eq_true', Option.isNone_iff_eq_none,
    fieldsBelow_eq_none_iff, IsUnresolved, Bool.not_eq_true]
  constructor
  · rintro ⟨hterminal, hmembers, -, hroom⟩
    exact ⟨⟨hterminal, hmembers⟩, hroom⟩
  · rintro ⟨⟨hterminal, hmembers⟩, hroom⟩
    refine ⟨hterminal, hmembers, fun hmem => ?_, hroom⟩
    have hsome := htrail _ hmem
    rw [hmembers] at hsome
    cases hsome

/-- A field below another one is marked if and only if its type cannot be resolved and there is
room left. -/
lemma opaqueType_iff_of_reaches {room : ℕ} {trail : Trail} {m : Member} {above : List Field}
    {g : Field} (hnodup : trail.Nodup) (htrail : ∀ t ∈ trail, (src.members? t).isSome)
    (h : (src.fieldBelow room trail m).Reaches above g) :
    g.opaqueType = true ↔ src.IsUnresolved g.target ∧ above.length < room := by
  obtain ⟨-, habove, room', m', hroom, rfl⟩ := src.exists_fieldBelow_of_reaches hnodup h
  have htrail' : ∀ t ∈ above.map target ++ trail, (src.members? t).isSome :=
    List.forall_mem_append.mpr ⟨List.forall_mem_map.mpr habove, htrail⟩
  rw [src.opaqueType_fieldBelow_iff htrail', target_fieldBelow]
  exact and_congr_right fun _ => by omega

/-! ### Methods -/

lemma opaqueType_iff_of_mem_request {depth : ℕ} {m : Method} {f : Field}
    (hf : f ∈ (src.entry depth m).request) {above : List Field} {g : Field}
    (h : f.Reaches above g) :
    g.opaqueType = true ↔ src.IsUnresolved g.target ∧ above.length < depth := by
  obtain ⟨p, _, rfl⟩ := List.mem_map.mp hf
  exact src.opaqueType_iff_of_reaches List.nodup_nil (List.forall_mem_nil _) h

/-- A result is shown as a whole, or by the fields of its type, which then stands above them. -/
lemma mem_response {depth : ℕ} {m : Method} {f : Field} (hf : f ∈ src.response depth m) :
    f = src.resultField depth m ∧ src.levelOfResponse m = 0 ∨
      src.levelOfResponse m = 1 ∧ (src.members? m.returnType).isSome ∧
        ∃ room p, depth = room + 1 ∧ f = src.fieldBelow room [m.returnType] p := by
  rw [response] at hf
  split_ifs at hf with hvoid hobject
  · cases hf
  · cases hfields : src.fieldsBelow depth [] m.returnType with
    | none =>
      have hmembers := ((src.fieldsBelow_eq_none_iff).mp hfields).1
      rw [fieldsBelow] at hfields
      rw [hfields] at hf
      refine .inl ⟨List.mem_singleton.mp hf, ?_⟩
      simp [levelOfResponse, hmembers]
    | some fields =>
      have hmem : f ∈ (src.fieldsBelow depth [] m.returnType).getD [] := by
        rw [fieldsBelow] at hfields ⊢
        rw [hfields] at hf ⊢
        exact hf
      obtain ⟨-, hresolved, room, p, hroom, hfield⟩ := src.mem_fieldsBelow hmem
      refine .inr ⟨?_, hresolved, room, p, hroom, hfield⟩
      rw [levelOfResponse, if_pos ⟨hobject, hresolved⟩]
  · refine .inl ⟨List.mem_singleton.mp hf, ?_⟩
    rw [levelOfResponse, if_neg fun h => hobject h.1]

/-- A field of a request or a response says that its type cannot be resolved if and only if this is
so and the field does not stand at the limit of depth. -/
theorem opaqueType_iff_above_limit (depth : ℕ) (m : Method) :
    (∀ f ∈ (src.entry depth m).request, ∀ above g, f.Reaches above g →
        (g.opaqueType = true ↔ src.IsUnresolved g.target ∧ above.length < depth)) ∧
      ∀ f ∈ (src.entry depth m).response, ∀ above g, f.Reaches above g →
        (g.opaqueType = true ↔
          src.IsUnresolved g.target ∧ above.length + src.levelOfResponse m < depth) := by
  refine ⟨fun f hf above g hg => src.opaqueType_iff_of_mem_request hf hg, ?_⟩
  intro f hf above g hg
  rcases src.mem_response hf with ⟨rfl, hlevel⟩ | ⟨hlevel, hresolved, room, p, rfl, rfl⟩
  · rw [src.opaqueType_iff_of_reaches List.nodup_nil (List.forall_mem_nil _) hg]
    rw [hlevel, Nat.add_zero]
  · have htrail : ∀ t ∈ [m.returnType], (src.members? t).isSome :=
      List.forall_mem_singleton.mpr hresolved
    rw [src.opaqueType_iff_of_reaches (by simp) htrail hg, hlevel]
    exact and_congr_right fun _ => by omega

/-- At a limit of one level, the field of an undeclared type is not marked, and its row shows the
name of the type; with one more level it is marked, and its row shows an object. -/
theorem undeclared_type_at_limit :
    let order : Declaration :=
      { name := "Order", package := "", kind := .classType, path := "Order.java"
        fields := [{ name := "customer", type := .ofName "Customer" }] }
    let src := (Catalog.mk [order]).source
    let m : Method :=
      { name := "place", package := "", declaringType := "Api", returnType := .ofName "void"
        parameters := [{ name := "order", type := .ofName "Order" }] }
    (¬ ∀ f ∈ (src.entry 1 m).request, ∀ above g, f.Reaches above g →
        (g.opaqueType = true ↔ src.IsUnresolved g.target)) ∧
      Page.rowsAll 0 (src.entry 1 m).request =
        ["**order**|Order|N||", "└**customer**|Customer|N||"] ∧
      Page.rowsAll 0 (src.entry 2 m).request =
        ["**order**|Order|N||", "└**customer**|Object|N||"] := by
  intro order src m
  refine ⟨?_, by decide +kernel, by decide +kernel⟩
  intro h
  let f := src.field 1 { name := "order", type := .ofName "Order" }
  let g := src.fieldBelow 0 [.ofName "Order"] { name := "customer", type := .ofName "Customer" }
  have hg : f.Reaches [f] g := .child .root (List.mem_singleton.mpr rfl)
  have hiff := h f (List.mem_singleton.mpr rfl) [f] g hg
  have hmarked : g.opaqueType = false := by decide +kernel
  have hunresolved : src.IsUnresolved g.target := by decide +kernel
  rw [hmarked] at hiff
  exact Bool.false_ne_true (hiff.mpr hunresolved)

end ServiceDocs.TypeSource
