import Mathlib.Data.List.Forall2
import ServiceDocs.Proofs.Expansion.Trail

/-!
# Field trees as unfoldings of types

The field tree of a parameter is the unfolding of the members of its type, of their types and so
on, cut where a type would be below itself and where the limit of depth is reached.

A field is looked at together with the fields on the way to it from the parameter. The types that
these are expanded for form the trail of the field: no type occurs on it twice, it is never longer
than the limit, and together with the type of the field it determines the children.
-/

namespace ServiceDocs

namespace Field

/-- The type whose members are the children of a field. -/
def target (f : Field) : TypeExpr :=
  match f.shape with
  | .array => f.element.getD f.type
  | _      => f.type

/-- `f.Reaches above g` if `g` is a field of the tree `f`, and `above` are the fields on the way to
it, the nearest one first. -/
inductive Reaches (f : Field) : List Field → Field → Prop where
  | root : f.Reaches [] f
  | child {above : List Field} {g c : Field} (hg : f.Reaches above g) (hc : c ∈ g.children) :
      f.Reaches (g :: above) c

/-- The field shows everything that is said about a member. -/
structure Shows (f : Field) (m : Member) : Prop where
  name : f.name = m.name
  type : f.type = m.type
  required : f.required = m.required
  range : f.range = m.range
  description : f.description = m.description

/-- Below the types of a trail, the children of a field are what its type prescribes. -/
structure UnfoldsBelow (src : TypeSource) (depth : Nat) (trail : List TypeExpr) (f : Field) :
    Prop where
  target_eq : f.target = (src.element? f.type).getD f.type
  terminal : src.isTerminal f.target → f.children = []
  /-- A type that is already on the trail is not expanded again, and no type is at the limit. -/
  cut : ¬ src.isTerminal f.target → f.target ∈ trail ∨ depth ≤ trail.length → f.children = []
  unresolved : ¬ src.isTerminal f.target → f.target ∉ trail → trail.length < depth →
    src.members? f.target = none → f.children = [] ∧ f.opaqueType = true
  /-- The children are the members, one for one and in their order. -/
  resolved : ¬ src.isTerminal f.target → f.target ∉ trail → trail.length < depth →
    ∀ ms, src.members? f.target = some ms → List.Forall₂ Shows f.children ms

end Field

namespace TypeSource

open ServiceDocs.Field

variable (src : TypeSource)

/-! ### One field -/

lemma shows_fieldBelow (room : Nat) (trail : Trail) (m : Member) :
    (src.fieldBelow room trail m).Shows m where
  name := src.name_fieldBelow room trail m
  type := src.type_fieldBelow room trail m
  required := src.required_fieldBelow room trail m
  range := src.range_fieldBelow room trail m
  description := src.description_fieldBelow room trail m

lemma forall₂_shows_fieldBelow (room : Nat) (trail : Trail) (ms : List Member) :
    List.Forall₂ Shows (ms.map (src.fieldBelow room trail)) ms := by
  rw [List.forall₂_map_left_iff, List.forall₂_same]
  intro m _
  exact src.shows_fieldBelow room trail m

@[simp] lemma target_fieldBelow (room : Nat) (trail : Trail) (m : Member) :
    (src.fieldBelow room trail m).target = src.targetOf m.type := by
  rw [target, targetOf]
  rw [shape_fieldBelow, element_fieldBelow, type_fieldBelow]
  cases src.element? m.type with
  | some e => simp
  | none =>
    by_cases ht : src.isTerminal m.type <;> simp [ht]

lemma unfoldsBelow_fieldBelow {depth room : Nat} {trail : Trail}
    (hroom : room + trail.length = depth) (m : Member) :
    (src.fieldBelow room trail m).UnfoldsBelow src depth trail where
  target_eq := by simp [targetOf]
  terminal := by
    intro ht
    rw [target_fieldBelow] at ht
    rw [children_fieldBelow, if_pos ht]
  cut := by
    intro ht hcut
    rw [target_fieldBelow] at ht hcut
    rw [children_fieldBelow, if_neg ht]
    rcases hcut with hmem | hlen
    · rw [src.fieldsBelow_of_mem hmem]
      rfl
    · have hzero : room = 0 := by omega
      rw [hzero]
      rfl
  unresolved := by
    intro ht hmem hlen hms
    obtain ⟨room, rfl⟩ := Nat.exists_eq_add_one_of_ne_zero (show room ≠ 0 by omega)
    rw [target_fieldBelow] at ht hmem hms
    rw [children_fieldBelow, opaqueType_fieldBelow, if_neg ht, fieldsBelow_succ, if_neg hmem, hms]
    simpa using ht
  resolved := by
    intro ht hmem hlen ms hms
    obtain ⟨room, rfl⟩ := Nat.exists_eq_add_one_of_ne_zero (show room ≠ 0 by omega)
    rw [target_fieldBelow] at ht hmem hms
    rw [children_fieldBelow, if_neg ht, fieldsBelow_succ, if_neg hmem, hms]
    exact src.forall₂_shows_fieldBelow room _ ms

/-- A field of a type stands for one of its members, one level further down. -/
lemma mem_fieldsBelow {room : ℕ} {trail : Trail} {t : TypeExpr} {c : Field}
    (hc : c ∈ (src.fieldsBelow room trail t).getD []) :
    t ∉ trail ∧ (src.members? t).isSome ∧
      ∃ room' m', room = room' + 1 ∧ c = src.fieldBelow room' (t :: trail) m' := by
  cases room with
  | zero => cases hc
  | succ room =>
    rw [fieldsBelow_succ] at hc
    split_ifs at hc with hmem
    · cases hc
    · cases hms : src.members? t with
      | none =>
        rw [hms] at hc
        cases hc
      | some ms =>
        rw [hms] at hc
        obtain ⟨m', _, rfl⟩ := List.mem_map.mp hc
        exact ⟨hmem, rfl, room, m', rfl, rfl⟩

/-- A child stands for a member of the type above it. -/
lemma mem_children_fieldBelow {room : ℕ} {trail : Trail} {m : Member} {c : Field}
    (hc : c ∈ (src.fieldBelow room trail m).children) :
    src.targetOf m.type ∉ trail ∧ (src.members? (src.targetOf m.type)).isSome ∧
      ∃ room' m', room = room' + 1 ∧
        c = src.fieldBelow room' (src.targetOf m.type :: trail) m' := by
  rw [children_fieldBelow] at hc
  split_ifs at hc
  · cases hc
  · exact src.mem_fieldsBelow hc

/-! ### Fields below a field -/

/-- The trail on which a field has been expanded consists of the types of the fields above it, in
front of the trail of the root. All these types could be resolved, and none of them twice. -/
lemma exists_fieldBelow_of_reaches {room : ℕ} {trail : Trail} {m : Member} {above : List Field}
    {g : Field} (htrail : trail.Nodup) (h : (src.fieldBelow room trail m).Reaches above g) :
    (above.map target ++ trail).Nodup ∧ (∀ f ∈ above, (src.members? f.target).isSome) ∧
      ∃ room' m', room' + above.length = room ∧
        g = src.fieldBelow room' (above.map target ++ trail) m' := by
  induction h with
  | root => exact ⟨htrail, List.forall_mem_nil _, room, m, rfl, rfl⟩
  | child hg hc ih =>
    obtain ⟨hnodup, habove, room', m', hroom, rfl⟩ := ih
    obtain ⟨hmem, hresolved, room'', m'', rfl, rfl⟩ := src.mem_children_fieldBelow hc
    rw [List.map_cons, List.cons_append, target_fieldBelow]
    refine ⟨List.nodup_cons.mpr ⟨hmem, hnodup⟩, ?_, room'', m'', ?_, rfl⟩
    · exact List.forall_mem_cons.mpr ⟨by rw [target_fieldBelow]; exact hresolved, habove⟩
    · rw [List.length_cons]
      omega

/-- The fields of a request are the unfoldings of the parameters, cut at repetitions of a type and
at the limit of depth. -/
theorem request_entry_unfolds (depth : Nat) (method : Method) :
    List.Forall₂ Shows (src.entry depth method).request method.parameters ∧
      ∀ f ∈ (src.entry depth method).request, ∀ above g, f.Reaches above g →
        g.UnfoldsBelow src depth (above.map target) ∧
          (above.map target).Nodup ∧ above.length ≤ depth := by
  refine ⟨src.forall₂_shows_fieldBelow depth [] method.parameters, ?_⟩
  intro f hf above g hg
  obtain ⟨m, _, rfl⟩ := List.mem_map.mp hf
  obtain ⟨hnodup, -, room, m', hroom, rfl⟩ :=
    src.exists_fieldBelow_of_reaches List.nodup_nil hg
  rw [List.append_nil] at hnodup ⊢
  refine ⟨?_, hnodup, by omega⟩
  exact src.unfoldsBelow_fieldBelow (by rw [List.length_map]; exact hroom) m'

end TypeSource

end ServiceDocs
