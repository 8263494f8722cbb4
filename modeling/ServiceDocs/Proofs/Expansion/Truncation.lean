import ServiceDocs.Catalog.Basic
import ServiceDocs.Proofs.Expansion.Trail
import ServiceDocs.Proofs.Field.Order

/-!
# Limits of depth as truncation

A lower limit of depth gives the same fields, only fewer: the tree for the lower limit is the tree
for the higher one, truncated. What is shown above the limit does not depend on it, since a type is
looked for on the trail before the room that is left is looked at.
-/

namespace ServiceDocs

namespace Field

/-! ### Truncated trees -/

/-- The field without the fields below it. -/
def alone (f : Field) : Field :=
  { f with children := [] }

/-- The field at the limit of depth: of a compound field, nothing is shown that is learned by
looking at its type. -/
def cut (f : Field) : Field :=
  { f.alone with opaqueType := f.opaqueType && !f.isCompound }

/-- The tree with the fields that have at most `depth` fields above them. -/
def truncate : ℕ → Field → Field
  | 0,         f => f.cut
  | depth + 1, f => { f with children := f.children.map (truncate depth) }

@[simp] lemma alone_cut (f : Field) : f.cut.alone = f.cut := rfl

@[simp] lemma children_cut (f : Field) : f.cut.children = [] := rfl

lemma alone_truncate_succ (depth : ℕ) (f : Field) : (f.truncate (depth + 1)).alone = f.alone := rfl

lemma children_truncate_succ (depth : ℕ) (f : Field) :
    (f.truncate (depth + 1)).children = f.children.map (truncate depth) := rfl

/-- A visit without the fields below the one that is visited. -/
def Visit.label (v : Visit) : ℕ × Field :=
  (v.depth, v.field.alone)

/-- The label of a visit in a tree that is truncated at the depth `limit`. -/
def Visit.labelCutAt (limit : ℕ) (v : Visit) : ℕ × Field :=
  (v.depth, if v.depth = limit then v.field.cut else v.field.alone)

lemma le_depth_of_mem_visitsAll {depth : ℕ} {fs : List Field} :
    ∀ v ∈ visitsAll depth fs, depth ≤ v.depth := by
  intro v hv
  exact le_of_mem_depths v.depth (List.mem_map_of_mem hv)

/-- At the limit only the roots are left. -/
lemma filter_visitsAll_depth (depth : ℕ) (fs : List Field) :
    (visitsAll depth fs).filter (·.depth ≤ depth) = fs.map (Visit.mk depth) := by
  induction fs with
  | nil => rfl
  | cons f fs ih =>
    have hbelow : (visitsAll (depth + 1) f.children).filter (·.depth ≤ depth) = [] := by
      rw [List.filter_eq_nil_iff]
      intro v hv
      have hdepth := le_depth_of_mem_visitsAll v hv
      simp only [decide_eq_true_eq]
      omega
    rw [visitsAll_cons, List.filter_cons_of_pos (by simp), List.filter_append, hbelow, ih]
    rfl

/-- Truncation keeps the fields with at most `n` fields above them, in their order, and changes
only those with exactly `n`. -/
theorem map_label_visitsAll_truncate (n depth : ℕ) (fs : List Field) :
    (visitsAll depth (fs.map (truncate n))).map Visit.label =
      ((visitsAll depth fs).filter (·.depth ≤ depth + n)).map (Visit.labelCutAt (depth + n)) := by
  induction n generalizing depth fs with
  | zero =>
    rw [Nat.add_zero, filter_visitsAll_depth]
    induction fs with
    | nil => rfl
    | cons f fs ih =>
      rw [List.map_cons, visitsAll_cons, truncate, children_cut, visitsAll_nil, List.nil_append,
        List.map_cons, ih]
      simp [Visit.label, Visit.labelCutAt]
  | succ n ihDepth =>
    induction fs with
    | nil => rfl
    | cons f fs ih =>
      have hchildren := ihDepth (depth + 1) f.children
      rw [show depth + 1 + n = depth + (n + 1) by omega] at hchildren
      have hroot : Visit.label ⟨depth, f.truncate (n + 1)⟩ =
          Visit.labelCutAt (depth + (n + 1)) ⟨depth, f⟩ := by
        simp [Visit.label, Visit.labelCutAt, alone_truncate_succ]
      rw [List.map_cons, visitsAll_cons, visitsAll_cons, children_truncate_succ,
        List.filter_cons_of_pos (by simp), List.filter_append, List.map_cons, List.map_cons,
        List.map_append, List.map_append, hroot, hchildren, ih]

end Field

namespace TypeSource

open ServiceDocs.Field

variable (src : TypeSource)

/-! ### Truncated expansions -/

/-- At the limit a field shows what does not depend on the members of its type. -/
lemma fieldBelow_zero (room : ℕ) (trail : Trail) (m : Member) :
    src.fieldBelow 0 trail m = (src.fieldBelow room trail m).cut := by
  rw [fieldBelow_eq, fieldBelow_eq]
  split <;> split <;>
    simp [cut, alone, Field.withFields, Member.toField, isCompound, isTerminalArray]

/-- Less room gives the truncated fields of a type; whether it can be resolved is found out as soon
as there is room at all. -/
lemma fieldsBelow_succ_eq_truncate {room room' : ℕ}
    (hfield : ∀ trail m, src.fieldBelow room trail m = (src.fieldBelow room' trail m).truncate room)
    (trail : Trail) (t : TypeExpr) :
    src.fieldsBelow (room + 1) trail t =
      (src.fieldsBelow (room' + 1) trail t).map (List.map (truncate room)) := by
  rw [fieldsBelow_succ, fieldsBelow_succ]
  split_ifs with hmem
  · rfl
  · cases src.members? t with
    | none => rfl
    | some ms => simp [hfield (t :: trail)]

lemma withFields_truncate (f : Field) (room : ℕ) (fields : Option (List Field)) :
    f.withFields (fields.map (List.map (truncate room))) =
      (f.withFields fields).truncate (room + 1) := by
  cases fields <;> rfl

lemma fieldBelow_eq_truncate {room room' : ℕ} (h : room ≤ room') (trail : Trail) (m : Member) :
    src.fieldBelow room trail m = (src.fieldBelow room' trail m).truncate room := by
  induction room generalizing room' trail m with
  | zero => exact src.fieldBelow_zero room' trail m
  | succ room ih =>
    obtain ⟨room', rfl⟩ := Nat.exists_eq_add_one_of_ne_zero (show room' ≠ 0 by omega)
    have hfields := src.fieldsBelow_succ_eq_truncate
      (fun trail m => ih (Nat.le_of_succ_le_succ h) trail m) trail
    rw [fieldBelow_eq, fieldBelow_eq]
    cases src.element? m.type with
    | some e =>
      by_cases ht : src.isTerminal e
      · simp only [ht, if_true]
        rfl
      · simp only [ht, hfields]
        exact withFields_truncate _ room _
    | none =>
      by_cases ht : src.isTerminal m.type
      · simp only [ht, if_true]
        rfl
      · simp only [ht, hfields]
        exact withFields_truncate _ room _

/-- The request for a limit of depth is the truncated request for any higher limit: of its fields
exactly those with at most `d` fields above them are left, in the same order, and only compound
ones with exactly `d` fields above them have changed. -/
theorem request_truncates {d d' : ℕ} (h : d ≤ d') (m : Method) :
    (src.entry d m).request = (src.entry d' m).request.map (truncate d) ∧
      (visitsAll 0 (src.entry d m).request).map Visit.label =
        ((visitsAll 0 (src.entry d' m).request).filter (·.depth ≤ d)).map
          (Visit.labelCutAt d) := by
  have hrequest : (src.entry d m).request = (src.entry d' m).request.map (truncate d) := by
    show m.parameters.map (src.field d) = (m.parameters.map (src.field d')).map (truncate d)
    rw [List.map_map]
    exact List.map_congr_left fun p _ => src.fieldBelow_eq_truncate h [] p
  refine ⟨hrequest, ?_⟩
  have hvisits := map_label_visitsAll_truncate d 0 (src.entry d' m).request
  rw [Nat.zero_add] at hvisits
  rw [hrequest, hvisits]

/-- A node that refers to itself through another type: with one level instead of three, its link is
not looked into and the undeclared type is not found out. -/
theorem request_truncates_recursive :
    let node : Declaration :=
      { name := "Node", package := "", kind := .classType, path := "Node.java"
        fields := [{ name := "link", type := .ofName "Link" },
          { name := "thing", type := .ofName "Thing" }] }
    let link : Declaration :=
      { name := "Link", package := "", kind := .classType, path := "Link.java"
        fields := [{ name := "target", type := .array (.ofName "Node") }] }
    let src := (Catalog.mk [node, link]).source
    let m : Method :=
      { name := "add", package := "", declaringType := "Api", returnType := .ofName "void"
        parameters := [{ name := "node", type := .ofName "Node" }] }
    let rows (fs : List Field) := (visitsAll 0 fs).map fun v =>
      (v.depth, v.field.name, v.field.opaqueType)
    1 ≤ 3 ∧
      rows (src.entry 3 m).request =
        [(0, "node", false), (1, "link", false), (2, "target", false), (1, "thing", true)] ∧
      rows ((src.entry 3 m).request.map (truncate 1)) =
        [(0, "node", false), (1, "link", false), (1, "thing", false)] ∧
      (src.entry 1 m).request = (src.entry 3 m).request.map (truncate 1) := by
  intro node link src m rows
  refine ⟨by decide, by decide +kernel, ?_, (src.request_truncates (by decide) m).1⟩
  rw [← (src.request_truncates (by decide : 1 ≤ 3) m).1]
  decide +kernel

end TypeSource

end ServiceDocs
