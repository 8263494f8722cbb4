import ServiceDocs.Proofs.Expansion.Payload

/-!
# Classification of fields

What is said about a field agrees with what is known about its type: its shape and its element tell
collections, terminal types and objects apart, it has a sample if it stands for terminal values, and
it has neither children nor a mark if it has a sample.

This is true of every field below a request or a response. So tables and payloads can go by the
shape and the sample of a field, without asking about its type again.
-/

namespace ServiceDocs

namespace Field

/-- What is true of a field and passes on to children is true of all fields below it. -/
lemma Reaches.passes_on {P : Field → Prop} (hP : ∀ f, P f → ∀ c ∈ f.children, P c) {f g : Field}
    {above : List Field} (h : f.Reaches above g) (hf : P f) : P g := by
  induction h with
  | root => exact hf
  | child _ hc ih => exact hP _ ih _ hc

/-- What is said about a field agrees with what is known about its type. -/
structure IsClassified (src : TypeSource) (f : Field) : Prop where
  array_iff : f.shape = .array ↔ ∃ e, src.element? f.type = some e
  element_eq : f.element = src.element? f.type
  literal_iff : f.shape = .literal ↔ src.element? f.type = none ∧ src.isTerminal f.type = true
  sample_isSome_iff : f.sample.isSome = true ↔
    f.shape = .literal ∨ f.shape = .array ∧ ∃ e, f.element = some e ∧ src.isTerminal e = true
  /-- A sample is that of the type, or of the type of the elements. -/
  sample_eq : ∀ s, f.sample = some s →
    (f.shape = .literal → s = src.sample f.type) ∧ ∀ e, f.element = some e → s = src.sample e
  of_sample : f.sample.isSome = true → f.children = [] ∧ f.opaqueType = false
  of_opaqueType : f.opaqueType = true → f.children = []
  of_children : f.children ≠ [] → f.shape = .object ∨ f.shape = .array ∧ f.sample = none

namespace IsClassified

variable {src : TypeSource} {f : Field} (h : f.IsClassified src)

include h

/-- The arrays with a sample are the collections of terminal values. -/
lemma isTerminalArray_iff :
    f.isTerminalArray = true ↔ ∃ e, src.element? f.type = some e ∧ src.isTerminal e = true := by
  rw [isTerminalArray, Bool.and_eq_true, decide_eq_true_eq, h.sample_isSome_iff, h.element_eq]
  constructor
  · rintro ⟨harray, hliteral | ⟨-, hterminal⟩⟩
    · rw [harray] at hliteral
      cases hliteral
    · exact hterminal
  · rintro ⟨e, he, hterminal⟩
    have harray := h.array_iff.mpr ⟨e, he⟩
    exact ⟨harray, .inr ⟨harray, e, he, hterminal⟩⟩

/-- Compound are those fields whose type, or that of their elements, is not terminal. -/
lemma isCompound_iff :
    f.isCompound = true ↔ src.isTerminal ((src.element? f.type).getD f.type) = false := by
  rw [isCompound]
  cases hshape : f.shape with
  | literal =>
    obtain ⟨helement, hterminal⟩ := h.literal_iff.mp hshape
    simp [helement, hterminal]
  | object =>
    have helement : src.element? f.type = none := by
      rw [Option.eq_none_iff_forall_ne_some]
      intro e he
      have harray := h.array_iff.mpr ⟨e, he⟩
      rw [hshape] at harray
      cases harray
    have hterminal : src.isTerminal f.type ≠ true := by
      intro hterminal
      have hliteral := h.literal_iff.mpr ⟨helement, hterminal⟩
      rw [hshape] at hliteral
      cases hliteral
    simp [helement, hterminal]
  | array =>
    obtain ⟨e, he⟩ := h.array_iff.mp hshape
    have hiff : f.isTerminalArray = true ↔ src.isTerminal e = true := by
      rw [h.isTerminalArray_iff, he]
      simp
    rw [he, Option.getD_some, Bool.not_eq_true', ← Bool.not_eq_true, ← Bool.not_eq_true, hiff]

end IsClassified

end Field

namespace TypeSource

open ServiceDocs.Field

variable {src : TypeSource}

lemma isClassified_fieldBelow (room : ℕ) (trail : Trail) (m : Member) :
    (src.fieldBelow room trail m).IsClassified src where
  array_iff := by
    rw [shape_fieldBelow, type_fieldBelow]
    cases src.element? m.type with
    | some e => simp
    | none => by_cases hterminal : src.isTerminal m.type <;> simp [hterminal]
  element_eq := by
    rw [element_fieldBelow, type_fieldBelow]
  literal_iff := by
    rw [shape_fieldBelow, type_fieldBelow]
    cases src.element? m.type with
    | some e => simp
    | none => by_cases hterminal : src.isTerminal m.type <;> simp [hterminal]
  sample_isSome_iff := by
    rw [sample_fieldBelow, shape_fieldBelow, element_fieldBelow, targetOf]
    cases src.element? m.type with
    | some e => simp
    | none => by_cases hterminal : src.isTerminal m.type <;> simp [hterminal]
  sample_eq := by
    intro s hs
    rw [sample_fieldBelow] at hs
    split_ifs at hs
    obtain rfl := Option.some.inj hs
    rw [shape_fieldBelow, element_fieldBelow, type_fieldBelow, targetOf]
    cases src.element? m.type <;> simp
  of_sample := by
    intro hs
    rw [sample_fieldBelow] at hs
    split_ifs at hs with hterminal
    · rw [children_fieldBelow, opaqueType_fieldBelow, if_pos hterminal, hterminal]
      exact ⟨rfl, rfl⟩
    · cases hs
  of_opaqueType := by
    intro hmarked
    rw [opaqueType_fieldBelow, Bool.and_eq_true, Option.isNone_iff_eq_none] at hmarked
    rw [children_fieldBelow, hmarked.2]
    exact ite_self []
  of_children := by
    intro hne
    rw [children_fieldBelow] at hne
    split_ifs at hne with hterminal
    · exact absurd rfl hne
    · rw [targetOf] at hterminal
      rw [shape_fieldBelow, sample_fieldBelow, targetOf, if_neg hterminal]
      cases helement : src.element? m.type with
      | some e => simp
      | none =>
        rw [helement, Option.getD_none] at hterminal
        simp [hterminal]

/-- Every field of a request or a response is classified as its type is. So the arrays with a sample
are the collections of terminal values, and compound are those fields whose type, or that of their
elements, is not terminal. -/
theorem entry_isClassified (src : TypeSource) (depth : ℕ) (m : Method) :
    ∀ fields ∈ [(src.entry depth m).request, (src.entry depth m).response],
      ∀ f ∈ fields, ∀ above g, f.Reaches above g →
        g.IsClassified src ∧
          (g.isTerminalArray = true ↔
            ∃ e, src.element? g.type = some e ∧ src.isTerminal e = true) ∧
          (g.isCompound = true ↔
            src.isTerminal ((src.element? g.type).getD g.type) = false) := by
  have hboth : ∀ fields ∈ [(src.entry depth m).request, (src.entry depth m).response],
      ∀ f ∈ fields, src.IsExpanded f := by
    rw [List.forall_mem_cons, List.forall_mem_singleton]
    exact ⟨isExpanded_of_mem_request depth m, isExpanded_of_mem_response depth m⟩
  intro fields hfields f hf above g hg
  obtain ⟨room, trail, member, rfl⟩ :=
    hg.passes_on (fun _ => isExpanded_of_mem_children) (hboth fields hfields f hf)
  have hclassified : (src.fieldBelow room trail member).IsClassified src :=
    isClassified_fieldBelow room trail member
  exact ⟨hclassified, hclassified.isTerminalArray_iff, hclassified.isCompound_iff⟩

/-- In a list of nodes with tags, the tags of a node are an array of texts: they are shown with the
sample of a text, and their row is not emphasised. -/
theorem entry_isClassified_tags :
    let node : Declaration :=
      { name := "Node", package := "", kind := .classType, path := "Node.java"
        fields := [{ name := "next", type := .ofName "Node" },
          { name := "tags", type := .array (.ofName "String") }] }
    let src := (Catalog.mk [node]).source
    let m : Method :=
      { name := "nodes", package := "", declaringType := "Api", parameters := []
        returnType := .named "List" [.ofName "Node"] }
    let result := src.resultField 2 m
    let tags := src.fieldBelow 1 [.ofName "Node"]
      { name := "tags", type := .array (.ofName "String") }
    result ∈ (src.entry 2 m).response ∧ result.Reaches [result] tags ∧ tags.IsClassified src ∧
      tags.isTerminalArray = true ∧ tags.isCompound = false ∧ tags.sample = some (.str "") := by
  intro node src m result tags
  have hresult : result ∈ (src.entry 2 m).response := List.mem_singleton.mpr rfl
  have htags : result.Reaches [result] tags := by
    refine .child .root ?_
    exact List.mem_cons_of_mem _ (List.mem_singleton.mpr rfl)
  obtain ⟨hclassified, harray, hcompound⟩ :=
    entry_isClassified src 2 m _ (by simp) result hresult [result] tags htags
  refine ⟨hresult, htags, hclassified, ?_, ?_, rfl⟩
  · exact harray.mpr ⟨.ofName "String", rfl, rfl⟩
  · rw [← Bool.not_eq_true, hcompound]
    decide

end TypeSource

end ServiceDocs
