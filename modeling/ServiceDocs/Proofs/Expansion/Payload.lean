import ServiceDocs.Catalog.Basic
import ServiceDocs.Proofs.Expansion.Unfolding
import ServiceDocs.Proofs.Field.Payload
import ServiceDocs.Proofs.Page.Table

/-!
# Tables and sample payloads of methods

The table and the sample payload of a request or a response are two views of the same fields: the
rows of the table and the keys of the payload are the same names at the same depths and in the same
order.

This is not true of all trees. It holds of expanded ones, where samples belong to terminal types
and children to the others.
-/

namespace ServiceDocs

open ServiceDocs.Field

namespace TypeSource

/-- The samples of terminal types are single values or objects without members. -/
def PlainSamples (src : TypeSource) : Prop :=
  ∀ t, src.isTerminal t → (src.sample t).IsPlain

variable {src : TypeSource}

/-! ### Expanded fields -/

lemma sample_fieldBelow (room : ℕ) (trail : Trail) (m : Member) :
    (src.fieldBelow room trail m).sample =
      if src.isTerminal (src.targetOf m.type) then some (src.sample (src.targetOf m.type))
      else none := by
  rw [fieldBelow_eq]
  split <;> split <;> simp [Field.withFields, Member.toField, targetOf, *]

lemma tidy_fieldBelow (hsrc : src.PlainSamples) (room : ℕ) (trail : Trail) (m : Member) :
    (src.fieldBelow room trail m).Tidy where
  literal := by
    intro hshape
    rw [shape_fieldBelow] at hshape
    split_ifs at hshape with helement hterminal
    have htarget : src.targetOf m.type = m.type := by
      rw [targetOf, Option.not_isSome_iff_eq_none.mp helement]
      rfl
    rw [children_fieldBelow, htarget, if_pos hterminal]
  sample := by
    intro s hs
    rw [sample_fieldBelow] at hs
    split_ifs at hs with hterminal
    obtain rfl := Option.some.inj hs
    rw [children_fieldBelow, if_pos hterminal]
    exact ⟨rfl, hsrc _ hterminal⟩

/-- The field has been made for a member, at some level below some types. -/
def IsExpanded (src : TypeSource) (f : Field) : Prop :=
  ∃ room trail m, f = src.fieldBelow room trail m

lemma isExpanded_of_mem_children {f : Field} (hf : src.IsExpanded f) :
    ∀ c ∈ f.children, src.IsExpanded c := by
  obtain ⟨room, trail, m, rfl⟩ := hf
  intro c hc
  obtain ⟨_, _, room', m', _, rfl⟩ := src.mem_children_fieldBelow hc
  exact ⟨room', _, m', rfl⟩

lemma tidy_of_mem_visitsAll (hsrc : src.PlainSamples) {fields : List Field}
    (hfields : ∀ f ∈ fields, src.IsExpanded f) : ∀ v ∈ visitsAll 0 fields, v.field.Tidy := by
  intro v hv
  obtain ⟨room, trail, m, hfield⟩ :=
    forall_mem_visitsAll (fun _ => isExpanded_of_mem_children) hfields v hv
  rw [hfield]
  exact tidy_fieldBelow hsrc room trail m

/-! ### Methods -/

section Methods

variable (depth : ℕ) (m : Method)

lemma isExpanded_of_mem_request : ∀ f ∈ (src.entry depth m).request, src.IsExpanded f := by
  rw [entry, List.forall_mem_map]
  intro parameter _
  exact ⟨depth, [], parameter, rfl⟩

lemma isExpanded_of_mem_response : ∀ f ∈ (src.entry depth m).response, src.IsExpanded f := by
  have hresult : src.IsExpanded (src.resultField depth m) := ⟨depth, [], _, rfl⟩
  rw [entry, response]
  split
  · exact List.forall_mem_nil _
  split
  · -- an object whose type cannot be resolved is shown as a whole
    cases hfields : (src.expand depth m.returnType []).1 with
    | none => exact List.forall_mem_singleton.mpr hresult
    | some fields =>
      intro f hf
      have hmem : f ∈ (src.fieldsBelow depth [] m.returnType).getD [] := by
        rw [fieldsBelow, hfields]
        exact hf
      obtain ⟨_, _, room, m', _, rfl⟩ := src.mem_fieldsBelow hmem
      exact ⟨room, _, m', rfl⟩
  · exact List.forall_mem_singleton.mpr hresult

/-- If no two fields side by side have one name, the rows of the table of a request or a response
and the keys of its sample payload are the same names, at the same depths and in the same order. -/
theorem rows_agree_with_keys (hsrc : src.PlainSamples) :
    ∀ fields ∈ [(src.entry depth m).request, (src.entry depth m).response],
      DistinctNames fields →
        Page.rowsAll 0 fields =
            (visitsAll 0 fields).map (fun v => Page.row v.depth v.field) ∧
          (visitsAll 0 fields).map (fun v => (v.depth, v.field.name)) =
            (samplePayload fields).keysAt 0 := by
  have hboth : ∀ fields ∈ [(src.entry depth m).request, (src.entry depth m).response],
      ∀ f ∈ fields, src.IsExpanded f := by
    rw [List.forall_mem_cons, List.forall_mem_singleton]
    exact ⟨isExpanded_of_mem_request depth m, isExpanded_of_mem_response depth m⟩
  intro fields hfields hnames
  refine ⟨Page.rowsAll_eq_map 0 fields, ?_⟩
  exact (keysAt_samplePayload hnames (tidy_of_mem_visitsAll hsrc (hboth fields hfields))).symm

end Methods

end TypeSource

/-! ### Catalogs -/

lemma Terminal.isPlain_sample (name : String) : (Terminal.sample name).IsPlain := by
  rw [Terminal.sample]
  split_ifs
  all_goals simp [Json.IsPlain]

/-- The samples of a catalog are plain: those of enums are texts. -/
lemma Catalog.plainSamples_source (c : Catalog) : c.source.PlainSamples := by
  intro t _
  show (c.sample t).IsPlain
  rw [Catalog.sample]
  split
  · trivial
  · rw [TypeExpr.sample]
    split
    · exact Terminal.isPlain_sample _
    · trivial

/-- A list of nodes that refer to each other: below the result, the members of a node are shown
once, and neither its neighbours nor the elements of its arrays of texts add keys. -/
theorem TypeSource.rows_agree_with_keys_recursive :
    let node : Declaration :=
      { name := "Node", package := "", kind := .classType, path := "Node.java"
        fields := [{ name := "label", type := .ofName "String" },
          { name := "next", type := .ofName "Node" },
          { name := "others", type := .named "List" [.ofName "Node"] },
          { name := "tags", type := .array (.ofName "String") }] }
    let src := (Catalog.mk [node]).source
    let m : Method :=
      { name := "nodes", package := "", declaringType := "Api", parameters := []
        returnType := .named "List" [.ofName "Node"] }
    src.PlainSamples ∧ DistinctNames (src.entry 2 m).response ∧
      (samplePayload (src.entry 2 m).response).keysAt 0 =
        [(0, "result"), (1, "label"), (1, "next"), (1, "others"), (1, "tags")] := by
  intro node src m
  have hsrc : src.PlainSamples := Catalog.plainSamples_source _
  have hnames : DistinctNames (src.entry 2 m).response := by
    constructor
    · decide +kernel
    · decide +kernel
  refine ⟨hsrc, hnames, ?_⟩
  rw [← (rows_agree_with_keys 2 m hsrc _ (by simp) hnames).2]
  decide +kernel

end ServiceDocs
