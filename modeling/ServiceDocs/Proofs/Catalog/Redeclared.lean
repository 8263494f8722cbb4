import ServiceDocs.Proofs.Catalog.Superclasses
import ServiceDocs.Proofs.Expansion.Payload
import ServiceDocs.Proofs.Expansion.Response
import ServiceDocs.Proofs.Field.LostKeys

/-!
# Redeclared fields

A class may declare a field of the name of a field of one of its superclasses. Both of them are
members of the class, so the table has a row for each of them, while the sample payload has one key
for both. This is the only way in which members of one type come to share a name.
-/

namespace ServiceDocs

open ServiceDocs.Field

/-! ### Members of one name -/

lemma ClassType.map_name_fields (a : ClassType) :
    a.fields.map (·.name) = a.declaration.fields.map (·.name) := by
  rw [ClassType.fields, List.map_map]
  rfl

namespace Catalog

variable {c : Catalog}

/-- No declaration has two fields of one name. -/
def DeclaresOnce (c : Catalog) : Prop :=
  ∀ d ∈ c.declarations, (d.fields.map (·.name)).Nodup

instance : Decidable c.DeclaresOnce :=
  inferInstanceAs (Decidable (∀ d ∈ c.declarations, (d.fields.map (·.name)).Nodup))

/-- On the way up from the class that the type names, a class declares a field of the name of a
field of a class further up. -/
def Redeclares (c : Catalog) (t : TypeExpr) : Prop :=
  ∃ chain, c.Chain [] (c.class? t) chain ∧
    ∃ a b, [a, b].Sublist chain ∧
      ∃ f ∈ a.declaration.fields, ∃ g ∈ b.declaration.fields, f.name = g.name

lemma declaration_mem_of_class? {t : TypeExpr} {a : ClassType} (h : c.class? t = some a) :
    a.declaration ∈ c.declarations :=
  List.mem_of_find?_eq_some (class?_eq_some.mp h).2.1

lemma Chain.declaration_mem {below : List String} {a? : Option ClassType} {as : List ClassType}
    (has : c.Chain below a? as) (ha : ∀ a, a? = some a → a.declaration ∈ c.declarations) :
    ∀ a ∈ as, a.declaration ∈ c.declarations := by
  induction has with
  | top below => exact List.forall_mem_nil _
  | met h => exact List.forall_mem_nil _
  | @up below a as h _ ih =>
    have hsuper : ∀ b, a.superclass?.bind c.class? = some b → b.declaration ∈ c.declarations := by
      intro b hb
      obtain ⟨t, _, hclass⟩ := Option.bind_eq_some_iff.mp hb
      exact declaration_mem_of_class? hclass
    exact List.forall_mem_cons.mpr ⟨ha a rfl, ih hsuper⟩

/-- Enums have no members, and neither have types that are not declared. So there are only those of
the classes on the way up. -/
lemma exists_chain_of_type (c : Catalog) (t : TypeExpr) :
    ∃ chain, c.Chain [] (c.class? t) chain ∧
      (c.members? t).getD [] = chain.reverse.flatMap ClassType.fields := by
  have hclass : ∀ a, c.class? t = some a → a.name ∈ c.names := fun _ => name_mem_names_of_class?
  obtain ⟨chain, hchain, hsize⟩ :=
    exists_chain List.nodup_nil (List.nil_subset c.names) hclass
  rw [List.length_nil, Nat.zero_add] at hsize
  exact ⟨chain, hchain, getD_fieldsFrom hchain hsize⟩

/-- Two members share a name if and only if classes on the way up declare a field of this name. -/
lemma nodup_members?_iff (hc : c.DeclaresOnce) (t : TypeExpr) :
    (((c.members? t).getD []).map (·.name)).Nodup ↔ ¬ c.Redeclares t := by
  obtain ⟨chain, hchain, hmembers⟩ := c.exists_chain_of_type t
  have honce : ∀ a ∈ chain, (a.fields.map (·.name)).Nodup := by
    intro a ha
    rw [a.map_name_fields]
    exact hc _ (hchain.declaration_mem (fun _ => declaration_mem_of_class?) a ha)
  rw [hmembers, List.map_flatMap, List.nodup_flatMap, List.pairwise_reverse,
    List.pairwise_iff_forall_sublist]
  simp only [List.mem_reverse, ClassType.map_name_fields] at honce ⊢
  constructor
  · rintro ⟨-, hdisjoint⟩ ⟨chain', hchain', a, b, hab, f, hf, g, hg, hfg⟩
    obtain rfl := hchain'.unique hchain
    exact hdisjoint hab (List.mem_map_of_mem hg) (hfg ▸ List.mem_map_of_mem hf)
  · intro hno
    refine ⟨honce, ?_⟩
    intro a b hab name hb ha
    obtain ⟨g, hg, rfl⟩ := List.mem_map.mp hb
    obtain ⟨f, hf, hfg⟩ := List.mem_map.mp ha
    exact hno ⟨chain, hchain, a, b, hab, f, hf, g, hg, hfg⟩

end Catalog

/-! ### Fields side by side -/

namespace Field

/-- Below one of the fields there are the members of the type. -/
def ShowMembersOf (fields : List Field) (t : TypeExpr) : Prop :=
  ∃ v ∈ visitsAll 0 fields, v.field.children ≠ [] ∧ v.field.target = t

lemma distinctNames_children_iff (f : Field) : DistinctNames f.children ↔ DistinctNames [f] := by
  have hvisits : (∀ v ∈ visitsAll 1 f.children, (v.field.children.map name).Nodup) ↔
      ∀ v ∈ visitsAll 0 f.children, (v.field.children.map name).Nodup := by
    have hmap (d : ℕ) : (∀ v ∈ visitsAll d f.children, (v.field.children.map name).Nodup) ↔
        ∀ g ∈ (visitsAll d f.children).map Visit.field, (g.children.map name).Nodup := by
      rw [List.forall_mem_map]
    rw [hmap 0, hmap 1, map_field_visitsAll 1 0]
  constructor
  · intro h
    constructor
    · exact List.nodup_singleton _
    · rw [visitsAll_cons, List.forall_mem_cons, visitsAll_nil, List.append_nil]
      exact ⟨h.roots, hvisits.mpr h.children⟩
  · intro h
    have hchildren := h.children
    rw [visitsAll_cons, List.forall_mem_cons, visitsAll_nil, List.append_nil] at hchildren
    exact ⟨hchildren.1, hvisits.mp hchildren.2⟩

end Field

lemma TypeSource.IsExpanded.exists_members {src : TypeSource} {f : Field}
    (hf : src.IsExpanded f) (hchildren : f.children ≠ []) :
    ∃ ms, src.members? f.target = some ms ∧ f.children.map Field.name = ms.map (·.name) := by
  obtain ⟨room, trail, m, rfl⟩ := hf
  rw [children_fieldBelow] at hchildren ⊢
  rw [target_fieldBelow]
  split_ifs at hchildren ⊢ with hterminal
  · exact absurd rfl hchildren
  cases room with
  | zero => exact absurd rfl hchildren
  | succ room =>
    rw [fieldsBelow_succ] at hchildren ⊢
    split_ifs at hchildren ⊢ with htrail
    · exact absurd rfl hchildren
    cases hms : src.members? (src.targetOf m.type) with
    | none =>
      rw [hms] at hchildren
      exact absurd rfl hchildren
    | some ms => simp

namespace Catalog

variable {c : Catalog}

section Distinct

variable (hc : c.DeclaresOnce)

include hc

lemma nodup_children_iff {f : Field} (hf : c.source.IsExpanded f) :
    (f.children.map Field.name).Nodup ↔ (f.children ≠ [] → ¬ c.Redeclares f.target) := by
  by_cases hchildren : f.children = []
  · simp [hchildren]
  · obtain ⟨ms, hms, hnames⟩ := hf.exists_members hchildren
    have hmembers : (c.members? f.target).getD [] = ms := congrArg (Option.getD · []) hms
    have hiff := nodup_members?_iff hc f.target
    rw [hmembers] at hiff
    simp [hnames, hiff, hchildren]

lemma distinctNames_iff {fields : List Field} (hfields : ∀ f ∈ fields, c.source.IsExpanded f) :
    DistinctNames fields ↔
      (fields.map Field.name).Nodup ∧ ∀ t, ShowMembersOf fields t → ¬ c.Redeclares t := by
  have hvisits : ∀ v ∈ visitsAll 0 fields, c.source.IsExpanded v.field :=
    forall_mem_visitsAll (fun _ => TypeSource.isExpanded_of_mem_children) hfields
  constructor
  · intro h
    refine ⟨h.roots, ?_⟩
    rintro _ ⟨v, hv, hchildren, rfl⟩
    exact (nodup_children_iff hc (hvisits v hv)).mp (h.children v hv) hchildren
  · rintro ⟨hroots, hshown⟩
    refine ⟨hroots, ?_⟩
    intro v hv
    rw [nodup_children_iff hc (hvisits v hv)]
    intro hchildren
    exact hshown _ ⟨v, hv, hchildren, rfl⟩

/-- An object is described by the fields below the field of the result. -/
lemma distinctNames_response_iff (depth : ℕ) {m : Method} (hvoid : m.returnType.isVoid = false) :
    DistinctNames (c.source.entry depth m).response ↔
      ∀ t, ShowMembersOf [c.source.resultField depth m] t → ¬ c.Redeclares t := by
  have hresult : ∀ f ∈ [c.source.resultField depth m], c.source.IsExpanded f :=
    List.forall_mem_singleton.mpr ⟨depth, [], _, rfl⟩
  have hone := distinctNames_iff hc hresult
  rw [List.map_singleton, and_iff_right (List.nodup_singleton _)] at hone
  let result : Member :=
    { name := resultName, type := m.returnType, description := m.returnDescription }
  have htype : result.type = m.returnType := rfl
  have hresponse : (c.source.entry depth m).response = _ :=
    TypeSource.response_eq_of_parameter htype hvoid
  rw [← hone, hresponse]
  split_ifs
  · exact distinctNames_children_iff _
  · rfl

end Distinct

/-- Where no declaration has two fields of one name, two members of a type share a name if and only
if a class redeclares a field of one of its superclasses. The sample payload of a request or of a
response has a key for each row of the table unless a type whose members are shown does so, or two
parameters share a name. -/
theorem redeclared_fields_share_keys (c : Catalog) (hc : c.DeclaresOnce) :
    (∀ t ms, c.members? t = some ms → ((ms.map (·.name)).Nodup ↔ ¬ c.Redeclares t)) ∧
      ∀ (depth : ℕ) (m : Method),
        (KeyPerRow (c.source.entry depth m).request ↔
          (m.parameters.map (·.name)).Nodup ∧
            ∀ t, ShowMembersOf (c.source.entry depth m).request t → ¬ c.Redeclares t) ∧
        (KeyPerRow (c.source.entry depth m).response ↔
          m.returnType.isVoid = true ∨
            ∀ t, ShowMembersOf [c.source.resultField depth m] t → ¬ c.Redeclares t) := by
  refine ⟨?_, fun depth m => ⟨?_, ?_⟩⟩
  · intro t ms hms
    have hiff := nodup_members?_iff hc t
    rwa [hms] at hiff
  · have hrequest : ∀ f ∈ (c.source.entry depth m).request, c.source.IsExpanded f :=
      TypeSource.isExpanded_of_mem_request depth m
    have hparameters : (c.source.entry depth m).request.map Field.name =
        m.parameters.map (·.name) := by
      rw [TypeSource.entry, List.map_map]
      exact List.map_congr_left fun p _ => c.source.name_fieldBelow depth [] p
    rw [keyPerRow_iff (TypeSource.tidy_of_mem_visitsAll c.plainSamples_source hrequest),
      distinctNames_iff hc hrequest, hparameters]
  · have hresponse : ∀ f ∈ (c.source.entry depth m).response, c.source.IsExpanded f :=
      TypeSource.isExpanded_of_mem_response depth m
    rw [keyPerRow_iff (TypeSource.tidy_of_mem_visitsAll c.plainSamples_source hresponse)]
    cases hvoid : m.returnType.isVoid with
    | true =>
      have hempty : (c.source.entry depth m).response = [] := by
        rw [TypeSource.entry, TypeSource.response, if_pos hvoid]
      rw [hempty]
      exact iff_of_true ⟨List.nodup_nil, List.forall_mem_nil _⟩ (.inl rfl)
    | false => simp [distinctNames_response_iff hc depth hvoid]

/-- Users are entities with names and friends: no name of a member is used twice. -/
theorem redeclared_fields_share_keys_distinct :
    let entity : Declaration :=
      { name := "Entity", package := "", kind := .classType, path := "Entity.java"
        fields := [{ name := "id", type := .ofName "Long" }] }
    let user : Declaration :=
      { name := "User", package := "", kind := .classType, path := "User.java"
        superclass := some (.ofName "Entity")
        fields := [{ name := "name", type := .ofName "String" },
          { name := "friends", type := .named "List" [.ofName "User"] }] }
    let c := Catalog.mk [entity, user]
    let m : Method :=
      { name := "rename", package := "", declaringType := "Api"
        parameters := [{ name := "user", type := .ofName "User" },
          { name := "name", type := .ofName "String" }]
        returnType := .ofName "User" }
    c.DeclaresOnce ∧ ¬ c.Redeclares (.ofName "User") ∧
      ∀ t, ShowMembersOf (c.source.entry 3 m).request t → ¬ c.Redeclares t := by
  intro entity user c m
  have hc : c.DeclaresOnce := by decide
  obtain ⟨hmembers, hkeys⟩ := redeclared_fields_share_keys c hc
  obtain ⟨hrequest, -⟩ := hkeys 3 m
  refine ⟨hc, ?_, ?_⟩
  · exact (hmembers (.ofName "User") _ rfl).mp (by decide +kernel)
  · exact (hrequest.mp (by decide +kernel)).2

/-- A field that is declared again with another type: the table has two rows of its name, and the
sample payload has one key. -/
theorem redeclared_field_loses_key :
    let c := Catalog.addSource {} "Store.java"
      ("class A \x7b int id; \x7d class B extends A \x7b String id; \x7d " ++
        "interface Store \x7b B find(); \x7d")
    let m : Method :=
      { name := "find", package := "", declaringType := "Store", parameters := []
        returnType := .ofName "B" }
    c.DeclaresOnce ∧ c.source.methods? "Store" = some [m] ∧
      (c.members? (.ofName "B")).map (·.map (·.name)) = some ["id", "id"] ∧
      (Page.rowsAll 0 (c.source.entry 16 m).response).length = 2 ∧
      (samplePayload (c.source.entry 16 m).response).keysAt 0 = [(0, "id")] := by
  intro c m
  refine ⟨?_, ?_, ?_, ?_, ?_⟩
  all_goals decide +kernel

end Catalog

end ServiceDocs
