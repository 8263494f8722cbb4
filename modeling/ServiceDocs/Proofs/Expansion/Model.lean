import ServiceDocs.Proofs.Expansion.Payload
import ServiceDocs.Proofs.Field.Codec

/-!
# The model is read back

The JSON form of the documentation of a method keeps everything but samples that are `null`. The
methods of a catalog have no such samples, so all that is documented can be read back, also from the
text of the model.
-/

namespace ServiceDocs

open Json ServiceDocs.Field

/-! ### Samples of catalogs -/

lemma Terminal.proper_sample (name : String) : (Terminal.sample name).Proper := by
  rw [Terminal.sample]
  split_ifs
  all_goals simp [Json.Proper, ProperMembers, Text.wordBound]

lemma Terminal.sample_ne_null {name : String} (h : Terminal.isTerminal name) :
    Terminal.sample name ≠ .null := by
  have hall : ∀ n ∈ Terminal.names, Terminal.sample n ≠ .null := by decide +kernel
  exact hall name (List.contains_iff_mem.mp h)

namespace Catalog

variable (c : Catalog)

lemma proper_sample (t : TypeExpr) : (c.sample t).Proper := by
  rw [sample]
  split
  · trivial
  · rw [TypeExpr.sample]
    split
    · exact Terminal.proper_sample _
    · trivial

lemma sample_ne_null {t : TypeExpr} (h : c.isTerminal t) : c.sample t ≠ .null := by
  rw [sample]
  rw [isTerminal, Bool.or_eq_true] at h
  cases henum : c.enum? t with
  | some d => exact Json.noConfusion
  | none =>
    have hterminal : t.isTerminal := by simpa [henum] using h
    cases t with
    | named name args => exact Terminal.sample_ne_null hterminal
    | array element => cases hterminal
    | unknown => cases hterminal

end Catalog

/-! ### Methods of catalogs -/

/-- The entry documents a method of a catalog. -/
def MethodEntry.IsDocumented (e : MethodEntry) : Prop :=
  ∃ (c : Catalog) (depth : ℕ) (m : Method), e = c.source.entry depth m

namespace MethodEntry

variable {e : MethodEntry}

lemma IsDocumented.sample (h : e.IsDocumented) :
    ∀ fs ∈ [e.request, e.response], ∀ v ∈ visitsAll 0 fs, ∀ s, v.field.sample = some s →
      s.Proper ∧ s ≠ .null := by
  obtain ⟨c, depth, m, rfl⟩ := h
  have hroots : ∀ fs ∈ [(c.source.entry depth m).request, (c.source.entry depth m).response],
      ∀ f ∈ fs, c.source.IsExpanded f := by
    rw [List.forall_mem_cons, List.forall_mem_singleton]
    exact ⟨TypeSource.isExpanded_of_mem_request depth m,
      TypeSource.isExpanded_of_mem_response depth m⟩
  intro fs hfs v hv s hs
  obtain ⟨room, trail, member, hfield⟩ :=
    forall_mem_visitsAll (fun _ => TypeSource.isExpanded_of_mem_children) (hroots fs hfs) v hv
  rw [hfield, TypeSource.sample_fieldBelow] at hs
  split_ifs at hs with hterminal
  obtain rfl := Option.some.inj hs
  exact ⟨c.proper_sample _, c.sample_ne_null hterminal⟩

lemma IsDocumented.proper_toJson (h : e.IsDocumented) : e.toJson.Proper := by
  apply MethodEntry.proper_toJson
  intro fs hfs v hv s hs
  exact (h.sample fs hfs v hv s hs).1

lemma IsDocumented.withoutNulls (h : e.IsDocumented) : e.withoutNulls = e := by
  have hall : ∀ fs ∈ [e.request, e.response], withoutNullsAll fs = fs := by
    intro fs hfs
    have hsample : ∀ v ∈ visitsAll 0 fs, v.field.sample ≠ some .null :=
      fun v hv hnull => (h.sample fs hfs v hv .null hnull).2 rfl
    exact withoutNullsAll_eq_self hsample
  rw [List.forall_mem_cons, List.forall_mem_singleton] at hall
  rw [MethodEntry.withoutNulls, hall.1, hall.2]

lemma IsDocumented.ofJson?_toJson (h : e.IsDocumented) : ofJson? e.toJson = some e := by
  rw [MethodEntry.ofJson?_toJson, h.withoutNulls]

end MethodEntry

/-! ### The text of the model -/

/-- The methods that a model documents. -/
def methodsOfModel? (model : Json) : Option (List MethodEntry) :=
  (model.member? "methods").bind (asList? MethodEntry.ofJson?)

lemma methodsOfModel?_modelJson {entries : List MethodEntry}
    (h : ∀ e ∈ entries, MethodEntry.ofJson? e.toJson = some e) :
    methodsOfModel? (modelJson entries) = some entries := by
  have hread : methodsOfModel? (modelJson entries) =
      (entries.map MethodEntry.toJson).mapM MethodEntry.ofJson? := rfl
  rw [hread]
  induction entries with
  | nil => rfl
  | cons e es ih =>
    rw [List.forall_mem_cons] at h
    rw [List.map_cons, List.mapM_cons, h.1, ih h.2 rfl]
    rfl

lemma proper_modelJson {entries : List MethodEntry} (h : ∀ e ∈ entries, e.toJson.Proper) :
    (modelJson entries).Proper := by
  have hitems : ProperItems (entries.map MethodEntry.toJson) := by
    induction entries with
    | nil => trivial
    | cons e es ih =>
      rw [List.forall_mem_cons] at h
      exact ⟨h.1, ih h.2⟩
  exact ⟨by simp, trivial, hitems, trivial⟩

/-- The documentation of a method is read back from its JSON form without the samples that are
`null`. There are none in the methods of catalogs and in what has been read, so these are read back
as they are, and so is the model of a list of methods from its text. -/
theorem MethodEntry.reads_back :
    (∀ e : MethodEntry, ofJson? e.toJson = some e.withoutNulls) ∧
      (∀ e : MethodEntry, e.IsDocumented → ofJson? e.toJson = some e) ∧
      (∀ (j : Json) (e : MethodEntry), ofJson? j = some e → ofJson? e.toJson = some e) ∧
      ∀ entries : List MethodEntry, (∀ e ∈ entries, e.IsDocumented) →
        ∀ limit, (modelJson entries).nesting ≤ limit →
          (ofTextWithin? limit (modelText entries)).bind methodsOfModel? = some entries := by
  refine ⟨ofJson?_toJson, fun e he => he.ofJson?_toJson, ?_, ?_⟩
  · intro j e h
    rw [ofJson?_toJson, withoutNulls_of_ofJson? h]
  · intro entries hentries limit hlimit
    have hproper := proper_modelJson fun e he => (hentries e he).proper_toJson
    rw [modelText, ofTextWithin?_pretty hproper hlimit, Option.bind_some]
    exact methodsOfModel?_modelJson fun e he => (hentries e he).ofJson?_toJson

/-- A list of nodes that refer to each other, as `ofText?` reads it, and the documentation of a
method that is given by position, with a sample that is `null`. -/
theorem MethodEntry.reads_back_recursive :
    let node : Declaration :=
      { name := "Node", package := "", kind := .classType, path := "Node.java"
        fields := [{ name := "label", type := .ofName "String" },
          { name := "others", type := .named "List" [.ofName "Node"] }] }
    let m : Method :=
      { name := "nodes", package := "", declaringType := "Api", parameters := []
        returnType := .named "List" [.ofName "Node"] }
    let e := (Catalog.mk [node]).source.entry 16 m
    let parameter : Json :=
      .obj [("name", .str "x"), ("type", .obj [("kind", .str "unknown")]),
        ("kind", .str "literal"), ("example", .null)]
    let positional : Json :=
      .arr [.str "ids", .str "", .str "Api", .obj [("kind", .str "unknown")], .str "(X x)", .null,
        .arr [parameter], .arr []]
    (ofText? (modelText [e])).bind methodsOfModel? = some [e] ∧
      ∃ read, ofJson? positional = some read ∧ read.request.map Field.sample = [none] ∧
        ofJson? read.toJson = some read := by
  intro node m e parameter positional
  constructor
  · rw [← ofTextWithin?_maxNesting]
    apply reads_back.2.2.2 [e]
    · exact List.forall_mem_singleton.mpr ⟨_, _, _, rfl⟩
    · decide +kernel
  · exact ⟨_, rfl, rfl, reads_back.2.2.1 positional _ rfl⟩

end ServiceDocs
