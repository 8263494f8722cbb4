import ServiceDocs.Field.Codec
import ServiceDocs.Proofs.Field.Order
import ServiceDocs.Proofs.TypeExpr.Codec

/-!
# Documentation is read back

Reading the JSON form of the documentation of a method gives this documentation, except that a
sample that is `null` is gone.
-/

namespace ServiceDocs

open Json

/-! ### Absent samples -/

namespace Field

mutual

/-- The field without samples that are `null`, here and below. -/
def withoutNulls : Field → Field
  | ⟨name, type, shape, element, required, range, description, sample, opaqueType, children⟩ =>
    ⟨name, type, shape, element, required, range, description, sample.filter (· ≠ .null),
      opaqueType, withoutNullsAll children⟩
termination_by structural f => f

/-- The fields without samples that are `null`. -/
def withoutNullsAll : List Field → List Field
  | []      => []
  | f :: fs => f.withoutNulls :: withoutNullsAll fs
termination_by structural fs => fs

end

lemma withoutNulls_eq (f : Field) :
    f.withoutNulls =
      { f with
        sample := f.sample.filter (· ≠ .null)
        children := withoutNullsAll f.children } := by
  cases f; rfl

lemma withoutNullsAll_of_forall {fs : List Field} (h : ∀ f ∈ fs, f.withoutNulls = f) :
    withoutNullsAll fs = fs := by
  induction fs with
  | nil => rfl
  | cons f fs ih =>
    rw [List.forall_mem_cons] at h
    rw [withoutNullsAll, h.1, ih h.2]

lemma filter_ne_null_eq_self {sample : Option Json} (h : sample ≠ some .null) :
    sample.filter (· ≠ .null) = sample := by
  cases sample with
  | none => rfl
  | some s =>
    have hs : s ≠ .null := fun hnull => h (congrArg some hnull)
    rw [Option.filter_some, if_pos (decide_eq_true hs)]

lemma filter_ne_null_ne (sample : Option Json) : sample.filter (· ≠ .null) ≠ some .null := by
  intro h
  have hnull := (Option.filter_eq_some_iff.mp h).2
  exact of_decide_eq_true hnull rfl

lemma withoutNulls_eq_self {f : Field} (hsample : f.sample ≠ some .null)
    (hchildren : withoutNullsAll f.children = f.children) : f.withoutNulls = f := by
  rw [withoutNulls_eq, hchildren, filter_ne_null_eq_self hsample]
  cases f; rfl

/-- Trees in which no sample is `null` stay as they are. -/
lemma withoutNullsAll_eq_self {depth : ℕ} {fs : List Field}
    (h : ∀ v ∈ visitsAll depth fs, v.field.sample ≠ some .null) : withoutNullsAll fs = fs := by
  induction fs using forest_induction generalizing depth with
  | nil => rfl
  | cons f fs ihChildren ih =>
    rw [visitsAll_cons, List.forall_mem_cons, List.forall_mem_append] at h
    obtain ⟨hf, hchildren, hfs⟩ := h
    rw [withoutNullsAll, withoutNulls_eq_self hf (ihChildren hchildren), ih hfs]

/-! ### Fields -/

/-- The members of the JSON form of a field. -/
def parts (f : Field) : Parts :=
  [("name", .str f.name), ("type", f.type.toJson), ("kind", .str f.shape.word)]
    ++ someMember "element" (f.element.map TypeExpr.toJson)
    ++ [("required", .bool f.required)]
    ++ someMember "range" (f.range.map Json.str)
    ++ someMember "description" (f.description.map Json.str)
    ++ someMember "example" f.sample
    ++ someMember "opaque" (if f.opaqueType then some (.bool true) else none)
    ++ someMember "children"
      (if f.children.isEmpty then none else some (.arr (toJsonAll f.children)))

lemma toJson_eq (f : Field) : f.toJson = .obj f.parts := by
  obtain ⟨name, type, shape, element, required, range, description, sample, opaqueType,
    children⟩ := f
  cases opaqueType <;> cases children <;> rfl

lemma lookup_children (f : Field) :
    f.parts.lookup "children" =
      if f.children.isEmpty then none else some (.arr (toJsonAll f.children)) := by
  simp [parts, List.lookup_append, lookup_someMember, List.lookup_cons]

lemma heightItems_children_lt (f : Field) :
    heightItems (toJsonAll f.children) < f.toJson.height := by
  rw [toJson_eq, height, Nat.lt_succ_iff]
  have hlookup := f.lookup_children
  cases hchildren : f.children with
  | nil => exact Nat.zero_le _
  | cons c cs =>
    rw [hchildren] at hlookup
    exact Nat.le_of_succ_le (height_le_of_lookup "children" hlookup)

lemma nullable_text {ps : Parts} {name : String} {s : Option String}
    (h : ps.lookup name = s.map Json.str) : ps.nullable name asString? = some s :=
  Parts.nullable_of_lookup h (fun _ => Json.noConfusion) (fun _ => rfl)

/-- A field is read back if the fields below it are. -/
lemma ofJsonWithin_succ {height : ℕ} {f : Field}
    (h : (toJsonAll f.children).mapM (ofJsonWithin height) = some (withoutNullsAll f.children)) :
    ofJsonWithin (height + 1) f.toJson = some f.withoutNulls := by
  have hname : f.parts.required "name" asString? = some f.name :=
    Parts.required_of_lookup rfl rfl
  have htype : f.parts.required "type" TypeExpr.ofJson? = some f.type :=
    Parts.required_of_lookup rfl f.type.ofJson?_toJson
  have hshape : f.parts.required "kind" (asWord? Shape.ofWord?) = some f.shape :=
    Parts.required_of_lookup rfl f.shape.ofWord?_word
  have helement : f.parts.nullable "element" TypeExpr.ofJson? = some f.element := by
    apply Parts.nullable_of_lookup _ TypeExpr.toJson_ne_null TypeExpr.ofJson?_toJson
    simp [parts, List.lookup_append, lookup_someMember, List.lookup_cons]
  have hrequired : f.parts.optional "required" false asBool? = some f.required := by
    apply Parts.optional_of_lookup (v := some (.bool f.required))
    simp [parts, List.lookup_append, lookup_someMember, List.lookup_cons]
  have hrange : f.parts.nullable "range" asString? = some f.range := by
    apply nullable_text
    simp [parts, List.lookup_append, lookup_someMember, List.lookup_cons]
  have hdescription : f.parts.nullable "description" asString? = some f.description := by
    apply nullable_text
    simp [parts, List.lookup_append, lookup_someMember, List.lookup_cons]
  have hsample : f.parts.nullable "example" some = some (f.sample.filter (· ≠ .null)) := by
    rw [Parts.nullable_some]
    simp [parts, List.lookup_append, lookup_someMember, List.lookup_cons]
  have hopaque : f.parts.optional "opaque" false asBool? = some f.opaqueType := by
    have hlookup : f.parts.lookup "opaque" =
        if f.opaqueType then some (.bool true) else none := by
      simp [parts, List.lookup_append, lookup_someMember, List.lookup_cons]
    rw [Parts.optional_of_lookup hlookup]
    cases f.opaqueType <;> rfl
  have hchildren : f.parts.optional "children" [] (asList? (ofJsonWithin height)) =
      some (withoutNullsAll f.children) := by
    rw [Parts.optional_of_lookup f.lookup_children, ← h]
    cases f.children <;> rfl
  rw [toJson_eq, withoutNulls_eq]
  simp only [ofJsonWithin, parts?, Option.bind_eq_bind, Option.bind_some, hname, htype, hshape,
    helement, hrequired, hrange, hdescription, hsample, hopaque, hchildren]
  rfl

lemma ofJsonWithin_toJson_of_children {height : ℕ} {f : Field} (hf : f.toJson.height ≤ height)
    (h : ∀ {n}, heightItems (toJsonAll f.children) ≤ n →
      (toJsonAll f.children).mapM (ofJsonWithin n) = some (withoutNullsAll f.children)) :
    ofJsonWithin height f.toJson = some f.withoutNulls := by
  have hlt := f.heightItems_children_lt.trans_le hf
  obtain _ | height := height
  · cases hlt
  · exact ofJsonWithin_succ (h (Nat.le_of_lt_succ hlt))

/-- Trees of fields are read back without the samples that are `null`. -/
lemma mapM_ofJsonWithin_toJsonAll {height : ℕ} {fs : List Field}
    (h : heightItems (toJsonAll fs) ≤ height) :
    (toJsonAll fs).mapM (ofJsonWithin height) = some (withoutNullsAll fs) := by
  induction fs using forest_induction generalizing height with
  | nil => rfl
  | cons f fs ihChildren ih =>
    have hf : ofJsonWithin height f.toJson = some f.withoutNulls :=
      ofJsonWithin_toJson_of_children ((Nat.le_max_left _ _).trans h) ihChildren
    rw [toJsonAll, List.mapM_cons, hf, ih ((Nat.le_max_right _ _).trans h)]
    rfl

lemma ofJson?_toJson (f : Field) : ofJson? f.toJson = some f.withoutNulls :=
  ofJsonWithin_toJson_of_children (Nat.le_refl _) mapM_ofJsonWithin_toJsonAll

lemma asList?_toJsonAll (fs : List Field) :
    asList? ofJson? (.arr (toJsonAll fs)) = some (withoutNullsAll fs) := by
  rw [asList?]
  induction fs with
  | nil => rfl
  | cons f fs ih =>
    rw [toJsonAll, List.mapM_cons, ofJson?_toJson, ih]
    rfl

/-- What is read has no sample that is `null`. -/
lemma withoutNulls_of_ofJsonWithin {height : ℕ} {j : Json} {f : Field}
    (h : ofJsonWithin height j = some f) : f.withoutNulls = f := by
  induction height generalizing j f with
  | zero => cases h
  | succ height ih =>
    simp only [ofJsonWithin, Option.bind_eq_bind, Option.bind_eq_some_iff,
      Parts.nullable_some] at h
    obtain ⟨ps, _, _, _, _, _, _, _, _, _, _, _, _, _, _, _, _, hsample, _, _, children,
      hchildren, h⟩ := h
    obtain rfl := Option.some.inj h
    obtain rfl := Option.some.inj hsample
    apply withoutNulls_eq_self (filter_ne_null_ne _)
    apply withoutNullsAll_of_forall
    rcases Parts.eq_or_exists_of_optional hchildren with rfl | ⟨v, hread⟩
    · exact List.forall_mem_nil _
    · intro c hc
      obtain ⟨x, hx⟩ := exists_of_asList? hread c hc
      exact ih hx

lemma withoutNullsAll_of_required {ps : Parts} {name : String} {fs : List Field}
    (h : ps.required name (asList? ofJson?) = some fs) : withoutNullsAll fs = fs := by
  apply withoutNullsAll_of_forall
  intro f hf
  obtain ⟨v, hread⟩ := Parts.exists_of_required h
  obtain ⟨x, hx⟩ := exists_of_asList? hread f hf
  exact withoutNulls_of_ofJsonWithin hx

lemma nodup_parts (f : Field) : (f.parts.map Prod.fst).Nodup := by
  have hsublist : (f.parts.map Prod.fst).Sublist partNames := by
    simp only [parts, List.map_append]
    exact (((((((List.Sublist.refl _).append (sublist_someMember _ _)).append
      (List.Sublist.refl _)).append (sublist_someMember _ _)).append (sublist_someMember _ _)).append
      (sublist_someMember _ _)).append (sublist_someMember _ _)).append (sublist_someMember _ _)
  exact hsublist.nodup (by decide)

lemma proper_text {s : Option String} {w : Json} (h : s.map Json.str = some w) : w.Proper := by
  obtain ⟨t, _, rfl⟩ := Option.map_eq_some_iff.mp h
  trivial

/-- The JSON form of a field is proper if its sample and the fields below it are. -/
lemma proper_toJson {f : Field} (hsample : ∀ s, f.sample = some s → s.Proper)
    (hchildren : ProperItems (toJsonAll f.children)) : f.toJson.Proper := by
  rw [toJson_eq]
  refine ⟨f.nodup_parts, ?_⟩
  simp only [parts, properMembers_append, properMembers_someMember]
  have helement : ∀ w, f.element.map TypeExpr.toJson = some w → w.Proper := by
    intro w hw
    obtain ⟨t, _, rfl⟩ := Option.map_eq_some_iff.mp hw
    exact t.proper_toJson
  have hopaque : ∀ w, (if f.opaqueType then some (Json.bool true) else none) = some w →
      w.Proper := by
    intro w hw
    split at hw
    · obtain rfl := Option.some.inj hw
      trivial
    · cases hw
  have hbelow : ∀ w,
      (if f.children.isEmpty then none else some (Json.arr (toJsonAll f.children))) = some w →
        w.Proper := by
    intro w hw
    split at hw
    · cases hw
    · obtain rfl := Option.some.inj hw
      exact hchildren
  exact ⟨⟨⟨⟨⟨⟨⟨⟨trivial, f.type.proper_toJson, trivial, trivial⟩, helement⟩, ⟨trivial, trivial⟩⟩,
    fun _ => proper_text⟩, fun _ => proper_text⟩, hsample⟩, hopaque⟩, hbelow⟩

/-- The JSON form of fields is proper if their samples are. -/
lemma properItems_toJsonAll {depth : ℕ} {fs : List Field}
    (h : ∀ v ∈ visitsAll depth fs, ∀ s, v.field.sample = some s → s.Proper) :
    ProperItems (toJsonAll fs) := by
  induction fs using forest_induction generalizing depth with
  | nil => trivial
  | cons f fs ihChildren ih =>
    rw [visitsAll_cons, List.forall_mem_cons, List.forall_mem_append] at h
    obtain ⟨hsample, hchildren, hfs⟩ := h
    exact ⟨proper_toJson hsample (ihChildren hchildren), ih hfs⟩

end Field

namespace MethodEntry

/-- The documentation without samples that are `null`. -/
def withoutNulls (e : MethodEntry) : MethodEntry :=
  { e with
    request := Field.withoutNullsAll e.request
    response := Field.withoutNullsAll e.response }

/-- The members of the JSON form of the documentation of a method. -/
def parts (e : MethodEntry) : Parts :=
  [("name", .str e.name), ("package", .str e.package),
     ("declaring_type", .str e.declaringType), ("return_type", e.returnType.toJson),
     ("params", .str e.parameters)]
      ++ someMember "description" (e.description.map Json.str)
      ++ [("request", .arr (Field.toJsonAll e.request)),
          ("response", .arr (Field.toJsonAll e.response))]

lemma toJson_eq (e : MethodEntry) : e.toJson = .obj e.parts := rfl

theorem ofJson?_toJson (e : MethodEntry) : ofJson? e.toJson = some e.withoutNulls := by
  have hname : e.parts.required "name" asString? = some e.name :=
    Parts.required_of_lookup rfl rfl
  have hpackage : e.parts.required "package" asString? = some e.package :=
    Parts.required_of_lookup rfl rfl
  have hdeclaring : e.parts.required "declaring_type" asString? = some e.declaringType :=
    Parts.required_of_lookup rfl rfl
  have hreturn : e.parts.required "return_type" TypeExpr.ofJson? = some e.returnType :=
    Parts.required_of_lookup rfl e.returnType.ofJson?_toJson
  have hparameters : e.parts.required "params" asString? = some e.parameters :=
    Parts.required_of_lookup rfl rfl
  have hdescription : e.parts.nullable "description" asString? = some e.description := by
    apply Field.nullable_text
    simp [parts, List.lookup_append, lookup_someMember, List.lookup_cons]
  have hrequest : e.parts.required "request" (asList? Field.ofJson?) =
      some (Field.withoutNullsAll e.request) := by
    apply Parts.required_of_lookup (v := .arr (Field.toJsonAll e.request))
    · simp [parts, List.lookup_append, lookup_someMember, List.lookup_cons]
    · exact Field.asList?_toJsonAll e.request
  have hresponse : e.parts.required "response" (asList? Field.ofJson?) =
      some (Field.withoutNullsAll e.response) := by
    apply Parts.required_of_lookup (v := .arr (Field.toJsonAll e.response))
    · simp [parts, List.lookup_append, lookup_someMember, List.lookup_cons]
    · exact Field.asList?_toJsonAll e.response
  rw [toJson_eq, ofJson?]
  simp only [parts?, Option.bind_eq_bind, Option.bind_some, hname, hpackage,
    hdeclaring, hreturn, hparameters, hdescription, hrequest, hresponse]
  rfl

lemma withoutNulls_of_ofJson? {j : Json} {e : MethodEntry} (h : ofJson? j = some e) :
    e.withoutNulls = e := by
  simp only [ofJson?, Option.bind_eq_bind, Option.bind_eq_some_iff] at h
  obtain ⟨ps, _, _, _, _, _, _, _, _, _, _, _, _, _, _, hrequest, _, hresponse, h⟩ := h
  obtain rfl := Option.some.inj h
  rw [withoutNulls, Field.withoutNullsAll_of_required hrequest,
    Field.withoutNullsAll_of_required hresponse]

/-- The JSON form of the documentation of a method is proper if the samples in it are. -/
lemma proper_toJson {e : MethodEntry}
    (h : ∀ fs ∈ [e.request, e.response], ∀ v ∈ Field.visitsAll 0 fs,
      ∀ s, v.field.sample = some s → s.Proper) : e.toJson.Proper := by
  rw [List.forall_mem_cons, List.forall_mem_singleton] at h
  obtain ⟨hrequest, hresponse⟩ := h
  have hsublist : (e.parts.map Prod.fst).Sublist partNames := by
    simp only [parts, List.map_append]
    exact ((List.Sublist.refl _).append (sublist_someMember _ _)).append (List.Sublist.refl _)
  refine ⟨hsublist.nodup (by decide), ?_⟩
  simp only [properMembers_append, properMembers_someMember]
  refine ⟨⟨?_, ?_⟩, ?_⟩
  · exact ⟨trivial, trivial, trivial, e.returnType.proper_toJson, trivial, trivial⟩
  · exact fun _ => Field.proper_text
  · exact ⟨Field.properItems_toJsonAll hrequest, Field.properItems_toJsonAll hresponse, trivial⟩

end MethodEntry

end ServiceDocs
