import ServiceDocs.Proofs.Java.Layout

/-!
# Layout of members

What is read from a member of a type does not change with its layout, and neither does what is read
from the head of a declaration: each part is looked up by its role or its kind, and comments have
none that is looked for. The parts that are taken by their place are treated one by one.

Each part is first written as what is read from one child at a time, since the child itself does
change.
-/

namespace ServiceDocs.Java.Tree

/-! ### Modifiers and annotations -/

lemma isStatic_eq (t : Tree) : t.isStatic = ((t.modifiers?).map fun ms =>
    ms.children.any fun m => m.kind = .sign && m.text = "static").getD false := by
  rw [isStatic]
  cases t.modifiers? <;> rfl

section Modifiers

variable {t t' : Tree} (h : Relaid t t')

include h

lemma Relaid.map_modifiers? {β : Type} {f : Tree → β} (hf : ∀ u u', Relaid u u' → f u' = f u) :
    (t'.modifiers?).map f = (t.modifiers?).map f :=
  h.map_find? (isMark_kind .modifiers) fun u u' hu _ _ => hf u u' hu

/-- Modifiers are anonymous, and the text of each is read. -/
lemma Relaid.any_static :
    t'.children.any (fun m => m.kind = .sign && m.text = "static") =
      t.children.any fun m => m.kind = .sign && m.text = "static" := by
  have htexts := h.map_filter (isMark_kind .sign) fun u u' _ hkeeps hkind =>
    hkeeps.text (.inr (.inl (by rw [of_decide_eq_true hkind]; rfl)))
  have hany := congrArg (List.any · (· = "static")) htexts
  rw [List.any_map, List.any_map, List.any_filter, List.any_filter] at hany
  exact hany

lemma Relaid.isStatic_eq : t'.isStatic = t.isStatic := by
  rw [Tree.isStatic_eq, Tree.isStatic_eq, h.map_modifiers? fun _ _ hu => hu.any_static]

end Modifiers

/-- The arguments that a tree among the arguments of an annotation stands for. -/
def argumentsAt (a : Tree) : List (String × String) :=
  if a.kind = .elementValuePair then
    match a.child? .key, a.child? .value with
    | some k, some v => [(k.text, AnnotationUse.unquote v.text)]
    | _,      _      => []
  else [("value", AnnotationUse.unquote a.text)]

lemma annotationArguments_eq (t : Tree) :
    t.annotationArguments = ((t.child? .arguments).map fun list =>
      (list.children.filter isNamed).flatMap argumentsAt).getD [] := by
  rw [annotationArguments]
  cases t.child? .arguments <;> rfl

lemma argumentsAt_pair {a : Tree} (ha : a.kind = .elementValuePair) :
    a.argumentsAt = (((a.child? .key).map text).bind fun k => ((a.child? .value).map text).map
      fun v => (k, AnnotationUse.unquote v)).toList := by
  rw [argumentsAt, if_pos ha]
  cases a.child? .key <;> cases a.child? .value <;> rfl

/-- Among the arguments of an annotation, the texts of keys and values are read. -/
lemma Relaid.argumentsAt_eq {a a' : Tree} (h : Relaid a a') {kind : Kind}
    (hkeeps : KeepsText (some .arguments) kind a a') : a'.argumentsAt = a.argumentsAt := by
  by_cases hkind : a.kind = .elementValuePair
  · have htext (r : Role) (hr : r = .key ∨ r = .value) :
        (a'.child? r).map text = (a.child? r).map text :=
      h.map_child? fun u u' _ hkeeps hrole =>
        hkeeps.text (.inr (.inr (.inr ⟨hkind, by rw [hrole]; simpa using hr⟩)))
    rw [argumentsAt_pair hkind, argumentsAt_pair (h.kind_eq.trans hkind), htext .key (.inl rfl),
      htext .value (.inr rfl)]
  · rw [argumentsAt, argumentsAt, h.kind_eq, if_neg hkind, if_neg hkind,
      hkeeps.text (.inr (.inr (.inl ⟨rfl, hkind⟩)))]

/-- No comment is admitted among the arguments of an annotation. -/
lemma Relaid.flatMap_argumentsAt {list list' : Tree} (h : Relaid list list')
    (hrole : list.role = some .arguments) :
    (list'.children.filter isNamed).flatMap argumentsAt =
      (list.children.filter isNamed).flatMap argumentsAt := by
  rcases h.children_eq_or_among with heq | hamong
  · rw [heq]
  · have hmap := hamong.map_named (fun _ _ hu => hu)
      (fun _ _ ha hkeeps => ha.argumentsAt_eq (hrole ▸ hkeeps))
      fun _ _ hplace => hplace.arguments hrole
    rw [List.flatMap_def, List.flatMap_def, hmap]

lemma annotationUse?_eq (t : Tree) : t.annotationUse? = ((t.child? .name).map text).map fun name =>
    ⟨String.ofList (Text.afterLast '.' name.toList), t.annotationArguments⟩ := by
  rw [annotationUse?, Option.map_map]
  rfl

lemma annotations_eq (t : Tree) : t.annotations = ((t.modifiers?).map fun ms =>
    (ms.children.filter (·.kind = .annotationUse)).filterMap annotationUse?).getD [] := by
  rw [annotations]
  cases t.modifiers? <;> rfl

section Annotations

variable {t t' : Tree} (h : Relaid t t')

include h

lemma Relaid.annotationUse?_eq : t'.annotationUse? = t.annotationUse? := by
  have harguments : t'.annotationArguments = t.annotationArguments := by
    rw [annotationArguments_eq, annotationArguments_eq,
      h.map_child? fun u u' hu _ hrole => hu.flatMap_argumentsAt hrole]
  rw [Tree.annotationUse?_eq, Tree.annotationUse?_eq, h.map_text_name, harguments]

lemma Relaid.annotations_eq : t'.annotations = t.annotations := by
  rw [Tree.annotations_eq, Tree.annotations_eq, h.map_modifiers? fun _ _ hu =>
    hu.filterMap_filter (isMark_kind .annotationUse) fun _ _ ha _ _ => ha.annotationUse?_eq]

end Annotations

/-! ### Parameters and fields -/

section Parts

variable (doc : DocComment) (before : List Tree) (t : Tree)

lemma parameter?_eq : t.parameter? doc = ((t.child? .name).map text).bind fun name =>
    ((t.child? .type).map type).map fun type =>
      { name
        type := withDimensions type (t.child? .dimensions)
        required := AnnotationUse.anyRequired t.annotations
        range := AnnotationUse.rangeText? t.annotations
        description := doc.parameter? name } := by
  rw [parameter?]
  cases t.child? .name <;> cases t.child? .type <;> rfl

lemma spreadParameter?_eq : t.spreadParameter? doc =
    ((t.children.find? isSpreadType).map type).bind fun type =>
      (((t.children.find? fun d => d.isNamed && d.kind = .variableDeclarator).map
        fun d => (d.child? .name).map text).bind id).map fun name =>
          { name
            type := .array type
            required := AnnotationUse.anyRequired t.annotations
            range := AnnotationUse.rangeText? t.annotations
            description := doc.parameter? name } := by
  rw [spreadParameter?, find?_namedChildren, find?_namedChildren]
  change (t.children.find? isSpreadType).bind _ = _
  cases t.children.find? isSpreadType with
  | none => rfl
  | some c =>
    cases t.children.find? fun d => d.isNamed && d.kind = .variableDeclarator with
    | none => rfl
    | some d => cases hname : d.child? .name <;> simp [hname]

/-- The parameter that a part of a parameter list declares. -/
def parameterAt? : Option Member :=
  if t.kind = .formalParameter then t.parameter? doc
  else if t.kind = .spreadParameter then t.spreadParameter? doc
  else none

lemma parameterAt?_comment (c : Comment) : c.tree.parameterAt? doc = none := by
  rw [parameterAt?, kind_comment]
  cases c.isBlock <;> rfl

lemma parameters_eq : t.parameters doc =
    ((t.child? .parameters).map fun list =>
      list.children.filterMap (parameterAt? doc)).getD [] := by
  rw [parameters]
  cases t.child? .parameters with
  | none => rfl
  | some list =>
    show (list.children.filter isNamed).filterMap _ = list.children.filterMap _
    rw [List.filterMap_filter]
    congr 1
    funext p
    cases hkind : p.kind <;> simp [isNamed, parameterAt?, hkind]

/-- The field that a variable of the given type declares. -/
def fieldAt? (annotations : List AnnotationUse) (type : TypeExpr) (t : Tree) : Option Member :=
  ((t.child? .name).map text).map fun name =>
    { name
      type := withDimensions type (t.child? .dimensions)
      required := AnnotationUse.anyRequired annotations
      range := AnnotationUse.rangeText? annotations
      description := doc.summary }

lemma declaredFields_eq : t.declaredFields before =
    (((t.child? .type).map type).map fun type =>
      (t.children.filter (·.role = some .declarator)).filterMap
        (fieldAt? ((docComment? before).getD {}) t.annotations type)).getD [] := by
  rw [declaredFields]
  cases t.child? .type with
  | none => rfl
  | some type =>
    show List.filterMap _ (t.children.filter _) = List.filterMap _ (t.children.filter _)
    congr 1
    funext d
    rw [fieldAt?, Option.map_map]
    rfl

lemma components_eq : t.components = ((t.child? .parameters).map fun list =>
    (list.children.filter fun c => c.isNamed && c.kind = .formalParameter).filterMap
      (parameter? {})).getD [] := by
  rw [components]
  cases t.child? .parameters with
  | none => rfl
  | some list => simp only [filter_namedChildren, Option.map_some, Option.getD_some]

lemma method?_eq (package owner : String) : t.method? package owner before =
    ((t.child? .name).map text).bind fun name => ((t.child? .type).map type).map fun returnType =>
      { name, package, declaringType := owner, returnType
        parameters := t.parameters ((docComment? before).getD {})
        description := ((docComment? before).getD {}).summary
        returnDescription := ((docComment? before).getD {}).returns } := by
  rw [method?]
  cases t.child? .name <;> cases t.child? .type <;> rfl

end Parts

section Members

variable {t t' : Tree} (h : Relaid t t')

include h

lemma Relaid.map_type {r : Role} : (t'.child? r).map type = (t.child? r).map type :=
  h.map_child? fun _ _ hu hkeeps _ => hu.type_eq hkeeps

lemma Relaid.parameter?_eq (doc : DocComment) : t'.parameter? doc = t.parameter? doc := by
  simp only [Tree.parameter?_eq, h.map_text_name, h.map_type, h.withDimensions_eq,
    h.annotations_eq]

/-- No comment is admitted in front of the type, so it stays the first one. -/
lemma Relaid.map_spreadType (hkind : t.kind = .spreadParameter) :
    (t'.children.find? isSpreadType).map type = (t.children.find? isSpreadType).map type := by
  rcases h.children_eq_or_among with heq | hamong
  · rw [heq]
  · exact hamong.map_first (fun _ _ hu => hu) isSpreadType_congr (fun _ _ hu => hu.type_eq)
      fun _ _ hplace => hplace.spreadParameter hkind

lemma Relaid.spreadParameter?_eq (hkind : t.kind = .spreadParameter) (doc : DocComment) :
    t'.spreadParameter? doc = t.spreadParameter? doc := by
  rw [Tree.spreadParameter?_eq, Tree.spreadParameter?_eq, h.map_spreadType hkind,
    h.map_find? (isMark_named_kind .variableDeclarator) (fun _ _ hu _ _ => hu.map_text_name),
    h.annotations_eq]

/-- Of the parts of a parameter list, only parameters are read. -/
lemma Relaid.parameterAt?_eq (doc : DocComment) : t'.parameterAt? doc = t.parameterAt? doc := by
  rw [parameterAt?, parameterAt?, h.kind_eq]
  split_ifs with hkind hspread
  · exact h.parameter?_eq doc
  · exact h.spreadParameter?_eq hspread doc
  · rfl

lemma Relaid.parameters_eq (doc : DocComment) : t'.parameters doc = t.parameters doc := by
  rw [Tree.parameters_eq, Tree.parameters_eq, h.map_child? fun _ _ hlist _ _ =>
    hlist.filterMap_children (parameterAt?_comment doc) fun _ _ hp _ => hp.parameterAt?_eq doc]

lemma Relaid.components_eq : t'.components = t.components := by
  rw [Tree.components_eq, Tree.components_eq, h.map_child? fun _ _ hlist _ _ =>
    hlist.filterMap_filter (isMark_named_kind .formalParameter)
      fun _ _ hp _ _ => hp.parameter?_eq {}]

variable {before before' : List Tree} (hdoc : docComment? before' = docComment? before)

include hdoc

omit h in
lemma declaredFields_congr : t.declaredFields before' = t.declaredFields before := by
  rw [declaredFields, declaredFields, hdoc]

lemma Relaid.declaredFields_eq : t'.declaredFields before' = t.declaredFields before := by
  have hdeclarators (doc : DocComment) (annotations : List AnnotationUse) (type : TypeExpr) :=
    h.filterMap_filter (isMark_role .declarator) (g := fieldAt? doc annotations type)
      fun _ _ hd _ _ => by rw [fieldAt?, fieldAt?, hd.map_text_name, hd.withDimensions_eq]
  simp only [Tree.declaredFields_eq, h.map_type, hdoc, h.annotations_eq, hdeclarators]

omit h in
lemma method?_congr (package owner : String) :
    t.method? package owner before' = t.method? package owner before := by
  rw [method?, method?, hdoc]

lemma Relaid.method?_eq (package owner : String) :
    t'.method? package owner before' = t.method? package owner before := by
  rw [Tree.method?_eq, Tree.method?_eq, h.map_text_name, h.map_type, hdoc, h.parameters_eq]

end Members

/-! ### Heads of declarations -/

/-- The name of a type parameter. -/
def typeParameterName? (t : Tree) : Option String :=
  (t.children.find? fun c =>
    c.isNamed && (c.kind = .typeIdentifier || c.kind = .identifier)).map text

lemma typeParameterNames_eq (t : Tree) :
    t.typeParameterNames = ((t.child? .typeParameters).map fun list =>
      (list.children.filter fun c => c.isNamed && c.kind = .typeParameter).filterMap
        typeParameterName?).getD [] := by
  rw [typeParameterNames]
  cases t.child? .typeParameters with
  | none => rfl
  | some list =>
    simp only [filter_namedChildren, find?_namedChildren, Option.map_some, Option.getD_some]
    rfl

lemma superclass?_eq (t : Tree) : t.superclass? =
    ((t.child? .superclass).map fun s => (s.children.find? isNamed).map type).bind id := by
  rw [superclass?]
  cases t.child? .superclass with
  | none => rfl
  | some s =>
    simp only [namedChildren, List.head?_filter]
    cases hs : s.children.find? isNamed <;> simp [hs]

section Heads

variable {t t' : Tree} (h : Relaid t t')

include h

lemma Relaid.typeParameterName?_eq : t'.typeParameterName? = t.typeParameterName? := by
  apply h.map_text_kinds (fun k => k ≠ .sign && (k = .typeIdentifier || k = .identifier))
  · intro k
    cases k <;> simp [Kind.isText]
  · rfl
  · rfl

lemma Relaid.typeParameterNames_eq : t'.typeParameterNames = t.typeParameterNames := by
  rw [Tree.typeParameterNames_eq, Tree.typeParameterNames_eq, h.map_child? fun _ _ hlist _ _ =>
    hlist.filterMap_filter (isMark_named_kind .typeParameter)
      fun _ _ hp _ _ => hp.typeParameterName?_eq]

/-- No comment is admitted in front of the type behind `extends`, so it stays the first tree. -/
lemma Relaid.superclass?_eq : t'.superclass? = t.superclass? := by
  have htype : ∀ s s', Relaid s s' → s.role = some .superclass →
      (s'.children.find? isNamed).map type = (s.children.find? isNamed).map type := by
    intro s s' hs hrole
    rcases hs.children_eq_or_among with heq | hamong
    · rw [heq]
    · exact hamong.map_first (fun _ _ hu => hu) isNamed_congr (fun _ _ hu => hu.type_eq)
        fun _ _ hplace => hplace.superclass hrole
  rw [Tree.superclass?_eq, Tree.superclass?_eq,
    h.map_child? fun s s' hs _ hrole => htype s s' hs hrole]

end Heads

end ServiceDocs.Java.Tree
