import ServiceDocs.Catalog.Basic
import ServiceDocs.Proofs.Java.Members

/-!
# Comments and declarations

What a source declares does not change with its layout, as far as the changes are in places where
the layout is not read: a comment may be put between most tokens of a declaration. In the other
places it is taken for a part of the declaration, such as the superclass.

A comment in a body moves the members behind it, so all that is gathered from members has to be
the same for members with the same documentation in front of them.
-/

namespace ServiceDocs.Java.Tree

/-! ### Bodies -/

section Documentation

/-- A comment that documents nothing is passed over. -/
lemma docComment?_comment {c : Comment} (hc : ¬ c.IsDocumentation) (before : List Tree) :
    docComment? (c.tree :: before) = docComment? before := by
  rw [docComment?, kind_comment]
  by_cases hblock : c.isBlock
  · have htext : ¬ DocComment.opening.isPrefixOf c.tree.text.toList :=
      fun htext => hc ⟨hblock, htext⟩
    simp [hblock, htext]
  · simp [hblock]

lemma docComment?_cons_congr {before before' : List Tree}
    (h : docComment? before' = docComment? before) (t : Tree) :
    docComment? (t :: before') = docComment? (t :: before) := by
  rw [docComment?, docComment?, h]

/-- The text of a comment is read. -/
lemma docComment?_cons_relaid {role : Option Role} {kind : Kind} {t t' : Tree} (h : Relaid t t')
    (hkeeps : KeepsText role kind t t') (before : List Tree) :
    docComment? (t' :: before) = docComment? (t :: before) := by
  rw [docComment?, docComment?, h.kind_eq]
  split
  next hkind => rw [hkeeps.text (.inr (.inl (by rw [hkind]; rfl)))]
  next => rfl
  next => rfl

end Documentation

lemma membersBehind_append (before ts us : List Tree) :
    membersBehind before (ts ++ us) =
      membersBehind before ts ++ membersBehind (ts.reverse ++ before) us := by
  induction ts generalizing before with
  | nil => rfl
  | cons t ts ih =>
    rw [List.cons_append, membersBehind, membersBehind, ih, List.append_assoc, List.reverse_cons,
      List.append_assoc]
    rfl

section Gathering

variable {β : Type} {g : Placed → List β}
  (hdoc : ∀ {before before'} t, docComment? before' = docComment? before →
    g ⟨before', t⟩ = g ⟨before, t⟩)

include hdoc

/-- Of what stands in front of members, only the documentation counts. -/
lemma flatMap_membersBehind_congr {before before' : List Tree}
    (h : docComment? before' = docComment? before) (ts : List Tree) :
    (membersBehind before' ts).flatMap g = (membersBehind before ts).flatMap g := by
  induction ts generalizing before before' with
  | nil => rfl
  | cons t ts ih =>
    rw [membersBehind, membersBehind, List.flatMap_append, List.flatMap_append,
      ih (docComment?_cons_congr h t)]
    split_ifs
    · rfl
    · rw [List.flatMap_singleton, List.flatMap_singleton, hdoc t h]

/-- What is gathered from members stays the same if nothing is gathered from comments. -/
lemma RelaidAmong.flatMap_membersBehind {R : Tree → Tree → Prop} {role : Option Role} {kind : Kind}
    {ts ts' : List Tree} (h : RelaidAmong R role kind ts ts') (hR : ∀ u u', R u u' → Relaid u u')
    (hcomment : ∀ before (c : Comment), g ⟨before, c.tree⟩ = [])
    (hg : ∀ before u u', R u u' → g ⟨before, u'⟩ = g ⟨before, u⟩)
    (hmembers : ∀ u u', R u u' → u'.members.flatMap g = u.members.flatMap g)
    (before : List Tree) :
    (membersBehind before ts').flatMap g = (membersBehind before ts).flatMap g := by
  cases h with
  | @comment front behind c hc hplace =>
    have hkind : c.tree.kind ≠ .enumBodyDeclarations := by
      rw [kind_comment]
      split <;> decide
    rw [membersBehind_append, membersBehind_append, List.flatMap_append, List.flatMap_append,
      membersBehind, if_neg hkind, List.flatMap_append, List.flatMap_singleton, hcomment,
      List.nil_append, flatMap_membersBehind_congr hdoc (docComment?_comment hc _)]
  | @child front behind u u' hu hkeeps =>
    have hrest := flatMap_membersBehind_congr hdoc
      (docComment?_cons_relaid (hR u u' hu) hkeeps (front.reverse ++ before)) behind
    rw [membersBehind_append, membersBehind_append, List.flatMap_append, List.flatMap_append,
      membersBehind, membersBehind, (hR u u' hu).kind_eq, List.flatMap_append,
      List.flatMap_append, hrest]
    split_ifs
    · rw [hmembers u u' hu]
    · rw [List.flatMap_singleton, List.flatMap_singleton, hg _ u u' hu]

lemma Relaid.flatMap_members {t t' : Tree} (h : Relaid t t')
    (hcomment : ∀ before (c : Comment), g ⟨before, c.tree⟩ = [])
    (hg : ∀ before u u', Relaid u u' → g ⟨before, u'⟩ = g ⟨before, u⟩) :
    t'.members.flatMap g = t.members.flatMap g := by
  induction h using Relaid.children_induction with
  | gap role kind gap gap' text => rfl
  | node role kind ts ts' h hamong =>
    exact hamong.flatMap_membersBehind hdoc (fun _ _ hu => hu.1) hcomment
      (fun before u u' hu => hg before u u' hu.1) (fun _ _ hu => hu.2) []

end Gathering

/-! ### Declarations -/

/-- The members in the body of a declaration. -/
def membersOf (t : Tree) : List Placed :=
  ((t.child? .body).map members).getD []

section Declarations

variable {t t' : Tree} (h : Relaid t t')

include h

lemma Relaid.flatMap_membersOf {β : Type} {g : Placed → List β}
    (hdoc : ∀ {before before'} t, docComment? before' = docComment? before →
      g ⟨before', t⟩ = g ⟨before, t⟩)
    (hcomment : ∀ before (c : Comment), g ⟨before, c.tree⟩ = [])
    (hg : ∀ before u u', Relaid u u' → g ⟨before, u'⟩ = g ⟨before, u⟩) :
    t'.membersOf.flatMap g = t.membersOf.flatMap g := by
  have hbody (u : Tree) : u.membersOf.flatMap g =
      ((u.child? .body).map fun b => b.members.flatMap g).getD [] := by
    rw [membersOf]
    cases u.child? .body <;> rfl
  rw [hbody, hbody, h.map_child? fun _ _ hu _ _ => hu.flatMap_members hdoc hcomment hg]

lemma Relaid.flatMap_fields :
    t'.membersOf.flatMap Placed.fields = t.membersOf.flatMap Placed.fields := by
  apply h.flatMap_membersOf
  · intro before before' u hdoc
    rw [Placed.fields, Placed.fields, declaredFields_congr hdoc]
  · intro before c
    rw [Placed.fields, kind_comment]
    cases c.isBlock <;> rfl
  · intro before u u' hu
    rw [Placed.fields, Placed.fields, hu.kind_eq, hu.isStatic_eq, hu.declaredFields_eq rfl]

lemma Relaid.filterMap_methods (package owner : String) :
    t'.membersOf.filterMap (Placed.method? package owner) =
      t.membersOf.filterMap (Placed.method? package owner) := by
  rw [List.filterMap_eq_flatMap_toList, List.filterMap_eq_flatMap_toList]
  apply h.flatMap_membersOf
  · intro before before' u hdoc
    rw [Placed.method?, Placed.method?, method?_congr hdoc]
  · intro before c
    rw [Placed.method?, kind_comment]
    cases c.isBlock <;> rfl
  · intro before u u' hu
    rw [Placed.method?, Placed.method?, hu.kind_eq, hu.isStatic_eq, hu.method?_eq rfl]

lemma Relaid.filterMap_constants :
    t'.membersOf.filterMap Placed.constant? = t.membersOf.filterMap Placed.constant? := by
  rw [List.filterMap_eq_flatMap_toList, List.filterMap_eq_flatMap_toList]
  apply h.flatMap_membersOf
  · intro before before' u _
    rfl
  · intro before c
    rw [Placed.constant?, kind_comment]
    cases c.isBlock <;> rfl
  · intro before u u' hu
    rw [Placed.constant?, Placed.constant?, hu.kind_eq, hu.map_text_name]

end Declarations

section Declaration

variable (package path : String) {before before' : List Tree}

lemma declaration_eq (kind : DeclarationKind) (name : String) (before : List Tree) (t : Tree) :
    declaration package path kind name before t =
      { name, package, kind, path
        typeParameters := t.typeParameterNames
        superclass := if kind = .classType then t.superclass? else none
        fields := (if kind = .recordType then t.components else []) ++
          t.membersOf.flatMap Placed.fields
        methods := t.membersOf.filterMap (Placed.method? package name)
        constants := t.membersOf.filterMap Placed.constant?
        description := (docComment? before).bind (·.summary) } := by
  rw [declaration, membersOf]
  cases t.child? .body <;> rfl

lemma declaration_congr (hdoc : docComment? before' = docComment? before) (kind : DeclarationKind)
    (name : String) (t : Tree) :
    declaration package path kind name before' t = declaration package path kind name before t := by
  rw [declaration, declaration, hdoc]

lemma Relaid.declaration_eq {t t' : Tree} (h : Relaid t t') (kind : DeclarationKind)
    (name : String) (before : List Tree) :
    declaration package path kind name before t' = declaration package path kind name before t := by
  rw [Tree.declaration_eq, Tree.declaration_eq, h.typeParameterNames_eq, h.superclass?_eq,
    h.components_eq, h.flatMap_fields, h.filterMap_methods, h.filterMap_constants]

/-! ### Declarations of a tree -/

lemma bodyDeclarations_eq (ts : List Tree) :
    bodyDeclarations package path ts =
      ((ts.find? (·.role = some .body)).map (declarationsIn package path)).getD [] := by
  induction ts with
  | nil => rfl
  | cons t ts ih =>
    rw [bodyDeclarations, List.find?_cons]
    by_cases ht : t.role = some .body <;> simp [ht, ih]

lemma declarationsAt_eq (before : List Tree) (t : Tree) :
    declarationsAt package path before t =
      ((declarationKind? t.kind).bind fun k => ((t.child? .name).map text).map fun name =>
        ((t.children.find? (·.role = some .body)).map (declarationsIn package path)).getD [] ++
          [declaration package path k name before t]).getD [] := by
  cases t with
  | leaf role kind gap text =>
    rw [declarationsAt, show (Tree.leaf role kind gap text).kind = kind from rfl]
    cases declarationKind? kind <;> rfl
  | node role kind ts =>
    rw [declarationsAt, bodyDeclarations_eq, show (Tree.node role kind ts).kind = kind from rfl]
    cases declarationKind? kind with
    | none => rfl
    | some k => cases (Tree.node role kind ts).child? .name <;> rfl

mutual

/-- The declarations in a body are those of its members. -/
lemma declarationsIn_eq : (t : Tree) → declarationsIn package path t =
    t.members.flatMap fun p => declarationsAt package path p.before p.tree
  | .leaf _ _ _ _ => rfl
  | .node _ _ ts  => by
    rw [declarationsIn, members]
    exact declarationsBehind_eq [] ts

lemma declarationsBehind_eq (before : List Tree) : (ts : List Tree) →
    declarationsBehind package path before ts =
      (membersBehind before ts).flatMap fun p => declarationsAt package path p.before p.tree
  | []      => rfl
  | t :: ts => by
    rw [declarationsBehind, membersBehind, List.flatMap_append,
      declarationsBehind_eq (t :: before) ts]
    split_ifs
    · rw [declarationsIn_eq t]
    · rw [List.flatMap_singleton]

end

/-- Neither the declaration that a tree is nor those in it change with the layout. -/
lemma Relaid.declarationsAt_eq_and {t t' : Tree} (h : Relaid t t') :
    (∀ before, declarationsAt package path before t' = declarationsAt package path before t) ∧
      declarationsIn package path t' = declarationsIn package path t := by
  induction h using Relaid.children_induction with
  | gap role kind gap gap' text => exact ⟨fun _ => rfl, rfl⟩
  | node role kind ts ts' h hamong =>
    have hbody : (ts'.find? (·.role = some .body)).map (declarationsIn package path) =
        (ts.find? (·.role = some .body)).map (declarationsIn package path) :=
      hamong.map_find? (fun _ _ hu => hu.1) (isMark_role .body) fun _ _ hu _ _ => hu.2.2
    constructor
    · intro before
      simp only [Tree.declarationsAt_eq, h.kind_eq, h.map_text_name, h.declaration_eq, children,
        hbody]
    · rw [declarationsIn_eq, declarationsIn_eq]
      refine hamong.flatMap_membersBehind ?_ (fun _ _ hu => hu.1) ?_
        (fun before _ _ hu => hu.2.1 before) ?_ []
      · intro before before' u hdoc
        simp only [Tree.declarationsAt_eq, declaration_congr package path hdoc]
      · intro before c
        exact rfl
      · intro u u' hu
        rw [← declarationsIn_eq, ← declarationsIn_eq, hu.2.2]

end Declaration

/-! ### Compilation units -/

section Units

variable {unit unit' : Tree}

/-- The name of a package in its declaration. -/
def packageNameOf (p : Tree) : String :=
  ((p.children.find? fun c =>
    c.isNamed && (c.kind = .scopedIdentifier || c.kind = .identifier)).map text).getD ""

lemma packageName_eq (unit : Tree) : unit.packageName =
    ((unit.children.find? fun c => c.isNamed && c.kind = .packageDeclaration).map
      packageNameOf).getD "" := by
  rw [packageName, find?_namedChildren]
  cases unit.children.find? fun c => c.isNamed && c.kind = .packageDeclaration with
  | none => rfl
  | some p => simp only [find?_namedChildren, Option.map_some, Option.getD_some, packageNameOf]

/-- The name of the package is read as a text. -/
lemma Relaid.packageNameOf_eq {p p' : Tree} (h : Relaid p p') :
    p'.packageNameOf = p.packageNameOf := by
  have htext := h.map_text_kinds
    (fun k => k ≠ .sign && (k = .scopedIdentifier || k = .identifier))
    (by intro k; cases k <;> simp [Kind.isText]) rfl rfl
  exact congrArg (Option.getD · "") htext

lemma Relaid.packageName_eq (h : Relaid unit unit') : unit'.packageName = unit.packageName := by
  rw [Tree.packageName_eq, Tree.packageName_eq,
    h.map_find? (isMark_named_kind .packageDeclaration) fun _ _ hp _ _ => hp.packageNameOf_eq]

lemma Relaid.declarations_eq (h : Relaid unit unit') (path : String) :
    unit'.declarations path = unit.declarations path := by
  rw [declarations, declarations, h.packageName_eq, (h.declarationsAt_eq_and _ path).2]

/-- Any number of changes of the layout leaves the declarations of a source alone, with all that is
said about them. -/
theorem declarations_eq_of_relaid (h : Relation.ReflTransGen Relaid unit unit') (path : String) :
    unit'.declarations path = unit.declarations path := by
  induction h with
  | refl => rfl
  | tail _ hstep ih => rw [hstep.declarations_eq path, ih]

/-- A comment and a line break in front of the body of `class A extends B {}`. -/
theorem declarations_eq_of_relaid_body :
    let head : List Tree :=
      [.leaf none .sign "" "class", .leaf (some .name) .identifier " " "A",
        .node (some .superclass) .superclass
          [.leaf none .sign " " "extends", .leaf none .typeIdentifier " " "B"]]
    let body (gap : String) : Tree :=
      .node (some .body) .body [.leaf none .sign gap "\x7b", .leaf none .sign "" "\x7d"]
    let unit (ts : List Tree) : Tree := .node none .program [.node none .classDeclaration ts]
    let comment : Comment := ⟨false, " ", "// base"⟩
    let plain := unit (head ++ [body " "])
    let commented := unit (head ++ [comment.tree, body "\n"])
    plain.fullText = "class A extends B \x7b\x7d" ∧
      commented.fullText = "class A extends B // base\n\x7b\x7d" ∧
      plain.declarations "A.java" = Catalog.declarationsOf "A.java" plain.fullText ∧
      commented.declarations "A.java" = Catalog.declarationsOf "A.java" commented.fullText ∧
      Relation.ReflTransGen Relaid plain commented ∧
      commented.declarations "A.java" = plain.declarations "A.java" := by
  intro head body unit comment plain commented
  have hcomment : Relaid plain (unit (head ++ [comment.tree, body " "])) :=
    @Relaid.child _ _ [] [] _ _ (.comment (by decide) (by decide)) (by decide)
  have hbody : Relaid (body " ") (body "\n") :=
    @Relaid.child _ _ [] _ _ _ (.gap ..) (by decide)
  have hgap : Relaid (unit (head ++ [comment.tree, body " "])) commented :=
    @Relaid.child _ _ [] [] _ _
      (@Relaid.child _ _ (head ++ [comment.tree]) [] _ _ hbody (by decide)) (by decide)
  have hsteps := (Relation.ReflTransGen.single hcomment).tail hgap
  exact ⟨by decide, by decide, by decide +kernel, by decide +kernel, hsteps,
    declarations_eq_of_relaid hsteps "A.java"⟩

end Units

/-- A comment changes the declarations of a source where it is taken for the superclass, a type
argument, an argument of an annotation, the type of a parameter or a part of a name. -/
theorem comments_change_declarations :
    let declared (source : String) := Catalog.declarationsOf "A.java" source
    declared "class A extends /* base */ B {}" ≠ declared "class A extends B {}" ∧
      declared "class A { List</* of */ B> b; }" ≠ declared "class A { List<B> b; }" ∧
      declared "class A { @Min(/* low */ 1) int b; }" ≠ declared "class A { @Min(1) int b; }" ∧
      declared "interface A { void m(final /* all */ B... b); }" ≠
        declared "interface A { void m(final B... b); }" ∧
      declared "class A { b./* inner */B b; }" ≠ declared "class A { b.B b; }" ∧
      declared "package a./* sub */b; class A {}" ≠ declared "package a.b; class A {}" := by
  decide +kernel

end ServiceDocs.Java.Tree
