import ServiceDocs.Proofs.Java.Comments
import ServiceDocs.Proofs.Java.PrintedClasses

/-!
# The trees of written types and classes

The grammar prescribes a tree for the text of a type and for the text of a class. In each of them
the type is read that has been written, and the class declares the members that it has been written
with, however the tree came about.
-/

namespace ServiceDocs

namespace Java.Tree

/-! ### Types -/

/-- Some pairs of brackets. -/
def bracketTrees : ℕ → List Tree
  | 0     => []
  | n + 1 => .leaf none .sign "" "[" :: .leaf none .sign "" "]" :: bracketTrees n

/-- The node of all brackets behind a type. -/
def dimensionsTree (n : ℕ) : Tree :=
  .node (some .dimensions) .dimensions (bracketTrees n)

mutual

/-- The tree that the grammar prescribes for the text of a type. All pairs of brackets behind the
elements of an array stand in one node. -/
inductive IsTypeTree : TypeExpr → Tree → Prop
  | name {role : Option Role} {kind : Kind} (gap name : String)
    (hkind : kind = .primitiveType ∨ kind = .typeIdentifier) :
    IsTypeTree (.named name []) (.leaf role kind gap name)
  | generic {role : Option Role} {ts : List TypeExpr} {us : List Tree} (gap name : String)
    (h : AreArgumentTrees ts us) :
    IsTypeTree (.named name ts) (.node role .genericType
      [.leaf none .typeIdentifier gap name, .node none .typeArguments us])
  | array {role : Option Role} {t : TypeExpr} {u : Tree} (n : ℕ) (h : IsTypeTree t u)
    (hrole : u.role = some .element) :
    IsTypeTree (nestArray (n + 1) t) (.node role .arrayType [u, dimensionsTree (n + 1)])

/-- The trees of the arguments of a type, with signs around them. -/
inductive AreArgumentTrees : List TypeExpr → List Tree → Prop
  | nil : AreArgumentTrees [] []
  | sign {ts : List TypeExpr} {us : List Tree} (gap text : String) (h : AreArgumentTrees ts us) :
    AreArgumentTrees ts (.leaf none .sign gap text :: us)
  | type {t : TypeExpr} {u : Tree} {ts : List TypeExpr} {us : List Tree} (h : IsTypeTree t u)
    (hs : AreArgumentTrees ts us) : AreArgumentTrees (t :: ts) (u :: us)

end

lemma bracketCount_dimensionsTree (n : ℕ) : bracketCount (dimensionsTree n).text = n := by
  have hcount (n : ℕ) : (fullTextAll (bracketTrees n)).toList.count '[' = n := by
    induction n with
    | zero => rfl
    | succ n ih => simp [bracketTrees, fullTextAll, fullText, ih]
  rw [dimensionsTree, bracketCount]
  cases n with
  | zero => rfl
  | succ n => simp [bracketTrees, text, fullTextAll, fullText, hcount]

lemma IsTypeTree.kind_mem {t : TypeExpr} {u : Tree} (h : IsTypeTree t u) :
    u.kind ∈ [.primitiveType, .typeIdentifier, .genericType, .arrayType] := by
  cases h with
  | name _ _ hkind => rcases hkind with rfl | rfl <;> simp [kind]
  | generic => simp [kind]
  | array => simp [kind]

lemma IsTypeTree.isNamed {t : TypeExpr} {u : Tree} (h : IsTypeTree t u) : u.isNamed = true := by
  have hkinds : ∀ k ∈ [Kind.primitiveType, .typeIdentifier, .genericType, .arrayType],
      k ≠ .sign := by decide
  simp [Tree.isNamed, hkinds _ h.kind_mem]

lemma IsTypeTree.withRole {t : TypeExpr} {u : Tree} (h : IsTypeTree t u) (r : Role) :
    IsTypeTree t (u.withRole r) := by
  cases h with
  | name gap name hkind => exact .name gap name hkind
  | generic gap name h => exact .generic gap name h
  | array n h hrole => exact .array n h hrole

mutual

/-- A written type is read from its tree: whatever names it has and however arguments and arrays
are nested in it. -/
theorem IsTypeTree.type_eq : {t : TypeExpr} → {u : Tree} → IsTypeTree t u → u.type = t
  | _, _, .name gap name hkind => by rcases hkind with rfl | rfl <;> rfl
  | _, _, .generic gap name h => congrArg (TypeExpr.named name) h.namedTypes_eq
  | _, _, .array n h hrole => by
    have hdimensions : (dimensionsTree (n + 1)).role = some .dimensions := rfl
    simp [type, elementType, child?, children, hrole, hdimensions, h.type_eq, withDimensions,
      bracketCount_dimensionsTree]

theorem AreArgumentTrees.namedTypes_eq : {ts : List TypeExpr} → {us : List Tree} →
    AreArgumentTrees ts us → namedTypes us = ts
  | _, _, .nil => rfl
  | _, _, .sign gap text h => h.namedTypes_eq
  | _, _, .type h hs => by rw [namedTypes, if_pos h.isNamed, h.type_eq, hs.namedTypes_eq]

end

/-! ### Members -/

/-- The tree of a name. -/
def nameLeaf (name : String) : Tree :=
  .leaf (some .name) .identifier " " name

/-- The tree of the variable of a field. -/
def declarator (name : String) : Tree :=
  .node (some .declarator) .variableDeclarator [nameLeaf name]

/-- The tree of a field of that type. -/
def fieldTree (type : Tree) (name : String) : Tree :=
  .node none .fieldDeclaration [type, declarator name, .leaf none .sign "" ";"]

/-- The tree of a parameter of that type. -/
def parameterTree (type : Tree) (name : String) : Tree :=
  .node none .formalParameter [type, nameLeaf name]

/-- The tree of a parameter list. -/
def parametersTree (us : List Tree) : Tree :=
  .node (some .parameters) .formalParameters
    (.leaf none .sign "" "(" :: (us ++ [.leaf none .sign "" ")"]))

/-- The tree of a method. -/
def methodTree (type : Tree) (name : String) (parameters : Tree) : Tree :=
  .node none .methodDeclaration [type, nameLeaf name, parameters, .leaf none .sign "" ";"]

/-- The trees of parameters, with signs between them. -/
inductive AreParameterTrees : List Variable → List Tree → Prop
  | nil : AreParameterTrees [] []
  | sign {vs : List Variable} {us : List Tree} (gap text : String) (h : AreParameterTrees vs us) :
    AreParameterTrees vs (.leaf none .sign gap text :: us)
  | parameter {v : Variable} {u : Tree} {vs : List Variable} {us : List Tree}
    (h : IsTypeTree v.type u) (hrole : u.role = some .type) (hs : AreParameterTrees vs us) :
    AreParameterTrees (v :: vs) (parameterTree u v.name :: us)

/-- The tree that the grammar prescribes for a member of a class. -/
inductive IsMemberTree : ClassMember → Tree → Prop
  | field {v : Variable} {u : Tree} (h : IsTypeTree v.type u) (hrole : u.role = some .type) :
    IsMemberTree (.field v) (fieldTree u v.name)
  | method {type : TypeExpr} {u : Tree} {vs : List Variable} {us : List Tree} (name : String)
    (h : IsTypeTree type u) (hrole : u.role = some .type) (hs : AreParameterTrees vs us) :
    IsMemberTree (.method type name vs) (methodTree u name (parametersTree us))

section Members

variable {t : TypeExpr} {u : Tree} (h : IsTypeTree t u) (hrole : u.role = some .type)

include h in
/-- Without modifiers among its other parts, a node behind a type has none. -/
lemma modifiers?_behind_type {k : Kind} (ts : List Tree) (hts : ∀ v ∈ ts, v.kind ≠ .modifiers) :
    (Tree.node none k (u :: ts)).modifiers? = none := by
  have hkinds : ∀ k ∈ [Kind.primitiveType, .typeIdentifier, .genericType, .arrayType],
      k ≠ .modifiers := by decide
  rw [modifiers?, children, List.find?_eq_none]
  rintro v hv
  rcases List.mem_cons.mp hv with rfl | hv
  · simp [hkinds _ h.kind_mem]
  · simp [hts v hv]

include hrole in
/-- What is found by its role below a node that begins with a type. -/
lemma child?_behind_type (k : Kind) (ts : List Tree) (r : Role) :
    (Tree.node none k (u :: ts)).child? r =
      if r = .type then some u else ts.find? (·.role = some r) := by
  rw [child?, children, List.find?_cons, hrole]
  cases r <;> rfl

end Members

lemma parameterAt?_parameterTree {v : Variable} {u : Tree} (h : IsTypeTree v.type u)
    (hrole : u.role = some .type) : (parameterTree u v.name).parameterAt? {} = some v.member := by
  have hmodifiers : (parameterTree u v.name).modifiers? = none :=
    modifiers?_behind_type h [nameLeaf v.name] (by simp [nameLeaf, kind])
  have hkind : (parameterTree u v.name).kind = .formalParameter := rfl
  rw [parameterAt?, if_pos hkind, parameter?_eq, annotations_eq, hmodifiers]
  simp only [parameterTree, child?_behind_type hrole, if_true, Option.map_some, h.type_eq]
  rfl

lemma AreParameterTrees.filterMap_eq {vs : List Variable} {us : List Tree}
    (h : AreParameterTrees vs us) : us.filterMap (parameterAt? {}) = vs.map (·.member) := by
  induction h with
  | nil => rfl
  | sign gap text _ ih => exact ih
  | parameter h hrole _ ih =>
    rw [List.filterMap_cons_some (parameterAt?_parameterTree h hrole), ih, List.map_cons]

namespace IsMemberTree

variable {m : ClassMember} {u : Tree} (h : IsMemberTree m u)

include h

lemma kind_eq : u.kind = .fieldDeclaration ∨ u.kind = .methodDeclaration := by
  cases h with
  | field => exact .inl rfl
  | method => exact .inr rfl

lemma modifiers?_eq_none : u.modifiers? = none := by
  cases h with
  | @field v u h _ =>
    exact modifiers?_behind_type h [declarator v.name, .leaf none .sign "" ";"]
      (by simp [declarator, kind])
  | @method _ u _ us name h _ _ =>
    exact modifiers?_behind_type h [nameLeaf name, parametersTree us, .leaf none .sign "" ";"]
      (by simp [nameLeaf, parametersTree, kind])

lemma isStatic_eq_false : u.isStatic = false := by
  rw [isStatic_eq, h.modifiers?_eq_none]
  rfl

lemma fields_eq {before : List Tree} (hdoc : docComment? before = none) :
    Placed.fields ⟨before, u⟩ = m.field?.toList := by
  have hstatic := h.isStatic_eq_false
  have hmodifiers := h.modifiers?_eq_none
  cases h with
  | @field v u h hrole =>
    have hdeclarators : (fieldTree u v.name).children.filter (·.role = some .declarator) =
        [declarator v.name] := by
      rw [fieldTree, children, List.filter_cons_of_neg (by simp [hrole])]
      rfl
    have hfield : (fieldTree u v.name).declaredFields before = [v.member] := by
      rw [declaredFields_eq, hdoc, hdeclarators, annotations_eq, hmodifiers, fieldTree,
        child?_behind_type hrole, if_pos rfl, Option.map_some, h.type_eq]
      rfl
    rw [Placed.fields, if_pos (by rw [hstatic]; rfl), hfield]
    rfl
  | method => rfl

lemma method?_eq {before : List Tree} (hdoc : docComment? before = none) (owner : String) :
    Placed.method? "" owner ⟨before, u⟩ = m.method? owner := by
  have hstatic := h.isStatic_eq_false
  cases h with
  | field => rfl
  | @method type u vs us name h hrole hs =>
    have hlist : (parametersTree us).children.filterMap (parameterAt? {}) = vs.map (·.member) := by
      rw [← hs.filterMap_eq, parametersTree, children, List.filterMap_cons_none rfl,
        List.filterMap_append]
      exact List.append_nil _
    have hparameters : (methodTree u name (parametersTree us)).parameters {} =
        vs.map (·.member) := by
      rw [parameters_eq, methodTree, child?_behind_type hrole, ← hlist]
      rfl
    rw [Placed.method?, if_pos (by rw [hstatic]; rfl), Tree.method?_eq, hdoc]
    simp only [Option.getD_none, hparameters]
    rw [methodTree, child?_behind_type hrole, child?_behind_type hrole, if_pos rfl,
      Option.map_some, h.type_eq]
    rfl

end IsMemberTree

/-! ### Bodies -/

/-- The tree of the body of a class. -/
def bodyTree (us : List Tree) : Tree :=
  .node (some .body) .body
    (.leaf none .sign " " "\x7b" :: (us ++ [.leaf none .sign "\n" "\x7d"]))

/-- The tree of a class with some members. -/
def classTree (name : String) (us : List Tree) : Tree :=
  .node none .classDeclaration [.leaf none .sign "" "class", nameLeaf name, bodyTree us]

lemma docComment?_cons {t : Tree} (hkind : t.isComment = false) (before : List Tree) :
    docComment? (t :: before) = none := by
  simp only [isComment, Bool.or_eq_false_iff, decide_eq_false_iff_not] at hkind
  rw [docComment?]
  split
  next h => exact absurd h hkind.2
  next h => exact absurd h hkind.1
  next => rfl

section Gathering

variable {β : Type} {g : Placed → List β} {f : ClassMember → List β}
  (hsign : ∀ before gap text, g ⟨before, .leaf none .sign gap text⟩ = [])
  (hmember : ∀ {m u before}, IsMemberTree m u → docComment? before = none → g ⟨before, u⟩ = f m)

include hsign hmember

lemma flatMap_membersBehind {ms : List ClassMember} {us : List Tree}
    (h : List.Forall₂ IsMemberTree ms us) {before : List Tree}
    (hdoc : docComment? before = none) (gap text : String) :
    (membersBehind before (us ++ [.leaf none .sign gap text])).flatMap g = ms.flatMap f := by
  induction h generalizing before with
  | nil =>
    have hlast : membersBehind before [.leaf none .sign gap text] =
        [⟨before, .leaf none .sign gap text⟩] := rfl
    rw [List.nil_append, hlast, List.flatMap_singleton, hsign]
    rfl
  | @cons m u ms us hu _ ih =>
    have hkind : u.kind ≠ .enumBodyDeclarations ∧ u.isComment = false := by
      rcases hu.kind_eq with hkind | hkind <;> simp [hkind, isComment]
    rw [List.cons_append, membersBehind, if_neg hkind.1, List.flatMap_append,
      List.flatMap_singleton, hmember hu hdoc, ih (docComment?_cons hkind.2 before),
      List.flatMap_cons]

/-- What is gathered from the body of a class is gathered from its members. -/
lemma flatMap_members_bodyTree {ms : List ClassMember} {us : List Tree}
    (h : List.Forall₂ IsMemberTree ms us) : (bodyTree us).members.flatMap g = ms.flatMap f := by
  rw [bodyTree, members, membersBehind, if_neg (by decide), List.flatMap_append,
    List.flatMap_singleton, hsign, List.nil_append]
  exact flatMap_membersBehind hsign hmember h (docComment?_cons rfl []) _ _

end Gathering

end Java.Tree

/-! ### Declarations -/

/-- The class as it is declared. -/
def classDeclaration (path name : String) (ms : List Java.ClassMember) : Declaration where
  name := name
  package := ""
  kind := .classType
  fields := ms.filterMap Java.ClassMember.field?
  methods := ms.filterMap (Java.ClassMember.method? name)
  path := path

namespace Java.Tree

lemma declaration_classTree (path name : String) {ms : List ClassMember} {us : List Tree}
    (h : List.Forall₂ IsMemberTree ms us) :
    declaration "" path .classType name [] (classTree name us) =
      classDeclaration path name ms := by
  have hmembers : (classTree name us).membersOf = (bodyTree us).members := rfl
  have hfields : (bodyTree us).members.flatMap Placed.fields = ms.filterMap ClassMember.field? := by
    rw [List.filterMap_eq_flatMap_toList]
    exact flatMap_members_bodyTree (fun _ _ _ => rfl) (fun hm hdoc => hm.fields_eq hdoc) h
  have hmethods : (bodyTree us).members.filterMap (Placed.method? "" name) =
      ms.filterMap (ClassMember.method? name) := by
    rw [List.filterMap_eq_flatMap_toList, List.filterMap_eq_flatMap_toList]
    exact flatMap_members_bodyTree (fun _ _ _ => rfl)
      (fun hm hdoc => congrArg Option.toList (hm.method?_eq hdoc name)) h
  have hconstants : (bodyTree us).members.filterMap Placed.constant? = [] := by
    have hnone : ∀ {m : ClassMember} {u before}, IsMemberTree m u →
        (Placed.constant? ⟨before, u⟩).toList = [] := by
      intro m u before hm
      rcases hm.kind_eq with hkind | hkind <;> simp [Placed.constant?, hkind]
    rw [List.filterMap_eq_flatMap_toList,
      flatMap_members_bodyTree (fun _ _ _ => rfl) (fun hm _ => hnone hm) h]
    simp
  rw [declaration_eq, hmembers, hfields, hmethods, hconstants]
  rfl

/-- A written class is declared by its tree: there is one declaration, and it has the fields and the
methods that the class has been written with, each with the types that it has been written with. -/
theorem declarations_classTree (path name : String) {ms : List ClassMember} {us : List Tree}
    (h : List.Forall₂ IsMemberTree ms us) :
    (Tree.node none .program [classTree name us]).declarations path =
      [classDeclaration path name ms] := by
  have hbody : declarationsIn "" path (bodyTree us) = [] := by
    have hnone : ∀ {m : ClassMember} {u before}, IsMemberTree m u →
        declarationsAt "" path before u = [] := by
      intro m u before hm
      rw [declarationsAt_eq]
      rcases hm.kind_eq with hkind | hkind <;> rw [hkind] <;> rfl
    rw [declarationsIn_eq,
      flatMap_members_bodyTree (fun _ _ _ => rfl) (fun hm _ => hnone hm) h]
    simp
  have hclass : declarationsAt "" path [] (classTree name us) =
      [classDeclaration path name ms] := by
    have hname : (classTree name us).child? .name = some (nameLeaf name) := rfl
    have hchild : (classTree name us).children.find? (·.role = some .body) =
        some (bodyTree us) := rfl
    have hkind : declarationKind? (classTree name us).kind = some .classType := rfl
    rw [declarationsAt_eq, hkind, hname, hchild, ← declaration_classTree path name h,
      Option.map_some, hbody]
    rfl
  have hpackage : (Tree.node none .program [classTree name us]).packageName = "" := rfl
  have hmembers : (Tree.node none .program [classTree name us]).members =
      [⟨[], classTree name us⟩] := rfl
  rw [declarations, hpackage, declarationsIn_eq, hmembers, List.flatMap_singleton, hclass]

end Java.Tree

end ServiceDocs
