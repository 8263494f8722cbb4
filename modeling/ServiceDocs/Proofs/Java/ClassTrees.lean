import ServiceDocs.Java.Parser.Unit
import ServiceDocs.Proofs.Java.TypeTrees

/-!
# Trees of printed classes

The recognisers find every member of a printed class, with its parameters, and they give the trees
that the grammar prescribes for them.
-/

namespace ServiceDocs.Java.Parser

open Java.Tree (nameLeaf declarator fieldTree parameterTree parametersTree methodTree bodyTree
  classTree IsMemberTree)

/-! ### Words in front of a declaration -/

/-- The words that may be modifiers. -/
def allModifiers : List String :=
  "sealed" :: modifierWords

/-- The words that may stand in front of the type of a member or begin another declaration. -/
def declarationWords : List String :=
  "record" :: typeWords ++ allModifiers

lemma not_mem_declarationWords {name : String} (h : IsTypeWord name) :
    name ∉ declarationWords := by
  rcases h with h | h
  · -- `non-sealed` and `@interface` are no identifiers.
    have hwords : ∀ w ∈ declarationWords, w ∈ reservedWords ∨ isIdentifier w.toList = false := by
      decide
    intro hmem
    rcases hwords name hmem with hreserved | hidentifier
    · exact h.notReserved hreserved
    · simp [h.isIdentifier] at hidentifier
  · revert h
    revert name
    decide

section Members

variable {gap name : String} (hname : isIdentifier name.toList = true) (is : List Item)

include hname

lemma startsWithModifier_ofWord (hword : name ∉ allModifiers) :
    startsWithModifier (.ofWord gap name :: is) = false := by
  rw [allModifiers, List.mem_cons, not_or] at hword
  have hmodifier : isWordOf modifierWords (.ofWord gap name) = false := by
    simp [isWordOf, Item.word?_ofWord hname, hword.2]
  have hsealed : (Item.ofWord gap name).isWord "sealed" = false := by
    simp [Item.isWord, Item.word?_ofWord hname, hword.1]
  cases is <;> simp [startsWithModifier, hmodifier, hsealed]

lemma modifiers_ofWord (hword : name ∉ allModifiers) (fuel : ℕ) :
    modifiers fuel (.ofWord gap name :: is) = ([], .ofWord gap name :: is) := by
  have hpieces : modifierPieces fuel (.ofWord gap name :: is) = ([], .ofWord gap name :: is) := by
    cases fuel with
    | zero => rfl
    | succ fuel =>
      have hannotation : annotationUse? (.ofWord gap name :: is) = none := by
        rw [annotationUse?, if_neg (by simp [Item.isSign_ofWord hname])]
      simp [modifierPieces, hannotation, startsWithModifier_ofWord hname is hword]
  rw [modifiers, hpieces]

lemma typeDeclaration?_ofWord (hword : name ∉ declarationWords) (fuel : ℕ) (ms : List Piece) :
    typeDeclaration? fuel ms (.ofWord gap name :: is) = none := by
  cases fuel with
  | zero => rfl
  | succ fuel =>
    cases is with
    | nil => rfl
    | cons i is =>
      rw [typeDeclaration?]
      simp only [Item.word?_ofWord hname]
      have hne : ∀ w ∈ declarationWords, some name ≠ some w := by
        rintro w hw ⟨⟩
        exact hword hw
      split
      next h _ => exact absurd h (hne "class" (by decide))
      next h _ => exact absurd h (hne "interface" (by decide))
      next h _ => exact absurd h (hne "record" (by decide))
      next h _ => exact absurd h (hne "enum" (by decide))
      next h _ => exact absurd h (hne "@interface" (by decide))
      next => rfl

end Members

lemma modifiers_typeItems (gap : String) {t : TypeExpr} (h : IsPrintable t) (is : List Item)
    (fuel : ℕ) : modifiers fuel (typeItems gap t ++ is) = ([], typeItems gap t ++ is) := by
  obtain ⟨name, js, heq, hname, -⟩ := exists_typeItems_eq gap t h
  rw [heq, List.cons_append]
  have hword : name ∉ allModifiers := fun hmem =>
    not_mem_declarationWords hname (List.mem_append_right _ hmem)
  exact modifiers_ofWord hname.isIdentifier (js ++ is) hword fuel

lemma typeParameters?_ofWord {gap name : String} (hname : isIdentifier name.toList = true)
    (is : List Item) (fuel : ℕ) :
    typeParameters? fuel (.ofWord gap name :: is) = some ([], .ofWord gap name :: is) := by
  rw [typeParameters?, if_neg (by simp [Item.isSign_ofWord hname])]

lemma typeParameters?_typeItems (gap : String) {t : TypeExpr} (h : IsPrintable t)
    (is : List Item) (fuel : ℕ) :
    typeParameters? fuel (typeItems gap t ++ is) = some ([], typeItems gap t ++ is) := by
  obtain ⟨name, js, heq, hname, -⟩ := exists_typeItems_eq gap t h
  rw [heq, List.cons_append]
  exact typeParameters?_ofWord hname.isIdentifier (js ++ is) fuel

/-! ### Fields -/

lemma leaf_name {name : String} (hname : isIdentifier name.toList = true) :
    (leaf .identifier (.ofWord " " name)).withRole .name = ⟨[], nameLeaf name⟩ := by
  rw [Item.leaf_ofWord hname]
  rfl

lemma dimensions_endsType {rest : List Item} (hrest : EndsType rest) (fuel : ℕ) :
    dimensions fuel rest = ([], rest) :=
  dimensions_brackets hrest 0 (Nat.zero_le fuel)

lemma endsType_nil : EndsType [] :=
  fun i hi => by cases hi

lemma endsType_semicolon (is : List Item) : EndsType (.ofSign "" ';' :: is) := by
  rintro i hi
  obtain rfl := Option.some.inj hi
  exact ⟨rfl, rfl, rfl, rfl⟩

lemma declarators?_ofWord {name : String} (hname : isIdentifier name.toList = true)
    (rest : List Item) (fuel : ℕ) :
    declarators? (fuel + 1) (.ofWord " " name :: .ofSign "" ';' :: rest) =
      some ([⟨[], declarator name⟩], .ofSign "" ';' :: rest) := by
  have hdeclarator : declarator? fuel (.ofWord " " name :: .ofSign "" ';' :: rest) =
      some (.node .variableDeclarator [⟨[], nameLeaf name⟩], .ofSign "" ';' :: rest) := by
    rw [declarator?, if_pos (by simp [Item.word?_ofWord hname]),
      dimensions_endsType (endsType_semicolon rest), leaf_name hname]
    rfl
  rw [declarators?, hdeclarator]
  rfl

lemma size_typeItems_pos (gap : String) {t : TypeExpr} (h : IsPrintable t) :
    1 ≤ size (typeItems gap t) := by
  obtain ⟨name, is, heq, -⟩ := exists_typeItems_eq gap t h
  rw [heq, size_ofWord]
  exact Nat.le_add_left 1 _

lemma field?_variableItems {v : Variable} (h : v.IsPrintable) (gap : String) (rest : List Item)
    {fuel : ℕ} (hfuel : 8 * size (typeItems gap v.type) ≤ fuel) :
    ∃ p, ReadsType v.type p ∧
      field? fuel .fieldDeclaration [] (variableItems gap v ++ .ofSign "" ';' :: rest) =
        some (⟨[], fieldTree (p.withRole .type).tree v.name⟩, rest) := by
  obtain ⟨p, hp, hreads⟩ := exists_plainType?_eq gap h.type
    (endsType_ofWord " " h.name.isIdentifier (.ofSign "" ';' :: rest)) hfuel
  refine ⟨p, hreads, ?_⟩
  have hsize := size_typeItems_pos gap h.type
  obtain ⟨fuel, rfl⟩ := Nat.exists_eq_add_of_le' (show 1 ≤ fuel by omega)
  have hcomments : ∀ q ∈ [p.withRole .type, ⟨[], declarator v.name⟩,
      ⟨[], .leaf none .sign "" ";"⟩], q.comments = [] := by
    simp [hreads.comments]
  rw [field?, variableItems, List.append_assoc, List.singleton_append, hp]
  simp only [Option.bind_eq_bind, Option.bind_some, declarators?_ofWord h.name.isIdentifier]
  exact congrArg (fun q => some (q, rest))
    (Piece.node_of_comments_eq_nil .fieldDeclaration hcomments)

/-! ### Parameters -/

lemma parameter?_variableItems {v : Variable} (h : v.IsPrintable) (gap : String)
    {rest : List Item} (hrest : EndsType rest) {fuel : ℕ}
    (hfuel : 8 * size (typeItems gap v.type) ≤ fuel) :
    ∃ p, ReadsType v.type p ∧ parameter? fuel (variableItems gap v ++ rest) =
      some (⟨[], parameterTree (p.withRole .type).tree v.name⟩, rest) := by
  obtain ⟨p, hp, hreads⟩ := exists_plainType?_eq gap h.type
    (endsType_ofWord " " h.name.isIdentifier rest) hfuel
  refine ⟨p, hreads, ?_⟩
  have hannotations : annotations fuel (.ofWord " " v.name :: rest) =
      ([], .ofWord " " v.name :: rest) :=
    annotations_eq_nil (fun i hi => by
      obtain rfl := Option.some.inj hi
      exact Item.isSign_ofWord h.name.isIdentifier _) fuel
  have hthis : v.name ≠ "this" := by
    rintro heq
    exact h.name.notReserved (by rw [heq]; decide)
  have hdot : startsWith "." rest = false := by
    cases rest with
    | nil => rfl
    | cons i rest => exact (hrest i rfl).2.1
  rw [parameter?, variableItems, List.append_assoc, List.singleton_append,
    modifiers_typeItems gap h.type]
  have hcomments : ∀ q ∈ [p.withRole .type, ⟨[], nameLeaf v.name⟩], q.comments = [] := by
    simp [hreads.comments]
  simp only [hp, Option.bind_eq_bind, Option.bind_some, hannotations, hdot, hthis,
    Item.isSign_ofWord h.name.isIdentifier, Item.word?_ofWord h.name.isIdentifier,
    dimensions_endsType hrest, leaf_name h.name.isIdentifier]
  rw [if_neg Bool.false_ne_true, if_neg (by simp)]
  exact congrArg (fun q => some (q, rest))
    (Piece.node_of_comments_eq_nil .formalParameter hcomments)

/-- The pieces are the trees of these parameters, with the signs between them. -/
structure ReadsParameters (vs : List Variable) (ps : List Piece) : Prop where
  comments : ∀ p ∈ ps, p.comments = []
  trees : Tree.AreParameterTrees vs (ps.map Piece.tree)

lemma ReadsParameters.nil : ReadsParameters [] [] where
  comments := List.forall_mem_nil _
  trees := .nil

lemma ReadsParameters.cons {v : Variable} {vs : List Variable} {p : Piece} {ps : List Piece}
    (h : ReadsType v.type p) (hps : ReadsParameters vs ps) :
    ReadsParameters (v :: vs) (⟨[], parameterTree (p.withRole .type).tree v.name⟩ :: ps) where
  comments := List.forall_mem_cons.mpr ⟨rfl, hps.comments⟩
  trees := .parameter (h.withRole .type) (Piece.role_withRole _ _) hps.trees

lemma ReadsParameters.sign {vs : List Variable} {ps : List Piece} (h : ReadsParameters vs ps)
    (gap text : String) : ReadsParameters vs (⟨[], .leaf none .sign gap text⟩ :: ps) where
  comments := List.forall_mem_cons.mpr ⟨rfl, h.comments⟩
  trees := .sign gap text h.trees

lemma splitParameters_parameterItems (gap : String) : (vs : List Variable) →
    (∀ v ∈ vs, v.IsPrintable) → (fuel : ℕ) → 8 * size (parameterItems gap vs) ≤ fuel →
      ReadsParameters vs
        ((parameterPieces.splitParameters fuel (parameterItems gap vs)).flatMap id)
  | [], _, fuel, _ => by
    cases fuel <;> exact .nil
  | [v], h, fuel, hfuel => by
    have hv := h v List.mem_cons_self
    have hsize := size_typeItems_pos gap hv.type
    simp only [parameterItems, variableItems, size_append, size_ofWord, size_nil] at hfuel
    obtain ⟨fuel, rfl⟩ := Nat.exists_eq_add_of_le' (show 1 ≤ fuel by omega)
    obtain ⟨p, hreads, hp⟩ := parameter?_variableItems hv gap endsType_nil
      (show 8 * size (typeItems gap v.type) ≤ fuel by omega)
    rw [List.append_nil] at hp
    have hne : (variableItems gap v).isEmpty = false := by simp [variableItems]
    rw [parameterItems, parameterPieces.splitParameters, hne, hp]
    exact ReadsParameters.cons hreads .nil
  | v :: w :: vs, h, fuel, hfuel => by
    rw [List.forall_mem_cons] at h
    have hsize := size_typeItems_pos gap h.1.type
    simp only [parameterItems, variableItems, size_append, size_ofWord, size_ofSign, size_nil]
      at hfuel
    obtain ⟨fuel, rfl⟩ := Nat.exists_eq_add_of_le' (show 1 ≤ fuel by omega)
    obtain ⟨p, hreads, hp⟩ := parameter?_variableItems h.1 gap
      (endsType_ofSign "" (.inl rfl) (parameterItems " " (w :: vs)))
      (show 8 * size (typeItems gap v.type) ≤ fuel by omega)
    have hmore := splitParameters_parameterItems " " (w :: vs) h.2 fuel (by omega)
    have hne : (variableItems gap v ++ .ofSign "" ',' :: parameterItems " " (w :: vs)).isEmpty =
        false := by simp
    rw [parameterItems, parameterPieces.splitParameters, hne, hp]
    exact ReadsParameters.cons hreads (hmore.sign "" ",")

lemma parameters?_ofGroup {vs : List Variable} (h : ∀ v ∈ vs, v.IsPrintable) (rest : List Item)
    {fuel : ℕ} (hfuel : 8 * size (parameterItems "" vs) ≤ fuel) :
    ∃ ps, ReadsParameters vs ps ∧
      parameters? fuel (.ofGroup "" '(' (parameterItems "" vs) "" ')' :: rest) =
        some (⟨[], parametersTree (ps.map Piece.tree)⟩, rest) := by
  have hreads := splitParameters_parameterItems "" vs h fuel hfuel
  refine ⟨_, hreads, ?_⟩
  have hcomments : ∀ q ∈ (⟨[], .leaf none .sign "" "("⟩ : Piece) ::
      (parameterPieces fuel (parameterItems "" vs) ++ [⟨[], .leaf none .sign "" ")"⟩]),
        q.comments = [] := by
    rw [List.forall_mem_cons, List.forall_mem_append]
    exact ⟨rfl, hreads.comments, List.forall_mem_singleton.mpr rfl⟩
  have hnode := Piece.node_of_comments_eq_nil .formalParameters hcomments
  rw [List.map_cons, List.map_append] at hnode
  exact congrArg (fun q => some (q.withRole .parameters, rest)) hnode

/-! ### Methods -/

lemma methodEnd_semicolon (rest : List Item) :
    methodEnd (.ofSign "" ';' :: rest) = ([⟨[], .leaf none .sign "" ";"⟩], rest) :=
  rfl

lemma method?_typeItems {type : TypeExpr} (htype : IsPrintable type) {name : String}
    (hname : IsName name) {vs : List Variable} (hvs : ∀ v ∈ vs, v.IsPrintable) (gap : String)
    (rest : List Item) {fuel : ℕ}
    (hfuel : 8 * size (typeItems gap type) + 8 * size (parameterItems "" vs) ≤ fuel) :
    ∃ p ps, ReadsType type p ∧ ReadsParameters vs ps ∧
      method? fuel [] (typeItems gap type ++ .ofWord " " name ::
        .ofGroup "" '(' (parameterItems "" vs) "" ')' :: .ofSign "" ';' :: rest) =
          some (⟨[], methodTree (p.withRole .type).tree name
            (parametersTree (ps.map Piece.tree))⟩, rest) := by
  obtain ⟨p, hp, hreads⟩ := exists_plainType?_eq gap htype (endsType_ofWord " " hname.isIdentifier
    (.ofGroup "" '(' (parameterItems "" vs) "" ')' :: .ofSign "" ';' :: rest))
    (show 8 * size (typeItems gap type) ≤ fuel by omega)
  obtain ⟨ps, hps, hparameters⟩ := parameters?_ofGroup hvs (.ofSign "" ';' :: rest)
    (show 8 * size (parameterItems "" vs) ≤ fuel by omega)
  refine ⟨p, ps, hreads, hps, ?_⟩
  have hcomments : ∀ q ∈ [p.withRole .type, ⟨[], nameLeaf name⟩,
      ⟨[], parametersTree (ps.map Piece.tree)⟩, ⟨[], .leaf none .sign "" ";"⟩],
      q.comments = [] := by
    simp [hreads.comments]
  rw [method?, typeParameters?_typeItems gap htype]
  simp only [Option.bind_eq_bind, Option.bind_some, List.isEmpty_nil, if_true, hp,
    Item.word?_ofWord hname.isIdentifier, Option.isSome_some, guard_true, Option.pure_def,
    hparameters, dimensions_endsType (endsType_semicolon rest), leaf_name hname.isIdentifier,
    methodEnd_semicolon]
  exact congrArg (fun q => some (q, rest))
    (Piece.node_of_comments_eq_nil .methodDeclaration hcomments)

lemma method?_variableItems {v : Variable} (h : v.IsPrintable) (gap : String) (rest : List Item)
    {fuel : ℕ} (hfuel : 8 * size (typeItems gap v.type) ≤ fuel) :
    method? fuel [] (variableItems gap v ++ .ofSign "" ';' :: rest) = none := by
  obtain ⟨p, hp, -⟩ := exists_plainType?_eq gap h.type
    (endsType_ofWord " " h.name.isIdentifier (.ofSign "" ';' :: rest)) hfuel
  have hparameters : parameters? fuel (.ofSign "" ';' :: rest) = none := rfl
  rw [method?, variableItems, List.append_assoc, List.singleton_append,
    typeParameters?_typeItems gap h.type]
  simp only [Option.bind_eq_bind, Option.bind_some, List.isEmpty_nil, if_true, hp, hparameters,
    Option.bind_none, Option.bind_fun_none]

/-- Neither parameters nor a block stand behind the first word of a field. -/
lemma no_group_behind {is : List Item} (h : ContinuesType is) (gap name : String)
    (rest : List Item) (fuel : ℕ) : parameters? fuel (is ++ .ofWord gap name :: rest) = none ∧
      startsWithGroup "\x7b" (is ++ .ofWord gap name :: rest) = false := by
  cases is with
  | nil => exact ⟨rfl, rfl⟩
  | cons i is => rcases h i rfl with rfl | rfl <;> exact ⟨rfl, rfl⟩

lemma constructor?_variableItems {v : Variable} (h : v.IsPrintable) (gap : String)
    (rest : List Item) (fuel : ℕ) :
    constructor? fuel [] (variableItems gap v ++ .ofSign "" ';' :: rest) = none := by
  obtain ⟨first, js, heq, hfirst, hjs⟩ := exists_typeItems_eq gap v.type h.type
  obtain ⟨hparameters, hblock⟩ := no_group_behind hjs " " v.name (.ofSign "" ';' :: rest) fuel
  rw [constructor?, variableItems, heq, List.append_assoc, List.singleton_append, List.cons_append,
    typeParameters?_ofWord hfirst.isIdentifier]
  simp only [Option.bind_eq_bind, Option.bind_some, hparameters, hblock, Bool.false_eq_true,
    guard_false, Option.failure_eq_none, Option.bind_none, Option.bind_fun_none]

/-! ### Members -/

/-- The piece is the tree of the member, with no comments in front of it. -/
structure ReadsMember (m : ClassMember) (p : Piece) : Prop where
  comments : p.comments = []
  isMemberTree : IsMemberTree m p.tree

lemma readsMember_fieldTree {v : Variable} {p : Piece} (h : ReadsType v.type p) :
    ReadsMember (.field v) ⟨[], fieldTree (p.withRole .type).tree v.name⟩ :=
  ⟨rfl, .field (h.withRole .type) (Piece.role_withRole _ _)⟩

lemma readsMember_methodTree {type : TypeExpr} {p : Piece} (h : ReadsType type p) (name : String)
    {vs : List Variable} {ps : List Piece} (hps : ReadsParameters vs ps) :
    ReadsMember (.method type name vs)
      ⟨[], methodTree (p.withRole .type).tree name (parametersTree (ps.map Piece.tree))⟩ :=
  ⟨rfl, .method name (h.withRole .type) (Piece.role_withRole _ _) hps.trees⟩

/-- Behind the type of a member nothing else than a field, a method or a constructor is looked
for. -/
lemma member?_typeItems (gap : String) {t : TypeExpr} (h : IsPrintable t) (is : List Item)
    (fuel : ℕ) (fields : Kind) : member? (fuel + 1) fields (typeItems gap t ++ is) =
      (method? fuel [] (typeItems gap t ++ is) <|> constructor? fuel [] (typeItems gap t ++ is) <|>
        field? fuel fields [] (typeItems gap t ++ is)) := by
  obtain ⟨name, js, heq, hname, -⟩ := exists_typeItems_eq gap t h
  have hdeclaration : typeDeclaration? fuel [] (.ofWord gap name :: (js ++ is)) = none :=
    typeDeclaration?_ofWord hname.isIdentifier (js ++ is) (not_mem_declarationWords hname) fuel []
  have hinitializer : initializer? [] (.ofWord gap name :: (js ++ is)) = none := rfl
  rw [member?, modifiers_typeItems gap h, heq, List.cons_append]
  simp only [hdeclaration, hinitializer]
  rfl

lemma member?_memberItems {m : ClassMember} (h : m.IsPrintable) (gap : String) (rest : List Item)
    {fuel : ℕ} (hfuel : 8 * size (memberItems gap m) ≤ fuel) :
    ∃ p, member? (fuel + 1) .fieldDeclaration (memberItems gap m ++ rest) = some (p, rest) ∧
      ReadsMember m p := by
  cases h with
  | @field v hv =>
    simp only [memberItems, variableItems, size_append, size_ofWord, size_ofSign, size_nil] at hfuel
    obtain ⟨p, hreads, hfield⟩ := field?_variableItems hv gap rest
      (show 8 * size (typeItems gap v.type) ≤ fuel by omega)
    have hmethod := method?_variableItems hv gap rest
      (show 8 * size (typeItems gap v.type) ≤ fuel by omega)
    have hconstructor := constructor?_variableItems hv gap rest fuel
    refine ⟨_, ?_, readsMember_fieldTree hreads⟩
    rw [variableItems, List.append_assoc, List.singleton_append] at hfield hmethod hconstructor
    rw [memberItems, variableItems, List.append_assoc, List.append_assoc, List.singleton_append,
      List.singleton_append, member?_typeItems gap hv.type, hmethod, hconstructor, hfield]
    rfl
  | @method type name vs htype hname hvs =>
    simp only [memberItems, size_append, size_ofWord, size_ofSign, size_ofGroup, size_nil] at hfuel
    obtain ⟨p, ps, hreads, hps, hmethod⟩ := method?_typeItems htype hname hvs gap rest
      (show 8 * size (typeItems gap type) + 8 * size (parameterItems "" vs) ≤ fuel by omega)
    refine ⟨_, ?_, readsMember_methodTree hreads name hps⟩
    rw [memberItems, List.append_assoc, member?_typeItems gap htype, List.cons_append,
      List.cons_append, List.cons_append, List.nil_append, hmethod]
    rfl

lemma size_memberItems_pos (gap : String) {m : ClassMember} (h : m.IsPrintable) :
    1 ≤ size (memberItems gap m) := by
  cases h with
  | field hv =>
    have hsize := size_typeItems_pos gap hv.type
    simp only [memberItems, variableItems, size_append]
    omega
  | method htype _ _ =>
    have hsize := size_typeItems_pos gap htype
    simp only [memberItems, size_append]
    omega

/-- All members of a class are found. -/
lemma memberPieces_body (gap : String) {ms : List ClassMember} (h : ∀ m ∈ ms, m.IsPrintable)
    {fuel : ℕ} (hfuel : 8 * size (ms.flatMap (memberItems gap)) + 2 ≤ fuel) :
    List.Forall₂ ReadsMember ms
      (memberPieces fuel .fieldDeclaration (ms.flatMap (memberItems gap))) := by
  induction ms generalizing fuel with
  | nil => cases fuel <;> exact .nil
  | cons m ms ih =>
    rw [List.forall_mem_cons] at h
    have hsize := size_memberItems_pos gap h.1
    rw [List.flatMap_cons, size_append] at hfuel
    obtain ⟨fuel, rfl⟩ := Nat.exists_eq_add_of_le' (show 2 ≤ fuel by omega)
    obtain ⟨p, hp, hreads⟩ := member?_memberItems h.1 gap (ms.flatMap (memberItems gap))
      (show 8 * size (memberItems gap m) ≤ fuel by omega)
    have hne : (memberItems gap m ++ ms.flatMap (memberItems gap)).isEmpty = false := by
      rw [List.isEmpty_eq_false_iff]
      intro hnil
      rw [(List.append_eq_nil_iff.mp hnil).1, size_nil] at hsize
      omega
    rw [List.flatMap_cons, memberPieces, hne, hp]
    exact .cons hreads (ih h.2 (by omega))

/-! ### Classes -/

lemma trees_of_reads {ms : List ClassMember} {ps : List Piece}
    (h : List.Forall₂ ReadsMember ms ps) :
    (∀ p ∈ ps, p.comments = []) ∧ List.Forall₂ IsMemberTree ms (ps.map Piece.tree) := by
  induction h with
  | nil => exact ⟨List.forall_mem_nil _, .nil⟩
  | cons hreads _ ih =>
    exact ⟨List.forall_mem_cons.mpr ⟨hreads.comments, ih.1⟩, .cons hreads.isMemberTree ih.2⟩

lemma node_body {ps : List Piece} (h : ∀ p ∈ ps, p.comments = []) :
    (Piece.node .body (⟨[], .leaf none .sign " " "\x7b"⟩ ::
      (ps ++ [⟨[], .leaf none .sign "\n" "\x7d"⟩]))).withRole .body =
        ⟨[], bodyTree (ps.map Piece.tree)⟩ := by
  have hcomments : ∀ q ∈ (⟨[], .leaf none .sign " " "\x7b"⟩ : Piece) ::
      (ps ++ [⟨[], .leaf none .sign "\n" "\x7d"⟩]), q.comments = [] := by
    rw [List.forall_mem_cons, List.forall_mem_append]
    exact ⟨rfl, h, List.forall_mem_singleton.mpr rfl⟩
  rw [Piece.node_of_comments_eq_nil _ hcomments, List.map_cons, List.map_append]
  rfl

lemma typeEnd?_ofGroup (name : String) {is : List Item} {fuel : ℕ}
    (h : ∀ p ∈ memberPieces fuel .fieldDeclaration is, p.comments = []) :
    typeEnd? (fuel + 1) .classDeclaration .fieldDeclaration
      [⟨[], .leaf none .sign "" "class"⟩, ⟨[], nameLeaf name⟩] [.ofGroup " " '{' is "\n" '}'] =
        some (⟨[], classTree name ((memberPieces fuel .fieldDeclaration is).map Piece.tree)⟩,
          []) := by
  have hcomments : ∀ q ∈ ([⟨[], .leaf none .sign "" "class"⟩, ⟨[], nameLeaf name⟩,
      ⟨[], bodyTree ((memberPieces fuel .fieldDeclaration is).map Piece.tree)⟩] : List Piece),
        q.comments = [] := by
    simp
  have hnode : Piece.node .classDeclaration [⟨[], .leaf none .sign "" "class"⟩,
      ⟨[], nameLeaf name⟩, (Piece.node .body (⟨[], .leaf none .sign " " "\x7b"⟩ ::
        (memberPieces fuel .fieldDeclaration is ++
          [⟨[], .leaf none .sign "\n" "\x7d"⟩]))).withRole .body] =
      ⟨[], classTree name ((memberPieces fuel .fieldDeclaration is).map Piece.tree)⟩ := by
    rw [node_body h]
    exact Piece.node_of_comments_eq_nil _ hcomments
  exact congrArg (fun q => some (q, [])) hnode

lemma typeDeclaration?_classItems {name : String} (hname : IsName name) {ms : List ClassMember}
    (h : ∀ m ∈ ms, m.IsPrintable) {fuel : ℕ} (hfuel : 8 * size (classItems name ms) ≤ fuel) :
    ∃ us, typeDeclaration? fuel [] (classItems name ms) = some (⟨[], classTree name us⟩, []) ∧
      List.Forall₂ IsMemberTree ms us := by
  simp only [classItems, size_ofWord, size_ofGroup, size_nil] at hfuel
  obtain ⟨fuel, rfl⟩ := Nat.exists_eq_add_of_le' (show 2 ≤ fuel by omega)
  obtain ⟨hcomments, htrees⟩ := trees_of_reads
    (memberPieces_body "\n  " h (show _ ≤ fuel by omega))
  refine ⟨_, ?_, htrees⟩
  rw [classItems, typeDeclaration?]
  have htypeParameters : typeParameters? (fuel + 1) [.ofGroup " " '{'
      (ms.flatMap (memberItems "\n  ")) "\n" '}'] = some ([], [.ofGroup " " '{'
        (ms.flatMap (memberItems "\n  ")) "\n" '}']) := rfl
  have hsuperclass : superclass (fuel + 1) [.ofGroup " " '{'
      (ms.flatMap (memberItems "\n  ")) "\n" '}'] = ([], [.ofGroup " " '{'
        (ms.flatMap (memberItems "\n  ")) "\n" '}']) := rfl
  simp only [Item.word?_ofWord isIdentifier_class, Item.word?_ofWord hname.isIdentifier,
    htypeParameters, hsuperclass, sign, Item.leaf_ofWord isIdentifier_class,
    leaf_name hname.isIdentifier, Option.bind_eq_bind, Option.bind_some]
  exact typeEnd?_ofGroup name hcomments

lemma unitPieces_classItems {name : String} (hname : IsName name) {ms : List ClassMember}
    (h : ∀ m ∈ ms, m.IsPrintable) {fuel : ℕ} (hfuel : 8 * size (classItems name ms) + 2 ≤ fuel) :
    ∃ us, unitPieces fuel (classItems name ms) = [⟨[], classTree name us⟩] ∧
      List.Forall₂ IsMemberTree ms us := by
  obtain ⟨fuel, rfl⟩ := Nat.exists_eq_add_of_le' (show 2 ≤ fuel by omega)
  obtain ⟨us, hclass, htrees⟩ := typeDeclaration?_classItems hname h
    (show 8 * size (classItems name ms) ≤ fuel by omega)
  have hannotations : annotations (fuel + 1) (classItems name ms) = ([], classItems name ms) :=
    annotations_eq_nil (fun i hi => by
      obtain rfl := Option.some.inj hi
      exact Item.isSign_ofWord isIdentifier_class _) _
  have hpackage : package? (fuel + 1) (classItems name ms) = none := by
    have hno : (Item.ofWord "" "class").isWord "package" = false := by
      simp [Item.isWord, Item.word?_ofWord isIdentifier_class]
    rw [package?, hannotations]
    simp [classItems, hno]
  have himport : import? (classItems name ms) = none := by
    have hno : (Item.ofWord "" "class").isWord "import" = false := by
      simp [Item.isWord, Item.word?_ofWord isIdentifier_class]
    simp [import?, classItems, startsWithWord, hno]
  have hmember : member? (fuel + 1) .other (classItems name ms) =
      some (⟨[], classTree name us⟩, []) := by
    rw [member?, classItems, modifiers_ofWord isIdentifier_class _ (by decide)]
    rw [classItems] at hclass
    simp only [hclass]
    rfl
  refine ⟨us, ?_, htrees⟩
  rw [unitPieces, hpackage, himport, hmember]
  rfl

end ServiceDocs.Java.Parser
