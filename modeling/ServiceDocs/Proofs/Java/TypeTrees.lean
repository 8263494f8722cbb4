import ServiceDocs.Proofs.Java.GrammarTrees
import ServiceDocs.Proofs.Java.Names

/-!
# Trees of printed types

The recognisers take exactly the items of a printed type, whatever follows it, and they give the
tree that the grammar prescribes for it.
-/

namespace ServiceDocs.Java

/-! ### Looking at printed items -/

namespace Item

variable {gap word : String} (h : isIdentifier word.toList = true)

include h

lemma word?_ofWord : (ofWord gap word).word? = some word := by
  obtain ⟨c, cs, l, hword, -, -, hcls, htext, htoken⟩ := Token.exists_ofWord_eq gap h
  rw [ofWord, word?, htoken]
  simp [Token.cls, Token.text, hcls, htext, ← hword]

lemma isSign_ofWord (s : String) : (ofWord gap word).isSign s = false := by
  obtain ⟨c, cs, l, -, -, -, hcls, -, htoken⟩ := Token.exists_ofWord_eq gap h
  rw [ofWord, isSign, htoken]
  simp [isSignToken, Token.cls, hcls]

lemma leaf_ofWord (kind : Kind) :
    Parser.leaf kind (ofWord gap word) = ⟨[], .leaf none kind gap word⟩ := by
  obtain ⟨c, cs, l, hword, -, -, -, htext, htoken⟩ := Token.exists_ofWord_eq gap h
  rw [ofWord, Parser.leaf, htoken]
  simp [Token.piece, Token.text, htext, ← hword]

end Item

lemma Item.isSign_ofSign (gap : String) (c : Char) (s : String) :
    (Item.ofSign gap c).isSign s = decide (String.ofList [c] = s) :=
  isSignToken_ofSign gap c s

/-! ### Pieces -/

namespace Piece

/-- Pieces without comments make up a node of their trees. -/
lemma node_of_comments_eq_nil (kind : Kind) {ps : List Piece} (h : ∀ p ∈ ps, p.comments = []) :
    Piece.node kind ps = ⟨[], .node none kind (ps.map tree)⟩ := by
  cases ps with
  | nil => rfl
  | cons p ps =>
    rw [List.forall_mem_cons] at h
    have htrees : ps.flatMap trees = ps.map tree := by
      rw [← List.flatMap_singleton' (ps.map tree), List.flatMap_map]
      exact List.flatMap_congr fun q hq => by rw [trees, h.2 q hq]; rfl
    rw [Piece.node, h.1, htrees, List.map_cons]

@[simp] lemma comments_withRole (r : Role) (p : Piece) : (p.withRole r).comments = p.comments :=
  rfl

end Piece

namespace Parser

/-! ### Annotations -/

lemma annotations_eq_nil {is : List Item} (h : ∀ i ∈ is.head?, i.isSign "@" = false)
    (fuel : ℕ) : annotations fuel is = ([], is) := by
  cases fuel with
  | zero => rfl
  | succ fuel =>
    have hnone : annotationUse? is = none := by
      cases is with
      | nil => rfl
      | cons i is => rw [annotationUse?, if_neg (by simp [h i rfl])]
    rw [annotations, hnone]

/-- A type ends in front of these items. -/
def EndsType (is : List Item) : Prop :=
  ∀ i ∈ is.head?, i.isSign "<" = false ∧ i.isSign "." = false ∧ i.isSign "@" = false ∧
    emptyBrackets i = false

lemma endsType_ofWord (gap : String) {word : String} (h : isIdentifier word.toList = true)
    (is : List Item) : EndsType (.ofWord gap word :: is) := by
  rintro i hi
  obtain rfl := Option.some.inj hi
  exact ⟨Item.isSign_ofWord h _, Item.isSign_ofWord h _, Item.isSign_ofWord h _, rfl⟩

lemma endsType_ofSign (gap : String) {c : Char} (h : c = ',' ∨ c = '>') (is : List Item) :
    EndsType (.ofSign gap c :: is) := by
  rintro i hi
  obtain rfl := Option.some.inj hi
  rcases h with rfl | rfl <;> simp [Item.isSign_ofSign] <;> rfl

/-! ### Dimensions -/

/-- The signs of some pairs of brackets. -/
def bracketPieces : ℕ → List Piece
  | 0     => []
  | n + 1 =>
    ⟨[], .leaf none .sign "" "["⟩ :: ⟨[], .leaf none .sign "" "]"⟩ :: bracketPieces n

lemma dimensionPieces_brackets {rest : List Item} (hrest : EndsType rest) (n : ℕ) {fuel : ℕ}
    (hfuel : n ≤ fuel) : dimensionPieces fuel (List.replicate n Java.emptyBrackets ++ rest) =
      (bracketPieces n, rest) := by
  induction n generalizing fuel with
  | zero =>
    cases fuel with
    | zero => rfl
    | succ fuel =>
      have hannotations := annotations_eq_nil (fun i hi => (hrest i hi).2.2.1) fuel
      rw [List.replicate_zero, List.nil_append, dimensionPieces, hannotations]
      cases rest with
      | nil => rfl
      | cons i rest =>
        have hi := (hrest i rfl).2.2.2
        simp [hi, bracketPieces]
  | succ n ih =>
    obtain ⟨fuel, rfl⟩ := Nat.exists_eq_add_of_le' (Nat.one_le_of_lt hfuel)
    rw [List.replicate_succ, List.cons_append, dimensionPieces,
      annotations_eq_nil (fun i hi => by obtain rfl := Option.some.inj hi; rfl)]
    simp only [ih (Nat.le_of_succ_le_succ hfuel)]
    rfl

/-- The node of some pairs of brackets behind a type. -/
def dimensionNode (n : ℕ) : Piece :=
  (Piece.node .dimensions (bracketPieces n)).withRole .dimensions

lemma dimensions_brackets {rest : List Item} (hrest : EndsType rest) (n : ℕ) {fuel : ℕ}
    (hfuel : n ≤ fuel) : dimensions fuel (List.replicate n Java.emptyBrackets ++ rest) =
      (if n = 0 then [] else [dimensionNode n], rest) := by
  rw [dimensions, dimensionPieces_brackets hrest n hfuel]
  cases n <;> rfl

lemma tree_dimensionNode (n : ℕ) : dimensionNode n = ⟨[], Tree.dimensionsTree n⟩ := by
  have hcomments : ∀ n, ∀ p ∈ bracketPieces n, p.comments = [] := by
    intro n
    induction n with
    | zero => exact List.forall_mem_nil _
    | succ n ih => exact List.forall_mem_cons.mpr ⟨rfl, List.forall_mem_cons.mpr ⟨rfl, ih⟩⟩
  have htrees : ∀ n, (bracketPieces n).map Piece.tree = Tree.bracketTrees n := by
    intro n
    induction n with
    | zero => rfl
    | succ n ih => rw [Tree.bracketTrees, ← ih]; rfl
  rw [dimensionNode, Piece.node_of_comments_eq_nil _ (hcomments n), htrees]
  rfl

/-! ### Types -/

/-- The piece is the tree of a type, with no comments in front of it. -/
structure ReadsType (t : TypeExpr) (p : Piece) : Prop where
  comments : p.comments = []
  isTypeTree : Tree.IsTypeTree t p.tree

lemma ReadsType.withRole {t : TypeExpr} {p : Piece} (h : ReadsType t p) (r : Role) :
    Tree.IsTypeTree t (p.withRole r).tree :=
  h.isTypeTree.withRole r

lemma ReadsType.array {t : TypeExpr} {p : Piece} (h : ReadsType t p) (n : ℕ) :
    ReadsType (Tree.nestArray (n + 1) t)
      (.node .arrayType [p.withRole .element, dimensionNode (n + 1)]) := by
  have hcomments : ∀ q ∈ [p.withRole .element, dimensionNode (n + 1)], q.comments = [] := by
    simp [h.comments, tree_dimensionNode]
  rw [Piece.node_of_comments_eq_nil _ hcomments, tree_dimensionNode]
  exact ⟨rfl, .array n (h.withRole .element) (Piece.role_withRole _ _)⟩

lemma nestArray_array (n : ℕ) (t : TypeExpr) :
    Tree.nestArray n (.array t) = Tree.nestArray (n + 1) t := by
  induction n with
  | zero => rfl
  | succ n ih => exact congrArg TypeExpr.array ih

lemma head?_brackets {rest : List Item} (hrest : EndsType rest) (n : ℕ) :
    ∀ i ∈ (List.replicate n Java.emptyBrackets ++ rest).head?,
      i.isSign "<" = false ∧ i.isSign "." = false := by
  cases n with
  | zero => exact fun i hi => ⟨(hrest i hi).1, (hrest i hi).2.1⟩
  | succ n =>
    rintro i hi
    obtain rfl := Option.some.inj hi
    exact ⟨rfl, rfl⟩

lemma typeSuffix_eq_self {is : List Item}
    (h : ∀ i ∈ is.head?, i.isSign "<" = false ∧ i.isSign "." = false) (fuel : ℕ) (hasArgs : Bool)
    (p : Piece) : typeSuffix fuel hasArgs p is = (p, is) := by
  cases fuel with
  | zero => rfl
  | succ fuel =>
    cases is with
    | nil => rfl
    | cons i is =>
      obtain ⟨hopen, hdot⟩ := h i rfl
      simp [typeSuffix, startsWith, hopen, hdot]

/-- A name with its arguments, and the brackets behind it. -/
lemma plainType?_of_base {gap name : String} (hname : isIdentifier name.toList = true) {fuel : ℕ}
    {is rest : List Item} (hrest : EndsType rest) {n : ℕ} (hfuel : n ≤ fuel) {base : Piece}
    (hbase : (if primitives.contains name then (⟨[], .leaf none .primitiveType gap name⟩, is)
      else typeSuffix fuel false ⟨[], .leaf none .typeIdentifier gap name⟩ is) =
        (base, List.replicate n Java.emptyBrackets ++ rest))
    {t : TypeExpr} (ht : ReadsType t base) :
    ∃ p, plainType? (fuel + 1) (.ofWord gap name :: is) = some (p, rest) ∧
      ReadsType (Tree.nestArray n t) p := by
  rw [plainType?]
  simp only [Item.word?_ofWord hname, Item.leaf_ofWord hname, hbase,
    dimensions_brackets hrest n hfuel]
  cases n with
  | zero => exact ⟨base, rfl, ht⟩
  | succ n => exact ⟨_, rfl, ht.array n⟩

/-- An argument that begins with a word is a type. -/
lemma typeArgument?_ofWord {gap name : String} (hname : isIdentifier name.toList = true)
    (is : List Item) (fuel : ℕ) :
    typeArgument? (fuel + 2) (.ofWord gap name :: is) =
      plainType? fuel (.ofWord gap name :: is) := by
  have hannotations : ∀ k, annotations k (.ofWord gap name :: is) = ([], .ofWord gap name :: is) :=
    annotations_eq_nil fun i hi => by
      obtain rfl := Option.some.inj hi
      exact Item.isSign_ofWord hname _
  rw [typeArgument?, hannotations]
  simp only [Item.isSign_ofWord hname, Bool.false_eq_true, if_false]
  rw [type?, hannotations]

lemma typeArgument?_typeItems (gap : String) {t : TypeExpr} (h : IsPrintable t) (is : List Item)
    (fuel : ℕ) : typeArgument? (fuel + 2) (typeItems gap t ++ is) =
      plainType? fuel (typeItems gap t ++ is) := by
  obtain ⟨name, js, heq, hname, -⟩ := exists_typeItems_eq gap t h
  rw [heq]
  exact typeArgument?_ofWord hname.isIdentifier (js ++ is) fuel

lemma exists_argumentItems_eq (gap : String) {a : TypeExpr} {as : List TypeExpr}
    (h : ArePrintable (a :: as)) :
    ∃ name is, argumentItems gap (a :: as) = .ofWord gap name :: is ∧ IsTypeWord name := by
  obtain ⟨name, is, heq, hname, -⟩ := exists_typeItems_eq gap a h.1
  cases as with
  | nil => exact ⟨name, is, heq, hname⟩
  | cons b as => exact ⟨name, _, by rw [argumentItems, heq, List.cons_append], hname⟩

lemma typeArguments?_ofWord {gap name : String} (hname : isIdentifier name.toList = true)
    {is rest : List Item} {fuel : ℕ} {ps : List Piece}
    (h : typeArgumentList? fuel (.ofWord gap name :: is) = some (ps, rest)) :
    typeArguments? (fuel + 1) (.ofSign "" '<' :: .ofWord gap name :: is) =
      some (.node .typeArguments (⟨[], .leaf none .sign "" "<"⟩ :: ps), rest) := by
  rw [typeArguments?]
  simp only [Item.isSign_ofSign, Item.isSign_ofWord hname, h]
  rfl

lemma ReadsType.primitive (gap name : String) :
    ReadsType (.named name []) ⟨[], .leaf none .primitiveType gap name⟩ :=
  ⟨rfl, .name gap name (.inl rfl)⟩

lemma ReadsType.ofName (gap name : String) :
    ReadsType (.named name []) ⟨[], .leaf none .typeIdentifier gap name⟩ :=
  ⟨rfl, .name gap name (.inr rfl)⟩

lemma ReadsType.generic (gap name : String) {ts : List TypeExpr} {ps : List Piece}
    (hcomments : ∀ p ∈ ps, p.comments = []) (h : Tree.AreArgumentTrees ts (ps.map Piece.tree)) :
    ReadsType (.named name ts) (.node .genericType [⟨[], .leaf none .typeIdentifier gap name⟩,
      .node .typeArguments (⟨[], .leaf none .sign "" "<"⟩ :: ps)]) := by
  rw [Piece.node_of_comments_eq_nil .typeArguments (List.forall_mem_cons.mpr ⟨rfl, hcomments⟩),
    Piece.node_of_comments_eq_nil .genericType (by simp)]
  exact ⟨rfl, .generic gap name (.sign "" "<" h)⟩

lemma not_mem_primitives {name : String} (h : IsName name) : name ∉ primitives := by
  have hreserved : ∀ w ∈ primitives, w ∈ reservedWords := by decide
  exact fun hmem => h.notReserved (hreserved name hmem)

/-! ### Sizes -/

/-- The number of tokens that some items have. -/
def size (is : List Item) : ℕ :=
  (Item.tokensAll is).length

@[simp] lemma size_nil : size [] = 0 := rfl

@[simp] lemma size_append (is js : List Item) : size (is ++ js) = size is + size js := by
  simp [size]

@[simp] lemma size_ofWord (gap word : String) (is : List Item) :
    size (.ofWord gap word :: is) = size is + 1 := rfl

@[simp] lemma size_ofSign (gap : String) (c : Char) (is : List Item) :
    size (.ofSign gap c :: is) = size is + 1 := rfl

@[simp] lemma size_ofGroup (gap : String) (opening : Char) (inside : List Item) (gap' : String)
    (closing : Char) (is : List Item) :
    size (.ofGroup gap opening inside gap' closing :: is) = size inside + size is + 2 := by
  have hgroup : size [.ofGroup gap opening inside gap' closing] = size inside + 2 := by
    rw [size, tokensAll_ofGroup, List.length_cons, List.length_append]
    rfl
  rw [← List.singleton_append, size_append, hgroup]
  omega

@[simp] lemma size_emptyBrackets (is : List Item) :
    size (Java.emptyBrackets :: is) = size is + 2 := rfl

mutual

/-- The type in front of some brackets is found with the brackets. -/
lemma plainType?_typeItems (gap : String) (n : ℕ) {rest : List Item} (hrest : EndsType rest) :
    (t : TypeExpr) → IsPrintable t → (fuel : ℕ) → 8 * size (typeItems gap t) + 8 * n ≤ fuel →
      ∃ p, plainType? fuel (typeItems gap t ++ (List.replicate n Java.emptyBrackets ++ rest)) =
        some (p, rest) ∧ ReadsType (Tree.nestArray n t) p
  | .named name [], h, fuel, hfuel => by
    simp only [typeItems, size_ofWord, size_nil] at hfuel
    obtain ⟨fuel, rfl⟩ := Nat.exists_eq_add_of_le' (show 1 ≤ fuel by omega)
    cases hprimitive : primitives.contains name with
    | true =>
      exact plainType?_of_base h.isIdentifier hrest (by omega) (if_pos hprimitive)
        (.primitive gap name)
    | false =>
      refine plainType?_of_base h.isIdentifier hrest (by omega) ?_ (.ofName gap name)
      rw [hprimitive]
      exact typeSuffix_eq_self (head?_brackets hrest n) _ _ _
  | .named name (a :: as), h, fuel, hfuel => by
    simp only [typeItems, size_ofWord, size_ofSign, size_append, size_nil] at hfuel
    obtain ⟨fuel, rfl⟩ := Nat.exists_eq_add_of_le' (show 3 ≤ fuel by omega)
    obtain ⟨ps, hps, hcomments, htypes⟩ := typeArgumentList?_argumentItems ""
      (List.replicate n Java.emptyBrackets ++ rest) (a :: as) h.2 (List.cons_ne_nil a as)
      fuel (by omega)
    -- The list is no diamond: a word stands behind the opening bracket.
    obtain ⟨first, js, hfirst, hword⟩ := exists_argumentItems_eq "" h.2
    rw [hfirst, List.cons_append] at hps
    have hargs := typeArguments?_ofWord hword.isIdentifier hps
    refine plainType?_of_base h.1.isIdentifier hrest (by omega) ?_
      (.generic gap name hcomments htypes)
    have hsuffix : typeSuffix (fuel + 2) false ⟨[], .leaf none .typeIdentifier gap name⟩
        (.ofSign "" '<' :: .ofWord "" first :: (js ++ .ofSign "" '>' ::
          (List.replicate n Java.emptyBrackets ++ rest))) =
          (.node .genericType [⟨[], .leaf none .typeIdentifier gap name⟩,
            .node .typeArguments (⟨[], .leaf none .sign "" "<"⟩ :: ps)],
              List.replicate n Java.emptyBrackets ++ rest) := by
      rw [typeSuffix, hargs]
      exact typeSuffix_eq_self (head?_brackets hrest n) _ _ _
    simpa [not_mem_primitives h.1, hfirst] using hsuffix
  | .array element, h, fuel, hfuel => by
    -- The recogniser takes all brackets at once, so those of the array join the ones behind it.
    have hsplit : typeItems gap (.array element) ++
        (List.replicate n Java.emptyBrackets ++ rest) = typeItems gap element ++
          (List.replicate (n + 1) Java.emptyBrackets ++ rest) := by
      rw [typeItems, List.append_assoc, List.replicate_succ]
      rfl
    simp only [typeItems, size_append, size_emptyBrackets, size_nil] at hfuel
    rw [nestArray_array, hsplit]
    exact plainType?_typeItems gap (n + 1) hrest element h fuel (by omega)

/-- The arguments up to the closing bracket are found. -/
lemma typeArgumentList?_argumentItems (gap : String) (rest : List Item) :
    (ts : List TypeExpr) → ArePrintable ts → ts ≠ [] → (fuel : ℕ) →
    8 * size (argumentItems gap ts) + 4 ≤ fuel →
      ∃ ps, typeArgumentList? fuel (argumentItems gap ts ++ .ofSign "" '>' :: rest) =
        some (ps, rest) ∧ (∀ p ∈ ps, p.comments = []) ∧
          Tree.AreArgumentTrees ts (ps.map Piece.tree)
  | [a], h, _, fuel, hfuel => by
    rw [argumentItems] at hfuel ⊢
    obtain ⟨fuel, rfl⟩ := Nat.exists_eq_add_of_le' (show 3 ≤ fuel by omega)
    obtain ⟨p, hp, hreads⟩ := plainType?_typeItems gap 0
      (endsType_ofSign "" (.inr rfl) rest) a h.1 fuel (by omega)
    rw [← typeArgument?_typeItems gap h.1, List.replicate_zero, List.nil_append] at hp
    refine ⟨[p, ⟨[], .leaf none .sign "" ">"⟩], ?_, by simp [hreads.comments], ?_⟩
    · rw [typeArgumentList?, hp]
      rfl
    · exact .type hreads.isTypeTree (.sign "" ">" .nil)
  | a :: b :: as, h, _, fuel, hfuel => by
    simp only [argumentItems, size_append, size_ofSign] at hfuel
    obtain ⟨fuel, rfl⟩ := Nat.exists_eq_add_of_le' (show 3 ≤ fuel by omega)
    obtain ⟨p, hp, hreads⟩ := plainType?_typeItems gap 0
      (endsType_ofSign "" (.inl rfl) (argumentItems " " (b :: as) ++ .ofSign "" '>' :: rest))
      a h.1 fuel (by omega)
    obtain ⟨ps, hps, hcomments, htypes⟩ := typeArgumentList?_argumentItems " " rest (b :: as) h.2
      (List.cons_ne_nil b as) (fuel + 2) (by omega)
    rw [← typeArgument?_typeItems gap h.1, List.replicate_zero, List.nil_append] at hp
    refine ⟨p :: ⟨[], .leaf none .sign "" ","⟩ :: ps, ?_, ?_, ?_⟩
    · rw [argumentItems, List.append_assoc, List.cons_append, typeArgumentList?, hp]
      simp only [hps]
      rfl
    · exact List.forall_mem_cons.mpr ⟨hreads.comments, List.forall_mem_cons.mpr ⟨rfl, hcomments⟩⟩
    · exact .type hreads.isTypeTree (.sign "" "," htypes)

end

/-- A type is found up to where it ends. -/
lemma exists_plainType?_eq (gap : String) {t : TypeExpr} (h : IsPrintable t) {rest : List Item}
    (hrest : EndsType rest) {fuel : ℕ} (hfuel : 8 * size (typeItems gap t) ≤ fuel) :
    ∃ p, plainType? fuel (typeItems gap t ++ rest) = some (p, rest) ∧ ReadsType t p :=
  plainType?_typeItems gap 0 hrest t h fuel hfuel

end Parser

end ServiceDocs.Java
