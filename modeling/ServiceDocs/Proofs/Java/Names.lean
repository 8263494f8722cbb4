import Mathlib.Data.Option.Basic
import Mathlib.Tactic.Common
import ServiceDocs.Java.Declaration
import ServiceDocs.Java.Parser.Unit

/-!
# Names in syntax trees

The recognisers give every type and every method that is declared a name, and this name is a word
of the source. Only the trees that are looked at for declarations matter: the members of a source,
and those in the bodies of types that are members themselves.
-/

namespace ServiceDocs.Java

/-! ### Pieces -/

lemma role_commentTree (c : Comment) : c.tree.role = none := rfl

namespace Piece

@[simp] lemma role_withRole (r : Role) (p : Piece) : (p.withRole r).tree.role = some r := by
  obtain ⟨cs, t⟩ := p
  cases t <;> rfl

@[simp] lemma children_withRole (r : Role) (p : Piece) :
    (p.withRole r).tree.children = p.tree.children := by
  obtain ⟨cs, t⟩ := p
  cases t <;> rfl

@[simp] lemma text_withRole (r : Role) (p : Piece) : (p.withRole r).tree.text = p.tree.text := by
  obtain ⟨cs, t⟩ := p
  cases t with
  | leaf role kind gap text => rfl
  | node role kind ts => cases ts <;> rfl

@[simp] lemma role_node (kind : Kind) (ps : List Piece) :
    (Piece.node kind ps).tree.role = none := by
  cases ps <;> rfl

/-- A piece becomes a node with the trees of its parts, up to the comments in front of it. -/
lemma tree_node (kind : Kind) (ps : List Piece) :
    ∃ ts, (Piece.node kind ps).tree = .node none kind ts ∧
      (∀ t ∈ ts, (∃ p ∈ ps, t = p.tree) ∨ ∃ c : Comment, t = c.tree) ∧
      ∀ r : Role, ts.find? (·.role = some r) = (ps.map tree).find? (·.role = some r) := by
  have hcomments (p : Piece) (r : Role) :
      (p.comments.map Comment.tree).find? (·.role = some r) = none := by
    simp [role_commentTree]
  cases ps with
  | nil => exact ⟨[], rfl, by simp, fun r => rfl⟩
  | cons p ps =>
    refine ⟨p.tree :: ps.flatMap trees, rfl, fun t ht => ?_, fun r => ?_⟩
    · rcases List.mem_cons.mp ht with rfl | ht
      · exact .inl ⟨p, List.mem_cons_self, rfl⟩
      · obtain ⟨q, hq, ht⟩ := List.mem_flatMap.mp ht
        rcases List.mem_append.mp ht with ht | ht
        · obtain ⟨c, _, rfl⟩ := List.mem_map.mp ht
          exact .inr ⟨c, rfl⟩
        · exact .inl ⟨q, List.mem_cons_of_mem p hq, List.mem_singleton.mp ht⟩
    · have hrest : (ps.flatMap trees).find? (·.role = some r) =
          (ps.map tree).find? (·.role = some r) := by
        induction ps with
        | nil => rfl
        | cons q ps ih =>
          rw [List.flatMap_cons, List.find?_append, trees, List.find?_append, hcomments, ih,
            List.map_cons, List.find?_singleton, Option.none_or]
          by_cases hq : q.tree.role = some r
          · simp [hq]
          · simp [hq]
      rw [List.map_cons, List.find?_cons, List.find?_cons, hrest]

/-- The first part that has a role is found below the node. -/
lemma child?_node (kind : Kind) (ps : List Piece) (r : Role) :
    (Piece.node kind ps).tree.child? r = (ps.map tree).find? (·.role = some r) := by
  obtain ⟨ts, htree, _, hfind⟩ := tree_node kind ps
  rw [htree]
  exact hfind r

end Piece

/-! ### Well-named trees -/

namespace Tree

/-- The tree has a name, which is a word. -/
def IsNamedByWord (t : Tree) : Prop :=
  ∃ n, t.child? .name = some n ∧ isWord n.text.toList

end Tree

/-- A node of this kind declares no type and no method, and its children are not looked at. -/
abbrev Kind.IsPlain (k : Kind) : Prop :=
  Tree.declarationKind? k = none ∧ k ≠ .methodDeclaration ∧ k ≠ .enumBodyDeclarations

/-- The types and methods that a member declares, itself or in its body, are named by words. -/
inductive Tree.WellNamed : Tree → Prop
  | leaf (role : Option Role) (kind : Kind) (gap text : String) :
    WellNamed (.leaf role kind gap text)
  | plain (role : Option Role) {kind : Kind} (ts : List Tree) (hkind : kind.IsPlain) :
    WellNamed (.node role kind ts)
  | method {role : Option Role} {ts : List Tree}
    (hname : (Tree.node role .methodDeclaration ts).IsNamedByWord) :
    WellNamed (.node role .methodDeclaration ts)
  | members (role : Option Role) {ts : List Tree} (hts : ∀ t ∈ ts, WellNamed t) :
    WellNamed (.node role .enumBodyDeclarations ts)
  | type {role : Option Role} {kind : Kind} {ts : List Tree} {k : DeclarationKind}
    (hkind : Tree.declarationKind? kind = some k)
    (hname : (Tree.node role kind ts).IsNamedByWord)
    (hbody : ∀ b ∈ ts, b.role = some .body → ∀ t ∈ b.children, WellNamed t) :
    WellNamed (.node role kind ts)

namespace Tree

lemma wellNamed_comment (c : Comment) : c.tree.WellNamed :=
  .leaf _ _ _ _

lemma wellNamed_node_of_isPlain {kind : Kind} (hkind : kind.IsPlain) (ps : List Piece) :
    (Piece.node kind ps).tree.WellNamed := by
  obtain ⟨ts, htree, _, _⟩ := Piece.tree_node kind ps
  rw [htree]
  exact .plain none ts hkind

/-- All trees below a node are well named if its parts are. -/
lemma wellNamed_of_mem_children (kind : Kind) {ps : List Piece}
    (hps : ∀ p ∈ ps, p.tree.WellNamed) :
    ∀ t ∈ (Piece.node kind ps).tree.children, t.WellNamed := by
  obtain ⟨ts, htree, hmem, _⟩ := Piece.tree_node kind ps
  rw [htree]
  intro t ht
  rcases hmem t ht with ⟨p, hp, rfl⟩ | ⟨c, rfl⟩
  · exact hps p hp
  · exact wellNamed_comment c

lemma wellNamed_node_method {ps : List Piece}
    (hname : (Piece.node .methodDeclaration ps).tree.IsNamedByWord) :
    (Piece.node .methodDeclaration ps).tree.WellNamed := by
  obtain ⟨ts, htree, _, _⟩ := Piece.tree_node .methodDeclaration ps
  rw [htree] at hname ⊢
  exact .method hname

/-- A node is named by the first of its parts that has the role of a name. -/
lemma isNamedByWord_node (kind : Kind) {ps front : List Piece} {n : Piece}
    (hps : front ++ [n] <+: ps) (hfront : ∀ p ∈ front, p.tree.role ≠ some .name)
    (hn : n.tree.role = some .name) (hword : isWord n.tree.text.toList) :
    (Piece.node kind ps).tree.IsNamedByWord := by
  refine ⟨n.tree, ?_, hword⟩
  obtain ⟨back, rfl⟩ := hps
  have hnone : (front.map Piece.tree).find? (·.role = some .name) = none := by
    simpa [List.find?_eq_none] using hfront
  rw [Piece.child?_node, List.append_assoc, List.map_append, List.find?_append, hnone,
    Option.none_or, List.singleton_append, List.map_cons,
    List.find?_cons_of_pos (by simpa using hn)]

end Tree

/-! ### Parts of declarations -/

namespace Parser

/-- The piece is neither the name nor the body of the node that it becomes a part of. -/
def IsSidePart (p : Piece) : Prop :=
  p.tree.role ≠ some .name ∧ p.tree.role ≠ some .body

lemma isSidePart_of_role_none {p : Piece} (h : p.tree.role = none) : IsSidePart p := by
  simp [IsSidePart, h]

@[simp] lemma role_leaf (kind : Kind) (i : Item) : (leaf kind i).tree.role = none := by
  cases i with
  | token t => rfl
  | group opening is closing => exact Piece.role_node _ _

lemma wellNamed_leaf (kind : Kind) (i : Item) :
    (leaf kind i).tree.WellNamed := by
  cases i with
  | token t => exact .leaf _ _ _ _
  | group opening is closing => exact Tree.wellNamed_node_of_isPlain (by decide) _

lemma wellNamed_piece (t : Token) (kind : Kind) : (t.piece kind).tree.WellNamed :=
  .leaf _ _ _ _

/-- The name that a word gives. -/
lemma isWord_leaf {w : Item} (hw : w.word?.isSome) (kind : Kind) :
    isWord (leaf kind w).tree.text.toList := by
  cases w with
  | token t =>
    have hcls : t.lexeme.cls = .word := by
      by_contra hcls
      simp [Item.word?, Token.cls, hcls] at hw
    have htext : (leaf kind (.token t)).tree.text.toList = t.lexeme.text := by
      simp [leaf, Token.piece, Token.text, Tree.text]
    rw [htext]
    exact t.lexeme.isWord_text hcls
  | group opening is closing => simp [Item.word?] at hw

lemma mem_span {kind : Kind} {is : List Item} {p : Piece} (h : p ∈ span kind is) :
    p = .node kind (Item.piecesAll is) := by
  rw [span] at h
  split_ifs at h
  · cases h
  · exact List.mem_singleton.mp h

lemma isSidePart_of_mem_span {kind : Kind} {is : List Item} :
    ∀ p ∈ span kind is, IsSidePart p := by
  intro p hp
  rw [mem_span hp]
  exact isSidePart_of_role_none (Piece.role_node _ _)

lemma isSidePart_of_mem_annotations (fuel : Nat) (is : List Item) :
    ∀ p ∈ (annotations fuel is).1, IsSidePart p := by
  induction fuel generalizing is with
  | zero => simp [annotations]
  | succ fuel ih =>
    rw [annotations]
    cases ha : annotationUse? is with
    | none => simp
    | some found =>
      obtain ⟨a, rest⟩ := found
      have hrole : a.tree.role = none := by
        unfold annotationUse? at ha
        grind [Piece.role_node]
      simp only [List.forall_mem_cons]
      exact ⟨isSidePart_of_role_none hrole, ih rest⟩

lemma isSidePart_of_mem_modifiers (fuel : Nat) (is : List Item) :
    ∀ p ∈ (modifiers fuel is).1, IsSidePart p := by
  rw [modifiers]
  split
  · simp
  · simpa using isSidePart_of_role_none (Piece.role_node _ _)

lemma isSidePart_of_typeParameters? {fuel : Nat} {is rest : List Item} {tps : List Piece}
    (h : typeParameters? fuel is = some (tps, rest)) : ∀ p ∈ tps, IsSidePart p := by
  unfold typeParameters? at h
  grind [IsSidePart, Piece.role_withRole]

lemma isSidePart_of_mem_superclass (fuel : Nat) (is : List Item) :
    ∀ p ∈ (superclass fuel is).1, IsSidePart p := by
  unfold superclass
  grind [IsSidePart, Piece.role_withRole]

lemma isSidePart_of_parameters? {fuel : Nat} {is rest : List Item} {params : Piece}
    (h : parameters? fuel is = some (params, rest)) : IsSidePart params := by
  unfold parameters? at h
  grind [IsSidePart, Piece.role_withRole]

/-! ### Methods and other members without members of their own -/

lemma isSidePart_withRole_type (p : Piece) : IsSidePart (p.withRole .type) := by
  simp [IsSidePart]

lemma of_guard_eq_some {c : Prop} [Decidable c] {u : Unit} (h : (guard c : Option Unit) = some u) :
    c := by
  by_contra hc
  simp [guard, hc] at h

/-- A node is named by a word in it if only side parts stand in front of the word. -/
lemma isNamedByWord_node_of_word (kind : Kind) {ps front : List Piece} {w : Item}
    (hps : front ++ [(leaf .identifier w).withRole .name] <+: ps)
    (hfront : ∀ p ∈ front, IsSidePart p) (hw : w.word?.isSome) :
    (Piece.node kind ps).tree.IsNamedByWord := by
  refine Tree.isNamedByWord_node kind hps (fun p hp => (hfront p hp).1) (Piece.role_withRole _ _) ?_
  rw [Piece.text_withRole]
  exact isWord_leaf hw .identifier

lemma wellNamed_method? {fuel : Nat} {ms : List Piece} {is rest : List Item} {p : Piece}
    (hms : ∀ m ∈ ms, IsSidePart m) (h : method? fuel ms is = some (p, rest)) :
    p.tree.WellNamed := by
  simp only [method?, Option.bind_eq_bind, Option.bind_eq_some_iff] at h
  obtain ⟨⟨tps, is₁⟩, htps, ⟨type, is₂⟩, _, h⟩ := h
  cases is₂ with
  | nil => cases h
  | cons w is₃ =>
    simp only [Option.bind_eq_some_iff, Option.pure_def, Option.some.injEq, Prod.mk.injEq] at h
    obtain ⟨_, hw, ⟨params, is₄⟩, _, rfl, _⟩ := h
    have has : ∀ a ∈ (if tps.isEmpty then ([], is₁) else annotations fuel is₁).1,
        IsSidePart a := by
      split_ifs
      · simp
      · exact isSidePart_of_mem_annotations fuel is₁
    have hfront : ∀ q ∈ ms ++ tps ++ (if tps.isEmpty then ([], is₁) else annotations fuel is₁).1
        ++ [type.withRole .type], IsSidePart q := by
      simp only [List.forall_mem_append, List.forall_mem_singleton]
      exact ⟨⟨⟨hms, isSidePart_of_typeParameters? htps⟩, has⟩, isSidePart_withRole_type type⟩
    apply Tree.wellNamed_node_method
    exact isNamedByWord_node_of_word _ (by simp) hfront (of_guard_eq_some hw)

lemma wellNamed_initializer? {ms : List Piece} {is rest : List Item} {p : Piece}
    (h : initializer? ms is = some (p, rest)) : p.tree.WellNamed := by
  unfold initializer? at h
  split at h
  · split_ifs at h
    obtain ⟨rfl, _⟩ := h
    exact Tree.wellNamed_node_of_isPlain (by decide) _
  · cases h

lemma wellNamed_constructor? {fuel : Nat} {ms : List Piece} {is rest : List Item} {p : Piece}
    (h : constructor? fuel ms is = some (p, rest)) : p.tree.WellNamed := by
  simp only [constructor?, Option.bind_eq_bind, Option.bind_eq_some_iff] at h
  obtain ⟨⟨tps, is₁⟩, _, h⟩ := h
  cases is₁ with
  | nil => cases h
  | cons w is₂ =>
    simp only [Option.bind_eq_some_iff] at h
    obtain ⟨_, _, h⟩ := h
    split at h
    · obtain ⟨rfl, _⟩ := h
      exact Tree.wellNamed_node_of_isPlain (by decide) _
    · simp only [Option.bind_eq_some_iff, Option.pure_def, Option.some.injEq, Prod.mk.injEq] at h
      obtain ⟨_, _, rfl, _⟩ := h
      exact Tree.wellNamed_node_of_isPlain (by decide) _

lemma wellNamed_field? {fuel : Nat} {kind : Kind} (hkind : kind.IsPlain) {ms : List Piece}
    {is rest : List Item} {p : Piece} (h : field? fuel kind ms is = some (p, rest)) :
    p.tree.WellNamed := by
  simp only [field?, Option.bind_eq_bind, Option.bind_eq_some_iff, Option.pure_def,
    Option.some.injEq, Prod.mk.injEq] at h
  obtain ⟨_, _, _, _, rfl, _⟩ := h
  exact Tree.wellNamed_node_of_isPlain hkind _

/-! ### Types and their members -/

lemma wellNamed_of_mem_span {kind : Kind} (hkind : kind.IsPlain) {is : List Item} :
    ∀ p ∈ span kind is, p.tree.WellNamed := by
  intro p hp
  rw [mem_span hp]
  exact Tree.wellNamed_node_of_isPlain hkind _

lemma wellNamed_of_mem_broken (is : List Item) : ∀ p ∈ (broken is).1, p.tree.WellNamed := by
  have hother : Kind.IsPlain .other := by decide
  cases is with
  | nil => simp [broken]
  | cons i is =>
    rw [broken]
    split_ifs
    · simpa using wellNamed_leaf .other i
    · obtain ⟨more, rest⟩ := brokenRest i is
      dsimp only
      exact wellNamed_of_mem_span hother

lemma wellNamed_of_mem_enumConstants (fuel : Nat) (is : List Item) :
    ∀ p ∈ (enumConstants fuel is).1, p.tree.WellNamed := by
  induction fuel generalizing is with
  | zero => simp [enumConstants]
  | succ fuel ih =>
    have hconstant (ps : List Piece) : (Piece.node .enumConstant ps).tree.WellNamed :=
      Tree.wellNamed_node_of_isPlain (by decide) ps
    rw [enumConstants]
    split
    · split_ifs
      · dsimp only
        split
        · split_ifs
          · simp only [List.forall_mem_cons]
            exact ⟨hconstant _, wellNamed_leaf .sign _, ih _⟩
          · simpa using hconstant _
        · simpa using hconstant _
      · simp
    · simp

lemma wellNamed_of_mem_behindConstants {members : List Item → List Piece}
    (hmembers : ∀ is, ∀ p ∈ members is, p.tree.WellNamed) (is : List Item) :
    ∀ p ∈ behindConstants members is, p.tree.WellNamed := by
  cases is with
  | nil => simp [behindConstants]
  | cons s is =>
    rw [behindConstants]
    split_ifs
    · have hparts : ∀ p ∈ sign s :: members is, p.tree.WellNamed :=
        List.forall_mem_cons.mpr ⟨wellNamed_leaf .sign s, hmembers is⟩
      rw [List.forall_mem_singleton]
      exact .members none (Tree.wellNamed_of_mem_children .enumBodyDeclarations hparts)
    · exact hmembers (s :: is)

/-- The head of the declaration of a type: its name behind side parts only, and no body. -/
structure IsHead (head : List Piece) : Prop where
  named : ∃ front w, front ++ [(leaf .identifier w).withRole .name] <+: head ∧
    (∀ p ∈ front, IsSidePart p) ∧ w.word?.isSome
  noBody : ∀ p ∈ head, p.tree.role ≠ some .body

lemma isHead_of_isSidePart {ms more : List Piece} (hms : ∀ p ∈ ms, IsSidePart p)
    (hmore : ∀ p ∈ more, IsSidePart p) (keyword : Item) {w : Item} (hw : w.word?.isSome) :
    IsHead (ms ++ [sign keyword, (leaf .identifier w).withRole .name] ++ more) where
  named := by
    refine ⟨ms ++ [sign keyword], w, by simp, ?_, hw⟩
    simp only [List.forall_mem_append, List.forall_mem_singleton]
    exact ⟨hms, isSidePart_of_role_none (role_leaf _ _)⟩
  noBody := by
    simp only [List.forall_mem_append, List.forall_mem_cons]
    refine ⟨⟨fun p hp => (hms p hp).2, ?_, ?_, by simp⟩, fun p hp => (hmore p hp).2⟩
    · simp [sign]
    · simp

lemma wellNamed_node_type {kind : Kind} {k : DeclarationKind}
    (hkind : Tree.declarationKind? kind = some k) {ps : List Piece}
    (hname : (Piece.node kind ps).tree.IsNamedByWord)
    (hbody : ∀ p ∈ ps, p.tree.role = some .body → ∀ t ∈ p.tree.children, t.WellNamed) :
    (Piece.node kind ps).tree.WellNamed := by
  obtain ⟨ts, htree, hmem, _⟩ := Piece.tree_node kind ps
  rw [htree] at hname ⊢
  refine .type hkind hname fun b hb hrole => ?_
  rcases hmem b hb with ⟨p, hp, rfl⟩ | ⟨c, rfl⟩
  · exact hbody p hp hrole
  · cases hrole

/-- The declaration of a type is well named if what stands in its body is. -/
lemma wellNamed_type {kind : Kind} {k : DeclarationKind}
    (hkind : Tree.declarationKind? kind = some k) {head parts : List Piece} (hhead : IsHead head)
    (hparts : ∀ p ∈ parts, p.tree.WellNamed) (clauses : List Item) (o : Token)
    (c : Option Token) :
    let body := Piece.node .body (o.piece .sign :: parts ++ c.toList.map (Token.piece · .sign))
    (Piece.node kind (head ++ span .other clauses ++ [body.withRole .body])).tree.WellNamed := by
  obtain ⟨⟨front, w, hnamed, hfront, hw⟩, hnoBody⟩ := hhead
  apply wellNamed_node_type hkind
  · rw [List.append_assoc]
    exact isNamedByWord_node_of_word kind (hnamed.trans (List.prefix_append head _)) hfront hw
  · intro p hp hrole
    rw [List.mem_append, List.mem_append, List.mem_singleton] at hp
    rcases hp with (hp | hp) | rfl
    · exact absurd hrole (hnoBody p hp)
    · exact absurd hrole (isSidePart_of_mem_span p hp).2
    · rw [Piece.children_withRole]
      apply Tree.wellNamed_of_mem_children .body
      simp only [List.cons_append, List.forall_mem_cons, List.forall_mem_append,
        List.forall_mem_map]
      exact ⟨wellNamed_piece o .sign, hparts, fun t _ => wellNamed_piece t .sign⟩

/-- What the recognisers find with this amount of fuel is well named. -/
structure FindsWellNamed (fuel : Nat) : Prop where
  ofTypeDeclaration {ms : List Piece} {is rest : List Item} {p : Piece} :
    (∀ m ∈ ms, IsSidePart m) → typeDeclaration? fuel ms is = some (p, rest) → p.tree.WellNamed
  ofTypeEnd {kind fields : Kind} {k : DeclarationKind} {head : List Piece} {is rest : List Item}
    {p : Piece} :
    Tree.declarationKind? kind = some k → fields.IsPlain → IsHead head →
      typeEnd? fuel kind fields head is = some (p, rest) → p.tree.WellNamed
  ofMember {fields : Kind} {is rest : List Item} {p : Piece} :
    fields.IsPlain → member? fuel fields is = some (p, rest) → p.tree.WellNamed
  ofMembers {fields : Kind} :
    fields.IsPlain → ∀ is, ∀ p ∈ memberPieces fuel fields is, p.tree.WellNamed

namespace FindsWellNamed

variable {fuel : Nat}

lemma zero : FindsWellNamed 0 where
  ofTypeDeclaration _ h := by cases h
  ofTypeEnd _ _ _ h := by cases h
  ofMember _ h := by cases h
  ofMembers _ := by simp [memberPieces]

lemma ofMember_succ (ih : FindsWellNamed fuel) {fields : Kind} (hfields : fields.IsPlain)
    {is rest : List Item} {p : Piece} (h : member? (fuel + 1) fields is = some (p, rest)) :
    p.tree.WellNamed := by
  have hms := isSidePart_of_mem_modifiers fuel is
  simp only [member?, Option.orElse_eq_orElse, Option.orElse_eq_or, Option.or_eq_some_iff] at h
  rcases h with h | ⟨_, h | ⟨_, h | ⟨_, h | ⟨_, h⟩⟩⟩⟩
  · exact ih.ofTypeDeclaration hms h
  · exact wellNamed_initializer? h
  · exact wellNamed_method? hms h
  · exact wellNamed_constructor? h
  · exact wellNamed_field? hfields h

lemma ofMembers_succ (ih : FindsWellNamed fuel) {fields : Kind} (hfields : fields.IsPlain)
    (is : List Item) : ∀ p ∈ memberPieces (fuel + 1) fields is, p.tree.WellNamed := by
  rw [memberPieces]
  split_ifs
  · simp
  · cases hm : member? fuel fields is with
    | none =>
      simp only [List.forall_mem_append]
      exact ⟨wellNamed_of_mem_broken is, ih.ofMembers hfields _⟩
    | some found =>
      simp only [List.forall_mem_cons]
      exact ⟨ih.ofMember hfields hm, ih.ofMembers hfields _⟩

lemma ofTypeEnd_succ (ih : FindsWellNamed fuel) {kind fields : Kind} {k : DeclarationKind}
    (hkind : Tree.declarationKind? kind = some k) (hfields : fields.IsPlain) {head : List Piece}
    (hhead : IsHead head) {is rest : List Item} {p : Piece}
    (h : typeEnd? (fuel + 1) kind fields head is = some (p, rest)) : p.tree.WellNamed := by
  rw [typeEnd?] at h
  generalize upToBlock is = found at h
  obtain ⟨clauses, is₁⟩ := found
  dsimp only at h
  split at h
  · obtain ⟨rfl, _⟩ := h
    exact wellNamed_type hkind hhead (ih.ofMembers hfields _) clauses _ _
  · cases h

lemma ofTypeDeclaration_succ (ih : FindsWellNamed fuel) {ms : List Piece}
    (hms : ∀ m ∈ ms, IsSidePart m) {is rest : List Item} {p : Piece}
    (h : typeDeclaration? (fuel + 1) ms is = some (p, rest)) : p.tree.WellNamed := by
  unfold typeDeclaration? at h
  split at h
  · rename_i keyword w tail
    have hhead (hw : w.word?.isSome) {more : List Piece} (hmore : ∀ p ∈ more, IsSidePart p) :
        IsHead (ms ++ [sign keyword, (leaf .identifier w).withRole .name] ++ more) :=
      isHead_of_isSidePart hms hmore keyword hw
    split at h
    · -- a class
      rename_i hw
      simp only [Option.bind_eq_bind, Option.bind_eq_some_iff] at h
      obtain ⟨⟨tps, is₁⟩, htps, h⟩ := h
      rw [List.append_assoc] at h
      refine ih.ofTypeEnd rfl (by decide) (hhead (by simp [hw]) ?_) h
      exact List.forall_mem_append.mpr
        ⟨isSidePart_of_typeParameters? htps, isSidePart_of_mem_superclass fuel is₁⟩
    · -- an interface
      rename_i hw
      simp only [Option.bind_eq_bind, Option.bind_eq_some_iff] at h
      obtain ⟨⟨tps, is₁⟩, htps, h⟩ := h
      refine ih.ofTypeEnd rfl (by decide) (hhead (by simp [hw]) ?_) h
      exact isSidePart_of_typeParameters? htps
    · -- a record
      rename_i hw
      simp only [Option.bind_eq_bind, Option.bind_eq_some_iff] at h
      obtain ⟨⟨tps, is₁⟩, htps, ⟨params, is₂⟩, hparams, h⟩ := h
      rw [List.append_assoc] at h
      refine ih.ofTypeEnd rfl (by decide) (hhead (by simp [hw]) ?_) h
      exact List.forall_mem_append.mpr ⟨isSidePart_of_typeParameters? htps,
        List.forall_mem_singleton.mpr (isSidePart_of_parameters? hparams)⟩
    · -- an enum
      rename_i hw
      generalize upToBlock tail = found at h
      obtain ⟨clauses, is₁⟩ := found
      dsimp only at h
      split at h
      · rename_i o is c rest'
        have hconstants := wellNamed_of_mem_enumConstants fuel is
        generalize enumConstants fuel is = found at h hconstants
        obtain ⟨cs, members⟩ := found
        have hfields : Kind.IsPlain .fieldDeclaration := by decide
        have hmembers := wellNamed_of_mem_behindConstants (ih.ofMembers hfields) members
        have hhead' := hhead (by simp [hw]) (List.forall_mem_nil IsSidePart)
        rw [List.append_nil] at hhead'
        obtain ⟨rfl, _⟩ := h
        exact wellNamed_type rfl hhead' (List.forall_mem_append.mpr ⟨hconstants, hmembers⟩)
          clauses o c
      · cases h
    · -- an annotation type
      split at h
      · split_ifs at h
        obtain ⟨rfl, _⟩ := h
        exact Tree.wellNamed_node_of_isPlain (by decide) _
      · cases h
    · cases h
  · cases h

theorem all (fuel : Nat) : FindsWellNamed fuel := by
  induction fuel with
  | zero => exact zero
  | succ fuel ih =>
    exact
      { ofTypeDeclaration := fun hms => ih.ofTypeDeclaration_succ hms
        ofTypeEnd := fun hkind hfields hhead => ih.ofTypeEnd_succ hkind hfields hhead
        ofMember := fun hfields => ih.ofMember_succ hfields
        ofMembers := fun hfields => ih.ofMembers_succ hfields }

end FindsWellNamed

/-! ### Compilation units -/

lemma wellNamed_package? {fuel : Nat} {is rest : List Item} {p : Piece}
    (h : package? fuel is = some (p, rest)) : p.tree.WellNamed := by
  rw [package?] at h
  generalize annotations fuel is = found at h
  obtain ⟨as, is₁⟩ := found
  cases is₁ with
  | nil => cases h
  | cons i is₁ =>
    simp only [Option.bind_eq_bind, Option.bind_eq_some_iff, Option.pure_def, Option.some.injEq,
      Prod.mk.injEq] at h
    obtain ⟨_, _, _, _, rfl, _⟩ := h
    exact Tree.wellNamed_node_of_isPlain (by decide) _

lemma wellNamed_import? {is rest : List Item} {p : Piece} (h : import? is = some (p, rest)) :
    p.tree.WellNamed := by
  rw [import?] at h
  split_ifs at h
  obtain ⟨rfl, _⟩ := h
  exact Tree.wellNamed_node_of_isPlain (by decide) _

lemma wellNamed_of_mem_unitPieces (fuel : Nat) (is : List Item) :
    ∀ p ∈ unitPieces fuel is, p.tree.WellNamed := by
  have hother : Kind.IsPlain .other := by decide
  induction fuel generalizing is with
  | zero => simp [unitPieces]
  | succ fuel ih =>
    rw [unitPieces]
    split_ifs
    · simp
    · split
      · rename_i p rest hfound
        rw [List.forall_mem_cons]
        refine ⟨?_, ih rest⟩
        simp only [Option.orElse_eq_orElse, Option.orElse_eq_or, Option.or_eq_some_iff] at hfound
        rcases hfound with h | ⟨_, h | ⟨_, h⟩⟩
        · exact wellNamed_package? h
        · exact wellNamed_import? h
        · exact (FindsWellNamed.all fuel).ofMember hother h
      · rw [List.forall_mem_append]
        exact ⟨wellNamed_of_mem_broken is, ih _⟩

end Parser

/-- The types and methods that a source declares are named by words. -/
theorem wellNamed_ofSource (source : String) :
    ∀ t ∈ (Tree.ofSource source).children, t.WellNamed := by
  unfold Tree.ofSource Parser.unit
  intro t ht
  simp only [Tree.children, List.mem_append, List.mem_flatMap, List.mem_map, Piece.trees,
    List.mem_singleton] at ht
  rcases ht with ⟨p, hp, ⟨c, _, rfl⟩ | rfl⟩ | ⟨c, _, rfl⟩
  · exact Tree.wellNamed_comment c
  · exact Parser.wellNamed_of_mem_unitPieces _ _ p hp
  · exact Tree.wellNamed_comment c

end ServiceDocs.Java
