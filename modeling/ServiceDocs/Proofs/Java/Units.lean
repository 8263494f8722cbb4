import ServiceDocs.Proofs.Java.Names

/-!
# The top of a source

At the top of a source there are declarations, and what is passed over between them. The node that
holds the members of an enum behind its constants is not among them: it stands in bodies only.
-/

namespace ServiceDocs.Java

@[simp] lemma Piece.kind_node (kind : Kind) (ps : List Piece) :
    (Piece.node kind ps).tree.kind = kind := by
  cases ps <;> rfl

namespace Parser

/-- The piece may stand outside the body of an enum. -/
def IsFree (p : Piece) : Prop :=
  p.tree.kind ≠ .enumBodyDeclarations

lemma isFree_node {kind : Kind} (h : kind ≠ .enumBodyDeclarations) (ps : List Piece) :
    IsFree (.node kind ps) := by
  rw [IsFree, Piece.kind_node]
  exact h

variable {fuel : ℕ} {is rest : List Item} {ms : List Piece} {p : Piece}

lemma isFree_typeEnd? {kind fields : Kind} {head : List Piece}
    (hkind : kind ≠ .enumBodyDeclarations)
    (h : typeEnd? fuel kind fields head is = some (p, rest)) : IsFree p := by
  unfold typeEnd? at h
  grind [isFree_node]

lemma isFree_typeDeclaration? (h : typeDeclaration? fuel ms is = some (p, rest)) : IsFree p := by
  cases fuel with
  | zero => cases h
  | succ fuel =>
    unfold typeDeclaration? at h
    split at h
    · split at h
      · -- a class
        simp only [Option.bind_eq_bind, Option.bind_eq_some_iff] at h
        obtain ⟨_, _, h⟩ := h
        exact isFree_typeEnd? (by decide) h
      · -- an interface
        simp only [Option.bind_eq_bind, Option.bind_eq_some_iff] at h
        obtain ⟨_, _, h⟩ := h
        exact isFree_typeEnd? (by decide) h
      · -- a record
        simp only [Option.bind_eq_bind, Option.bind_eq_some_iff] at h
        obtain ⟨_, _, _, _, h⟩ := h
        exact isFree_typeEnd? (by decide) h
      · -- an enum
        grind [isFree_node]
      · -- an annotation type
        grind [isFree_node]
      · cases h
    · cases h

lemma isFree_method? (h : method? fuel ms is = some (p, rest)) : IsFree p := by
  simp only [method?, Option.bind_eq_bind, Option.bind_eq_some_iff] at h
  obtain ⟨_, _, ⟨_, is₁⟩, _, h⟩ := h
  cases is₁ with
  | nil => cases h
  | cons w is₂ =>
    simp only [Option.bind_eq_some_iff, Option.pure_def, Option.some.injEq, Prod.mk.injEq] at h
    obtain ⟨_, _, _, _, rfl, _⟩ := h
    exact isFree_node (by decide) _

lemma isFree_constructor? (h : constructor? fuel ms is = some (p, rest)) : IsFree p := by
  simp only [constructor?, Option.bind_eq_bind, Option.bind_eq_some_iff] at h
  obtain ⟨⟨_, is₁⟩, _, h⟩ := h
  cases is₁ with
  | nil => cases h
  | cons w is₂ =>
    simp only [Option.bind_eq_some_iff] at h
    obtain ⟨_, _, h⟩ := h
    split at h
    · obtain ⟨rfl, _⟩ := h
      exact isFree_node (by decide) _
    · simp only [Option.bind_eq_some_iff, Option.pure_def, Option.some.injEq, Prod.mk.injEq] at h
      obtain ⟨_, _, rfl, _⟩ := h
      exact isFree_node (by decide) _

lemma isFree_field? {kind : Kind} (hkind : kind ≠ .enumBodyDeclarations)
    (h : field? fuel kind ms is = some (p, rest)) : IsFree p := by
  simp only [field?, Option.bind_eq_bind, Option.bind_eq_some_iff, Option.pure_def,
    Option.some.injEq, Prod.mk.injEq] at h
  obtain ⟨_, _, _, _, rfl, _⟩ := h
  exact isFree_node hkind _

lemma isFree_initializer? (h : initializer? ms is = some (p, rest)) : IsFree p := by
  unfold initializer? at h
  grind [isFree_node]

lemma isFree_member? {fields : Kind} (hfields : fields ≠ .enumBodyDeclarations)
    (h : member? fuel fields is = some (p, rest)) : IsFree p := by
  cases fuel with
  | zero => cases h
  | succ fuel =>
    simp only [member?, Option.orElse_eq_orElse, Option.orElse_eq_or, Option.or_eq_some_iff] at h
    rcases h with h | ⟨_, h | ⟨_, h | ⟨_, h | ⟨_, h⟩⟩⟩⟩
    · exact isFree_typeDeclaration? h
    · exact isFree_initializer? h
    · exact isFree_method? h
    · exact isFree_constructor? h
    · exact isFree_field? hfields h

lemma isFree_package? (h : package? fuel is = some (p, rest)) : IsFree p := by
  rw [package?] at h
  generalize annotations fuel is = found at h
  obtain ⟨_, is₁⟩ := found
  cases is₁ with
  | nil => cases h
  | cons i is₁ =>
    simp only [Option.bind_eq_bind, Option.bind_eq_some_iff, Option.pure_def, Option.some.injEq,
      Prod.mk.injEq] at h
    obtain ⟨_, _, _, _, rfl, _⟩ := h
    exact isFree_node (by decide) _

lemma isFree_import? (h : import? is = some (p, rest)) : IsFree p := by
  unfold import? at h
  grind [isFree_node]

lemma isFree_of_mem_broken (is : List Item) : ∀ p ∈ (broken is).1, IsFree p := by
  cases is with
  | nil => simp [broken]
  | cons i is =>
    rw [broken]
    split_ifs
    · rw [List.forall_mem_singleton]
      cases i with
      | token t => exact fun h => by cases h
      | group opening is closing => exact isFree_node (by decide) _
    · obtain ⟨more, rest⟩ := brokenRest i is
      dsimp only
      intro p hp
      rw [mem_span hp]
      exact isFree_node (by decide) _

lemma isFree_of_mem_unitPieces (fuel : ℕ) (is : List Item) : ∀ p ∈ unitPieces fuel is, IsFree p := by
  induction fuel generalizing is with
  | zero => simp [unitPieces]
  | succ fuel ih =>
    rw [unitPieces]
    split_ifs
    · simp
    · split
      · rename_i p rest hfound
        rw [List.forall_mem_cons]
        refine ⟨?_, ih rest⟩
        simp only [Option.orElse_eq_orElse, Option.orElse_eq_or, Option.or_eq_some_iff] at hfound
        rcases hfound with h | ⟨_, h | ⟨_, h⟩⟩
        · exact isFree_package? h
        · exact isFree_import? h
        · exact isFree_member? (by decide) h
      · rw [List.forall_mem_append]
        exact ⟨isFree_of_mem_broken is, ih _⟩

end Parser

/-- No members of an enum stand at the top of a source without the enum. -/
theorem kind_of_mem_children_ofSource (source : String) :
    ∀ t ∈ (Tree.ofSource source).children, t.kind ≠ .enumBodyDeclarations := by
  have hcomment (c : Comment) : c.tree.kind ≠ .enumBodyDeclarations := by
    show (if c.isBlock then Kind.blockComment else .lineComment) ≠ _
    split <;> decide
  unfold Tree.ofSource Parser.unit
  intro t ht
  simp only [Tree.children, List.mem_append, List.mem_flatMap, List.mem_map, Piece.trees,
    List.mem_singleton] at ht
  rcases ht with ⟨p, hp, ⟨c, _, rfl⟩ | rfl⟩ | ⟨c, _, rfl⟩
  · exact hcomment c
  · exact Parser.isFree_of_mem_unitPieces _ _ p hp
  · exact hcomment c

end ServiceDocs.Java
