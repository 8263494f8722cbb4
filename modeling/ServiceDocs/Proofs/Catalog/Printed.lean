import ServiceDocs.Catalog.Basic
import ServiceDocs.Proofs.Java.ClassTrees

/-!
# Declarations of printed classes

A class that is written with its fields and its methods is declared again when its text is read:
every type of a field or a parameter, and every type of a result, comes back as it was. The text has
the tree that the grammar prescribes, and that tree declares the class.
-/

namespace ServiceDocs

open Java Java.Parser

/-- The tree of the text of a class is the one that the grammar prescribes. -/
lemma ofSource_classText {name : String} (hname : IsName name) {ms : List ClassMember}
    (h : ∀ m ∈ ms, m.IsPrintable) :
    ∃ us, Tree.ofSource (classText name ms) = .node none .program [Tree.classTree name us] ∧
      List.Forall₂ Tree.IsMemberTree ms us := by
  have hprints := prints_classItems hname h
  have htokens : Token.ofSource (classText name ms) =
      (Item.tokensAll (classItems name ms), []) := by
    have hspaced := hprints.spaced (fun t ht => by cases ht) .nil
    rw [List.append_nil] at hspaced
    rw [← Token.ofSource_source hspaced, hprints.source_eq, String.ofList_toList]
  obtain ⟨us, hus, htrees⟩ := unitPieces_classItems hname h
    (show 8 * size (classItems name ms) + 2 ≤ 8 * size (classItems name ms) + 64 by omega)
  have hunit : unitPieces (8 * (Item.tokensAll (classItems name ms)).length + 64)
      (classItems name ms) = [⟨[], Tree.classTree name us⟩] := hus
  refine ⟨us, ?_, htrees⟩
  rw [Tree.ofSource, htokens]
  simp only [Parser.unit, Item.ofTokens_tokensAll hprints.balanced, hunit]
  rfl

namespace Catalog

/-- Types are read as they are displayed: the text of a class declares the fields and the methods
that it has been written with. -/
theorem declarationsOf_classText (path : String) {name : String} (hname : IsName name)
    {ms : List ClassMember} (h : ∀ m ∈ ms, m.IsPrintable) :
    declarationsOf path (classText name ms) = [classDeclaration path name ms] := by
  obtain ⟨us, hsource, htrees⟩ := ofSource_classText hname h
  rw [declarationsOf, hsource, Tree.declarations_classTree path name htrees]

/-- A map of lists of arrays, in two dimensions. -/
def indexType : TypeExpr :=
  .array (.array (.named "Map" [.array (.ofName "byte"),
    .array (.named "List" [.named "Page" [.array (.ofName "Order")], .ofName "T"])]))

/-- The members of a class with such types. -/
def indexMembers : List ClassMember :=
  [.field ⟨"index", indexType⟩,
    .method (.named "List" [indexType]) "find"
      [⟨"ids", .array (.ofName "long")⟩, ⟨"index", indexType⟩],
    .method (.ofName "void") "clear" []]

theorem declarationsOf_classText_index :
    IsName "Orders" ∧ (∀ m ∈ indexMembers, m.IsPrintable) ∧
      classText "Orders" indexMembers = "class Orders \x7b" ++
        "\n  Map<byte[], List<Page<Order[]>, T>[]>[][] index;" ++
        "\n  List<Map<byte[], List<Page<Order[]>, T>[]>[][]> find(long[] ids, " ++
          "Map<byte[], List<Page<Order[]>, T>[]>[][] index);" ++
        "\n  void clear();\n\x7d" ∧
      declarationsOf "Orders.java" (classText "Orders" indexMembers) =
        [classDeclaration "Orders.java" "Orders" indexMembers] := by
  have hname : IsName "Orders" := by decide
  have hmembers : ∀ m ∈ indexMembers, m.IsPrintable := by decide
  exact ⟨hname, hmembers, by decide +kernel,
    declarationsOf_classText "Orders.java" hname hmembers⟩

end Catalog

end ServiceDocs
