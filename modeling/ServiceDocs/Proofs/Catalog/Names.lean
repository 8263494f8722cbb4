import ServiceDocs.Catalog.Files
import ServiceDocs.Proofs.Java.Names

/-!
# Names of declarations

The names of the types and methods in a catalog are words of the sources, so they can be used as
the names of files.
-/

namespace ServiceDocs

open Java

/-- The declaration and its methods are named by words. -/
structure Declaration.NamedByWords (d : Declaration) : Prop where
  name : isWord d.name.toList
  methods : ∀ m ∈ d.methods, isWord m.name.toList

/-! ### Declarations of a tree -/

namespace Java.Tree

lemma WellNamed.of_enumBodyDeclarations {t : Tree} (h : t.WellNamed)
    (hkind : t.kind = .enumBodyDeclarations) : ∀ c ∈ t.children, c.WellNamed := by
  cases h with
  | leaf role kind gap text => simp [children]
  | plain role ts hplain => exact absurd hkind hplain.2.2
  | method hname => cases hkind
  | members role hts => exact hts
  | type hdeclares hname hbody =>
    obtain rfl : _ = Kind.enumBodyDeclarations := hkind
    cases hdeclares

lemma WellNamed.of_declaration {role : Option Role} {kind : Kind} {ts : List Tree}
    {k : DeclarationKind} (h : (Tree.node role kind ts).WellNamed)
    (hkind : declarationKind? kind = some k) :
    ∀ b ∈ ts, b.role = some .body → ∀ c ∈ b.children, c.WellNamed := by
  cases h with
  | plain role ts hplain =>
    rw [hplain.1] at hkind
    cases hkind
  | method hname => cases hkind
  | members role hts => cases hkind
  | type hdeclares hname hbody => exact hbody

lemma WellNamed.isWord_name {t n : Tree} (h : t.WellNamed) (hkind : ¬ t.kind.IsPlain)
    (hmembers : t.kind ≠ .enumBodyDeclarations) (hn : t.child? .name = some n) :
    isWord n.text.toList := by
  have hnamed : t.IsNamedByWord := by
    cases h with
    | leaf role kind gap text => simp [child?, children] at hn
    | plain role ts hplain => exact absurd hplain hkind
    | method hname => exact hname
    | members role hts => exact absurd rfl hmembers
    | type hdeclares hname hbody => exact hname
  obtain ⟨m, hm, hword⟩ := hnamed
  rw [hn, Option.some.injEq] at hm
  exact hm ▸ hword

mutual

lemma wellNamed_of_mem_members : (t : Tree) → (∀ c ∈ t.children, c.WellNamed) →
    ∀ p ∈ t.members, p.tree.WellNamed
  | .leaf _ _ _ _, _ => by simp [members]
  | .node _ _ ts,  h => by
    rw [members]
    exact wellNamed_of_mem_membersBehind [] ts h

lemma wellNamed_of_mem_membersBehind (before : List Tree) : (ts : List Tree) →
    (∀ t ∈ ts, t.WellNamed) → ∀ p ∈ membersBehind before ts, p.tree.WellNamed
  | [],      _ => by simp [membersBehind]
  | t :: ts, h => by
    obtain ⟨ht, hts⟩ := List.forall_mem_cons.mp h
    rw [membersBehind, List.forall_mem_append]
    refine ⟨?_, wellNamed_of_mem_membersBehind (t :: before) ts hts⟩
    split_ifs with hkind
    · exact wellNamed_of_mem_members t (ht.of_enumBodyDeclarations hkind)
    · rw [List.forall_mem_singleton]
      exact ht

end

lemma isWord_of_method? {package owner : String} {p : Placed} (hp : p.tree.WellNamed) {m : Method}
    (hm : p.method? package owner = some m) : isWord m.name.toList := by
  rw [Placed.method?] at hm
  split_ifs at hm with hkind
  rw [Bool.and_eq_true, decide_eq_true_eq] at hkind
  simp only [Tree.method?, Option.bind_eq_bind, Option.bind_eq_some_iff, Option.pure_def,
    Option.some.injEq] at hm
  obtain ⟨name, hname, _, _, rfl⟩ := hm
  exact hp.isWord_name (by simp [Kind.IsPlain, hkind.1]) (by simp [hkind.1]) hname

/-- A declaration whose body is well named has methods that are named by words. -/
lemma namedByWords_declaration (package path : String) (kind : DeclarationKind)
    (before : List Tree) {t n : Tree} (hname : isWord n.text.toList)
    (hbody : ∀ b ∈ t.children, b.role = some .body → ∀ c ∈ b.children, c.WellNamed) :
    (declaration package path kind n.text before t).NamedByWords where
  name := hname
  methods := by
    intro m hm
    obtain ⟨p, hp, hmethod⟩ := List.mem_filterMap.mp hm
    refine isWord_of_method? ?_ hmethod
    cases hb : t.child? .body with
    | none => simp [hb] at hp
    | some b =>
      simp only [hb] at hp
      have hrole : b.role = some .body := by simpa using List.find?_some hb
      exact wellNamed_of_mem_members b (hbody b (List.mem_of_find?_eq_some hb) hrole) p hp

mutual

lemma namedByWords_of_mem_declarationsAt (package path : String) (before : List Tree) :
    (t : Tree) → t.WellNamed → ∀ d ∈ declarationsAt package path before t, d.NamedByWords
  | .leaf _ _ _ _,     _ => by simp [declarationsAt]
  | .node role kind ts, h => by
    rw [declarationsAt]
    split
    · rename_i k name hkind hname
      have hplain : ¬ kind.IsPlain := by simp [Kind.IsPlain, hkind]
      have hmembers : kind ≠ .enumBodyDeclarations := by
        rintro rfl
        cases hkind
      have hbody := h.of_declaration hkind
      rw [List.forall_mem_append, List.forall_mem_singleton]
      exact ⟨namedByWords_of_mem_bodyDeclarations package path ts hbody,
        namedByWords_declaration package path k before (h.isWord_name hplain hmembers hname) hbody⟩
    · simp

lemma namedByWords_of_mem_bodyDeclarations (package path : String) : (ts : List Tree) →
    (∀ b ∈ ts, b.role = some .body → ∀ c ∈ b.children, c.WellNamed) →
    ∀ d ∈ bodyDeclarations package path ts, d.NamedByWords
  | [],      _ => by simp [bodyDeclarations]
  | t :: ts, h => by
    obtain ⟨ht, hts⟩ := List.forall_mem_cons.mp h
    rw [bodyDeclarations]
    split_ifs with hrole
    · exact namedByWords_of_mem_declarationsIn package path t (ht hrole)
    · exact namedByWords_of_mem_bodyDeclarations package path ts hts

lemma namedByWords_of_mem_declarationsIn (package path : String) : (t : Tree) →
    (∀ c ∈ t.children, c.WellNamed) → ∀ d ∈ declarationsIn package path t, d.NamedByWords
  | .leaf _ _ _ _, _ => by simp [declarationsIn]
  | .node _ _ ts,  h => by
    rw [declarationsIn]
    exact namedByWords_of_mem_declarationsBehind package path [] ts h

lemma namedByWords_of_mem_declarationsBehind (package path : String) (before : List Tree) :
    (ts : List Tree) → (∀ t ∈ ts, t.WellNamed) →
    ∀ d ∈ declarationsBehind package path before ts, d.NamedByWords
  | [],      _ => by simp [declarationsBehind]
  | t :: ts, h => by
    obtain ⟨ht, hts⟩ := List.forall_mem_cons.mp h
    rw [declarationsBehind, List.forall_mem_append]
    refine ⟨?_, namedByWords_of_mem_declarationsBehind package path (t :: before) ts hts⟩
    split_ifs with hkind
    · exact namedByWords_of_mem_declarationsIn package path t (ht.of_enumBodyDeclarations hkind)
    · exact namedByWords_of_mem_declarationsAt package path before t ht

end

end Java.Tree

/-! ### Catalogs -/

namespace Catalog

/-- All declarations of the catalog are named by words, and so are their methods. -/
def NamedByWords (c : Catalog) : Prop :=
  ∀ d ∈ c.declarations, d.NamedByWords

lemma namedByWords_of_mem_declarationsOf (path source : String) :
    ∀ d ∈ declarationsOf path source, d.NamedByWords :=
  Tree.namedByWords_of_mem_declarationsIn _ path _ (wellNamed_ofSource source)

lemma NamedByWords.insert {c : Catalog} (hc : c.NamedByWords) {d : Declaration}
    (hd : d.NamedByWords) : (c.insert d).NamedByWords := by
  rw [Catalog.insert]
  split_ifs
  · exact hc
  · exact List.forall_mem_append.mpr ⟨hc, List.forall_mem_singleton.mpr hd⟩

lemma NamedByWords.insertAll {c : Catalog} (hc : c.NamedByWords) {ds : List Declaration}
    (hds : ∀ d ∈ ds, d.NamedByWords) : (c.insertAll ds).NamedByWords := by
  induction ds generalizing c with
  | nil => exact hc
  | cons d ds ih =>
    obtain ⟨hd, hds⟩ := List.forall_mem_cons.mp hds
    exact ih (hc.insert hd) hds

section Files

variable {fs : FileTree} {c c' : Catalog} {n : Nat}

lemma NamedByWords.addFile (hc : c.NamedByWords) {path : String}
    (h : c.addFile fs path = .ok (c', n)) : c'.NamedByWords := by
  rw [Catalog.addFile] at h
  split at h
  · obtain ⟨rfl, _⟩ := h
    exact hc.insertAll (namedByWords_of_mem_declarationsOf path _)
  · cases h

lemma NamedByWords.addReadable (hc : c.NamedByWords) (fs : FileTree) (paths : List String) :
    (c.addReadable fs paths).1.NamedByWords := by
  induction paths generalizing c with
  | nil => exact hc
  | cons path paths ih =>
    rw [Catalog.addReadable]
    split
    · rename_i hadd
      exact ih (hc.addFile hadd)
    · exact ih hc

lemma NamedByWords.addPath (hc : c.NamedByWords) {path : String}
    (h : c.addPath fs path = .ok (c', n)) : c'.NamedByWords := by
  rw [Catalog.addPath] at h
  split at h
  · rename_i place mode hdirectory
    have hread := hc.addReadable fs (sourcesBelow fs path place)
    simp only [Except.ok.injEq] at h
    rw [h] at hread
    exact hread
  · exact hc.addFile h
  · cases h

/-- Whatever sources are read, the catalog is named by words. -/
theorem namedByWords_ofPaths {paths : List String} (h : ofPaths fs paths = .ok c) :
    c.NamedByWords := by
  suffices hfold : ∀ {c₀ : Catalog}, c₀.NamedByWords →
      paths.foldlM (fun c path => (c.addPath fs path).map (·.1)) c₀ = .ok c → c.NamedByWords from
    hfold (by simp [NamedByWords]) h
  clear h
  induction paths with
  | nil =>
    intro c₀ hc₀ h
    cases h
    exact hc₀
  | cons path paths ih =>
    intro c₀ hc₀ h
    rw [List.foldlM_cons] at h
    cases hadd : c₀.addPath fs path with
    | error e => simp [hadd, Except.map, bind, Except.bind] at h
    | ok added =>
      simp only [hadd, Except.map, bind, Except.bind] at h
      exact ih (hc₀.addPath hadd) h

end Files

end Catalog

end ServiceDocs
