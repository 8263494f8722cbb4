import Mathlib.Data.List.Perm.Basic
import ServiceDocs.Proofs.Catalog.Agreement

/-!
# Lists of sources

Sources are added one after the other, and each name stands for its declaration in the first source
that has one. So sources without a common name can be added in any order: the declarations are the
same, and so are all answers about types, whatever the catalog holds already. And sources of
which nothing is mentioned in the other ones can be left out.
-/

namespace ServiceDocs

/-- The text of a source, with the path under which it is added. -/
structure SourceText where
  path : String
  text : String
deriving DecidableEq, Repr

namespace SourceText

/-- The declarations of a source, repeated names included. -/
def declarations (s : SourceText) : List Declaration :=
  Catalog.declarationsOf s.path s.text

/-- The names that a source declares. -/
def names (s : SourceText) : List String :=
  s.declarations.map (·.name)

/-- The declaration of that name; the first one if there are several. -/
def get? (s : SourceText) (name : String) : Option Declaration :=
  s.declarations.find? (·.name = name)

lemma get?_eq_none_iff {s : SourceText} {name : String} : s.get? name = none ↔ name ∉ s.names := by
  simp [get?, names]

end SourceText

namespace Catalog

/-- Add sources one after the other. -/
def addSources (c : Catalog) (ss : List SourceText) : Catalog :=
  ss.foldl (fun c s => c.addSource s.path s.text) c

variable {c c' : Catalog}

lemma addSources_cons (c : Catalog) (s : SourceText) (ss : List SourceText) :
    c.addSources (s :: ss) = (c.insertAll s.declarations).addSources ss := rfl

/-- A name stands for the declaration that is there, and else for the one in the earliest source
that declares it. -/
lemma get?_addSources (c : Catalog) (ss : List SourceText) (name : String) :
    (c.addSources ss).get? name = (c.get? name).or (ss.findSome? (·.get? name)) := by
  induction ss generalizing c with
  | nil => rw [List.findSome?_nil, Option.or_none]; rfl
  | cons s ss ih =>
    rw [addSources_cons, ih, get?_insertAll, Option.or_assoc, List.findSome?_cons]
    rw [SourceText.get?]
    cases s.declarations.find? (·.name = name) <;> rfl

/-! ### Order -/

/-- The catalogs hold the same declarations, perhaps in another order. -/
def SameDeclarations (c c' : Catalog) : Prop :=
  c.declarations.Perm c'.declarations

lemma SameDeclarations.mem_names_iff (h : c.SameDeclarations c') {name : String} :
    name ∈ c.names ↔ name ∈ c'.names :=
  (h.map _).mem_iff

lemma SameDeclarations.insert (h : c.SameDeclarations c') (d : Declaration) :
    (c.insert d).SameDeclarations (c'.insert d) := by
  by_cases hd : d.name ∈ c.names
  · rwa [insert_of_mem hd, insert_of_mem (h.mem_names_iff.mp hd)]
  · rw [insert_of_notMem hd, insert_of_notMem (mt h.mem_names_iff.mpr hd)]
    exact h.append_right [d]

lemma SameDeclarations.insertAll (h : c.SameDeclarations c') (ds : List Declaration) :
    (c.insertAll ds).SameDeclarations (c'.insertAll ds) := by
  induction ds generalizing c c' with
  | nil => exact h
  | cons d ds ih => exact ih (h.insert d)

lemma SameDeclarations.addSources (h : c.SameDeclarations c') (ss : List SourceText) :
    (c.addSources ss).SameDeclarations (c'.addSources ss) := by
  induction ss generalizing c c' with
  | nil => exact h
  | cons s ss ih =>
    rw [addSources_cons, addSources_cons]
    exact ih (h.insertAll s.declarations)

/-- Two declarations with different names can be inserted in either order. -/
lemma sameDeclarations_insert_insert (c : Catalog) {d e : Declaration} (hne : e.name ≠ d.name) :
    ((c.insert d).insert e).SameDeclarations ((c.insert e).insert d) := by
  have hmem : ∀ {a b : Declaration}, b.name ≠ a.name →
      (b.name ∈ (c.insert a).names ↔ b.name ∈ c.names) := by
    intro a b hne
    by_cases ha : a.name ∈ c.names
    · rw [insert_of_mem ha]
    · rw [names_insert_of_notMem ha, List.mem_append, List.mem_singleton, or_iff_left hne]
  by_cases hd : d.name ∈ c.names <;> by_cases he : e.name ∈ c.names
  · rw [insert_of_mem ((hmem hne).mpr he), insert_of_mem ((hmem hne.symm).mpr hd),
      insert_of_mem hd, insert_of_mem he]
    exact List.Perm.refl _
  · rw [insert_of_mem ((hmem hne.symm).mpr hd), insert_of_mem hd]
    exact List.Perm.refl _
  · rw [insert_of_mem ((hmem hne).mpr he), insert_of_mem he]
    exact List.Perm.refl _
  · rw [insert_of_notMem (mt (hmem hne).mp he), insert_of_notMem (mt (hmem hne.symm).mp hd),
      insert_of_notMem hd, insert_of_notMem he]
    simp only [SameDeclarations, List.append_assoc]
    exact List.perm_append_comm.append_left c.declarations

lemma sameDeclarations_insertAll_insert (c : Catalog) {d : Declaration} {ds : List Declaration}
    (hne : ∀ e ∈ ds, e.name ≠ d.name) :
    ((c.insertAll ds).insert d).SameDeclarations ((c.insert d).insertAll ds) := by
  induction ds generalizing c with
  | nil => exact List.Perm.refl _
  | cons e ds ih =>
    obtain ⟨he, hne⟩ := List.forall_mem_cons.mp hne
    have hswap := (sameDeclarations_insert_insert c he.symm).insertAll ds
    exact (ih (c.insert e) hne).trans hswap

lemma sameDeclarations_insertAll_insertAll (c : Catalog) {ds es : List Declaration}
    (hne : ∀ d ∈ ds, ∀ e ∈ es, d.name ≠ e.name) :
    ((c.insertAll ds).insertAll es).SameDeclarations ((c.insertAll es).insertAll ds) := by
  induction es generalizing c with
  | nil => exact List.Perm.refl _
  | cons e es ih =>
    have hmove := sameDeclarations_insertAll_insert c
      (fun d hd => hne d hd e List.mem_cons_self)
    have hrest := ih (c.insert e) fun d hd e' he' => hne d hd e' (List.mem_cons_of_mem e he')
    exact (hmove.insertAll es).trans hrest

/-- Of sources without a common name, each two can be exchanged. -/
lemma sameDeclarations_addSources_of_perm {ss ts : List SourceText} (hperm : ss.Perm ts)
    (hdisjoint : ss.Pairwise fun s t => s.names.Disjoint t.names) (c : Catalog) :
    (c.addSources ss).SameDeclarations (c.addSources ts) := by
  induction hperm generalizing c with
  | nil => exact List.Perm.refl _
  | cons s _ ih =>
    rw [addSources_cons, addSources_cons]
    exact ih (List.pairwise_cons.mp hdisjoint).2 _
  | swap s t ss =>
    have hts := (List.pairwise_cons.mp hdisjoint).1 s List.mem_cons_self
    simp only [addSources_cons]
    apply SameDeclarations.addSources
    apply sameDeclarations_insertAll_insertAll
    intro d hd e he hname
    exact hts (List.mem_map_of_mem hd) (hname ▸ List.mem_map_of_mem he)
  | trans hperm₁ _ ih₁ ih₂ =>
    have hdisjoint' := (hperm₁.pairwise_iff List.disjoint_symm).mp hdisjoint
    exact (ih₁ hdisjoint c).trans (ih₂ hdisjoint' c)

/-- What is found in at most one item of a list is found in any order of the items. -/
lemma findSome?_eq_of_perm {α β : Type} {f : α → Option β} {xs ys : List α} (hperm : xs.Perm ys)
    (hone : xs.Pairwise fun x y => f x = none ∨ f y = none) :
    xs.findSome? f = ys.findSome? f := by
  induction hperm with
  | nil => rfl
  | cons x _ ih =>
    rw [List.findSome?_cons, List.findSome?_cons, ih (List.pairwise_cons.mp hone).2]
  | swap x y xs =>
    simp only [List.findSome?_cons]
    rcases (List.pairwise_cons.mp hone).1 x List.mem_cons_self with hy | hx
    · simp only [hy]
    · simp only [hx]
  | trans hperm₁ _ ih₁ ih₂ =>
    have hone' := (hperm₁.pairwise_iff fun h => h.symm).mp hone
    exact (ih₁ hone).trans (ih₂ hone')

lemma get?_addSources_of_perm {ss ts : List SourceText} (hperm : ss.Perm ts)
    (hdisjoint : ss.Pairwise fun s t => s.names.Disjoint t.names) (c : Catalog) :
    (c.addSources ss).get? = (c.addSources ts).get? := by
  funext name
  have hone : ss.Pairwise fun s t => s.get? name = none ∨ t.get? name = none := by
    apply hdisjoint.imp
    intro s t hst
    simp only [SourceText.get?_eq_none_iff]
    by_cases hs : name ∈ s.names
    · exact .inr (hst hs)
    · exact .inl hs
  rw [get?_addSources, get?_addSources, findSome?_eq_of_perm hperm hone]

/-- All answers of a catalog follow from the declarations of names. -/
lemma source_eq_of_get? (h : c'.get? = c.get?) : c'.source = c.source := by
  have hagree : AgreeOn Set.univ c c' := ⟨fun name _ => congrFun h name, fun _ _ _ _ _ _ => trivial⟩
  have hwithin : ∀ t : TypeExpr, t.Within Set.univ := fun _ _ _ => trivial
  have hanswers := hagree.source
  have hmembers : c'.members? = c.members? := funext fun t => hanswers.members? t (hwithin t)
  have hterminal : c'.isTerminal = c.isTerminal :=
    funext fun t => hanswers.isTerminal t (hwithin t)
  have hsample : c'.sample = c.sample := funext fun t => hanswers.sample t (hwithin t)
  rw [source, source, h, hmembers, hterminal, hsample]

/-- Sources without a common name can be added to any catalog in any order. The catalogs have as
many declarations, the same one for every name, and they give the same answers to all questions
about types, so the same is documented; only the order of the declarations may differ. Where sources
have common names, a name that is not there before stands for its declaration in the earliest source
that has one. -/
theorem addSources_of_perm (c : Catalog) {ss ts : List SourceText} (hperm : ss.Perm ts)
    (hdisjoint : ss.Pairwise fun s t => s.names.Disjoint t.names) :
    let one := c.addSources ss
    let other := c.addSources ts
    one.size = other.size ∧ (∀ name, one.get? name = other.get? name) ∧
      one.source = other.source ∧
      (∀ depth type method, Generation.entriesFor one.source depth type method =
        Generation.entriesFor other.source depth type method) ∧
      one.declarations.Perm other.declarations ∧
      ∀ (us : List SourceText) (name : String),
        (c.addSources us).get? name = (c.get? name).or (us.findSome? (·.get? name)) := by
  intro one other
  have hsame : one.SameDeclarations other := sameDeclarations_addSources_of_perm hperm hdisjoint c
  have hget : one.get? = other.get? := get?_addSources_of_perm hperm hdisjoint c
  have hsource : one.source = other.source := source_eq_of_get? hget
  refine ⟨hsame.length_eq, congrFun hget, hsource, ?_, hsame, get?_addSources c⟩
  intro depth type method
  rw [hsource]

/-- Two sources that refer to each other, added to a catalog that has a type of the same name as one
of them. The interface comes before or behind the class, but all answers are the same. -/
theorem addSources_of_perm_exchanged :
    let c := Catalog.addSource {} "Base.java" "class Base { int id; } class Page {}"
    let user : SourceText :=
      ⟨"User.java", "class User extends Base { Page page; } enum Role { ADMIN }"⟩
    let api : SourceText :=
      ⟨"Api.java", "interface Api { User find(Role role); } class Page { User owner; }"⟩
    [user, api].Perm [api, user] ∧
      ([user, api].Pairwise fun s t => s.names.Disjoint t.names) ∧
      (c.addSources [user, api]).source = (c.addSources [api, user]).source ∧
      (c.addSources [user, api]).names = ["Base", "Page", "User", "Role", "Api"] ∧
      (c.addSources [api, user]).names = ["Base", "Page", "Api", "User", "Role"] := by
  intro c user api
  have hperm : [user, api].Perm [api, user] := .swap api user []
  have hnames : ∀ name ∈ user.names, name ∉ api.names := by decide +kernel
  have hdisjoint : [user, api].Pairwise fun s t => s.names.Disjoint t.names :=
    List.pairwise_pair.mpr hnames
  exact ⟨hperm, hdisjoint, (c.addSources_of_perm hperm hdisjoint).2.2.1, by decide +kernel,
    by decide +kernel⟩

/-! ### Unrelated sources -/

/-- Nothing that the second sources declare is declared or mentioned in the first ones. -/
def Unrelated (ss ts : List SourceText) : Prop :=
  ∀ s ∈ ss, ∀ d ∈ s.declarations, ∀ t ∈ ts, ∀ name ∈ t.names, name ≠ d.name ∧ name ∉ d.mentions

/-- Items in which nothing is found can be left out. -/
lemma findSome?_eq_of_sublist {α β : Type} {f : α → Option β} {xs zs : List α}
    (hsub : xs.Sublist zs) {ys : List α} (hall : zs.Perm (xs ++ ys))
    (hnone : ∀ y ∈ ys, f y = none) : zs.findSome? f = xs.findSome? f := by
  induction hsub generalizing ys with
  | slnil => rfl
  | @cons xs zs z hsub ih =>
    obtain ⟨rest, hrest⟩ := hsub.exists_perm_append
    have hys : (z :: rest).Perm ys := by
      rw [← List.perm_append_left_iff xs]
      exact (List.perm_middle.trans (hrest.symm.cons z)).trans hall
    have hz : f z = none := hnone z (hys.mem_iff.mp List.mem_cons_self)
    rw [List.findSome?_cons, hz]
    exact ih hrest fun y hy => hnone y (hys.mem_iff.mp (List.mem_cons_of_mem z hy))
  | @cons_cons xs zs z hsub ih =>
    rw [List.findSome?_cons, List.findSome?_cons, ih (List.Perm.cons_inv hall) hnone]

lemma exists_mem_of_get?_addSources {ss : List SourceText} {name : String} {d : Declaration}
    (h : (Catalog.addSources {} ss).get? name = some d) : ∃ s ∈ ss, d ∈ s.declarations := by
  rw [get?_addSources, show (Catalog.mk []).get? name = none from rfl, Option.none_or] at h
  obtain ⟨s, hs, hd⟩ := List.exists_of_findSome?_eq_some h
  exact ⟨s, hs, List.mem_of_find?_eq_some hd⟩

/-- Apart from the names in unrelated sources, the catalogs with and without them agree. -/
lemma agreeOn_addSources {ss ts us : List SourceText} (horder : ss.Sublist us)
    (hall : us.Perm (ss ++ ts)) (hunrelated : Unrelated ss ts) :
    AgreeOn {name | ∀ t ∈ ts, name ∉ t.names} (Catalog.addSources {} ss)
      (Catalog.addSources {} us) where
  get? := by
    intro name hname
    have hnone : ∀ t ∈ ts, t.get? name = none :=
      fun t ht => SourceText.get?_eq_none_iff.mpr (hname t ht)
    rw [get?_addSources, get?_addSources, findSome?_eq_of_sublist horder hall hnone]
  mentions := by
    intro name _ d hd n hn t ht hmem
    obtain ⟨s, hs, hd⟩ := exists_mem_of_get?_addSources hd
    exact (hunrelated s hs d hd t ht n hmem).2 hn

/-- Unrelated sources do not matter for what is documented: whether they are added or not, and
wherever among the other sources this happens, the documentation of a type that they do not declare
is the same, and so are all documents. -/
theorem entriesFor_addSources_of_unrelated {ss ts us : List SourceText} (horder : ss.Sublist us)
    (hall : us.Perm (ss ++ ts)) (hunrelated : Unrelated ss ts) :
    let alone := Catalog.addSources {} ss
    let mixed := Catalog.addSources {} us
    (∀ name ∈ alone.names, ∀ t ∈ ts, name ∉ t.names) ∧
      ∀ type, (∀ t ∈ ts, type ∉ t.names) → ∀ (depth : ℕ) (method : Option String),
        let entries (c : Catalog) := Generation.entriesFor c.source depth type method
        entries mixed = entries alone ∧
          ∀ format coordinates modelStem,
            (entries mixed).map (Document.ofEntries · format coordinates modelStem) =
              (entries alone).map (Document.ofEntries · format coordinates modelStem) := by
  intro alone mixed
  have hagree := agreeOn_addSources horder hall hunrelated
  constructor
  · intro name hname t ht hmem
    obtain ⟨d, hd⟩ := Option.isSome_iff_exists.mp (get?_isSome_iff.mpr hname)
    obtain ⟨s, hs, hds⟩ := exists_mem_of_get?_addSources hd
    exact (hunrelated s hs d hds t ht name hmem).1 (name_of_get? hd).symm
  · intro type htype depth method entries
    have hentries : entries mixed = entries alone := hagree.entriesFor_eq htype depth method
    refine ⟨hentries, fun format coordinates modelStem => ?_⟩
    rw [hentries]

/-- A page that inherits its items, with another source between its own ones. That source refers to
the page and declares types whose names look much like those that the page mentions. -/
theorem entriesFor_addSources_of_unrelated_page :
    let page : SourceText :=
      ⟨"Page.java", "class Page<T> extends Slice<T> { Page<T> next(Sort[] by) {} }"⟩
    let slice : SourceText := ⟨"Slice.java", "class Slice<E> { List<E> items; }"⟩
    let order : SourceText := ⟨"Order.java", "enum Order { ASC } class Items { Page<Order> page; }"⟩
    let alone := Catalog.addSources {} [page, slice]
    let mixed := Catalog.addSources {} [page, order, slice]
    [page, slice].Sublist [page, order, slice] ∧
      [page, order, slice].Perm ([page, slice] ++ [order]) ∧ Unrelated [page, slice] [order] ∧
      (∀ t ∈ [order], "Page" ∉ t.names) ∧
      Generation.entriesFor mixed.source 4 "Page" none =
        Generation.entriesFor alone.source 4 "Page" none ∧
      (Generation.entriesFor alone.source 4 "Page" none).isOk ∧
      mixed.names = ["Page", "Order", "Items", "Slice"] := by
  intro page slice order alone mixed
  have horder : [page, slice].Sublist [page, order, slice] :=
    .cons_cons page (.cons order (.refl [slice]))
  have hall : [page, order, slice].Perm ([page, slice] ++ [order]) :=
    .cons page (.swap slice order [])
  have hunrelated : Unrelated [page, slice] [order] := by
    unfold Unrelated
    decide +kernel
  have htype : ∀ t ∈ [order], "Page" ∉ t.names := by decide +kernel
  have hentries :=
    ((entriesFor_addSources_of_unrelated horder hall hunrelated).2 "Page" htype 4 none).1
  exact ⟨horder, hall, hunrelated, htype, hentries, by decide +kernel, by decide +kernel⟩

end Catalog

end ServiceDocs
