import Mathlib.Data.List.Basic
import Mathlib.Data.List.Induction
import Mathlib.Logic.Relation
import Mathlib.Tactic.Common
import ServiceDocs.Java.Declaration

/-!
# Layout

The layout of a source is the white space and the comments between its tokens. In a syntax tree a
comment is one child more of some node, and white space belongs to the token behind it.

`Relaid` changes a tree in one such place, where this is not read: most parts of a declaration are
looked up by their role or their kind, so a comment among them is passed over. It is not passed over
where children are counted or taken by their place (`Admits`), and neither a comment nor white space
is where the text of several tokens is read as a whole (`KeepsText`).
-/

namespace ServiceDocs.Java

/-- The comment describes the declaration behind it. -/
def Comment.IsDocumentation (c : Comment) : Prop :=
  c.isBlock ∧ DocComment.opening.isPrefixOf c.text.toList

instance (c : Comment) : Decidable c.IsDocumentation :=
  inferInstanceAs (Decidable (_ ∧ _))

/-- A tree of this kind is read as a text wherever it stands. -/
def Kind.isText : Kind → Bool
  | .sign | .blockComment | .identifier | .scopedIdentifier | .primitiveType | .typeIdentifier =>
    true
  | _ => false

namespace Tree

/-! ### Places of comments -/

/-- The tree may be the type that a wildcard or an annotated type is about. -/
def isBound (t : Tree) : Bool :=
  t.isNamed && t.kind ≠ .annotationUse && t.kind ≠ .super

/-- The tree may be the type of a parameter that takes any number of arguments. -/
def isSpreadType (t : Tree) : Bool :=
  t.isNamed && (t.kind ≠ .modifiers && t.kind ≠ .variableDeclarator)

/-- A comment between these children of a node is passed over. -/
structure Admits (role : Option Role) (kind : Kind) (before after : List Tree) : Prop where
  /-- The first tree behind `extends` is the superclass. -/
  superclass : role = some .superclass → before.any isNamed
  /-- All trees among the arguments of an annotation are arguments. -/
  arguments : role ≠ some .arguments
  /-- All trees among type arguments are types. -/
  typeArguments : kind ≠ .typeArguments
  /-- The first tree behind the modifiers is the type. -/
  spreadParameter : kind = .spreadParameter → before.any isSpreadType
  /-- The last tree is the type. -/
  bound : kind = .wildcard ∨ kind = .annotatedType → after.any isBound

instance (role : Option Role) (kind : Kind) (before after : List Tree) :
    Decidable (Admits role kind before after) :=
  decidable_of_iff
    ((role = some .superclass → before.any isNamed) ∧ role ≠ some .arguments ∧
      kind ≠ .typeArguments ∧ (kind = .spreadParameter → before.any isSpreadType) ∧
      (kind = .wildcard ∨ kind = .annotatedType → after.any isBound))
    ⟨fun ⟨hs, ha, ht, hp, hb⟩ => ⟨hs, ha, ht, hp, hb⟩, fun ⟨hs, ha, ht, hp, hb⟩ =>
      ⟨hs, ha, ht, hp, hb⟩⟩

/-! ### Texts that are read -/

/-- The text of a tree is read where it stands below a node of the given role and kind. -/
def ReadsText (role : Option Role) (kind : Kind) (t : Tree) : Prop :=
  t.role = some .name ∨ t.kind.isText ∨
    (role = some .arguments ∧ t.kind ≠ .elementValuePair) ∨
    (kind = .elementValuePair ∧ (t.role = some .key ∨ t.role = some .value))

instance (role : Option Role) (kind : Kind) (t : Tree) : Decidable (ReadsText role kind t) :=
  inferInstanceAs (Decidable (_ ∨ _))

/-- What is read from the text of a tree below a node of the given role and kind stays the same. -/
structure KeepsText (role : Option Role) (kind : Kind) (t t' : Tree) : Prop where
  text : ReadsText role kind t → t'.text = t.text
  brackets : t.role = some .dimensions → bracketCount t'.text = bracketCount t.text
  lastName : t.kind = .scopedTypeIdentifier → lastName t'.text = lastName t.text

instance (role : Option Role) (kind : Kind) (t t' : Tree) :
    Decidable (KeepsText role kind t t') :=
  decidable_of_iff
    ((ReadsText role kind t → t'.text = t.text) ∧
      (t.role = some .dimensions → bracketCount t'.text = bracketCount t.text) ∧
      (t.kind = .scopedTypeIdentifier → Tree.lastName t'.text = Tree.lastName t.text))
    ⟨fun ⟨ht, hb, hn⟩ => ⟨ht, hb, hn⟩, fun ⟨ht, hb, hn⟩ => ⟨ht, hb, hn⟩⟩

/-! ### Changes of the layout -/

/-- The second tree is the first one with other white space in front of a token, or with a comment
more, in a place where this is not read. -/
inductive Relaid : Tree → Tree → Prop
  | gap (role : Option Role) (kind : Kind) (gap gap' text : String) :
    Relaid (.leaf role kind gap text) (.leaf role kind gap' text)
  | comment {role : Option Role} {kind : Kind} {before after : List Tree} {c : Comment}
    (hc : ¬ c.IsDocumentation) (hplace : Admits role kind before after) :
    Relaid (.node role kind (before ++ after)) (.node role kind (before ++ c.tree :: after))
  | child {role : Option Role} {kind : Kind} {before after : List Tree} {t t' : Tree}
    (h : Relaid t t') (hkeeps : KeepsText role kind t t') :
    Relaid (.node role kind (before ++ t :: after)) (.node role kind (before ++ t' :: after))

/-- The children of a node of the given role and kind before and after a change, where `R` holds of
the child that has changed itself. -/
inductive RelaidAmong (R : Tree → Tree → Prop) (role : Option Role) (kind : Kind) :
    List Tree → List Tree → Prop
  | comment {before after : List Tree} {c : Comment} (hc : ¬ c.IsDocumentation)
    (hplace : Admits role kind before after) :
    RelaidAmong R role kind (before ++ after) (before ++ c.tree :: after)
  | child {before after : List Tree} {t t' : Tree} (h : R t t')
    (hkeeps : KeepsText role kind t t') :
    RelaidAmong R role kind (before ++ t :: after) (before ++ t' :: after)

/-- To prove something about a change one may assume it of the change of a child. -/
@[elab_as_elim]
theorem Relaid.children_induction {motive : (t t' : Tree) → Relaid t t' → Prop}
    (gap : ∀ role kind gap gap' text, motive _ _ (.gap role kind gap gap' text))
    (node : ∀ role kind ts ts' (h : Relaid (.node role kind ts) (.node role kind ts')),
      RelaidAmong (fun t t' => ∃ h, motive t t' h) role kind ts ts' → motive _ _ h)
    {t t' : Tree} (h : Relaid t t') : motive t t' h := by
  induction h with
  | gap role kind g g' text => exact gap role kind g g' text
  | comment hc hplace => exact node _ _ _ _ _ (.comment hc hplace)
  | child h hkeeps ih => exact node _ _ _ _ _ (.child ⟨h, ih⟩ hkeeps)

section Relaid

variable {t t' : Tree}

lemma Relaid.role_eq (h : Relaid t t') : t'.role = t.role := by
  cases h <;> rfl

lemma Relaid.kind_eq (h : Relaid t t') : t'.kind = t.kind := by
  cases h <;> rfl

lemma Relaid.children_eq_or_among (h : Relaid t t') :
    t'.children = t.children ∨ RelaidAmong Relaid t.role t.kind t.children t'.children := by
  cases h with
  | gap role kind gap gap' text => exact .inl rfl
  | comment hc hplace => exact .inr (.comment hc hplace)
  | child h hkeeps => exact .inr (.child h hkeeps)

end Relaid

/-! ### Looking up children -/

lemma find?_namedChildren (t : Tree) (p : Tree → Bool) :
    t.namedChildren.find? p = t.children.find? fun c => c.isNamed && p c := by
  rw [namedChildren, List.find?_filter]
  simp only [Bool.decide_and, Bool.decide_eq_true]

lemma filter_namedChildren (t : Tree) (p : Tree → Bool) :
    t.namedChildren.filter p = t.children.filter fun c => c.isNamed && p c := by
  rw [namedChildren, List.filter_filter]
  simp only [Bool.and_comm]

lemma isNamed_congr {t t' : Tree} (hkind : t'.kind = t.kind) : t'.isNamed = t.isNamed := by
  rw [isNamed, isNamed, hkind]

lemma isBound_congr {t t' : Tree} (hkind : t'.kind = t.kind) : t'.isBound = t.isBound := by
  rw [isBound, isBound, isNamed_congr hkind, hkind]

lemma isSpreadType_congr {t t' : Tree} (hkind : t'.kind = t.kind) :
    t'.isSpreadType = t.isSpreadType := by
  rw [isSpreadType, isSpreadType, isNamed_congr hkind, hkind]

/-- Whether a tree has the mark can be told from its role and its kind, and no comment has it. -/
structure IsMark (p : Tree → Bool) : Prop where
  comment : ∀ c : Comment, p c.tree = false
  congr : ∀ {t t' : Tree}, t'.role = t.role → t'.kind = t.kind → p t' = p t

lemma isMark_role (r : Role) : IsMark fun t => t.role = some r where
  comment _ := rfl
  congr hrole _ := by rw [hrole]

lemma kind_comment (c : Comment) :
    c.tree.kind = if c.isBlock then .blockComment else .lineComment :=
  rfl

/-- A set of kinds without those of comments is a mark. -/
lemma isMark_kinds (q : Kind → Bool) (hblock : q .blockComment = false)
    (hline : q .lineComment = false) : IsMark fun t => q t.kind where
  comment c := by
    rw [kind_comment]
    split
    · exact hblock
    · exact hline
  congr _ hkind := by rw [hkind]

lemma isMark_kind (k : Kind) (hblock : k ≠ .blockComment := by decide)
    (hline : k ≠ .lineComment := by decide) : IsMark fun t => t.kind = k :=
  isMark_kinds (fun k' => k' = k) (decide_eq_false hblock.symm) (decide_eq_false hline.symm)

lemma isMark_named_kind (k : Kind) (hblock : k ≠ .blockComment := by decide)
    (hline : k ≠ .lineComment := by decide) : IsMark fun t => t.isNamed && t.kind = k :=
  isMark_kinds (fun k' => k' ≠ .sign && k' = k) (by simp [hblock.symm]) (by simp [hline.symm])

section Among

variable {β : Type} {R : Tree → Tree → Prop} {role : Option Role} {kind : Kind}
  {ts ts' : List Tree}

/-- What is gathered from the children one by one stays the same if nothing is gathered from
comments. -/
lemma RelaidAmong.flatMap_eq (h : RelaidAmong R role kind ts ts') {g : Tree → List β}
    (hcomment : ∀ c : Comment, g c.tree = [])
    (hg : ∀ u u', R u u' → KeepsText role kind u u' → g u' = g u) :
    ts'.flatMap g = ts.flatMap g := by
  cases h with
  | comment hc hplace => simp [hcomment]
  | child hu hkeeps => simp [hg _ _ hu hkeeps]

variable (h : RelaidAmong R role kind ts ts') (hR : ∀ u u', R u u' → Relaid u u')
  {p : Tree → Bool} {f : Tree → β} (hp : IsMark p)
  (hf : ∀ u u', R u u' → KeepsText role kind u u' → p u = true → f u' = f u)

include h hR hp hf

/-- The children with a mark give the same, one for one and in their order. -/
lemma RelaidAmong.map_filter : (ts'.filter p).map f = (ts.filter p).map f := by
  cases h with
  | @comment before after c hc hplace =>
    rw [List.filter_append, List.filter_append, List.filter_cons_of_neg (by simp [hp.comment c])]
  | @child before after u u' hu hkeeps =>
    have hmark : p u' = p u := hp.congr (hR u u' hu).role_eq (hR u u' hu).kind_eq
    rw [List.filter_append, List.filter_append, List.filter_cons, List.filter_cons, hmark]
    split_ifs with hpu
    · rw [List.map_append, List.map_append, List.map_cons, List.map_cons, hf u u' hu hkeeps hpu]
    · rfl

lemma RelaidAmong.map_find? : (ts'.find? p).map f = (ts.find? p).map f := by
  rw [← List.head?_filter, ← List.head?_filter, ← List.head?_map, ← List.head?_map,
    h.map_filter hR hp hf]

end Among

section Places

variable {β : Type} {R : Tree → Tree → Prop} {role : Option Role} {kind : Kind}
  {ts ts' : List Tree} (h : RelaidAmong R role kind ts ts') (hR : ∀ u u', R u u' → Relaid u u')
  {p : Tree → Bool} (hp : ∀ {t t' : Tree}, t'.kind = t.kind → p t' = p t)
  {f : Tree → β} (hf : ∀ u u', R u u' → KeepsText role kind u u' → f u' = f u)

include h hR hf

/-- Where no comment is admitted, all children but punctuation may be looked at. -/
lemma RelaidAmong.map_named (hno : ∀ before after, ¬ Admits role kind before after) :
    (ts'.filter isNamed).map f = (ts.filter isNamed).map f := by
  cases h with
  | comment hc hplace => exact absurd hplace (hno _ _)
  | child hu hkeeps =>
    simp [List.filter_cons, isNamed_congr (hR _ _ hu).kind_eq, apply_ite (List.map f),
      hf _ _ hu hkeeps]

include hp

/-- Where a comment is admitted only behind a child of some kind, the first one stays the same. -/
lemma RelaidAmong.map_first
    (hbefore : ∀ before after, Admits role kind before after → before.any p) :
    (ts'.find? p).map f = (ts.find? p).map f := by
  cases h with
  | comment hc hplace =>
    have hsome := List.find?_isSome.mpr (List.any_eq_true.mp (hbefore _ _ hplace))
    obtain ⟨u, hu⟩ := Option.isSome_iff_exists.mp hsome
    rw [List.find?_append, List.find?_append, hu]
    rfl
  | @child before after u u' hu hkeeps =>
    rw [List.find?_append, List.find?_append, List.find?_cons, List.find?_cons,
      hp (hR u u' hu).kind_eq]
    cases before.find? p <;> cases p u <;> simp [hf u u' hu hkeeps]

/-- Where a comment is admitted only in front of a child of some kind, the last one stays the
same. -/
lemma RelaidAmong.map_last (hafter : ∀ before after, Admits role kind before after → after.any p) :
    ((ts'.filter p).map f).getLast? = ((ts.filter p).map f).getLast? := by
  cases h with
  | @comment before after c hc hplace =>
    obtain ⟨b, hb, hbound⟩ := List.any_eq_true.mp (hafter _ _ hplace)
    have hne : (after.filter p).map f ≠ [] := by
      rw [Ne, List.map_eq_nil_iff, List.filter_eq_nil_iff]
      exact fun hall => hall b hb hbound
    rw [List.filter_append, List.filter_append, List.map_append, List.map_append,
      List.getLast?_append_of_ne_nil _ hne, List.filter_cons]
    split_ifs
    · rw [List.map_cons, List.getLast?_append_of_ne_nil _ (List.cons_ne_nil _ _),
        List.getLast?_cons_of_ne_nil hne]
    · rw [List.getLast?_append_of_ne_nil _ hne]
  | child hu hkeeps =>
    simp [List.filter_cons, hp (hR _ _ hu).kind_eq, apply_ite (List.map f), hf _ _ hu hkeeps]

end Places

section Lookup

variable {β : Type} {p : Tree → Bool} {f : Tree → β} {t t' : Tree} (h : Relaid t t')

include h

lemma Relaid.map_filter (hp : IsMark p)
    (hf : ∀ u u', Relaid u u' → KeepsText t.role t.kind u u' → p u = true → f u' = f u) :
    (t'.children.filter p).map f = (t.children.filter p).map f := by
  rcases h.children_eq_or_among with heq | hamong
  · rw [heq]
  · exact hamong.map_filter (fun _ _ hu => hu) hp hf

lemma Relaid.filterMap_filter {g : Tree → Option β} (hp : IsMark p)
    (hg : ∀ u u', Relaid u u' → KeepsText t.role t.kind u u' → p u = true → g u' = g u) :
    (t'.children.filter p).filterMap g = (t.children.filter p).filterMap g := by
  have hmap := congrArg (List.filterMap id) (h.map_filter hp hg)
  simpa only [List.filterMap_map, Function.id_comp] using hmap

lemma Relaid.map_find? (hp : IsMark p)
    (hf : ∀ u u', Relaid u u' → KeepsText t.role t.kind u u' → p u = true → f u' = f u) :
    (t'.children.find? p).map f = (t.children.find? p).map f := by
  rcases h.children_eq_or_among with heq | hamong
  · rw [heq]
  · exact hamong.map_find? (fun _ _ hu => hu) hp hf

lemma Relaid.filterMap_children {g : Tree → Option β} (hcomment : ∀ c : Comment, g c.tree = none)
    (hg : ∀ u u', Relaid u u' → KeepsText t.role t.kind u u' → g u' = g u) :
    t'.children.filterMap g = t.children.filterMap g := by
  rcases h.children_eq_or_among with heq | hamong
  · rw [heq]
  · rw [List.filterMap_eq_flatMap_toList, List.filterMap_eq_flatMap_toList]
    exact hamong.flatMap_eq (fun c => by rw [hcomment]; rfl)
      (fun u u' hu hkeeps => by rw [hg u u' hu hkeeps])

lemma Relaid.map_child? {r : Role}
    (hf : ∀ u u', Relaid u u' → KeepsText t.role t.kind u u' → u.role = some r → f u' = f u) :
    (t'.child? r).map f = (t.child? r).map f :=
  h.map_find? (isMark_role r) fun u u' hu hkeeps hr => hf u u' hu hkeeps (of_decide_eq_true hr)

/-- The text of a name is read, so it stays the same. -/
lemma Relaid.map_text_name : (t'.child? .name).map text = (t.child? .name).map text :=
  h.map_child? fun _ _ _ hkeeps hrole => hkeeps.text (.inl hrole)

/-- The text of a child of such a kind is read wherever it stands. -/
lemma Relaid.map_text_kinds (q : Kind → Bool) (hq : ∀ k, q k → k.isText)
    (hblock : q .blockComment = false) (hline : q .lineComment = false) :
    (t'.children.find? fun c => q c.kind).map text =
      (t.children.find? fun c => q c.kind).map text :=
  h.map_find? (isMark_kinds q hblock hline)
    fun c _ _ hkeeps hc => hkeeps.text (.inr (.inl (hq c.kind hc)))

lemma Relaid.map_brackets :
    (t'.child? .dimensions).map (fun d => bracketCount d.text) =
      (t.child? .dimensions).map fun d => bracketCount d.text :=
  h.map_child? fun _ _ _ hkeeps hrole => hkeeps.brackets hrole

lemma Relaid.withDimensions_eq (type : TypeExpr) :
    withDimensions type (t'.child? .dimensions) = withDimensions type (t.child? .dimensions) := by
  rw [withDimensions, withDimensions, h.map_brackets]

end Lookup

/-! ### Types -/

/-- The name that a child gives to a generic type. -/
def typeName? (t : Tree) : Option String :=
  match t.kind with
  | .typeIdentifier       => some t.text
  | .scopedTypeIdentifier => some (Tree.lastName t.text)
  | _                     => none

lemma genericName?_eq (ts : List Tree) :
    genericName? ts = (ts.flatMap fun t => t.typeName?.toList).getLast? := by
  induction ts using List.reverseRecOn with
  | nil => rfl
  | append_singleton ts t ih =>
    rw [genericName?] at ih ⊢
    rw [List.foldl_append, ih, List.flatMap_append, List.flatMap_singleton]
    cases hkind : t.kind <;> simp [typeName?, hkind]

lemma genericArguments_eq (ts : List Tree) :
    genericArguments ts =
      ((ts.filter (·.kind = .typeArguments)).map argumentsOf).getLast?.getD [] := by
  induction ts with
  | nil => rfl
  | cons t ts ih =>
    by_cases hrest : ts.any (·.kind = .typeArguments)
    · -- the last list of arguments is behind the first child
      obtain ⟨u, hu, hkind⟩ := List.any_eq_true.mp hrest
      have hne : (ts.filter (·.kind = .typeArguments)).map argumentsOf ≠ [] := by
        rw [Ne, List.map_eq_nil_iff, List.filter_eq_nil_iff]
        exact fun hall => hall u hu hkind
      rw [genericArguments, if_pos hrest, ih, List.filter_cons]
      split_ifs
      · rw [List.map_cons, List.getLast?_cons_of_ne_nil hne]
      · rfl
    · have hnil : ts.filter (·.kind = .typeArguments) = [] := by
        rw [List.filter_eq_nil_iff]
        exact fun u hu hkind => hrest (List.any_eq_true.mpr ⟨u, hu, hkind⟩)
      rw [genericArguments, if_neg hrest, ih, List.filter_cons, hnil]
      by_cases hkind : t.kind = .typeArguments <;> simp [hkind]

lemma elementType_eq (ts : List Tree) :
    elementType ts = ((ts.find? (·.role = some .element)).map type).getD .unknown := by
  induction ts with
  | nil => rfl
  | cons t ts ih =>
    rw [elementType, List.find?_cons]
    by_cases ht : t.role = some .element <;> simp [ht, ih]

lemma boundType?_eq (ts : List Tree) :
    boundType? ts = ((ts.filter isBound).map type).getLast? := by
  induction ts with
  | nil => rfl
  | cons t ts ih =>
    rw [boundType?, ih, List.filter_cons, ← isBound]
    cases hrest : ((ts.filter isBound).map type).getLast? with
    | some b => split_ifs <;> simp [List.getLast?_cons, hrest]
    | none =>
      rw [List.getLast?_eq_none_iff, List.map_eq_nil_iff] at hrest
      rw [hrest]
      split_ifs <;> rfl

lemma namedTypes_eq (ts : List Tree) : namedTypes ts = (ts.filter isNamed).map type := by
  induction ts with
  | nil => rfl
  | cons t ts ih =>
    rw [namedTypes, ih, List.filter_cons]
    split_ifs <;> rfl

section Types

variable {R : Tree → Tree → Prop} {role : Option Role} {ts ts' : List Tree}
  (hR : ∀ u u', R u u' → Relaid u u')

include hR

lemma RelaidAmong.genericName?_eq {kind : Kind} (h : RelaidAmong R role kind ts ts') :
    genericName? ts' = genericName? ts := by
  have hcomment (c : Comment) : (c.tree.typeName?).toList = [] := by
    rw [typeName?, kind_comment]
    cases c.isBlock <;> rfl
  have hname : ∀ u u', R u u' → KeepsText role kind u u' →
      (u'.typeName?).toList = (u.typeName?).toList := by
    intro u u' hu hkeeps
    rw [typeName?, typeName?, (hR u u' hu).kind_eq]
    split
    next hkind => rw [hkeeps.text (.inr (.inl (by rw [hkind]; rfl)))]
    next hkind => rw [hkeeps.lastName hkind]
    next => rfl
  rw [Tree.genericName?_eq, Tree.genericName?_eq, h.flatMap_eq hcomment hname]

end Types

/-- A change of the layout leaves types alone, and the arguments of a list of type arguments. -/
lemma Relaid.type_eq_and {t t' : Tree} (h : Relaid t t') :
    (∀ role kind, KeepsText role kind t t' → t'.type = t.type) ∧
      (t.kind = .typeArguments → argumentsOf t' = argumentsOf t) := by
  induction h using Relaid.children_induction with
  | gap role kind gap gap' text => exact ⟨fun _ _ _ => rfl, fun _ => rfl⟩
  | node role kind ts ts' h hamong =>
    have htype : ∀ u u', (∃ hu : Relaid u u',
        (∀ role kind, KeepsText role kind u u' → u'.type = u.type) ∧
          (u.kind = .typeArguments → argumentsOf u' = argumentsOf u)) →
        KeepsText role kind u u' → u'.type = u.type :=
      fun _ _ hu hkeeps => hu.2.1 role kind hkeeps
    refine ⟨fun _ _ hkeeps => ?_, fun hkind => ?_⟩
    · cases kind with
      | typeIdentifier | primitiveType =>
        exact congrArg TypeExpr.ofName (hkeeps.text (.inr (.inl rfl)))
      | scopedTypeIdentifier => exact congrArg TypeExpr.ofName (hkeeps.lastName rfl)
      | genericType =>
        have harguments : genericArguments ts' = genericArguments ts := by
          rw [genericArguments_eq, genericArguments_eq,
            hamong.map_filter (fun _ _ hu => hu.1) (isMark_kind .typeArguments)
              (fun _ _ hu _ hkind => hu.2.2 (of_decide_eq_true hkind))]
        rw [type, type, hamong.genericName?_eq (fun _ _ hu => hu.1), harguments]
      | arrayType =>
        have helement : elementType ts' = elementType ts := by
          rw [elementType_eq, elementType_eq,
            hamong.map_find? (fun _ _ hu => hu.1) (isMark_role _)
              (fun _ _ hu hkeeps _ => htype _ _ hu hkeeps)]
        rw [type, type, helement, h.withDimensions_eq]
      | wildcard | annotatedType =>
        have hbound : boundType? ts' = boundType? ts := by
          rw [boundType?_eq, boundType?_eq]
          exact hamong.map_last (fun _ _ hu => hu.1) isBound_congr htype
            fun _ _ hplace => hplace.bound (by simp)
        rw [type, type, hbound]
      | _ => rfl
    · obtain rfl : kind = .typeArguments := hkind
      show namedTypes ts' = namedTypes ts
      rw [namedTypes_eq, namedTypes_eq]
      exact hamong.map_named (fun _ _ hu => hu.1) htype fun _ _ hplace => hplace.typeArguments rfl

lemma Relaid.type_eq {role : Option Role} {kind : Kind} {t t' : Tree} (h : Relaid t t')
    (hkeeps : KeepsText role kind t t') : t'.type = t.type :=
  h.type_eq_and.1 role kind hkeeps

end Tree

end ServiceDocs.Java
