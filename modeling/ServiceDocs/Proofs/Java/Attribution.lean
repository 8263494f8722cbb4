import ServiceDocs.Proofs.Catalog.Index
import ServiceDocs.Proofs.Java.Found
import ServiceDocs.Proofs.Java.Units

/-!
# Members and the declarations they belong to

The fields of a declaration are the components of a record, and then the variables of the fields
directly in its body. Its methods are those directly in its body. What is static belongs to the type
and is passed over. All of these are told by their addresses in the tree, each of them is had by one
declaration and is there once.
-/

namespace ServiceDocs.Java.Tree

open Address

/-! ### What a declaration has -/

/-- The keyword `static` is among the modifiers in front. -/
def HasStatic (t : Tree) : Prop :=
  ∃ modifiers, t.children.find? (·.kind = .modifiers) = some modifiers ∧
    ∃ m ∈ modifiers.children, m.kind = .sign ∧ m.text = "static"

/-- At the second address there is a component of the record at the first one. -/
def IsComponentOf (unit : Tree) (a b : Address) : Prop :=
  ∃ p i list j c, unit.place? a = some p ∧ p.tree.kind = .recordDeclaration ∧
    IsChild .parameters p.tree i list ∧ list.children[j]? = some c ∧ c.kind = .formalParameter ∧
    (c.child? .name).isSome ∧ (c.child? .type).isSome ∧ b = a ++ i :: [j]

/-- At the second address there is a variable of a field of objects that stands directly in the body
of the declaration at the first one. -/
def IsVariableOf (unit : Tree) (a b : Address) : Prop :=
  ∃ e p j v, IsMemberOf unit a e ∧ unit.place? e = some p ∧ p.tree.kind = .fieldDeclaration ∧
    ¬ p.tree.HasStatic ∧ (p.tree.child? .type).isSome ∧ p.tree.children[j]? = some v ∧
    v.role = some .declarator ∧ (v.child? .name).isSome ∧ b = e ++ [j]

/-- At the second address there is a field of the declaration at the first one. -/
def IsFieldOf (unit : Tree) (a b : Address) : Prop :=
  IsComponentOf unit a b ∨ IsVariableOf unit a b

/-- At the second address there is a method of objects that stands directly in the body of the
declaration at the first one. -/
def IsMethodOf (unit : Tree) (a b : Address) : Prop :=
  IsMemberOf unit a b ∧ ∃ p, unit.place? b = some p ∧ p.tree.kind = .methodDeclaration ∧
    ¬ p.tree.HasStatic ∧ (p.tree.child? .name).isSome ∧ (p.tree.child? .type).isSome

/-- The member has the name of the second tree, and the type and the annotations of the first one.
Dimensions behind the name count for the type. -/
def IsDeclaredBy (t u : Tree) (description : Option String) (m : Member) : Prop :=
  ∃ name type, u.child? .name = some name ∧ t.child? .type = some type ∧
    m = { name := name.text
          type := withDimensions type.type (u.child? .dimensions)
          required := AnnotationUse.anyRequired t.annotations
          range := AnnotationUse.rangeText? t.annotations
          description }

/-- The component at the address declares the member. -/
def ComponentAt (unit : Tree) (b : Address) (m : Member) : Prop :=
  ∃ c, unit.place? b = some c ∧ IsDeclaredBy c.tree c.tree none m

/-- The variable at the address declares the member, together with the field that it stands in. -/
def VariableAt (unit : Tree) (b : Address) (m : Member) : Prop :=
  ∃ e p j v, b = e ++ [j] ∧ unit.place? e = some p ∧ p.tree.children[j]? = some v ∧
    IsDeclaredBy p.tree v ((docComment? p.before).bind (·.summary)) m

/-- The tree at the address declares the method of the type `owner`. -/
def MethodAt (package owner : String) (unit : Tree) (b : Address) (m : Method) : Prop :=
  ∃ p name type, unit.place? b = some p ∧ p.tree.child? .name = some name ∧
    p.tree.child? .type = some type ∧
    m = { name := name.text, package, declaringType := owner, returnType := type.type
          parameters := p.tree.parameters ((docComment? p.before).getD {})
          description := (docComment? p.before).bind (·.summary)
          returnDescription := (docComment? p.before).bind (·.returns) }

/-- One after the other, what is declared at the addresses with a property, at each of them once and
in the order of the source. -/
def AreDeclared {β : Type} (P : Address → Prop) (R : Address → β → Prop) (xs : List β) : Prop :=
  ∃ as : List Address, as.Nodup ∧ as.Pairwise Earlier ∧ (∀ a, a ∈ as ↔ P a) ∧ List.Forall₂ R as xs

/-- The declaration is the one at the address, and it has the fields and the methods of the one at
the address, those and no others. -/
structure IsAttributed (unit : Tree) (a : Address) (d : Declaration) : Prop where
  head : ∃ p name, unit.place? a = some p ∧ declarationKind? p.tree.kind = some d.kind ∧
    p.tree.child? .name = some name ∧ d.name = name.text
  fields : ∃ components declared, d.fields = components ++ declared ∧
    AreDeclared (IsComponentOf unit a) (ComponentAt unit) components ∧
    AreDeclared (IsVariableOf unit a) (VariableAt unit) declared
  methods : AreDeclared (IsMethodOf unit a) (MethodAt d.package d.name unit) d.methods

/-! ### In the order of the source -/

section Order

variable {β γ : Type} {P Q : Address → Prop} {R S : Address → β → Prop} {xs : List β}

lemma areDeclared_of_enumerates {as : List Address} (has : Enumerates Earlier P as)
    (h : List.Forall₂ R as xs) : AreDeclared P R xs :=
  ⟨as, has.nodup not_earlier_self, has.ordered, has.mem_iff, h⟩

lemma areDeclared_nil (h : ∀ a, ¬ P a) : AreDeclared P R [] :=
  areDeclared_of_enumerates (.nil h) .nil

lemma AreDeclared.congr (h : AreDeclared P R xs) (hP : ∀ a, P a ↔ Q a)
    (hR : ∀ a x, R a x → S a x) : AreDeclared Q S xs := by
  obtain ⟨as, hnodup, hordered, hmem, has⟩ := h
  exact ⟨as, hnodup, hordered, fun a => (hmem a).trans (hP a), has.imp hR⟩

/-- Addresses behind a given one. -/
lemma AreDeclared.map (h : AreDeclared P R xs) {f : Address → Address}
    (hf : ∀ a b, Earlier a b → Earlier (f a) (f b)) :
    AreDeclared (fun b => ∃ a, P a ∧ f a = b) (fun b x => ∃ a, f a = b ∧ R a x) xs := by
  obtain ⟨as, _, hordered, hmem, has⟩ := h
  refine areDeclared_of_enumerates (Enumerates.map ⟨hordered, hmem⟩ hf) ?_
  rw [List.forall₂_map_left_iff]
  exact has.imp fun a x hx => ⟨a, rfl, hx⟩

/-- Several ones for each, the addresses of the first behind those of the second. -/
lemma AreDeclared.flatMap (h : AreDeclared P R xs) {T : Address → Address → Prop}
    {U : Address → γ → Prop} {g : β → List γ}
    (hg : ∀ a x, P a → R a x → AreDeclared (T a) U (g x))
    (hT : ∀ a b c d, Earlier a b → T a c → T b d → Earlier c d) :
    AreDeclared (fun c => ∃ a, P a ∧ T a c) U (xs.flatMap g) := by
  obtain ⟨as, _, hordered, hmem, has⟩ := h
  have hrun : ∀ {as xs}, List.Forall₂ R as xs → as.Pairwise Earlier → (∀ a ∈ as, P a) →
      ∃ cs, Enumerates Earlier (fun c => ∃ a ∈ as, T a c) cs ∧
        List.Forall₂ U cs (xs.flatMap g) := by
    intro as xs has
    induction has with
    | nil => exact fun _ _ => ⟨[], .nil (by simp), .nil⟩
    | @cons a x as xs hx _ ih =>
      intro hordered hP
      obtain ⟨hfirst, hordered⟩ := List.pairwise_cons.mp hordered
      obtain ⟨cs, hcs, hU⟩ := ih hordered fun b hb => hP b (List.mem_cons_of_mem a hb)
      obtain ⟨ds, _, hds, hmem, hx⟩ := hg a x (hP a List.mem_cons_self) hx
      refine ⟨ds ++ cs, (Enumerates.append ⟨hds, hmem⟩ hcs ?_).congr fun c => by simp,
        List.rel_append hx hU⟩
      rintro c d hc ⟨b, hb, hd⟩
      exact hT a b c d (hfirst b hb) hc hd
  obtain ⟨cs, hcs, hU⟩ := hrun has hordered fun a ha => (hmem a).mp ha
  refine areDeclared_of_enumerates (hcs.congr fun c => ?_) hU
  simp only [hmem]

/-- At most one for each, at the same address. -/
lemma AreDeclared.filterMap (h : AreDeclared P R xs) {U : Address → γ → Prop} {g : β → Option γ}
    (hQ : ∀ a x, R a x → (Q a ↔ (g x).isSome)) (hU : ∀ a x y, R a x → g x = some y → U a y) :
    AreDeclared (fun a => P a ∧ Q a) U (xs.filterMap g) := by
  rw [List.filterMap_eq_flatMap_toList]
  refine (h.flatMap (T := fun a b => b = a ∧ Q a) ?_ ?_).congr ?_ fun _ _ => id
  · intro a x _ hx
    cases hg : g x with
    | none =>
      refine areDeclared_nil ?_
      rintro b ⟨_, hb⟩
      rw [hQ a x hx, hg] at hb
      cases hb
    | some y =>
      have ha : Q a := (hQ a x hx).mpr (by rw [hg]; rfl)
      refine areDeclared_of_enumerates ((Enumerates.singleton a).congr fun b => ?_)
        (.cons (hU a x y hx hg) .nil)
      exact ⟨fun hb => ⟨hb, ha⟩, And.left⟩
  · rintro a b c d hab ⟨rfl, _⟩ ⟨rfl, _⟩
    exact hab
  · intro a
    constructor
    · rintro ⟨_, ha, rfl, hQ⟩
      exact ⟨ha, hQ⟩
    · rintro ⟨ha, hQ⟩
      exact ⟨a, ha, rfl, hQ⟩

end Order

/-- The children of a tree, behind a given address. -/
lemma areDeclared_children (t : Tree) (a : Address) :
    AreDeclared (fun b => ∃ j u, t.children[j]? = some u ∧ b = a ++ [j])
      (fun b u => ∃ j, t.children[j]? = some u ∧ b = a ++ [j]) t.children := by
  refine ⟨(List.range t.children.length).map (a ++ [·]), ?_⟩
  have has : Enumerates Earlier (fun b => ∃ j u, t.children[j]? = some u ∧ b = a ++ [j])
      ((List.range t.children.length).map (a ++ [·])) := by
    constructor
    · refine List.pairwise_map.mpr (List.pairwise_lt_range.imp fun hij => ?_)
      exact (Earlier.head hij [] []).append_left a
    · intro b
      simp only [List.mem_map, List.mem_range]
      constructor
      · rintro ⟨j, hj, rfl⟩
        exact ⟨j, _, List.getElem?_eq_getElem hj, rfl⟩
      · rintro ⟨j, u, hu, rfl⟩
        exact ⟨j, (List.getElem?_eq_some_iff.mp hu).1, rfl⟩
  refine ⟨has.nodup not_earlier_self, has.ordered, has.mem_iff, ?_⟩
  rw [List.forall₂_map_left_iff, List.forall₂_iff_get]
  refine ⟨List.length_range, fun j _ hj => ⟨j, ?_, ?_⟩⟩
  · rw [List.getElem?_eq_getElem hj]
    rfl
  · simp

/-- Those of the children that declare something. -/
lemma areDeclared_filterMap_children {β : Type} (t : Tree) (a : Address) {Q : Tree → Prop}
    {U : Address → β → Prop} {g : Tree → Option β} (hQ : ∀ u, Q u ↔ (g u).isSome)
    (hU : ∀ j u x, t.children[j]? = some u → g u = some x → U (a ++ [j]) x) :
    AreDeclared (fun b => ∃ j u, t.children[j]? = some u ∧ Q u ∧ b = a ++ [j]) U
      (t.children.filterMap g) := by
  refine ((areDeclared_children t a).filterMap
    (Q := fun b => ∃ j u, t.children[j]? = some u ∧ Q u ∧ b = a ++ [j]) (U := U) ?_ ?_).congr ?_
    fun _ _ => id
  · rintro _ u ⟨j, hu, rfl⟩
    constructor
    · rintro ⟨i, v, hv, hq, heq⟩
      obtain rfl : j = i := by simpa using heq
      obtain rfl : u = v := Option.some.inj (hu.symm.trans hv)
      exact (hQ u).mp hq
    · exact fun hg => ⟨j, u, hu, (hQ u).mpr hg, rfl⟩
  · rintro _ u x ⟨j, hu, rfl⟩ hg
    exact hU j u x hu hg
  · intro b
    refine and_iff_right_of_imp ?_
    rintro ⟨j, u, hu, _, rfl⟩
    exact ⟨j, u, hu, rfl⟩

/-! ### Fields and methods -/

lemma isStatic_eq_false_iff (t : Tree) : t.isStatic = false ↔ ¬ t.HasStatic := by
  rw [← Bool.not_eq_true, not_iff_not, isStatic_eq, HasStatic, modifiers?]
  cases t.children.find? (·.kind = .modifiers) with
  | none => simp
  | some ms => simp

/-- A component has no comment of its own. -/
lemma parameter?_eq_some_iff {t : Tree} {m : Member} :
    t.parameter? {} = some m ↔ IsDeclaredBy t t none m := by
  have hdoc (name : String) : ({} : DocComment).parameter? name = none := rfl
  rw [parameter?_eq, IsDeclaredBy]
  cases t.child? .name with
  | none => simp
  | some name =>
    cases t.child? .type with
    | none => simp
    | some type => simpa [hdoc] using eq_comm

lemma isSome_parameter?_iff {t : Tree} :
    (t.parameter? {}).isSome ↔ (t.child? .name).isSome ∧ (t.child? .type).isSome := by
  rw [parameter?_eq]
  cases t.child? .name <;> cases t.child? .type <;> simp

lemma fieldAt?_eq_some_iff {before : List Tree} {t type v : Tree}
    (htype : t.child? .type = some type) {m : Member} :
    v.fieldAt? ((docComment? before).getD {}) t.annotations type.type = some m ↔
      IsDeclaredBy t v ((docComment? before).bind (·.summary)) m := by
  have hdoc : ((docComment? before).getD {}).summary = (docComment? before).bind (·.summary) := by
    cases docComment? before <;> rfl
  rw [fieldAt?, IsDeclaredBy, hdoc]
  cases v.child? .name with
  | none => simp
  | some name => simpa [htype] using eq_comm

lemma isSome_fieldAt?_iff {doc : DocComment} {annotations : List AnnotationUse} {type : TypeExpr}
    {v : Tree} : (v.fieldAt? doc annotations type).isSome ↔ (v.child? .name).isSome := by
  rw [fieldAt?, Option.isSome_map, Option.isSome_map]

lemma declarationKind?_eq_recordType_iff {kind : Kind} :
    declarationKind? kind = some .recordType ↔ kind = .recordDeclaration := by
  cases kind <;> simp [declarationKind?]

lemma isSome_method?_iff (package owner : String) (p : Placed) :
    (p.method? package owner).isSome ↔ p.tree.kind = .methodDeclaration ∧ ¬ p.tree.HasStatic ∧
      (p.tree.child? .name).isSome ∧ (p.tree.child? .type).isSome := by
  rw [Placed.method?, method?_eq, ← isStatic_eq_false_iff]
  by_cases hmethod : p.tree.kind = .methodDeclaration <;> cases p.tree.isStatic <;>
    cases p.tree.child? .name <;> cases p.tree.child? .type <;> simp [hmethod]

lemma forall₂_of_map_some {α β : Type} {xs : List β} {as : List α} {f : α → Option β}
    (h : xs.map some = as.map f) : List.Forall₂ (fun a x => f a = some x) as xs := by
  have hequal : List.Forall₂ Eq (as.map f) (xs.map some) := List.forall₂_eq_eq_eq ▸ h.symm
  rwa [List.forall₂_map_left_iff, List.forall₂_map_right_iff] at hequal

section Declaration

variable {unit : Tree} {a : Address} {p : Placed} (hp : unit.place? a = some p)

include hp

lemma areDeclared_components {k : DeclarationKind} (hk : declarationKind? p.tree.kind = some k) :
    AreDeclared (IsComponentOf unit a) (ComponentAt unit)
      (if k = .recordType then p.tree.components else []) := by
  have hrecord : k = .recordType ↔ p.tree.kind = .recordDeclaration := by
    rw [← declarationKind?_eq_recordType_iff, hk, Option.some.injEq]
  have hnone : (∀ i list, p.tree.kind = .recordDeclaration → ¬ IsChild .parameters p.tree i list) →
      AreDeclared (IsComponentOf unit a) (ComponentAt unit) [] := by
    intro hnone
    refine areDeclared_nil ?_
    rintro b ⟨q, i, list, j, c, hq, hkind, hlist, _⟩
    obtain rfl : p = q := Option.some.inj (hp.symm.trans hq)
    exact hnone i list hkind hlist
  by_cases hkind : p.tree.kind = .recordDeclaration
  · rw [if_pos (hrecord.mpr hkind), components_eq]
    cases hlist : p.tree.child? .parameters with
    | none =>
      refine hnone fun i list _ h => ?_
      rw [h.child?_eq] at hlist
      cases hlist
    | some list =>
      obtain ⟨i, hi⟩ := exists_isChild hlist
      rw [Option.map_some, Option.getD_some, List.filterMap_filter]
      refine (areDeclared_filterMap_children list (a ++ [i]) (U := ComponentAt unit)
        (Q := fun c => c.kind = .formalParameter ∧ (c.child? .name).isSome ∧
          (c.child? .type).isSome) ?_ ?_).congr ?_ fun _ _ => id
      · intro c
        cases hc : c.kind <;> simp [isNamed, hc, isSome_parameter?_iff]
      · intro j c m hc hm
        split_ifs at hm
        refine ⟨⟨(list.children.take j).reverse, c⟩, ?_, parameter?_eq_some_iff.mp hm⟩
        rw [List.append_assoc, List.singleton_append,
          place?_child hp hi.getElem? (List.cons_ne_nil j []), place?, hc, Option.map_some]
      · intro b
        constructor
        · rintro ⟨j, c, hc, ⟨hformal, hname, htype⟩, rfl⟩
          exact ⟨p, i, list, j, c, hp, hkind, hi, hc, hformal, hname, htype, by simp⟩
        · rintro ⟨q, i', list', j, c, hq, _, hi', hc, hformal, hname, htype, rfl⟩
          obtain rfl : p = q := Option.some.inj (hp.symm.trans hq)
          obtain ⟨rfl, rfl⟩ := hi.unique hi'
          exact ⟨j, c, hc, ⟨hformal, hname, htype⟩, by simp⟩
  · rw [if_neg (mt hrecord.mp hkind)]
    exact hnone fun _ _ h => absurd h hkind

/-- The variables of a member, if it is a field of objects. -/
lemma areDeclared_fields :
    AreDeclared (fun b => ∃ q j v, unit.place? a = some q ∧ q.tree.kind = .fieldDeclaration ∧
        ¬ q.tree.HasStatic ∧ (q.tree.child? .type).isSome ∧ q.tree.children[j]? = some v ∧
        v.role = some .declarator ∧ (v.child? .name).isSome ∧ b = a ++ [j])
      (VariableAt unit) p.fields := by
  have hstatic := isStatic_eq_false_iff p.tree
  by_cases hfield : p.tree.kind = .fieldDeclaration ∧ ¬ p.tree.HasStatic
  · have hfields : p.fields = p.tree.declaredFields p.before := by
      rw [Placed.fields, if_pos (by simpa [hstatic] using hfield)]
    rw [hfields, declaredFields_eq]
    cases htype : p.tree.child? .type with
    | none =>
      refine areDeclared_nil ?_
      rintro b ⟨q, j, v, hq, _, _, hsome, _⟩
      obtain rfl : p = q := Option.some.inj (hp.symm.trans hq)
      rw [htype] at hsome
      cases hsome
    | some type =>
      rw [Option.map_some, Option.map_some, Option.getD_some, List.filterMap_filter]
      refine (areDeclared_filterMap_children p.tree a (U := VariableAt unit)
        (Q := fun v => v.role = some .declarator ∧ (v.child? .name).isSome) ?_ ?_).congr ?_
        fun _ _ => id
      · intro v
        by_cases hv : v.role = some .declarator <;> simp [hv, isSome_fieldAt?_iff]
      · intro j v m hv hm
        split_ifs at hm
        exact ⟨a, p, j, v, rfl, hp, hv, (fieldAt?_eq_some_iff htype).mp hm⟩
      · intro b
        constructor
        · rintro ⟨j, v, hv, ⟨hrole, hname⟩, rfl⟩
          exact ⟨p, j, v, hp, hfield.1, hfield.2, by rw [htype]; rfl, hv, hrole, hname, rfl⟩
        · rintro ⟨q, j, v, hq, _, _, _, hv, hrole, hname, rfl⟩
          obtain rfl : p = q := Option.some.inj (hp.symm.trans hq)
          exact ⟨j, v, hv, ⟨hrole, hname⟩, rfl⟩
  · have hfields : p.fields = [] := by
      rw [Placed.fields, if_neg (by simpa [hstatic] using hfield)]
    rw [hfields]
    refine areDeclared_nil ?_
    rintro b ⟨q, j, v, hq, hkind, hobjects, _⟩
    obtain rfl : p = q := Option.some.inj (hp.symm.trans hq)
    exact hfield ⟨hkind, hobjects⟩

lemma methodAt_of_method? {package owner : String} {m : Method}
    (hm : p.method? package owner = some m) : MethodAt package owner unit a m := by
  have hdoc : ∀ doc? : Option DocComment, (doc?.getD {}).summary = doc?.bind (·.summary) ∧
      (doc?.getD {}).returns = doc?.bind (·.returns) := by
    rintro (_ | doc) <;> exact ⟨rfl, rfl⟩
  rw [Placed.method?, method?_eq, (hdoc _).1, (hdoc _).2] at hm
  split_ifs at hm
  cases hname : p.tree.child? .name with
  | none => simp [hname] at hm
  | some name =>
    cases htype : p.tree.child? .type with
    | none => simp [hname, htype] at hm
    | some type =>
      refine ⟨p, name, type, hp, hname, htype, ?_⟩
      simpa [hname, htype] using hm.symm

/-- The members that a declaration has are those in its body, in order. -/
lemma exists_membersOf :
    ∃ ms, Enumerates Earlier (IsMemberOf unit a) ms ∧
      p.tree.membersOf.map some = ms.map unit.place? := by
  rw [membersOf]
  cases hchild : p.tree.child? .body with
  | none =>
    refine ⟨[], .nil ?_, rfl⟩
    rintro b ⟨q, i, body, c, hq, hbody, _⟩
    obtain rfl : p = q := Option.some.inj (hp.symm.trans hq)
    rw [hbody.child?_eq] at hchild
    cases hchild
  | some body =>
    obtain ⟨i, hbody⟩ := exists_isChild hchild
    obtain ⟨ms, hms, hplaces⟩ := exists_members body
    have hmap := hms.map (f := fun c => a ++ i :: c) fun c d hcd =>
      (Earlier.tail i hcd).append_left a
    refine ⟨_, hmap.congr fun b => ?_, ?_⟩
    · constructor
      · rintro ⟨c, hc, rfl⟩
        exact ⟨p, i, body, c, hp, hbody, hc, rfl⟩
      · rintro ⟨q, j, body', c, hq, hbody', hc, rfl⟩
        obtain rfl : p = q := Option.some.inj (hp.symm.trans hq)
        obtain ⟨rfl, rfl⟩ := hbody.unique hbody'
        exact ⟨c, hc, rfl⟩
    · rw [Option.map_some, Option.getD_some, hplaces, List.map_map]
      refine List.map_congr_left fun c hc => ?_
      rw [Function.comp_apply, place?_body hp hbody ((hms.mem_iff c).mp hc).ne_nil]

lemma areDeclared_membersOf :
    AreDeclared (IsMemberOf unit a) (fun b q => unit.place? b = some q) p.tree.membersOf := by
  obtain ⟨ms, hms, hplaces⟩ := exists_membersOf hp
  exact areDeclared_of_enumerates hms (forall₂_of_map_some hplaces)

lemma areDeclared_variables :
    AreDeclared (IsVariableOf unit a) (VariableAt unit)
      (p.tree.membersOf.flatMap Placed.fields) := by
  refine ((areDeclared_membersOf hp).flatMap (fun e q _ hq => areDeclared_fields hq) ?_).congr ?_
    fun _ _ => id
  · rintro e e' _ _ he ⟨_, i, _, _, _, _, _, _, _, _, rfl⟩ ⟨_, j, _, _, _, _, _, _, _, _, rfl⟩
    exact he.append [i] [j]
  · intro b
    constructor
    · rintro ⟨e, he, q, j, v, hv⟩
      exact ⟨e, q, j, v, he, hv⟩
    · rintro ⟨e, q, j, v, he, hv⟩
      exact ⟨e, he, q, j, v, hv⟩

lemma areDeclared_methods (package owner : String) :
    AreDeclared (IsMethodOf unit a) (MethodAt package owner unit)
      (p.tree.membersOf.filterMap (Placed.method? package owner)) := by
  refine (areDeclared_membersOf hp).filterMap ?_ fun b q m hq hm => methodAt_of_method? hq hm
  intro b q hq
  rw [hq, isSome_method?_iff]
  simp

/-- The declaration that is read at an address has what is declared there. -/
lemma isAttributed_declaration {package path : String} {k : DeclarationKind} {name : Tree}
    (hk : declarationKind? p.tree.kind = some k) (hname : p.tree.child? .name = some name) :
    IsAttributed unit a (declaration package path k name.text p.before p.tree) := by
  rw [declaration_eq]
  exact {
    head := ⟨p, name, hp, hk, hname, rfl⟩
    fields := ⟨_, _, rfl, areDeclared_components hp hk, areDeclared_variables hp⟩
    methods := areDeclared_methods hp package name.text }

end Declaration

lemma isAttributed_of_declarationAt? {package path : String} {unit : Tree} {a : Address}
    {d : Declaration} (h : declarationAt? package path unit a = some d) :
    IsAttributed unit a d := by
  obtain ⟨p, hp, h⟩ := Option.bind_eq_some_iff.mp h
  obtain ⟨k, hk, h⟩ := Option.bind_eq_some_iff.mp h
  obtain ⟨name, hname, rfl⟩ := Option.map_eq_some_iff.mp h
  exact isAttributed_declaration hp hk hname

/-! ### Owners -/

/-- What stands directly below a declaration, in its head, is a member of no declaration. -/
lemma not_isMemberOf_child {unit : Tree} {a a' : Address} {i : ℕ} (ha : IsFound unit a)
    (ha' : IsFound unit a') : ¬ IsMemberOf unit a' (a ++ [i]) := by
  rintro ⟨p, j, body, c, hp, hbody, hc, heq⟩
  obtain rfl | ⟨d, k, rfl⟩ := List.eq_nil_or_concat c
  · exact not_isMember_nil _ hc
  rw [List.concat_eq_append] at heq hc
  obtain rfl : a = a' ++ j :: d := by
    have hend : a ++ [i] = (a' ++ j :: d) ++ [k] := by simpa using heq
    exact (List.append_inj' hend rfl).1
  obtain ⟨q, hq, hd⟩ := ha.exists_place
  cases d with
  | nil => exact not_isFound_body ha' hp hbody ha
  | cons l d =>
    rw [place?_body hp hbody (List.cons_ne_nil l d)] at hq
    exact not_declares_of_isMember_append hc (List.cons_ne_nil l d) (List.cons_ne_nil k []) hq hd

/-- A field belongs to one declaration. -/
lemma IsFieldOf.owner_unique {unit : Tree} {a a' b : Address} (ha : IsFound unit a)
    (ha' : IsFound unit a') (h : IsFieldOf unit a b) (h' : IsFieldOf unit a' b) : a = a' := by
  have habove {d e : Address} {j k : ℕ} (heq : d ++ [j] = e ++ [k]) : d = e :=
    (List.append_inj' heq rfl).1
  have hcomponent {d : Address} (hd : IsComponentOf unit d b) : ∃ i j, b = (d ++ [i]) ++ [j] := by
    obtain ⟨_, i, _, j, _, _, _, _, _, _, _, _, rfl⟩ := hd
    exact ⟨i, j, by simp⟩
  have hvariable {d : Address} (hd : IsVariableOf unit d b) :
      ∃ e j, IsMemberOf unit d e ∧ b = e ++ [j] := by
    obtain ⟨e, _, j, _, he, _, _, _, _, _, _, _, rfl⟩ := hd
    exact ⟨e, j, he, rfl⟩
  rcases h with h | h <;> rcases h' with h' | h'
  · obtain ⟨i, j, rfl⟩ := hcomponent h
    obtain ⟨i', j', heq⟩ := hcomponent h'
    exact habove (habove heq)
  · obtain ⟨i, j, rfl⟩ := hcomponent h
    obtain ⟨e, k, he, heq⟩ := hvariable h'
    exact absurd (habove heq ▸ he) (not_isMemberOf_child ha ha')
  · obtain ⟨i, j, rfl⟩ := hcomponent h'
    obtain ⟨e, k, he, heq⟩ := hvariable h
    exact absurd (habove heq ▸ he) (not_isMemberOf_child ha' ha)
  · obtain ⟨e, k, he, rfl⟩ := hvariable h
    obtain ⟨e', k', he', heq⟩ := hvariable h'
    obtain rfl := habove heq
    exact he.owner_unique ha ha' he'

/-- In every syntax tree the declarations that are found are those at the top of the source and in
the bodies of declarations that are found: each of them once, behind those in its body, and else in
the order of the source. The fields of each are the components of a record and then the variables of
the fields of objects directly in its body, its methods are the methods of objects directly in its
body, each of them once and in order, and no member belongs to two declarations. At the top of a
tree that is read from a source stand the children of the root, and whatever has been added before,
adding the source gives the number of declarations that are found. -/
theorem declarations_attributed (path : String) (unit : Tree) :
    ∃ found : List Address,
      found.Nodup ∧ found.Pairwise FoundBefore ∧ (∀ a, a ∈ found ↔ IsFound unit a) ∧
      (unit.declarations path).map some =
        found.map (declarationAt? unit.packageName path unit) ∧
      List.Forall₂ (IsAttributed unit) found (unit.declarations path) ∧
      (∀ a ∈ found, ∀ a' ∈ found, ∀ b,
        IsMemberOf unit a b → IsMemberOf unit a' b → a = a') ∧
      (∀ a ∈ found, ∀ a' ∈ found, ∀ b, IsFieldOf unit a b → IsFieldOf unit a' b → a = a') ∧
      ∀ source, Tree.ofSource source = unit →
        (∀ a, IsMember unit a ↔ ∃ i, a = [i] ∧ i < unit.children.length) ∧
        ∀ calls, (Index.addSource path source (Index.after {} calls)).1 = .ok found.length := by
  obtain ⟨found, hfound, hdeclarations⟩ := exists_found unit.packageName path unit
  refine ⟨found, hfound.nodup not_foundBefore_self, hfound.ordered, hfound.mem_iff,
    hdeclarations, ?_, ?_, ?_, ?_⟩
  · exact (forall₂_of_map_some hdeclarations).imp fun a d hd => isAttributed_of_declarationAt? hd
  · intro a ha a' ha' b h h'
    exact h.owner_unique ((hfound.mem_iff a).mp ha) ((hfound.mem_iff a').mp ha') h'
  · intro a ha a' ha' b h h'
    exact h.owner_unique ((hfound.mem_iff a).mp ha) ((hfound.mem_iff a').mp ha') h'
  · rintro source rfl
    constructor
    · intro a
      constructor
      · intro ha
        obtain ⟨i, b, rfl⟩ := List.exists_cons_of_ne_nil ha.ne_nil
        obtain ⟨u, hu, hb⟩ := isMember_cons.mp ha
        rw [if_neg (kind_of_mem_children_ofSource source u (List.mem_of_getElem? hu))] at hb
        exact ⟨i, by rw [hb], (List.getElem?_eq_some_iff.mp hu).1⟩
      · rintro ⟨i, rfl, hi⟩
        refine isMember_cons.mpr ⟨_, List.getElem?_eq_getElem hi, ?_⟩
        rw [if_neg (kind_of_mem_children_ofSource source _ (List.getElem_mem hi))]
    · intro calls
      have hlength := congrArg List.length hdeclarations
      rw [List.length_map, List.length_map] at hlength
      have hindex : Index.after {} calls = (Catalog.after {} calls).index :=
        Index.after_index {} calls
      rw [hindex, Index.addSource, Index.addAll_index, ← hlength]
      rfl

/-- A class between the fields of an enum,
`enum E { A; int x; class In { int y; static int z; } int w; }`. -/
example :
    let text := "enum E \x7b A; int x; class In \x7b int y; static int z; \x7d int w; \x7d"
    ((ofSource text).declarations "E.java").map (fun d => (d.name, d.fields.map (·.name))) =
      [("In", ["y"]), ("E", ["x", "w"])] := by
  decide +kernel

end ServiceDocs.Java.Tree
