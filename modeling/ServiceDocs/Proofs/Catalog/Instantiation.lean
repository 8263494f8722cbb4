import Mathlib.Tactic.Common
import ServiceDocs.Proofs.Catalog.Superclasses
import ServiceDocs.Proofs.TypeExpr.Substitution

/-!
# Instantiation of members

A type variable may be replaced before or after the members of a type are collected. Collecting
binds the type parameters of each class on the way up to types that may hold the variable, so the
two substitutions meet in the arguments. They cannot interfere as long as the variable is not
written in one of the classes itself, other than as a type parameter of that class.
-/

namespace ServiceDocs

/-- The member with the bound variables replaced in its type. -/
def Member.substitute (σ : TypeExpr.Bindings) (m : Member) : Member :=
  { m with type := m.type.substitute σ }

/-! ### Declarations without the variables -/

namespace Declaration

/-- The types from which the members of a class come: those of its fields, and its superclass. -/
def memberTypes (d : Declaration) : List TypeExpr :=
  d.superclass.toList ++ d.fields.map (·.type)

/-- The class extends one of its own type parameters. -/
def ExtendsParameter (d : Declaration) : Prop :=
  ∃ p ∈ d.typeParameters, d.superclass = some (.ofName p)

/-- No name that stands alone in the declaration is bound, apart from type parameters of the
declaration. -/
def SparedBy (d : Declaration) (σ : TypeExpr.Bindings) : Prop :=
  ∀ t ∈ d.memberTypes, ∀ name ∈ t.bareNames, name ∉ d.typeParameters → σ.lookup name = none

instance (d : Declaration) : Decidable d.ExtendsParameter :=
  inferInstanceAs (Decidable (∃ p ∈ d.typeParameters, d.superclass = some (.ofName p)))

instance (d : Declaration) (σ : TypeExpr.Bindings) : Decidable (d.SparedBy σ) :=
  inferInstanceAs (Decidable (∀ t ∈ d.memberTypes, ∀ name ∈ t.bareNames,
    name ∉ d.typeParameters → σ.lookup name = none))

variable {d : Declaration} {σ : TypeExpr.Bindings}

/-- A type parameter stands for an argument; replacing variables in what it stands for is the same
as replacing them in the argument. -/
lemma substitute_bindings_ofName (d : Declaration) (args : List TypeExpr) {name : String}
    (h : name ∉ d.typeParameters → σ.lookup name = none) :
    ((TypeExpr.ofName name).substitute (d.bindings args)).substitute σ =
      (TypeExpr.ofName name).substitute (d.bindings (args.map (·.substitute σ))) := by
  have hargs := TypeExpr.bindsByPosition_bindings d args
  have hinstances := TypeExpr.bindsByPosition_bindings d (args.map (·.substitute σ))
  by_cases hmem : name ∈ d.typeParameters
  · -- A missing argument is unknown before and after.
    obtain ⟨i, hi⟩ := TypeExpr.exists_isParameter hmem
    simp only [TypeExpr.ofName, TypeExpr.substitute_named_nil, hargs.parameter i name hi,
      hinstances.parameter i name hi, Option.getD_some]
    rw [List.getD_eq_getElem?_getD, List.getD_eq_getElem?_getD, List.getElem?_map]
    cases args[i]? with
    | none => exact TypeExpr.substitute_unknown σ
    | some t => rfl
  · simp only [TypeExpr.ofName, TypeExpr.substitute_named_nil, hargs.other name hmem,
      hinstances.other name hmem, Option.getD_none, h hmem]

lemma SparedBy.substitute_bindings (hd : d.SparedBy σ) (args : List TypeExpr) {t : TypeExpr}
    (ht : t ∈ d.memberTypes) :
    (t.substitute (d.bindings args)).substitute σ =
      t.substitute (d.bindings (args.map (·.substitute σ))) := by
  apply TypeExpr.substitute_substitute_of_bareNames
  intro name hname
  exact substitute_bindings_ofName d args (hd t ht name hname)

/-- The superclass of a class is no variable, whatever the arguments of the class are. -/
lemma SparedBy.lookup_superclass (hd : d.SparedBy σ) (hextends : ¬ d.ExtendsParameter)
    {args : List TypeExpr} {s : TypeExpr} (hs : d.superclass = some s) {name : String}
    (hname : s.substitute (d.bindings args) = .ofName name) : σ.lookup name = none := by
  cases s with
  | named n as =>
    cases as with
    | nil =>
      have hn : n ∉ d.typeParameters := fun hmem => hextends ⟨n, hmem, hs⟩
      rw [TypeExpr.substitute_named_nil,
        (TypeExpr.bindsByPosition_bindings d args).other n hn] at hname
      obtain ⟨rfl, _⟩ := TypeExpr.named.inj hname
      have hmem : TypeExpr.named n [] ∈ d.memberTypes := by simp [memberTypes, hs]
      exact hd _ hmem n (List.mem_singleton_self n) hn
    | cons a as =>
      rw [TypeExpr.substitute_named_cons] at hname
      cases hname
  | array element =>
    rw [TypeExpr.substitute_array] at hname
    cases hname
  | unknown =>
    rw [TypeExpr.substitute_unknown] at hname
    cases hname

end Declaration

/-! ### Classes on the way up -/

/-- The class with the bound variables replaced in its arguments. -/
def ClassType.substitute (σ : TypeExpr.Bindings) (a : ClassType) : ClassType :=
  ⟨a.declaration, a.arguments.map (·.substitute σ)⟩

namespace ClassType

variable {σ : TypeExpr.Bindings} {a : ClassType}

lemma fields_substitute (ha : a.declaration.SparedBy σ) :
    (a.substitute σ).fields = a.fields.map (Member.substitute σ) := by
  rw [fields, fields, List.map_map]
  apply List.map_congr_left
  intro m hm
  have hmem : m.type ∈ a.declaration.memberTypes :=
    List.mem_append_right _ (List.mem_map_of_mem hm)
  have htype : m.type.substitute (a.substitute σ).bindings =
      (m.type.substitute a.bindings).substitute σ :=
    (ha.substitute_bindings a.arguments hmem).symm
  simp only [Function.comp_apply, Member.substitute, htype]

lemma superclass?_substitute (ha : a.declaration.SparedBy σ) :
    (a.substitute σ).superclass? = a.superclass?.map (·.substitute σ) := by
  rw [superclass?, superclass?, Option.map_map]
  apply Option.map_congr
  intro s hs
  have hmem : s ∈ a.declaration.memberTypes := List.mem_append_left _ (Option.mem_toList.mpr hs)
  exact (ha.substitute_bindings a.arguments hmem).symm

end ClassType

namespace Catalog

variable {c : Catalog} {σ : TypeExpr.Bindings}

lemma class?_substitute {t : TypeExpr} (h : ∀ name, t = .ofName name → σ.lookup name = none) :
    c.class? (t.substitute σ) = (c.class? t).map (·.substitute σ) := by
  cases t with
  | named name args =>
    have hsubstitute : (TypeExpr.named name args).substitute σ =
        .named name (args.map (·.substitute σ)) := by
      cases args with
      | nil => exact TypeExpr.substitute_named (h name rfl)
      | cons a as => exact TypeExpr.substitute_named_of_ne_nil σ name (List.cons_ne_nil a as)
    rw [hsubstitute, class?, class?, Option.map_map]
    rfl
  | array element =>
    rw [TypeExpr.substitute_array]
    rfl
  | unknown =>
    rw [TypeExpr.substitute_unknown]
    rfl

/-- The declarations of the classes on the way up from the class that a type names. -/
def OnChain (c : Catalog) (t : TypeExpr) (d : Declaration) : Prop :=
  ∃ as, c.Chain [] (c.class? t) as ∧ ∃ a ∈ as, a.declaration = d

/-- The way up from an instance is the way up, instance by instance. -/
lemma Chain.substitute {below : List String} {a? : Option ClassType} {as : List ClassType}
    (has : c.Chain below a? as)
    (h : ∀ a ∈ as, a.declaration.SparedBy σ ∧ ¬ a.declaration.ExtendsParameter) :
    c.Chain below (a?.map (·.substitute σ)) (as.map (·.substitute σ)) := by
  induction has with
  | top below => exact .top below
  | met hmet => exact .met hmet
  | @up below a as hmet _ ih =>
    rw [List.forall_mem_cons] at h
    obtain ⟨⟨hspared, hextends⟩, has⟩ := h
    refine .up hmet ?_
    have hsuper : (a.substitute σ).superclass?.bind c.class? =
        (a.superclass?.bind c.class?).map (·.substitute σ) := by
      rw [ClassType.superclass?_substitute hspared, Option.bind_map, Option.map_bind]
      apply Option.bind_congr
      intro u hu
      obtain ⟨s, hs, rfl⟩ := Option.map_eq_some_iff.mp hu
      exact class?_substitute fun name hname => hspared.lookup_superclass hextends hs hname
    rw [hsuper]
    -- The guard of the walk looks at names of classes, which substitution keeps.
    exact ih has

lemma members?_of_class?_eq_none {name : String} {args : List TypeExpr}
    (h : c.class? (.named name args) = none) :
    c.members? (.named name args) = (c.get? name).map fun _ => [] := by
  rw [members?, fieldsFrom]
  cases hget : c.get? name with
  | none => simp
  | some d =>
    have hkind : d.kind = .enumType := by simpa [class?, hget] using h
    simp [hkind]

/-- Replacing type variables in a type replaces them in the types of its members, and in nothing
else; a type that cannot be resolved remains one. The variables must differ from the name of the
type, and from every name that stands alone in a class on the way up from it and is no type
parameter there. No class on the way up may extend one of its own type parameters. -/
theorem members?_substitute (c : Catalog) (name : String) (args : List TypeExpr)
    (σ : TypeExpr.Bindings) (hname : σ.lookup name = none)
    (hchain : ∀ d, c.OnChain (.named name args) d → d.SparedBy σ ∧ ¬ d.ExtendsParameter) :
    c.members? ((TypeExpr.named name args).substitute σ) =
      (c.members? (.named name args)).map (·.map (Member.substitute σ)) := by
  have hclass : c.class? ((TypeExpr.named name args).substitute σ) =
      (c.class? (.named name args)).map (·.substitute σ) :=
    class?_substitute fun n hn => (TypeExpr.named.inj hn).1 ▸ hname
  cases ha : c.class? (.named name args) with
  | none =>
    rw [ha, Option.map_none, TypeExpr.substitute_named hname] at hclass
    rw [TypeExpr.substitute_named hname, members?_of_class?_eq_none hclass,
      members?_of_class?_eq_none ha, Option.map_map]
    rfl
  | some a =>
    rw [ha, Option.map_some] at hclass
    obtain ⟨as, has, hsize⟩ := exists_chain_of_class? ha
    have hspared : ∀ b ∈ as, b.declaration.SparedBy σ ∧ ¬ b.declaration.ExtendsParameter :=
      fun b hb => hchain b.declaration ⟨as, ha ▸ has, b, hb, rfl⟩
    have hinstance : c.Chain [] (some (a.substitute σ)) (as.map (·.substitute σ)) :=
      has.substitute hspared
    rw [members?, members?, fieldsFrom_eq_some ha has hsize,
      fieldsFrom_eq_some hclass hinstance (by rwa [List.length_map]), Option.map_some,
      ← List.map_reverse, List.flatMap_map, List.map_flatMap, Option.some.injEq]
    apply List.flatMap_congr
    intro b hb
    exact ClassType.fields_substitute (hspared b (List.mem_reverse.mp hb)).1

/-- The variable `T` has the name of a type parameter of `Page`, the classes extend each other, and
`Slice` lacks an argument. -/
theorem members?_substitute_page :
    let page : Declaration :=
      { name := "Page", package := "", kind := .classType, path := "Page.java"
        typeParameters := ["T"], superclass := some (.named "Slice" [.named "List" [.ofName "T"]])
        fields := [{ name := "first", type := .ofName "T" }] }
    let slice : Declaration :=
      { name := "Slice", package := "", kind := .classType, path := "Slice.java"
        typeParameters := ["E", "F"], superclass := some (.named "Page" [.ofName "E"])
        fields := [{ name := "items", type := .ofName "E" },
          { name := "next", type := .ofName "F" }] }
    let c := Catalog.mk [page, slice]
    let t := TypeExpr.named "Page" [.ofName "T"]
    let σ : TypeExpr.Bindings := [("T", .ofName "User")]
    σ.lookup "Page" = none ∧
      (∀ d, c.OnChain t d → d.SparedBy σ ∧ ¬ d.ExtendsParameter) ∧
      t.substitute σ = .named "Page" [.ofName "User"] ∧
      c.members? (.named "Page" [.ofName "User"]) =
        (c.members? t).map (·.map (Member.substitute σ)) ∧
      c.members? t = some [{ name := "items", type := .named "List" [.ofName "T"] },
        { name := "next", type := .unknown }, { name := "first", type := .ofName "T" }] := by
  intro page slice c t σ
  have hchain : c.Chain [] (c.class? t)
      [⟨page, [.ofName "T"]⟩, ⟨slice, [.named "List" [.ofName "T"]]⟩] :=
    .up (by decide) (.up (by decide) (.met (by decide)))
  have hspared : ∀ d, c.OnChain t d → d.SparedBy σ ∧ ¬ d.ExtendsParameter := by
    rintro d ⟨as, has, a, ha, rfl⟩
    rw [has.unique hchain] at ha
    simp only [List.mem_cons, List.not_mem_nil, or_false] at ha
    rcases ha with rfl | rfl <;> decide
  have hlookup : σ.lookup "Page" = none := by decide
  exact ⟨hlookup, hspared, rfl, members?_substitute c "Page" [.ofName "T"] σ hlookup hspared,
    by decide +kernel⟩

end Catalog

end ServiceDocs
