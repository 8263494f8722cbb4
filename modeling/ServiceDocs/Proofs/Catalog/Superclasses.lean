import Mathlib.Data.List.Nodup
import Mathlib.Data.List.Perm.Subperm
import ServiceDocs.Proofs.Catalog.Insertion
import ServiceDocs.Proofs.Catalog.TypeParameters

/-!
# Superclasses

The members of a class are the fields of the classes on the way up from it. The way ends below a
superclass that is not a class of the catalog or that has been met before, so it is finite also
where classes extend each other in a circle. The type parameters of a class on the way stand for
the arguments in the `extends` clause of the class below it.
-/

namespace ServiceDocs

/-! ### The way up from a class -/

/-- A class with types for its parameters. -/
structure ClassType where
  declaration : Declaration
  arguments : List TypeExpr

namespace ClassType

variable (a : ClassType)

def name : String :=
  a.declaration.name

def bindings : TypeExpr.Bindings :=
  a.declaration.bindings a.arguments

/-- The type in the `extends` clause. -/
def superclass? : Option TypeExpr :=
  a.declaration.superclass.map (·.substitute a.bindings)

/-- The fields that the class itself declares, with types in place of its parameters. -/
def fields : List Member :=
  a.declaration.fields.map fun m => { m with type := m.type.substitute a.bindings }

end ClassType

namespace Catalog

variable {c : Catalog}

/-- The class that a type names. Enums are no classes here. -/
def class? (c : Catalog) : TypeExpr → Option ClassType
  | .named name args => ((c.get? name).filter (·.kind ≠ .enumType)).map (⟨·, args⟩)
  | .array _         => none
  | .unknown         => none

/-- The classes on the way up from a class, itself included, when those named `below` have been
met before. -/
inductive Chain (c : Catalog) : List String → Option ClassType → List ClassType → Prop where
  | top (below : List String) : Chain c below none []
  | met {below : List String} {a : ClassType} (h : a.name ∈ below) : Chain c below (some a) []
  | up {below : List String} {a : ClassType} {as : List ClassType} (h : a.name ∉ below)
      (has : Chain c (a.name :: below) (a.superclass?.bind c.class?) as) :
      Chain c below (some a) (a :: as)

lemma class?_eq_some {t : TypeExpr} {a : ClassType} :
    c.class? t = some a ↔ t = .named a.name a.arguments ∧
      c.get? a.name = some a.declaration ∧ a.declaration.kind ≠ .enumType := by
  constructor
  · intro h
    cases t with
    | named name args =>
      simp only [class?, Option.map_eq_some_iff, Option.filter_eq_some_iff, decide_eq_true_eq] at h
      obtain ⟨d, ⟨hget, hkind⟩, rfl⟩ := h
      obtain rfl := name_of_get? hget
      exact ⟨rfl, hget, hkind⟩
    | array element => cases h
    | unknown => cases h
  · rintro ⟨rfl, hget, hkind⟩
    simp [class?, hget, hkind]

/-! ### Chains -/

lemma Chain.unique {below : List String} {a? : Option ClassType} {as bs : List ClassType}
    (has : c.Chain below a? as) (hbs : c.Chain below a? bs) : as = bs := by
  induction has generalizing bs with
  | top below =>
    cases hbs
    rfl
  | met h =>
    cases hbs with
    | met _ => rfl
    | up h' _ => exact absurd h h'
  | up h _ ih =>
    cases hbs with
    | met h' => exact absurd h' h
    | up _ hbs => rw [ih hbs]

/-- No class is met twice. -/
lemma Chain.nodup {below : List String} {a? : Option ClassType} {as : List ClassType}
    (has : c.Chain below a? as) (hbelow : below.Nodup) :
    ((as.map ClassType.name).reverse ++ below).Nodup := by
  induction has with
  | top below => exact hbelow
  | met h => exact hbelow
  | up h _ ih => simpa using ih (List.nodup_cons.mpr ⟨h, hbelow⟩)

lemma name_mem_names_of_class? {t : TypeExpr} {a : ClassType} (h : c.class? t = some a) :
    a.name ∈ c.names :=
  mem_names_of_get? (class?_eq_some.mp h).2.1

lemma length_le_size {names : List String} (hnodup : names.Nodup) (hnames : names ⊆ c.names) :
    names.length ≤ c.size := by
  have hsize : c.names.length = c.size := List.length_map _
  rw [← hsize]
  exact (hnodup.subperm hnames).length_le

/-- Every way up ends: each class on it is a declared one that has not been met. -/
lemma exists_chain {below : List String} {a? : Option ClassType} (hbelow : below.Nodup)
    (hnames : below ⊆ c.names) (ha : ∀ a, a? = some a → a.name ∈ c.names) :
    ∃ as, c.Chain below a? as ∧ below.length + as.length ≤ c.size := by
  obtain _ | a := a?
  · exact ⟨[], .top below, length_le_size hbelow hnames⟩
  by_cases hmet : a.name ∈ below
  · exact ⟨[], .met hmet, length_le_size hbelow hnames⟩
  have hbelow' : (a.name :: below).Nodup := List.nodup_cons.mpr ⟨hmet, hbelow⟩
  have hnames' : a.name :: below ⊆ c.names := List.cons_subset.mpr ⟨ha a rfl, hnames⟩
  have hroom : below.length < c.size := length_le_size hbelow' hnames'
  have hsuper : ∀ b, a.superclass?.bind c.class? = some b → b.name ∈ c.names := by
    intro b hb
    obtain ⟨t, _, hclass⟩ := Option.bind_eq_some_iff.mp hb
    exact name_mem_names_of_class? hclass
  obtain ⟨as, has, hlength⟩ := exists_chain hbelow' hnames' hsuper
  refine ⟨a :: as, .up hmet has, ?_⟩
  rw [List.length_cons] at hlength ⊢
  omega
termination_by c.size - below.length
decreasing_by
  rw [List.length_cons]
  omega

lemma exists_chain_of_class? {t : TypeExpr} {a : ClassType} (h : c.class? t = some a) :
    ∃ as, c.Chain [] (some a) as ∧ as.length ≤ c.size := by
  have ha : ∀ b, some a = some b → b.name ∈ c.names := by
    rintro _ ⟨⟩
    exact name_mem_names_of_class? h
  obtain ⟨as, has, hlength⟩ := exists_chain List.nodup_nil (List.nil_subset c.names) ha
  exact ⟨as, has, by simpa using hlength⟩

/-! ### Members of a class -/

lemma getD_fieldsFrom_of_class?_eq_none {t : TypeExpr} (h : c.class? t = none) (fuel : ℕ)
    (below : List String) : (c.fieldsFrom (fuel + 1) below t).getD [] = [] := by
  cases t with
  | named name args =>
    rw [fieldsFrom]
    cases hget : c.get? name with
    | none => rfl
    | some d =>
      have hkind : d.kind = .enumType := by simpa [class?, hget] using h
      simp [hkind]
  | array element => rfl
  | unknown => rfl

lemma fieldsFrom_of_class? {t : TypeExpr} {a : ClassType} (h : c.class? t = some a) (fuel : ℕ)
    (below : List String) :
    c.fieldsFrom (fuel + 1) below t =
      some (if a.name ∈ below then []
        else (a.superclass?.bind (c.fieldsFrom fuel (a.name :: below))).getD [] ++ a.fields) := by
  obtain ⟨rfl, hget, hkind⟩ := class?_eq_some.mp h
  simp only [fieldsFrom, hget, hkind, decide_false, Bool.false_or, List.contains_iff_mem]
  rw [ClassType.superclass?, Option.bind_map, apply_ite some]
  rfl

/-- The recursion collects the fields along the way up, with at most one call more than the way
has classes. -/
lemma getD_fieldsFrom {below : List String} {t : TypeExpr} {as : List ClassType}
    (has : c.Chain below (c.class? t) as) {fuel : ℕ} (hfuel : as.length ≤ fuel) :
    (c.fieldsFrom (fuel + 1) below t).getD [] = as.reverse.flatMap ClassType.fields := by
  generalize ha : c.class? t = a? at has
  induction has generalizing t fuel with
  | top below => exact getD_fieldsFrom_of_class?_eq_none ha fuel below
  | met h =>
    rw [fieldsFrom_of_class? ha, if_pos h]
    rfl
  | @up below a as h has ih =>
    obtain _ | fuel := fuel
    · exact absurd hfuel (Nat.not_succ_le_zero _)
    have hrest : (a.superclass?.bind (c.fieldsFrom (fuel + 1) (a.name :: below))).getD [] =
        as.reverse.flatMap ClassType.fields := by
      cases hs : a.superclass? with
      | none =>
        rw [hs] at has
        cases has
        rfl
      | some s => exact ih (Nat.le_of_succ_le_succ hfuel) (by rw [hs]; rfl)
    rw [fieldsFrom_of_class? ha, if_neg h, hrest]
    simp

lemma fieldsFrom_eq_some {below : List String} {t : TypeExpr} {a : ClassType} {as : List ClassType}
    (ha : c.class? t = some a) (has : c.Chain below (some a) as) {fuel : ℕ}
    (hfuel : as.length ≤ fuel) :
    c.fieldsFrom (fuel + 1) below t = some (as.reverse.flatMap ClassType.fields) := by
  rw [← ha] at has
  rw [← getD_fieldsFrom has hfuel, fieldsFrom_of_class? ha]
  rfl

/-- Types that are not declared have no known members, and enums have none. The members of a class
are the fields of the classes on the way up from it, those of the topmost class first. There is one
such way, it ends, and no class is on it twice. The types of the fields of each class, and its
superclass, have the arguments in place of the type parameters. -/
theorem members_follow_superclasses (c : Catalog) (t : TypeExpr) :
    match t with
    | .array _ | .unknown => c.members? t = none
    | .named name args =>
      match c.get? name with
      | none => c.members? t = none
      | some d =>
        if d.kind = .enumType then c.members? t = some []
        else
          ∃ chain, (∀ as, c.Chain [] (some ⟨d, args⟩) as ↔ as = chain) ∧
            (chain.map ClassType.name).Nodup ∧ chain.length ≤ c.size ∧
            (∀ a ∈ chain, ∀ s u : TypeExpr,
              TypeExpr.Instantiates a.declaration.typeParameters a.arguments s u ↔
                u = s.substitute a.bindings) ∧
            c.members? t = some (chain.reverse.flatMap ClassType.fields) ∧
            ∀ fuel, chain.length ≤ fuel → c.fieldsFrom (fuel + 1) [] t = c.members? t := by
  cases t with
  | array element => rfl
  | unknown => rfl
  | named name args =>
    cases hget : c.get? name with
    | none => simp [members?, fieldsFrom, hget]
    | some d =>
      simp only [hget]
      split_ifs with hkind
      · simp [members?, fieldsFrom, hget, hkind]
      have ha : c.class? (.named name args) = some ⟨d, args⟩ := by simp [class?, hget, hkind]
      obtain ⟨chain, hchain, hsize⟩ := exists_chain_of_class? ha
      have hmembers : c.members? (.named name args) =
          some (chain.reverse.flatMap ClassType.fields) := fieldsFrom_eq_some ha hchain hsize
      refine ⟨chain, ?_, ?_, hsize, ?_, hmembers, ?_⟩
      · intro as
        exact ⟨fun has => has.unique hchain, fun has => has ▸ hchain⟩
      · simpa using hchain.nodup List.nodup_nil
      · intro a _
        exact TypeExpr.instantiates_iff (TypeExpr.bindsByPosition_bindings a.declaration a.arguments)
      · intro fuel hfuel
        rw [hmembers]
        exact fieldsFrom_eq_some ha hchain hfuel

/-- Classes that extend each other, `Page<T> extends Slice<List<T>>` and `Slice<E> extends Page<E>`:
each of them gives its fields once. -/
example :
    let page : Declaration :=
      { name := "Page", package := "", kind := .classType, path := "Page.java"
        typeParameters := ["T"], superclass := some (.named "Slice" [.named "List" [.ofName "T"]])
        fields := [{ name := "first", type := .ofName "T" }] }
    let slice : Declaration :=
      { name := "Slice", package := "", kind := .classType, path := "Slice.java"
        typeParameters := ["E"], superclass := some (.named "Page" [.ofName "E"])
        fields := [{ name := "items", type := .ofName "E" }] }
    (Catalog.mk [page, slice]).members? (.named "Page" [.ofName "User"]) =
      some [{ name := "items", type := .named "List" [.ofName "User"] },
        { name := "first", type := .ofName "User" }] := by
  decide +kernel

end Catalog

end ServiceDocs
