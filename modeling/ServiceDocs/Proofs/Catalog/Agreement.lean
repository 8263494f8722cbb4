import Mathlib.Data.Set.Basic
import ServiceDocs.Proofs.Catalog.Superclasses
import ServiceDocs.Proofs.Expansion.Agreement

/-!
# Catalogs that agree on names

What a catalog says about a type depends on the declarations of the names in it, of the names in
these declarations, and so on; replacing type parameters brings in no other names. Catalogs with the
same declarations for a set of names that is closed in this sense say the same about all types
that are made of these names, whatever else they hold.
-/

namespace ServiceDocs

/-! ### Names in types -/

namespace TypeExpr

mutual

/-- The names in a type, at any depth of arguments and arrays. -/
def names : TypeExpr → List String
  | .named name args => name :: namesAll args
  | .array element   => element.names
  | .unknown         => []
termination_by structural x => x

/-- The names in the types of a list. -/
def namesAll : List TypeExpr → List String
  | []      => []
  | t :: ts => t.names ++ namesAll ts
termination_by structural x => x

end

/-- Every name in the type belongs to the set. -/
def Within (ns : Set String) (t : TypeExpr) : Prop :=
  ∀ name ∈ t.names, name ∈ ns

section Within

variable {ns : Set String}

lemma mem_namesAll {name : String} {ts : List TypeExpr} :
    name ∈ namesAll ts ↔ ∃ t ∈ ts, name ∈ t.names := by
  induction ts with
  | nil => simp [namesAll]
  | cons t ts ih => simp [namesAll, ih]

lemma within_named {name : String} {args : List TypeExpr} :
    (named name args).Within ns ↔ name ∈ ns ∧ ∀ t ∈ args, t.Within ns := by
  unfold Within
  simp only [names, List.forall_mem_cons, mem_namesAll]
  exact and_congr_right fun _ => ⟨fun h t ht n hn => h n ⟨t, ht, hn⟩,
    fun h n ⟨t, ht, hn⟩ => h t ht n hn⟩

lemma within_unknown : unknown.Within ns := List.forall_mem_nil _

lemma Within.of_element? {t e : TypeExpr} (ht : t.Within ns) (he : t.element? = some e) :
    e.Within ns := by
  cases t with
  | named name args =>
    rw [element?] at he
    split_ifs at he
    obtain rfl := Option.some.inj he
    cases args with
    | nil => exact within_unknown
    | cons a as => exact (within_named.mp ht).2 a List.mem_cons_self
  | array t =>
    obtain rfl := Option.some.inj he
    exact ht
  | unknown => cases he

/-- The types that are bound are made of names of the set. -/
def Bindings.Within (ns : Set String) (σ : Bindings) : Prop :=
  ∀ p ∈ σ, p.2.Within ns

mutual

/-- Substitution brings in no names but those in the types that are bound. -/
lemma Within.substitute {σ : Bindings} (hσ : σ.Within ns) :
    (t : TypeExpr) → t.Within ns → (t.substitute σ).Within ns
  | .named name [],        ht => by
    rw [substitute_named_nil]
    cases hlookup : σ.lookup name with
    | none => exact ht
    | some u =>
      obtain ⟨before, after, rfl, _⟩ := List.lookup_eq_some_iff.mp hlookup
      exact hσ (name, u) (List.mem_append_right _ List.mem_cons_self)
  | .named name (a :: as), ht => by
    rw [within_named] at ht
    rw [substitute_named_cons, within_named]
    exact ⟨ht.1, Within.substituteAll hσ (a :: as) ht.2⟩
  | .array t,              ht => by
    rw [substitute_array]
    exact Within.substitute hσ t ht
  | .unknown,              _  => by
    rw [substitute_unknown]
    exact within_unknown

lemma Within.substituteAll {σ : Bindings} (hσ : σ.Within ns) :
    (ts : List TypeExpr) → (∀ t ∈ ts, t.Within ns) → ∀ u ∈ substituteAll σ ts, u.Within ns
  | [],      _   => by simp [TypeExpr.substituteAll]
  | t :: ts, hts => by
    rw [List.forall_mem_cons] at hts
    rw [TypeExpr.substituteAll, List.forall_mem_cons]
    exact ⟨Within.substitute hσ t hts.1, Within.substituteAll hσ ts hts.2⟩

end

end Within

end TypeExpr

/-! ### Names in declarations -/

namespace Method

/-- The types that a method is declared with. -/
def types (m : Method) : List TypeExpr :=
  m.returnType :: m.parameters.map (·.type)

end Method

namespace Declaration

/-- The types of the fields, of the parameters and results of the methods, and of the
superclass. -/
def types (d : Declaration) : List TypeExpr :=
  d.fields.map (·.type) ++ d.methods.flatMap Method.types ++ d.superclass.toList

/-- The names in the types of a declaration. -/
def mentions (d : Declaration) : List String :=
  d.types.flatMap TypeExpr.names

variable {ns : Set String} {d : Declaration}

lemma within_of_mem_types (hd : ∀ name ∈ d.mentions, name ∈ ns) : ∀ t ∈ d.types, t.Within ns :=
  fun t ht name hname => hd name (List.mem_flatMap.mpr ⟨t, ht, hname⟩)

lemma within_bindings {args : List TypeExpr} (hargs : ∀ t ∈ args, t.Within ns) :
    (d.bindings args).Within ns := by
  intro p hp
  rw [bindings] at hp
  rw [List.mem_reverse, List.mem_mapIdx] at hp
  obtain ⟨i, hi, rfl⟩ := hp
  dsimp only
  rw [List.getD_eq_getElem?_getD]
  cases harg : args[i]? with
  | none => exact TypeExpr.within_unknown
  | some t => exact hargs t (List.mem_of_getElem? harg)

end Declaration

/-! ### Agreement -/

namespace Catalog

/-- The catalogs have the same declarations for the names of a set, and these mention only names of
the set. -/
structure AgreeOn (ns : Set String) (c c' : Catalog) : Prop where
  get? : ∀ name ∈ ns, c'.get? name = c.get? name
  mentions : ∀ name ∈ ns, ∀ d, c.get? name = some d → ∀ n ∈ d.mentions, n ∈ ns

/-- With at least as much fuel as there are declarations, the amount does not matter. -/
lemma fieldsFrom_eq_members? (c : Catalog) {fuel : ℕ} (hfuel : c.size ≤ fuel) (t : TypeExpr) :
    c.fieldsFrom (fuel + 1) [] t = c.members? t := by
  cases hclass : c.class? t with
  | some a =>
    obtain ⟨as, has, hlength⟩ := exists_chain_of_class? hclass
    rw [members?, fieldsFrom_eq_some hclass has hlength,
      fieldsFrom_eq_some hclass has (hlength.trans hfuel)]
  | none =>
    cases t with
    | named name args =>
      rw [members?, fieldsFrom, fieldsFrom]
      cases hget : c.get? name with
      | none => rfl
      | some d =>
        have hkind : d.kind = .enumType := by simpa [class?, hget] using hclass
        simp [hkind]
    | array element => rfl
    | unknown => rfl

namespace AgreeOn

variable {ns : Set String} {c c' : Catalog}

lemma within_superclass (h : AgreeOn ns c c') {name : String} (hname : name ∈ ns) {d : Declaration}
    (hd : c.get? name = some d) {args : List TypeExpr} (hargs : ∀ t ∈ args, t.Within ns)
    {s : TypeExpr} (hs : d.superclass = some s) : (s.substitute (d.bindings args)).Within ns := by
  apply TypeExpr.Within.substitute (Declaration.within_bindings hargs)
  apply Declaration.within_of_mem_types (h.mentions name hname d hd)
  simp [Declaration.types, hs]

lemma fieldsFrom_eq (h : AgreeOn ns c c') (fuel : ℕ) (visited : List String) {t : TypeExpr}
    (ht : t.Within ns) : c'.fieldsFrom fuel visited t = c.fieldsFrom fuel visited t := by
  induction fuel generalizing visited t with
  | zero => rw [fieldsFrom, fieldsFrom]
  | succ fuel ih =>
    cases t with
    | named name args =>
      obtain ⟨hname, hargs⟩ := TypeExpr.within_named.mp ht
      rw [fieldsFrom, fieldsFrom]
      simp only [h.get? name hname]
      cases hd : c.get? name with
      | none => simp only
      | some d =>
        have hinherited : (d.superclass.bind fun s =>
              c'.fieldsFrom fuel (name :: visited) (s.substitute (d.bindings args))) =
            d.superclass.bind fun s =>
              c.fieldsFrom fuel (name :: visited) (s.substitute (d.bindings args)) := by
          cases hs : d.superclass with
          | none => rw [Option.bind_none, Option.bind_none]
          | some s => exact ih (name :: visited) (h.within_superclass hname hd hargs hs)
        simp only [hinherited]
    | array element => rfl
    | unknown => rfl

/-- The fields of a type and of its superclasses are made of names that are known as well. -/
lemma within_fieldsFrom (h : AgreeOn ns c c') (fuel : ℕ) (visited : List String) {t : TypeExpr}
    (ht : t.Within ns) {ms : List Member} (hms : c.fieldsFrom fuel visited t = some ms) :
    ∀ m ∈ ms, m.type.Within ns := by
  induction fuel generalizing visited t ms with
  | zero =>
    obtain rfl := Option.some.inj hms
    exact List.forall_mem_nil _
  | succ fuel ih =>
    cases t with
    | named name args =>
      obtain ⟨hname, hargs⟩ := TypeExpr.within_named.mp ht
      rw [fieldsFrom] at hms
      simp only at hms
      cases hd : c.get? name with
      | none => simp [hd] at hms
      | some d =>
        simp only [hd] at hms
        split_ifs at hms
        · obtain rfl := Option.some.inj hms
          exact List.forall_mem_nil _
        · obtain rfl := Option.some.inj hms
          rw [List.forall_mem_append]
          constructor
          · intro m hm
            cases hs : d.superclass with
            | none => simp [hs] at hm
            | some s =>
              simp only [hs, Option.bind_some] at hm
              cases hinherited :
                  c.fieldsFrom fuel (name :: visited) (s.substitute (d.bindings args)) with
              | none => simp [hinherited] at hm
              | some inherited =>
                rw [hinherited, Option.getD_some] at hm
                exact ih _ (h.within_superclass hname hd hargs hs) hinherited m hm
          · rw [Declaration.ownFields, List.forall_mem_map]
            intro m hm
            apply TypeExpr.Within.substitute (Declaration.within_bindings hargs)
            apply Declaration.within_of_mem_types (h.mentions name hname d hd)
            simp only [Declaration.types, List.mem_append]
            exact .inl (.inl (List.mem_map_of_mem hm))
    | array element => cases hms
    | unknown => cases hms

/-- How many declarations a catalog holds besides those that count does not matter. -/
lemma members?_eq (h : AgreeOn ns c c') {t : TypeExpr} (ht : t.Within ns) :
    c'.members? t = c.members? t := by
  rw [← c.fieldsFrom_eq_members? (le_max_left c.size c'.size),
    ← c'.fieldsFrom_eq_members? (le_max_right c.size c'.size)]
  exact h.fieldsFrom_eq _ [] ht

lemma enum?_eq (h : AgreeOn ns c c') {t : TypeExpr} (ht : t.Within ns) :
    c'.enum? t = c.enum? t := by
  cases t with
  | named name args => rw [enum?, enum?, h.get? name (TypeExpr.within_named.mp ht).1]
  | array element => rfl
  | unknown => rfl

/-- The catalogs give the same answers about the types that are made of these names. -/
theorem source (h : AgreeOn ns c c') :
    TypeSource.AgreeOn {t | t.Within ns} c.source c'.source where
  element? := fun _ _ => rfl
  isTerminal := by
    intro t ht
    show c'.isTerminal t = c.isTerminal t
    rw [isTerminal, isTerminal, h.enum?_eq ht]
  sample := by
    intro t ht
    show c'.sample t = c.sample t
    rw [sample, sample, h.enum?_eq ht]
  members? := fun t ht => h.members?_eq ht
  element_mem := fun t ht e he => TypeExpr.Within.of_element? ht he
  member_mem := fun t ht ms hms => h.within_fieldsFrom _ [] ht hms

/-- The catalogs give rise to the same documentation of a type that is called by one of these
names. -/
theorem entriesFor_eq (h : AgreeOn ns c c') {type : String} (htype : type ∈ ns) (depth : ℕ)
    (method : Option String) :
    Generation.entriesFor c'.source depth type method =
      Generation.entriesFor c.source depth type method := by
  apply h.source.entriesFor_eq
  · show (c'.get? type).map (·.methods) = (c.get? type).map (·.methods)
    rw [h.get? type htype]
  · intro ms hms m hm
    obtain ⟨d, hd, rfl⟩ := Option.map_eq_some_iff.mp hms
    have hwithin := Declaration.within_of_mem_types (h.mentions type htype d hd)
    have hmem : ∀ t ∈ m.types, t ∈ d.types := by
      intro t ht
      simp only [Declaration.types, List.mem_append]
      exact .inl (.inr (List.mem_flatMap.mpr ⟨m, hm, ht⟩))
    exact {
      result := hwithin _ (hmem _ List.mem_cons_self)
      parameter := fun p hp =>
        hwithin _ (hmem _ (List.mem_cons_of_mem _ (List.mem_map_of_mem hp))) }

end AgreeOn

end Catalog

end ServiceDocs
