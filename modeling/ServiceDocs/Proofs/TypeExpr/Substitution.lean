import Mathlib.Tactic.Common
import ServiceDocs.TypeExpr.Basic

/-!
# Substitution composes

One substitution behind another is a single substitution, by the bindings of the first one with the
second one applied to what they bind, and by the bindings of the second one for all other names. In
each of the two the bound names are replaced at the same time: what has been put in is not looked at
again, even if the name that it stands for is written in it.
-/

namespace ServiceDocs.TypeExpr

/-! ### Names that may be variables -/

mutual

/-- The names in a type that have no arguments, and may therefore be taken for variables. -/
def bareNames : TypeExpr → List String
  | .named name []     => [name]
  | .named _ (a :: as) => bareNamesAll (a :: as)
  | .array element     => element.bareNames
  | .unknown           => []
termination_by structural x => x

/-- The names without arguments in the types of a list. -/
def bareNamesAll : List TypeExpr → List String
  | []      => []
  | t :: ts => t.bareNames ++ bareNamesAll ts
termination_by structural x => x

end

section Substitution

variable {σ τ ρ : Bindings}

mutual

/-- Two substitutions have the effect of a third one if they do on every name that may be a
variable. -/
lemma substitute_substitute_of_bareNames :
    (t : TypeExpr) →
      (∀ name ∈ t.bareNames,
        ((ofName name).substitute σ).substitute τ = (ofName name).substitute ρ) →
      (t.substitute σ).substitute τ = t.substitute ρ
  | .named name [],        h => h name (List.mem_singleton_self name)
  | .named name (a :: as), h => by
    have hall := substituteAll_substituteAll_of_bareNames (a :: as) h
    rw [substitute_named_cons, substituteAll, substitute_named_cons, substitute_named_cons, ← hall]
    rfl
  | .array t,              h => by
    simp only [substitute_array]
    rw [substitute_substitute_of_bareNames t h]
  | .unknown,              _ => by simp only [substitute_unknown]

lemma substituteAll_substituteAll_of_bareNames :
    (ts : List TypeExpr) →
      (∀ name ∈ bareNamesAll ts,
        ((ofName name).substitute σ).substitute τ = (ofName name).substitute ρ) →
      substituteAll τ (substituteAll σ ts) = substituteAll ρ ts
  | [],      _ => rfl
  | t :: ts, h => by
    rw [bareNamesAll, List.forall_mem_append] at h
    simp only [substituteAll]
    rw [substitute_substitute_of_bareNames t h.1, substituteAll_substituteAll_of_bareNames ts h.2]

end

/-- Substitution keeps the name of a type that is no bound variable. -/
lemma substitute_named {name : String} {args : List TypeExpr} (h : σ.lookup name = none) :
    (named name args).substitute σ = .named name (args.map (substitute σ)) := by
  cases args with
  | nil =>
    rw [substitute_named_nil, h]
    rfl
  | cons a as => exact substitute_named_of_ne_nil σ name (List.cons_ne_nil a as)

end Substitution

/-! ### Bindings behind bindings -/

namespace Bindings

/-- The bindings of `σ` with `τ` applied to what they bind, and those of `τ` for the names that `σ`
does not bind. -/
def andThen (σ τ : Bindings) : Bindings :=
  σ.map (fun b => (b.1, b.2.substitute τ)) ++ τ.filter fun b => (σ.lookup b.1).isNone

lemma lookup_map (σ τ : Bindings) (name : String) :
    (σ.map fun b => (b.1, b.2.substitute τ)).lookup name =
      (σ.lookup name).map (·.substitute τ) := by
  induction σ with
  | nil => rfl
  | cons b σ ih =>
    rw [List.map_cons, List.lookup_cons, List.lookup_cons, ih]
    split <;> rfl

lemma lookup_filter {p : String → Bool} {name : String} (h : p name = true) (τ : Bindings) :
    (τ.filter fun b => p b.1).lookup name = τ.lookup name := by
  induction τ with
  | nil => rfl
  | cons b τ ih =>
    rw [List.filter_cons, List.lookup_cons]
    by_cases hname : name = b.1
    · subst hname
      rw [if_pos h, List.lookup_cons, beq_self_eq_true]
    · rw [beq_false_of_ne hname]
      split
      · rw [List.lookup_cons, beq_false_of_ne hname]
        exact ih
      · exact ih

/-- What a name stands for in the end. -/
lemma lookup_andThen (σ τ : Bindings) (name : String) :
    (σ.andThen τ).lookup name = ((σ.lookup name).map (·.substitute τ)).or (τ.lookup name) := by
  rw [andThen, List.lookup_append, lookup_map]
  cases hσ : σ.lookup name with
  | none =>
    have hnone : (σ.lookup name).isNone = true := by rw [hσ, Option.isNone_none]
    have hfilter := lookup_filter (p := fun n => (σ.lookup n).isNone) hnone τ
    rw [hfilter]
  | some t => rfl

end Bindings

/-! ### Parts of a type -/

/-- The types right below a type: its arguments, or the element of an array. -/
def children : TypeExpr → List TypeExpr
  | .named _ args  => args
  | .array element => [element]
  | .unknown       => []

/-- The part of a type that is reached by these choices among the types right below. -/
def part? (t : TypeExpr) : List ℕ → Option TypeExpr
  | []        => some t
  | i :: path => t.children[i]?.bind (·.part? path)

/-- Only a type without anything below it may be replaced as a whole. -/
lemma children_substitute {t : TypeExpr} (h : t.children ≠ []) (σ : Bindings) :
    (t.substitute σ).children = t.children.map (substitute σ) := by
  cases t with
  | named name args =>
    have hargs : args ≠ [] := h
    rw [substitute_named_of_ne_nil σ name hargs]
    rfl
  | array element =>
    rw [substitute_array]
    rfl
  | unknown => exact absurd rfl h

/-- Substitution acts on every part of a type, at its place. -/
lemma part?_substitute {t u : TypeExpr} {path : List ℕ} (h : t.part? path = some u)
    (σ : Bindings) : (t.substitute σ).part? path = some (u.substitute σ) := by
  induction path generalizing t with
  | nil =>
    obtain rfl := Option.some.inj h
    rfl
  | cons i path ih =>
    obtain ⟨child, hchild, hpart⟩ := Option.bind_eq_some_iff.mp h
    have hne : t.children ≠ [] := by
      intro hnil
      simp [hnil] at hchild
    rw [part?, children_substitute hne, List.getElem?_map, hchild]
    exact ih hpart

/-! ### Composition -/

/-- Two substitutions, one behind the other, are one substitution by the composed bindings. Every
place of a bound name then holds what the name stands for, as it is: the names in it that are bound
as well are not replaced. -/
theorem substitute_andThen (σ τ : Bindings) (t : TypeExpr) :
    (t.substitute σ).substitute τ = t.substitute (σ.andThen τ) ∧
      ∀ path name u, t.part? path = some (ofName name) → σ.lookup name = some u →
        (t.substitute σ).part? path = some u := by
  constructor
  · apply substitute_substitute_of_bareNames
    intro name _
    rw [ofName, substitute_named_nil, substitute_named_nil, Bindings.lookup_andThen]
    cases σ.lookup name with
    | none => exact substitute_named_nil τ name
    | some u => rfl
  · intro path name u hpart hname
    rw [part?_substitute hpart, ofName, substitute_named_nil, hname]
    rfl

/-- The list that is put in for `T` holds a `T` of its own, and `T` with an argument is no
variable. -/
example :
    let σ : Bindings := [("T", .named "List" [.ofName "T"])]
    let t := named "Map" [.ofName "T", .named "T" [.ofName "T"]]
    t.substitute σ =
        .named "Map" [.named "List" [.ofName "T"], .named "T" [.named "List" [.ofName "T"]]] ∧
      σ.andThen σ = [("T", .named "List" [.named "List" [.ofName "T"]])] := by
  decide

end ServiceDocs.TypeExpr
