/-!
# Type expressions

The types that declarations mention: a simple name with arguments, an array, or a type that
could not be read, which is shown as `Object`.

A name without arguments may be a type variable; `substitute` replaces such names, all at once.
-/

namespace ServiceDocs

/-- A type as it is written in a declaration, by simple names. -/
inductive TypeExpr where
  | named (name : String) (args : List TypeExpr)
  | array (element : TypeExpr)
  | unknown
deriving Inhabited, Repr

namespace TypeExpr

/-! ### Equality -/

mutual

/-- Equality of type expressions. -/
def beq : TypeExpr → TypeExpr → Bool
  | .named n as, .named m bs => n == m && beqAll as bs
  | .array a,    .array b    => a.beq b
  | .unknown,    .unknown    => true
  | _,           _           => false
termination_by structural x => x

/-- Equality of lists of type expressions. -/
def beqAll : List TypeExpr → List TypeExpr → Bool
  | [],      []      => true
  | a :: as, b :: bs => a.beq b && beqAll as bs
  | _,       _       => false
termination_by structural x => x

end

mutual

private theorem eq_of_beq : ∀ {a b : TypeExpr}, a.beq b = true → a = b
  | .named n as, .named m bs, h => by
    simp only [beq, Bool.and_eq_true, beq_iff_eq] at h
    rw [h.1, eq_of_beqAll h.2]
  | .array a,    .array b,    h => by rw [eq_of_beq (a := a) (b := b) (by simpa [beq] using h)]
  | .unknown,    .unknown,    _ => rfl

private theorem eq_of_beqAll : ∀ {as bs : List TypeExpr}, beqAll as bs = true → as = bs
  | [],      [],      _ => rfl
  | a :: as, b :: bs, h => by
    simp only [beqAll, Bool.and_eq_true] at h
    rw [eq_of_beq h.1, eq_of_beqAll h.2]

end

mutual

private theorem beq_self : ∀ a : TypeExpr, a.beq a = true
  | .named _ as => by simp [beq, beqAll_self as]
  | .array a    => by simp [beq, beq_self a]
  | .unknown    => by simp [beq]

private theorem beqAll_self : ∀ as : List TypeExpr, beqAll as as = true
  | []      => by simp [beqAll]
  | a :: as => by simp [beqAll, beq_self a, beqAll_self as]

end

theorem beq_iff_eq {a b : TypeExpr} : a.beq b = true ↔ a = b :=
  ⟨eq_of_beq, fun h => h ▸ beq_self a⟩

instance : DecidableEq TypeExpr :=
  fun a b => decidable_of_iff (a.beq b = true) beq_iff_eq

/-! ### Names -/

/-- The type `name` without arguments. -/
def ofName (name : String) : TypeExpr :=
  .named name []

/-- The type of methods without a result. -/
def void : TypeExpr :=
  ofName "void"

/-- The type is `void` itself, without arguments. -/
def isVoid (t : TypeExpr) : Bool :=
  t = void

/-- The name under which a type is looked up: an array has none, an unreadable type counts as
`Object`. -/
def simpleName? : TypeExpr → Option String
  | .named name _ => some name
  | .array _      => none
  | .unknown      => some "Object"

/-! ### Printing -/

mutual

/-- The type as it is written in a declaration. -/
def display : TypeExpr → String
  | .named name []        => name
  | .named name (a :: as) => name ++ "<" ++ displayArgs (a :: as) ++ ">"
  | .array element        => element.display ++ "[]"
  | .unknown              => "Object"
termination_by structural x => x

/-- Type arguments, with commas between them. -/
def displayArgs : List TypeExpr → String
  | []           => ""
  | [a]          => a.display
  | a :: b :: as => a.display ++ ", " ++ displayArgs (b :: as)
termination_by structural x => x

end

/-! ### Substitution -/

/-- Types for type variables. Of two bindings of one name the first counts. -/
abbrev Bindings := List (String × TypeExpr)

mutual

/-- Replace the bound names that have no arguments, all at the same time. If nothing is bound, the
type is not looked at. -/
def substitute (σ : Bindings) (t : TypeExpr) : TypeExpr :=
  if σ.isEmpty then t
  else match t with
    | .named name []        => (σ.lookup name).getD (.named name [])
    | .named name (a :: as) => .named name (substituteAll σ (a :: as))
    | .array element        => .array (element.substitute σ)
    | .unknown              => .unknown
termination_by structural t

/-- Replace the bound names in every type of a list. -/
def substituteAll (σ : Bindings) : List TypeExpr → List TypeExpr
  | []      => []
  | a :: as => a.substitute σ :: substituteAll σ as
termination_by structural x => x

end

@[simp] theorem substitute_nil : (t : TypeExpr) → t.substitute [] = t
  | .named _ []       => rfl
  | .named _ (_ :: _) => rfl
  | .array _          => rfl
  | .unknown          => rfl

theorem substituteAll_eq_map (σ : Bindings) (as : List TypeExpr) :
    substituteAll σ as = as.map (substitute σ) := by
  induction as with
  | nil => rfl
  | cons a as ih => simp [substituteAll, ih]

@[simp] theorem substitute_unknown (σ : Bindings) : unknown.substitute σ = .unknown := by
  cases σ <;> rfl

@[simp] theorem substitute_array (σ : Bindings) (t : TypeExpr) :
    (array t).substitute σ = .array (t.substitute σ) := by
  cases σ with
  | nil => rw [substitute_nil, substitute_nil]
  | cons p σ => rfl

theorem substitute_named_nil (σ : Bindings) (name : String) :
    (named name []).substitute σ = (σ.lookup name).getD (.named name []) := by
  cases σ <;> rfl

theorem substitute_named_cons (σ : Bindings) (name : String) (a : TypeExpr)
    (as : List TypeExpr) :
    (named name (a :: as)).substitute σ = .named name (substituteAll σ (a :: as)) := by
  cases σ with
  | nil => rw [substitute_nil, substituteAll_eq_map, List.map_id'' substitute_nil]
  | cons p σ => rfl

theorem substitute_named_of_ne_nil (σ : Bindings) (name : String) {as : List TypeExpr}
    (h : as ≠ []) : (named name as).substitute σ = .named name (as.map (substitute σ)) := by
  cases as with
  | nil => exact absurd rfl h
  | cons a as => rw [substitute_named_cons, substituteAll_eq_map]

end TypeExpr

end ServiceDocs
