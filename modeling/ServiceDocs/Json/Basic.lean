/-!
# JSON values

A JSON value with the members of an object in a fixed order. A key occurs once: inserting an
existing key replaces its value and keeps its place.

Numbers are integers; a number with a fraction or an exponent, or one beyond the 64-bit
integers, is kept as it is written, since nothing in the library calculates with it.
-/

namespace ServiceDocs

/-- A JSON value. -/
inductive Json where
  | null
  | bool (b : Bool)
  | num (n : Int)
  | real (literal : String)
  | str (s : String)
  | arr (items : List Json)
  | obj (members : List (String × Json))
deriving Inhabited, Repr

namespace Json

/-! ### Equality -/

mutual

/-- Equality of values, members compared in order. -/
def beq : Json → Json → Bool
  | .null,   .null   => true
  | .bool a, .bool b => a == b
  | .num a,  .num b  => a == b
  | .real a, .real b => a == b
  | .str a,  .str b  => a == b
  | .arr a,  .arr b  => beqItems a b
  | .obj a,  .obj b  => beqMembers a b
  | _,       _       => false
termination_by structural x => x

/-- Equality of lists of values. -/
def beqItems : List Json → List Json → Bool
  | [],      []      => true
  | a :: as, b :: bs => a.beq b && beqItems as bs
  | _,       _       => false
termination_by structural x => x

/-- Equality of lists of members. -/
def beqMembers : List (String × Json) → List (String × Json) → Bool
  | [],           []           => true
  | (k, a) :: as, (l, b) :: bs => k == l && a.beq b && beqMembers as bs
  | _,            _            => false
termination_by structural x => x

end

mutual

private theorem eq_of_beq : ∀ {a b : Json}, a.beq b = true → a = b
  | .null,   .null,   _ => rfl
  | .bool a, .bool b, h => by simp [beq] at h; rw [h]
  | .num a,  .num b,  h => by simp [beq] at h; rw [h]
  | .real a, .real b, h => by simp [beq] at h; rw [h]
  | .str a,  .str b,  h => by simp [beq] at h; rw [h]
  | .arr a,  .arr b,  h => by rw [eq_of_beqItems (a := a) (b := b) (by simpa [beq] using h)]
  | .obj a,  .obj b,  h => by rw [eq_of_beqMembers (a := a) (b := b) (by simpa [beq] using h)]

private theorem eq_of_beqItems : ∀ {a b : List Json}, beqItems a b = true → a = b
  | [],      [],      _ => rfl
  | a :: as, b :: bs, h => by
    simp only [beqItems, Bool.and_eq_true] at h
    rw [eq_of_beq h.1, eq_of_beqItems h.2]

private theorem eq_of_beqMembers :
    ∀ {a b : List (String × Json)}, beqMembers a b = true → a = b
  | [],           [],           _ => rfl
  | (k, a) :: as, (l, b) :: bs, h => by
    simp only [beqMembers, Bool.and_eq_true, beq_iff_eq] at h
    rw [h.1.1, eq_of_beq h.1.2, eq_of_beqMembers h.2]

end

mutual

private theorem beq_self : ∀ a : Json, a.beq a = true
  | .null   => by simp [beq]
  | .bool _ => by simp [beq]
  | .num _  => by simp [beq]
  | .real _ => by simp [beq]
  | .str _  => by simp [beq]
  | .arr a  => by simp [beq, beqItems_self a]
  | .obj a  => by simp [beq, beqMembers_self a]

private theorem beqItems_self : ∀ a : List Json, beqItems a a = true
  | []      => by simp [beqItems]
  | a :: as => by simp [beqItems, beq_self a, beqItems_self as]

private theorem beqMembers_self : ∀ a : List (String × Json), beqMembers a a = true
  | []           => by simp [beqMembers]
  | (_, a) :: as => by simp [beqMembers, beq_self a, beqMembers_self as]

end

theorem beq_iff_eq {a b : Json} : a.beq b = true ↔ a = b :=
  ⟨eq_of_beq, fun h => h ▸ beq_self a⟩

instance : DecidableEq Json :=
  fun a b => decidable_of_iff (a.beq b = true) beq_iff_eq

/-! ### Members of an object -/

/-- Set the member `key`: its old value is replaced in place, a new member comes last. -/
def insertMember (key : String) (value : Json) : List (String × Json) → List (String × Json)
  | []           => [(key, value)]
  | (k, v) :: ms => if k = key then (k, value) :: ms else (k, v) :: insertMember key value ms

/-- The object with the given members, where of two members with one key the later value is
kept at the earlier place. -/
def ofMembers (ms : List (String × Json)) : Json :=
  .obj (ms.foldl (fun acc m => insertMember m.1 m.2 acc) [])

/-- The value of the member `key`. -/
def member? (key : String) : Json → Option Json
  | .obj ms => ms.lookup key
  | _       => none

@[simp] theorem insertMember_nil (key : String) (value : Json) :
    insertMember key value [] = [(key, value)] := rfl

theorem lookup_insertMember (key : String) (value : Json) (ms : List (String × Json)) :
    (insertMember key value ms).lookup key = some value := by
  induction ms with
  | nil => simp [insertMember]
  | cons m ms ih =>
    obtain ⟨k, v⟩ := m
    by_cases h : k = key
    · simp [insertMember, h]
    · simp [insertMember, h, List.lookup_cons, beq_eq_false_iff_ne.2 (Ne.symm h), ih]

end Json

end ServiceDocs
