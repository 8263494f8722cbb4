import ServiceDocs.Proofs.Json.Parts
import ServiceDocs.TypeExpr.Codec

/-!
# Type expressions are read back

Reading the JSON form of a type expression gives the type expression.
-/

namespace ServiceDocs.TypeExpr

open Json

lemma toJson_ne_null (t : TypeExpr) : t.toJson ≠ .null := by
  cases t with
  | named name args => cases args <;> exact Json.noConfusion
  | array element => exact Json.noConfusion
  | unknown => exact Json.noConfusion

section Steps

variable {height : ℕ}

lemma ofJsonWithin_named_cons (name : String) {a : TypeExpr} {as : List TypeExpr}
    (h : (toJsonAll (a :: as)).mapM (ofJsonWithin height) = some (a :: as)) :
    ofJsonWithin (height + 1) (named name (a :: as)).toJson = some (.named name (a :: as)) := by
  have hread : ofJsonWithin (height + 1) (named name (a :: as)).toJson =
      ((toJsonAll (a :: as)).mapM (ofJsonWithin height)).bind fun args =>
        some (.named name args) := rfl
  rw [hread, h]
  rfl

lemma ofJsonWithin_array {element : TypeExpr}
    (h : ofJsonWithin height element.toJson = some element) :
    ofJsonWithin (height + 1) (array element).toJson = some (.array element) := by
  have hread : ofJsonWithin (height + 1) (array element).toJson =
      (ofJsonWithin height element.toJson).bind fun e => some (.array e) := rfl
  rw [hread, h]
  rfl

end Steps

mutual

lemma ofJsonWithin_toJson : (t : TypeExpr) → {height : ℕ} → t.toJson.height ≤ height →
    ofJsonWithin height t.toJson = some t
  | .named name [],        0,          h => by cases h
  | .named name [],        height + 1, _ => rfl
  | .named name (a :: as), 0,          h => by cases h
  | .named name (a :: as), height + 1, h => by
    apply ofJsonWithin_named_cons
    apply mapM_ofJsonWithin_toJsonAll (a :: as)
    have hargs : (Json.arr (toJsonAll (a :: as))).height ≤ height := by
      refine (height_le_of_lookup "args" ?_).trans (Nat.le_of_succ_le_succ h)
      rfl
    exact Nat.le_of_succ_le hargs
  | .array element,        0,          h => by cases h
  | .array element,        height + 1, h => by
    apply ofJsonWithin_array
    apply ofJsonWithin_toJson element
    refine (height_le_of_lookup "element" ?_).trans (Nat.le_of_succ_le_succ h)
    rfl
  | .unknown,              0,          h => by cases h
  | .unknown,              height + 1, _ => rfl

lemma mapM_ofJsonWithin_toJsonAll : (ts : List TypeExpr) → {height : ℕ} →
    heightItems (toJsonAll ts) ≤ height → (toJsonAll ts).mapM (ofJsonWithin height) = some ts
  | [],      _,      _ => rfl
  | t :: ts, height, h => by
    have ht := ofJsonWithin_toJson t ((Nat.le_max_left _ _).trans h)
    have hts := mapM_ofJsonWithin_toJsonAll ts ((Nat.le_max_right _ _).trans h)
    rw [toJsonAll, List.mapM_cons, ht, hts]
    rfl

end

@[simp] theorem ofJson?_toJson (t : TypeExpr) : ofJson? t.toJson = some t :=
  ofJsonWithin_toJson t (Nat.le_refl _)

mutual

lemma proper_toJson : (t : TypeExpr) → t.toJson.Proper
  | .named name []        => ⟨by simp, trivial, trivial, trivial⟩
  | .named name (a :: as) => ⟨by simp, trivial, trivial, properItems_toJsonAll (a :: as), trivial⟩
  | .array element        => ⟨by simp, trivial, proper_toJson element, trivial⟩
  | .unknown              => ⟨by simp, trivial, trivial⟩

lemma properItems_toJsonAll : (ts : List TypeExpr) → ProperItems (toJsonAll ts)
  | []      => trivial
  | t :: ts => ⟨t.proper_toJson, properItems_toJsonAll ts⟩

end

end ServiceDocs.TypeExpr
