import Mathlib.Data.Set.Card
import ServiceDocs.Catalog.Basic
import ServiceDocs.Proofs.Expansion.Trail
import ServiceDocs.Proofs.Field.Order

/-!
# Expansions that the limit of depth does not cut

Only types whose members are known are put on a trail, and none of them twice. A trail is thus no
longer than the number of such types, and a limit of depth above that number is never reached:
what comes to an end without a limit is the same for all such limits.

Of these types only those count that an expansion comes across, starting from the parameters and
the result of a method.
-/

namespace ServiceDocs.TypeSource

open ServiceDocs.Field

variable (src : TypeSource)

/-! ### Types that an expansion comes across -/

/-- The members of the type are known. -/
def IsResolvable (t : TypeExpr) : Prop :=
  (src.members? t).isSome

instance (t : TypeExpr) : Decidable (src.IsResolvable t) :=
  inferInstanceAs (Decidable ((src.members? t).isSome = true))

/-- The expansion of the parameters and the result of a method may look at the type. -/
inductive Meets (m : Method) : TypeExpr → Prop where
  | parameter {p : Member} (hp : p ∈ m.parameters) : Meets m (src.targetOf p.type)
  | result : Meets m (src.targetOf m.returnType)
  | member {t : TypeExpr} {ms : List Member} {c : Member} (ht : Meets m t)
      (hms : src.members? t = some ms) (hc : c ∈ ms) : Meets m (src.targetOf c.type)

variable {src}

/-- A set that holds the types of the parameters and of the result, and with a type those of its
members, holds everything that is met. -/
lemma Meets.mem_of_closed {m : Method} {s : Set TypeExpr}
    (hparameters : ∀ p ∈ m.parameters, src.targetOf p.type ∈ s)
    (hresult : src.targetOf m.returnType ∈ s)
    (hmembers : ∀ t ∈ s, ∀ c ∈ (src.members? t).getD [], src.targetOf c.type ∈ s)
    {t : TypeExpr} (ht : src.Meets m t) : t ∈ s := by
  induction ht with
  | parameter hp => exact hparameters _ hp
  | result => exact hresult
  | member _ hms hc ih => exact hmembers _ ih _ (hms ▸ hc)

/-! ### Trails are short -/

lemma encard_le_length {s : Set TypeExpr} (ts : List TypeExpr) (hs : ∀ t ∈ s, t ∈ ts) :
    s.encard ≤ ts.length := by
  have hcard : s.encard ≤ (ts.toFinset : Set TypeExpr).encard := by
    apply Set.encard_le_encard
    intro t ht
    exact List.mem_toFinset.mpr (hs t ht)
  rw [Set.encard_coe_eq_coe_finsetCard] at hcard
  exact hcard.trans (by exact_mod_cast ts.toFinset_card_le)

lemma length_le_of_encard_le {s : Set TypeExpr} {n : ℕ} (hs : s.encard ≤ n) {trail : Trail}
    (hnodup : trail.Nodup) (htrail : ∀ t ∈ trail, t ∈ s) : trail.length ≤ n := by
  have hcard : (trail.toFinset : Set TypeExpr).encard ≤ s.encard := by
    apply Set.encard_le_encard
    intro t ht
    exact htrail t (List.mem_toFinset.mp ht)
  rw [Set.encard_coe_eq_coe_finsetCard, List.toFinset_card_of_nodup hnodup] at hcard
  exact_mod_cast hcard.trans hs

/-- The field of a member depends on the room only through the fields of its type. -/
lemma fieldBelow_congr {room room' : ℕ} {trail : Trail} {m : Member}
    (h : src.fieldsBelow room trail (src.targetOf m.type) =
      src.fieldsBelow room' trail (src.targetOf m.type)) :
    src.fieldBelow room trail m = src.fieldBelow room' trail m := by
  rw [fieldBelow_eq, fieldBelow_eq]
  rw [targetOf] at h
  cases he : src.element? m.type with
  | some e =>
    rw [he, Option.getD_some] at h
    simp only [h]
  | none =>
    rw [he, Option.getD_none] at h
    simp only [h]

section Saturation

variable {m : Method} {n : ℕ}

/-- With more room than resolvable types that are not on the trail, the room does not matter. -/
lemma fieldsBelow_eq_of_saturated (hn : {t | src.Meets m t ∧ src.IsResolvable t}.encard ≤ n)
    {room room' : ℕ} {trail : Trail} (hnodup : trail.Nodup)
    (htrail : ∀ t ∈ trail, src.Meets m t ∧ src.IsResolvable t)
    (hroom : n < room + trail.length) (hroom' : n < room' + trail.length)
    {t : TypeExpr} (ht : src.Meets m t) :
    src.fieldsBelow room trail t = src.fieldsBelow room' trail t := by
  have hlength : trail.length ≤ n := length_le_of_encard_le hn hnodup htrail
  -- by induction on the room; the bound on the trail excludes that there is none
  induction room generalizing room' trail t with
  | zero => omega
  | succ room ih =>
    obtain ⟨room', rfl⟩ := Nat.exists_eq_add_one_of_ne_zero (show room' ≠ 0 by omega)
    rw [fieldsBelow_succ, fieldsBelow_succ]
    split_ifs with hmem
    · rfl
    · cases hms : src.members? t with
      | none => rfl
      | some ms =>
        have hresolvable : src.IsResolvable t := by
          rw [IsResolvable, hms]
          rfl
        have hnodup' : (t :: trail).Nodup := List.nodup_cons.mpr ⟨hmem, hnodup⟩
        have htrail' : ∀ u ∈ t :: trail, src.Meets m u ∧ src.IsResolvable u :=
          List.forall_mem_cons.mpr ⟨⟨ht, hresolvable⟩, htrail⟩
        have hlength' : (t :: trail).length ≤ n := length_le_of_encard_le hn hnodup' htrail'
        rw [Option.map_some, Option.map_some]
        congr 1
        refine List.map_congr_left fun c hc => fieldBelow_congr ?_
        apply ih hnodup' htrail' _ _ (.member ht hms hc) hlength'
        · rw [List.length_cons]; omega
        · rw [List.length_cons]; omega

/-- Limits above the number of resolvable types that are met give the same documentation. -/
lemma entry_eq_of_meets (hn : {t | src.Meets m t ∧ src.IsResolvable t}.encard ≤ n) {d d' : ℕ}
    (hd : n < d) (hd' : n < d') : src.entry d m = src.entry d' m := by
  have hfields : ∀ t, src.Meets m t → src.fieldsBelow d [] t = src.fieldsBelow d' [] t :=
    fun t ht => fieldsBelow_eq_of_saturated hn List.nodup_nil (by simp) hd hd' ht
  have hrequest : m.parameters.map (src.field d) = m.parameters.map (src.field d') :=
    List.map_congr_left fun p hp => fieldBelow_congr (hfields _ (.parameter hp))
  have hresult : src.resultField d m = src.resultField d' m :=
    fieldBelow_congr (hfields _ .result)
  have hresponse : src.response d m = src.response d' m := by
    rw [response, response, hresult]
    split_ifs with hvoid hobject
    · rfl
    · have htarget : src.targetOf m.returnType = m.returnType := by
        rw [isObject, Bool.and_eq_true, Option.isNone_iff_eq_none] at hobject
        rw [targetOf, hobject.1, Option.getD_none]
      have hreturn := hfields _ (htarget ▸ Meets.result)
      rw [fieldsBelow, fieldsBelow] at hreturn
      rw [hreturn]
    · rfl
  rw [entry, entry, hrequest, hresponse]

end Saturation

/-- If at most `n` types can be resolved, all limits of depth above `n` give the same
documentation. Of a source in which more types can be resolved, the same is true of each method
that comes across at most `n` of them. -/
theorem entry_eq_above_resolvable (src : TypeSource) {n d d' : ℕ} (hd : n < d) (hd' : n < d') :
    ({t | src.IsResolvable t}.encard ≤ n → ∀ m, src.entry d m = src.entry d' m) ∧
      ∀ m, {t | src.Meets m t ∧ src.IsResolvable t}.encard ≤ n →
        src.entry d m = src.entry d' m := by
  refine ⟨?_, fun m hn => entry_eq_of_meets hn hd hd'⟩
  intro hn m
  have hsubset : {t | src.Meets m t ∧ src.IsResolvable t} ⊆ {t | src.IsResolvable t} :=
    fun t ht => ht.2
  exact entry_eq_of_meets ((Set.encard_le_encard hsubset).trans hn) hd hd'

/-- Two types that refer to each other. From the third level on the limit does not matter; at the
second one the undeclared type below both is not found out. A catalog resolves such types with any
arguments, but the method comes across two of them only. -/
theorem entry_eq_above_resolvable_cyclic :
    let order := TypeExpr.ofName "Order"
    let customer := TypeExpr.ofName "Customer"
    let orderMembers : List Member := [{ name := "customer", type := customer }]
    let customerMembers : List Member :=
      [{ name := "orders", type := .array order }, { name := "thing", type := .ofName "Thing" }]
    let table : TypeSource :=
      { methods? := fun _ => none
        members? := fun t => if t = order then some orderMembers
          else if t = customer then some customerMembers else none }
    let catalog := (Catalog.mk
      [{ name := "Order", package := "", kind := .classType, path := "Order.java"
         fields := orderMembers },
       { name := "Customer", package := "", kind := .classType, path := "Customer.java"
         fields := customerMembers }]).source
    let m : Method :=
      { name := "place", package := "", declaringType := "Api", returnType := .ofName "void"
        parameters := [{ name := "order", type := order }] }
    let unresolved (d : ℕ) := (visitsAll 0 (table.entry d m).request).map (·.field.opaqueType)
    {t | table.IsResolvable t}.encard ≤ 2 ∧ table.entry 3 m = table.entry 100 m ∧
      unresolved 2 ≠ unresolved 3 ∧
      {t | catalog.Meets m t ∧ catalog.IsResolvable t}.encard ≤ 2 ∧
      catalog.entry 3 m = catalog.entry 100 m := by
  intro order customer orderMembers customerMembers table catalog m unresolved
  have htable : {t | table.IsResolvable t}.encard ≤ 2 := by
    apply encard_le_length [order, customer]
    intro t ht
    by_contra hne
    simp only [List.mem_cons, List.not_mem_nil, or_false, not_or] at hne
    simp [IsResolvable, table, hne] at ht
  have hcatalog : {t | catalog.Meets m t ∧ catalog.IsResolvable t}.encard ≤ 2 := by
    apply encard_le_length [order, customer]
    rintro t ⟨hmeets, hresolvable⟩
    let met : List TypeExpr := [order, customer, .ofName "Thing", .ofName "void"]
    have hmem : t ∈ met :=
      hmeets.mem_of_closed (s := {t | t ∈ met})
        (show ∀ p ∈ m.parameters, catalog.targetOf p.type ∈ met by decide +kernel)
        (show catalog.targetOf m.returnType ∈ met by decide +kernel)
        (show ∀ t ∈ met, ∀ c ∈ (catalog.members? t).getD [], catalog.targetOf c.type ∈ met by
          decide +kernel)
    have hresolved : ∀ t ∈ met, catalog.IsResolvable t → t ∈ [order, customer] := by
      decide +kernel
    exact hresolved t hmem hresolvable
  refine ⟨htable, ?_, by decide +kernel, hcatalog, ?_⟩
  · exact (table.entry_eq_above_resolvable (by decide) (by decide)).1 htable m
  · exact (catalog.entry_eq_above_resolvable (by decide) (by decide)).2 m hcatalog

end ServiceDocs.TypeSource
