import ServiceDocs.Json.Record
import ServiceDocs.Proofs.Json.Members
import ServiceDocs.Proofs.Json.Written

/-!
# Parts of records

What is written as a part of a record is read back from it: a part that is always there, one that is
left out when it has its default value, and one that is left out when it is absent.
-/

namespace ServiceDocs.Json

/-! ### Members -/

lemma lookup_someMember (name key : String) (v : Option Json) :
    (someMember name v).lookup key = if key = name then v else none := by
  cases v with
  | none => exact (ite_self none).symm
  | some v =>
    by_cases h : key = name
    · rw [someMember, h, List.lookup_cons_self, if_pos rfl]
    · rw [someMember, List.lookup_cons, beq_eq_false_iff_ne.mpr h, if_neg h]
      rfl

lemma sublist_someMember (name : String) (v : Option Json) :
    ((someMember name v).map Prod.fst).Sublist [name] := by
  cases v with
  | none => exact List.nil_sublist _
  | some w => exact List.Sublist.refl _

lemma exists_of_mem_someMember {name : String} {text? : Option String} {m : String × Json}
    (h : m ∈ someMember name (text?.map Json.str)) : ∃ text, m.2 = .str text := by
  cases text? with
  | none => cases h
  | some text =>
    obtain rfl := List.mem_singleton.mp h
    exact ⟨text, rfl⟩

lemma properMembers_someMember {name : String} {v : Option Json} :
    ProperMembers (someMember name v) ↔ ∀ w, v = some w → w.Proper := by
  cases v with
  | none => simp [someMember, ProperMembers]
  | some w => simp [someMember, ProperMembers]

lemma height_le_of_lookup {ms : List (String × Json)} (key : String) {v : Json}
    (h : ms.lookup key = some v) : v.height ≤ heightMembers ms := by
  induction ms with
  | nil => cases h
  | cons m ms ih =>
    obtain ⟨k, w⟩ := m
    rw [heightMembers]
    rw [List.lookup_cons] at h
    split at h
    · obtain rfl := Option.some.inj h
      exact Nat.le_max_left _ _
    · exact (ih h).trans (Nat.le_max_right _ _)

lemma nestingMembers_le {n : ℕ} {ms : List (String × Json)} (h : ∀ m ∈ ms, m.2.nesting ≤ n) :
    nestingMembers ms ≤ n := by
  induction ms with
  | nil => exact Nat.zero_le n
  | cons m ms ih =>
    rw [List.forall_mem_cons] at h
    exact max_le h.1 (ih h.2)

/-! ### Proper members -/

lemma properMembers_iff {ms : List (String × Json)} :
    ProperMembers ms ↔ ∀ m ∈ ms, m.2.Proper := by
  induction ms with
  | nil => exact iff_of_true trivial (List.forall_mem_nil _)
  | cons m ms ih => rw [ProperMembers, ih, List.forall_mem_cons]

lemma properMembers_append {ms ns : List (String × Json)} :
    ProperMembers (ms ++ ns) ↔ ProperMembers ms ∧ ProperMembers ns := by
  rw [properMembers_iff, properMembers_iff, properMembers_iff, List.forall_mem_append]

/-- An object that is put together from proper members is proper. -/
lemma proper_ofMembers {ms : List (String × Json)} (h : ProperMembers ms) :
    (ofMembers ms).Proper := by
  rw [ofMembers_eq]
  refine ⟨nodup_inserted ms, ?_⟩
  rw [properMembers_iff] at h ⊢
  exact forall_mem_inserted h

lemma exists_ofMembers_cons (m : String × Json) (ms : List (String × Json)) :
    ∃ n ns, ofMembers (m :: ms) = .obj (n :: ns) := by
  obtain ⟨n, ns, hns⟩ := List.exists_cons_of_ne_nil (inserted_ne_nil (List.cons_ne_nil m ms))
  exact ⟨n, ns, congrArg Json.obj hns⟩

/-! ### Lists -/

lemma properItems_map_str (texts : List String) : ProperItems (texts.map Json.str) := by
  induction texts with
  | nil => trivial
  | cons text texts ih => exact ⟨trivial, ih⟩

lemma nestingItems_map_str (texts : List String) : nestingItems (texts.map Json.str) = 0 := by
  induction texts with
  | nil => rfl
  | cons text texts ih =>
    rw [List.map_cons, nestingItems, ih]
    rfl

lemma mem_of_mapM {α : Type} {read : Json → Option α} {xs : List Json} {as : List α}
    (h : xs.mapM read = some as) : ∀ a ∈ as, ∃ x ∈ xs, read x = some a := by
  induction xs generalizing as with
  | nil =>
    obtain rfl : [] = as := Option.some.inj h
    exact List.forall_mem_nil _
  | cons x xs ih =>
    simp only [List.mapM_cons, Option.bind_eq_bind, Option.bind_eq_some_iff] at h
    obtain ⟨b, hb, bs, hbs, h⟩ := h
    obtain rfl : b :: bs = as := Option.some.inj h
    rw [List.forall_mem_cons]
    refine ⟨⟨x, List.mem_cons_self, hb⟩, ?_⟩
    intro a ha
    obtain ⟨y, hy, hread⟩ := ih hbs a ha
    exact ⟨y, List.mem_cons_of_mem _ hy, hread⟩

lemma exists_of_asList? {α : Type} {read : Json → Option α} {j : Json} {as : List α}
    (h : asList? read j = some as) : ∀ a ∈ as, ∃ x, read x = some a := by
  intro a ha
  cases j with
  | arr xs =>
    obtain ⟨x, _, hx⟩ := mem_of_mapM h a ha
    exact ⟨x, hx⟩
  | _ => cases h

/-! ### Parts -/

section Parts

variable {α : Type} {ps : Parts} {name : String} {read : Json → Option α} {a : α}

lemma Parts.required_of_lookup {v : Json} (h : ps.lookup name = some v) (hread : read v = some a) :
    ps.required name read = some a := by
  rw [Parts.required, h]
  exact hread

lemma Parts.exists_of_required (h : ps.required name read = some a) : ∃ v, read v = some a := by
  obtain ⟨v, _, hread⟩ := Option.bind_eq_some_iff.mp h
  exact ⟨v, hread⟩

lemma Parts.optional_of_lookup {default : α} {v : Option Json} (h : ps.lookup name = v) :
    ps.optional name default read = v.elim (some default) read := by
  rw [Parts.optional, h]
  cases v <;> rfl

lemma Parts.eq_or_exists_of_optional {default : α} (h : ps.optional name default read = some a) :
    a = default ∨ ∃ v, read v = some a := by
  rw [Parts.optional_of_lookup rfl] at h
  cases hlookup : ps.lookup name with
  | none =>
    rw [hlookup] at h
    exact .inl (Option.some.inj h).symm
  | some v =>
    rw [hlookup] at h
    exact .inr ⟨v, h⟩

lemma Parts.nullable_of_lookup {b : Option α} {write : α → Json}
    (h : ps.lookup name = b.map write) (hnull : ∀ a, write a ≠ .null)
    (hread : ∀ a, read (write a) = some a) : ps.nullable name read = some b := by
  rw [Parts.nullable, h]
  cases b with
  | none => rfl
  | some a =>
    rw [Option.map_some]
    split
    · next heq => exact absurd (Option.some.inj heq) (hnull a)
    · next heq =>
      obtain rfl := Option.some.inj heq
      rw [hread]
      rfl
    · next heq => cases heq

/-- A value that may be missing is read as it is, except that `null` counts as missing. -/
lemma Parts.nullable_some (ps : Parts) (name : String) :
    ps.nullable name some = some ((ps.lookup name).filter (· ≠ .null)) := by
  rw [Parts.nullable]
  split
  · next h => rw [h]; rfl
  · next v hnull h =>
    rw [h, Option.filter_some, if_pos (by simpa using hnull)]
    rfl
  · next h => rw [h]; rfl

lemma Parts.optional_congr {qs : Parts} {default : α} (h : ps.lookup name = qs.lookup name) :
    ps.optional name default read = qs.optional name default read := by
  rw [Parts.optional, Parts.optional, h]

lemma Parts.nullable_congr {qs : Parts} (h : ps.lookup name = qs.lookup name) :
    ps.nullable name read = qs.nullable name read := by
  rw [Parts.nullable, Parts.nullable, h]

lemma Parts.within_iff {names : List String} :
    ps.within names = true ↔ ∀ key, (ps.lookup key).isSome → key ∈ names := by
  rw [Parts.within, List.all_eq_true]
  constructor
  · intro h key hkey
    obtain ⟨v, hv⟩ := Option.isSome_iff_exists.mp hkey
    exact List.contains_iff_mem.mp (h (key, v) (mem_of_lookup hv))
  · intro h p hp
    rw [List.contains_iff_mem]
    apply h
    rw [Option.isSome_iff_ne_none]
    intro hnone
    rw [List.lookup_eq_none_iff] at hnone
    simpa using hnone p hp

lemma Parts.within_congr {qs : Parts} (h : ∀ key, (ps.lookup key).isSome = (qs.lookup key).isSome)
    (names : List String) : ps.within names = qs.within names := by
  rw [Bool.eq_iff_iff, Parts.within_iff, Parts.within_iff]
  simp only [h]

end Parts

end ServiceDocs.Json
