import Mathlib.Data.List.Induction
import Mathlib.Data.List.Perm.Basic
import ServiceDocs.Proofs.Field.Payload
import ServiceDocs.Proofs.Json.Scalar
import ServiceDocs.Settings.Layer

/-!
# Members of objects

What is found in an object when members are inserted into it one by one, and when the members of
another object are laid over its own.
-/

namespace ServiceDocs.Json

/-! ### Inserting -/

section Insert

variable {key : String} {v : Json} {ms : List (String × Json)}

lemma map_fst_insertMember (key : String) (v : Json) (ms : List (String × Json)) :
    (insertMember key v ms).map Prod.fst =
      if key ∈ ms.map Prod.fst then ms.map Prod.fst else ms.map Prod.fst ++ [key] := by
  by_cases h : key ∈ ms.map Prod.fst
  · rw [if_pos h]
    induction ms with
    | nil => cases h
    | cons m ms ih =>
      obtain ⟨k, w⟩ := m
      rw [insertMember]
      split_ifs with hk
      · rfl
      · have hrest := List.mem_of_ne_of_mem (Ne.symm hk) h
        rw [List.map_cons, List.map_cons, ih hrest]
  · rw [if_neg h, insertMember_of_notMem h, List.map_append]
    rfl

lemma nodup_insertMember (key : String) (v : Json) (h : (ms.map Prod.fst).Nodup) :
    ((insertMember key v ms).map Prod.fst).Nodup := by
  rw [map_fst_insertMember]
  split_ifs with hkey
  · exact h
  · exact (List.perm_append_singleton key _).nodup_iff.mpr (List.nodup_cons.mpr ⟨hkey, h⟩)

lemma forall_mem_insertMember {P : Json → Prop} (hv : P v) (h : ∀ m ∈ ms, P m.2) :
    ∀ m ∈ insertMember key v ms, P m.2 := by
  induction ms with
  | nil => exact List.forall_mem_singleton.mpr hv
  | cons m ms ih =>
    obtain ⟨hm, hms⟩ := List.forall_mem_cons.mp h
    rw [insertMember]
    split_ifs
    · exact List.forall_mem_cons.mpr ⟨hv, hms⟩
    · exact List.forall_mem_cons.mpr ⟨hm, ih hms⟩

lemma insertMember_ne_nil (key : String) (v : Json) (ms : List (String × Json)) :
    insertMember key v ms ≠ [] := by
  cases ms with
  | nil => exact List.cons_ne_nil _ _
  | cons m ms =>
    rw [insertMember]
    split_ifs <;> exact List.cons_ne_nil _ _

lemma mem_of_lookup (h : ms.lookup key = some v) : (key, v) ∈ ms := by
  obtain ⟨before, after, rfl, _⟩ := List.lookup_eq_some_iff.mp h
  exact List.mem_append_right _ List.mem_cons_self

lemma lookup_eq_none_of_notMem (h : key ∉ ms.map Prod.fst) : ms.lookup key = none := by
  rw [List.lookup_eq_none_iff]
  intro m hm
  rw [bne_iff_ne]
  rintro rfl
  exact h (List.mem_map_of_mem hm)

/-- Members whose keys are all among those of others are hidden by them. -/
lemma lookup_or_of_subset {below : List (String × Json)}
    (h : below.map Prod.fst ⊆ ms.map Prod.fst) (key : String) :
    (ms.lookup key).or (below.lookup key) = ms.lookup key := by
  cases hkey : ms.lookup key with
  | some v => rfl
  | none =>
    rw [Option.none_or]
    apply lookup_eq_none_of_notMem
    intro hmem
    obtain ⟨m, hm, rfl⟩ := List.mem_map.mp (h hmem)
    rw [List.lookup_eq_none_iff] at hkey
    simpa using hkey m hm

lemma lookup_insertMember_of_ne {k : String} (h : k ≠ key) (v : Json)
    (ms : List (String × Json)) : (insertMember key v ms).lookup k = ms.lookup k := by
  induction ms with
  | nil =>
    rw [insertMember_nil, List.lookup_cons, beq_eq_false_iff_ne.mpr h]
  | cons m ms ih =>
    obtain ⟨l, w⟩ := m
    rw [insertMember]
    split_ifs with hl
    · rw [List.lookup_cons, List.lookup_cons, hl, beq_eq_false_iff_ne.mpr h]
    · rw [List.lookup_cons, List.lookup_cons, ih]

end Insert

/-! ### Inserting members one by one -/

/-- The members of the object that is put together from the given ones. -/
def inserted (ms : List (String × Json)) : List (String × Json) :=
  ms.foldl (fun acc m => insertMember m.1 m.2 acc) []

lemma ofMembers_eq (ms : List (String × Json)) : ofMembers ms = .obj (inserted ms) := rfl

lemma inserted_append_singleton (ms : List (String × Json)) (m : String × Json) :
    inserted (ms ++ [m]) = insertMember m.1 m.2 (inserted ms) := by
  rw [inserted, List.foldl_append]
  rfl

lemma nodup_inserted (ms : List (String × Json)) : ((inserted ms).map Prod.fst).Nodup := by
  induction ms using List.reverseRecOn with
  | nil => exact List.nodup_nil
  | append_singleton ms m ih =>
    rw [inserted_append_singleton]
    exact nodup_insertMember m.1 m.2 ih

lemma forall_mem_inserted {P : Json → Prop} {ms : List (String × Json)} (h : ∀ m ∈ ms, P m.2) :
    ∀ m ∈ inserted ms, P m.2 := by
  induction ms using List.reverseRecOn with
  | nil => exact List.forall_mem_nil _
  | append_singleton ms m ih =>
    rw [List.forall_mem_append, List.forall_mem_singleton] at h
    rw [inserted_append_singleton]
    exact forall_mem_insertMember h.2 (ih h.1)

lemma inserted_ne_nil {ms : List (String × Json)} (h : ms ≠ []) : inserted ms ≠ [] := by
  induction ms using List.reverseRecOn with
  | nil => exact absurd rfl h
  | append_singleton ms m _ =>
    rw [inserted_append_singleton]
    exact insertMember_ne_nil m.1 m.2 _

/-- Of several values for a key the last one counts. -/
lemma lookup_inserted (key : String) (ms : List (String × Json)) :
    (inserted ms).lookup key = ms.reverse.lookup key := by
  induction ms using List.reverseRecOn with
  | nil => rfl
  | append_singleton ms m ih =>
    obtain ⟨k, v⟩ := m
    rw [inserted_append_singleton, List.reverse_concat]
    by_cases h : key = k
    · rw [h, lookup_insertMember, List.lookup_cons_self]
    · rw [lookup_insertMember_of_ne h, ih, List.lookup_cons, beq_eq_false_iff_ne.mpr h]

/-! ### Reading -/

lemma value_ne_obj (t : NumberText) (literal : List Char) (ms : List (String × Json)) :
    t.value literal ≠ .obj ms := by
  rw [NumberText.value]
  split_ifs <;> exact Json.noConfusion

lemma readNumber_ne_obj {cs r : List Char} {ms : List (String × Json)} :
    readNumber cs ≠ some (.obj ms, r) := by
  intro h
  obtain ⟨_, _, _, _, _, _, _, hvalue⟩ := readNumber_eq_some.mp h
  exact value_ne_obj _ _ _ hvalue

lemma nodup_of_readValue {fuel depth : ℕ} {cs r : List Char} {ms : List (String × Json)}
    (h : readValue fuel depth cs = some (.obj ms, r)) : (ms.map Prod.fst).Nodup := by
  cases fuel with
  | zero => cases h
  | succ fuel =>
    rw [readValue] at h
    split at h
    · cases h
    · cases h
    · cases h
    · obtain ⟨_, _, hp⟩ := Option.map_eq_some_iff.mp h
      cases hp
    · split at h
      · cases h
      · split at h
        · cases h
        · obtain ⟨_, _, hp⟩ := Option.map_eq_some_iff.mp h
          cases hp
    · split at h
      · cases h
      · split at h
        · cases h
          exact List.nodup_nil
        · obtain ⟨_, _, hp⟩ := Option.map_eq_some_iff.mp h
          cases hp
          exact nodup_inserted _
    · exact absurd h readNumber_ne_obj

/-- An object that has been read does not have a key twice. -/
lemma nodup_of_ofText? {text : String} {ms : List (String × Json)}
    (h : ofText? text = some (.obj ms)) : (ms.map Prod.fst).Nodup := by
  rw [ofText?] at h
  split at h
  · next hread =>
    split_ifs at h
    cases h
    exact nodup_of_readValue hread
  · cases h

/-! ### Overlays -/

/-- What is found in an object when another one is laid over it, by what is found in both. -/
def overlay? (below above : Option Json) : Option Json :=
  match below, above with
  | b,      none   => b
  | none,   some v => some v
  | some b, some v => some (b.overlay v)

@[simp] lemma overlay?_none (below : Option Json) : overlay? below none = below := by
  cases below <;> rfl

lemma none_overlay? (above : Option Json) : overlay? none above = above := by
  cases above <;> rfl

lemma overlay?_some (below : Json) (above : Option Json) :
    overlay? (some below) above = some (above.elim below below.overlay) := by
  cases above <;> rfl

lemma lookup_overlayMembers {above : List (String × Json)} (h : (above.map Prod.fst).Nodup)
    (below : List (String × Json)) (key : String) :
    (overlayMembers below above).lookup key = overlay? (below.lookup key) (above.lookup key) := by
  induction above generalizing below with
  | nil => rw [overlayMembers, List.lookup_nil, overlay?_none]
  | cons m ms ih =>
    obtain ⟨k, v⟩ := m
    rw [List.map_cons, List.nodup_cons] at h
    rw [overlayMembers, ih h.2]
    by_cases hkey : key = k
    · subst hkey
      rw [lookup_eq_none_of_notMem h.1, overlay?_none, lookup_insertMember, List.lookup_cons_self]
      cases below.lookup key <;> rfl
    · rw [lookup_insertMember_of_ne hkey, List.lookup_cons, beq_eq_false_iff_ne.mpr hkey]

/-- A value other than an object replaces what is below it. -/
lemma overlay_of_ne_obj {v : Json} (h : ∀ ms, v ≠ .obj ms) (below : Json) : below.overlay v = v := by
  cases v with
  | obj ms => exact absurd rfl (h ms)
  | _ => rfl

/-- A value other than an object hides what is below it. -/
lemma overlay?_congr_of_ne_obj {v : Json} (hv : ∀ ms, v ≠ .obj ms) (below below' : Option Json) :
    overlay? below (some v) = overlay? below' (some v) := by
  have hlaid : ∀ b, overlay? b (some v) = some v := by
    intro b
    cases b with
    | none => rfl
    | some b => exact congrArg some (overlay_of_ne_obj hv b)
  rw [hlaid, hlaid]

/-- A value other than an object is replaced by what is above it. -/
lemma overlay_of_below_ne_obj {below : Json} (h : ∀ ms, below ≠ .obj ms) (v : Json) :
    below.overlay v = v := by
  cases v with
  | obj ms =>
    cases below with
    | obj bs => exact absurd rfl (h bs)
    | _ => rfl
  | _ => rfl

lemma overlay?_of_below_ne_obj {below : Option Json} (h : ∀ b, below = some b → ∀ ms, b ≠ .obj ms)
    (above : Option Json) : overlay? below above = above.or below := by
  cases above with
  | none => exact overlay?_none below
  | some v =>
    cases below with
    | none => rfl
    | some b => exact congrArg some (overlay_of_below_ne_obj (h b rfl) v)

lemma overlay_ne_null {v : Json} (h : v ≠ .null) (below : Json) : below.overlay v ≠ .null := by
  cases v with
  | null => exact absurd rfl h
  | obj ms => cases below <;> exact Json.noConfusion
  | _ => exact h

end ServiceDocs.Json
