import Mathlib.Data.List.Nodup
import ServiceDocs.Proofs.Field.Payload

/-!
# Keys that are lost

An object has one member of a name: when a second one is put in, the first one goes, with all the
keys in its value. So a sample payload never has more keys than there are fields, and it has fewer
as soon as two fields side by side share a name.
-/

namespace ServiceDocs

namespace Json

/-! ### Counting keys -/

section Counting

variable (level : ℕ)

lemma length_memberKeysAt_append (ms ns : List (String × Json)) :
    (memberKeysAt level (ms ++ ns)).length =
      (memberKeysAt level ms).length + (memberKeysAt level ns).length := by
  induction ms with
  | nil => exact (Nat.zero_add _).symm
  | cons m ms ih =>
    obtain ⟨k, w⟩ := m
    rw [List.cons_append, memberKeysAt, memberKeysAt]
    simp only [List.length_cons, List.length_append, ih]
    omega

/-- A member of a name that is there already adds less than its own keys. -/
lemma length_memberKeysAt_insertMember_lt {m : String × Json} {ms : List (String × Json)}
    (h : m.1 ∈ ms.map Prod.fst) :
    (memberKeysAt level (insertMember m.1 m.2 ms)).length <
      (memberKeysAt level ms).length + (memberKeysAt level [m]).length := by
  induction ms with
  | nil => cases h
  | cons n ms ih =>
    obtain ⟨k, w⟩ := n
    rw [insertMember]
    split_ifs with hkey
    · simp only [memberKeysAt, List.length_cons, List.length_append, List.length_nil]
      omega
    · have hlt := ih ((List.mem_cons.mp h).resolve_left (Ne.symm hkey))
      simp only [memberKeysAt, List.length_cons, List.length_append] at hlt ⊢
      omega

lemma length_memberKeysAt_insertMember_le (m : String × Json) (ms : List (String × Json)) :
    (memberKeysAt level (insertMember m.1 m.2 ms)).length ≤
      (memberKeysAt level ms).length + (memberKeysAt level [m]).length := by
  by_cases h : m.1 ∈ ms.map Prod.fst
  · exact Nat.le_of_lt (length_memberKeysAt_insertMember_lt level h)
  · have hinsert : insertMember m.1 m.2 ms = ms ++ [m] := insertMember_of_notMem h m.2
    exact Nat.le_of_eq (hinsert ▸ length_memberKeysAt_append level ms [m])

lemma length_memberKeysAt_foldl_le (ms acc : List (String × Json)) :
    (memberKeysAt level (ms.foldl (fun acc m => insertMember m.1 m.2 acc) acc)).length ≤
      (memberKeysAt level acc).length + (memberKeysAt level ms).length := by
  induction ms generalizing acc with
  | nil => exact Nat.le_refl _
  | cons m ms ih =>
    have hstep := length_memberKeysAt_insertMember_le level m acc
    have hrest := ih (insertMember m.1 m.2 acc)
    have hsplit := length_memberKeysAt_append level [m] ms
    rw [List.foldl_cons]
    rw [List.singleton_append] at hsplit
    omega

lemma length_memberKeysAt_foldl_lt {ms acc : List (String × Json)}
    (hacc : (acc.map Prod.fst).Nodup) (h : ¬ ((acc ++ ms).map Prod.fst).Nodup) :
    (memberKeysAt level (ms.foldl (fun acc m => insertMember m.1 m.2 acc) acc)).length <
      (memberKeysAt level acc).length + (memberKeysAt level ms).length := by
  induction ms generalizing acc with
  | nil =>
    rw [List.append_nil] at h
    exact absurd hacc h
  | cons m ms ih =>
    have hsplit := length_memberKeysAt_append level [m] ms
    rw [List.singleton_append] at hsplit
    rw [List.foldl_cons]
    by_cases hmem : m.1 ∈ acc.map Prod.fst
    · have hstep := length_memberKeysAt_insertMember_lt level hmem
      have hrest := length_memberKeysAt_foldl_le level ms (insertMember m.1 m.2 acc)
      omega
    · have hnodup : ((acc ++ [m]).map Prod.fst).Nodup := by
        rw [List.map_append, List.map_singleton, ← List.concat_eq_append]
        exact List.Nodup.concat hmem hacc
      rw [List.append_cons] at h
      have hrest := ih hnodup h
      have hstep := length_memberKeysAt_append level acc [m]
      have hinsert : insertMember m.1 m.2 acc = acc ++ [m] := insertMember_of_notMem hmem m.2
      rw [hinsert]
      omega

/-- An object has all the keys that are put into it if and only if no two of them are equal. -/
lemma length_keysAt_ofMembers (ms : List (String × Json)) :
    ((ofMembers ms).keysAt level).length ≤ (memberKeysAt level ms).length ∧
      (((ofMembers ms).keysAt level).length = (memberKeysAt level ms).length ↔
        (ms.map Prod.fst).Nodup) := by
  have hle := length_memberKeysAt_foldl_le level ms []
  rw [memberKeysAt, List.length_nil, Nat.zero_add] at hle
  refine ⟨hle, ?_, ?_⟩
  · intro heq
    by_contra hnodup
    have hempty : (([] : List (String × Json)).map Prod.fst).Nodup := List.nodup_nil
    have hlt := length_memberKeysAt_foldl_lt level hempty hnodup
    rw [memberKeysAt, List.length_nil, Nat.zero_add] at hlt
    exact absurd heq (Nat.ne_of_lt hlt)
  · intro hnodup
    rw [ofMembers_of_nodup hnodup]
    rfl

end Counting

end Json

namespace Field

/-! ### Keys and fields -/

lemma length_keysAt_samplePayload_members (level : ℕ) (fs : List Field) :
    ((samplePayload fs).keysAt level).length ≤
        (Json.memberKeysAt level (payloadMembers fs)).length ∧
      (((samplePayload fs).keysAt level).length =
          (Json.memberKeysAt level (payloadMembers fs)).length ↔ (fs.map name).Nodup) := by
  rw [← map_fst_payloadMembers]
  exact Json.length_keysAt_ofMembers level (payloadMembers fs)

lemma length_memberKeysAt_payloadMembers {fs : List Field} {depth : ℕ}
    (htidy : ∀ v ∈ visitsAll depth fs, v.field.Tidy) :
    (Json.memberKeysAt depth (payloadMembers fs)).length ≤ countAll fs ∧
      ((Json.memberKeysAt depth (payloadMembers fs)).length = countAll fs ↔
        ∀ v ∈ visitsAll depth fs, (v.field.children.map name).Nodup) := by
  induction fs using forest_induction generalizing depth with
  | nil => simp [payloadMembers, Json.memberKeysAt, countAll]
  | cons f fs ihChildren ih =>
    rw [visitsAll_cons, List.forall_mem_cons, List.forall_mem_append] at htidy ⊢
    obtain ⟨hf : f.Tidy, hchildren, hfs⟩ := htidy
    obtain ⟨hpayload, hpayload_eq⟩ := length_keysAt_samplePayload_members (depth + 1) f.children
    obtain ⟨hbelow, hbelow_eq⟩ := ihChildren hchildren
    obtain ⟨hrest, hrest_eq⟩ := ih hfs
    rw [payloadMembers, Json.memberKeysAt, keysAt_payload hf, countAll_cons, List.length_cons,
      List.length_append]
    refine ⟨by omega, ?_⟩
    rw [← hpayload_eq, ← hbelow_eq, ← hrest_eq]
    omega

/-- The sample payload of the fields has a key for each of them, at its level, in the order in which
the table has its rows. -/
def KeyPerRow (fields : List Field) : Prop :=
  (samplePayload fields).keysAt 0 = (visitsAll 0 fields).map fun v => (v.depth, v.field.name)

instance (fields : List Field) : Decidable (KeyPerRow fields) :=
  inferInstanceAs (Decidable (_ = _))

theorem keyPerRow_iff {fields : List Field} (htidy : ∀ v ∈ visitsAll 0 fields, v.field.Tidy) :
    KeyPerRow fields ↔ DistinctNames fields := by
  refine ⟨?_, fun hnames => keysAt_samplePayload hnames htidy⟩
  intro heq
  have hlength : ((samplePayload fields).keysAt 0).length = countAll fields := by
    rw [heq, List.length_map, length_visitsAll]
  obtain ⟨hpayload, hpayload_eq⟩ := length_keysAt_samplePayload_members 0 fields
  obtain ⟨hmembers, hmembers_eq⟩ := length_memberKeysAt_payloadMembers htidy
  exact ⟨hpayload_eq.mp (by omega), hmembers_eq.mp (by omega)⟩

end Field

end ServiceDocs
