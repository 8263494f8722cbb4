import ServiceDocs.Field.Sample
import ServiceDocs.Proofs.Field.Order

/-!
# Keys of sample payloads

The keys of a sample payload, read from the first to the last, are the names of the fields in
depth-first order. An array stands for its element, so it does not make its keys deeper.

This needs that nothing is hidden: a literal has no fields below it, a sample has no keys of its
own, and no two fields of one object share a name.
-/

namespace ServiceDocs

namespace Json

/-! ### Keys -/

mutual

/-- The keys in a value in the order of its text, each with its level: the keys of the outermost
object are at `level`, and those inside the value of a key one level further down. -/
def keysAt (level : ℕ) : Json → List (ℕ × String)
  | .null        => []
  | .bool _      => []
  | .num _       => []
  | .real _      => []
  | .str _       => []
  | .arr items   => itemKeysAt level items
  | .obj members => memberKeysAt level members
termination_by structural v => v

/-- The keys in the items of an array. -/
def itemKeysAt (level : ℕ) : List Json → List (ℕ × String)
  | []      => []
  | v :: vs => v.keysAt level ++ itemKeysAt level vs
termination_by structural vs => vs

/-- The keys of an object with those in their values. -/
def memberKeysAt (level : ℕ) : List (String × Json) → List (ℕ × String)
  | []             => []
  | (key, v) :: ms => (level, key) :: (v.keysAt (level + 1) ++ memberKeysAt level ms)
termination_by structural ms => ms

end

/-- The value is a single one, or an object without members. -/
def IsPlain : Json → Prop
  | .arr _       => False
  | .obj members => members = []
  | _            => True

lemma keysAt_of_isPlain {v : Json} (h : v.IsPlain) (level : ℕ) : v.keysAt level = [] := by
  cases v with
  | arr items => exact absurd h id
  | obj members =>
    obtain rfl : members = [] := h
    rfl
  | _ => rfl

/-! ### Objects with different keys -/

lemma insertMember_of_notMem {key : String} {ms : List (String × Json)}
    (h : key ∉ ms.map Prod.fst) (v : Json) : insertMember key v ms = ms ++ [(key, v)] := by
  induction ms with
  | nil => rfl
  | cons m ms ih =>
    obtain ⟨k, w⟩ := m
    rw [List.map_cons, List.mem_cons, not_or] at h
    rw [insertMember, if_neg (Ne.symm h.1), ih h.2, List.cons_append]

lemma foldl_insertMember {ms acc : List (String × Json)}
    (h : ((acc ++ ms).map Prod.fst).Nodup) :
    ms.foldl (fun acc m => insertMember m.1 m.2 acc) acc = acc ++ ms := by
  induction ms generalizing acc with
  | nil => rw [List.foldl_nil, List.append_nil]
  | cons m ms ih =>
    have hnew : m.1 ∉ acc.map Prod.fst := by
      rw [List.map_append, List.map_cons, List.nodup_append] at h
      intro hmem
      exact h.2.2 m.1 hmem m.1 List.mem_cons_self rfl
    have happend : acc ++ m :: ms = acc ++ [m] ++ ms := by simp
    rw [List.foldl_cons, insertMember_of_notMem hnew, happend]
    rw [happend] at h
    exact ih h

lemma ofMembers_of_nodup {ms : List (String × Json)} (h : (ms.map Prod.fst).Nodup) :
    ofMembers ms = .obj ms := by
  rw [← List.nil_append ms] at h
  rw [ofMembers, foldl_insertMember h, List.nil_append]

end Json

namespace Field

/-! ### Payloads -/

/-- Neither a literal nor a field with a sample has fields below it, and a sample is plain. -/
structure Tidy (f : Field) : Prop where
  literal : f.shape = .literal → f.children = []
  sample : ∀ s, f.sample = some s → f.children = [] ∧ s.IsPlain

/-- No two fields side by side have one name. -/
structure DistinctNames (fields : List Field) : Prop where
  roots : (fields.map name).Nodup
  children : ∀ v ∈ visitsAll 0 fields, (v.field.children.map name).Nodup

lemma map_fst_payloadMembers (fs : List Field) :
    (payloadMembers fs).map Prod.fst = fs.map name := by
  rw [payloadMembers_eq_map, List.map_map]
  rfl

lemma keysAt_samplePayload_eq_memberKeysAt {fs : List Field} (h : (fs.map name).Nodup)
    (level : ℕ) :
    (samplePayload fs).keysAt level = Json.memberKeysAt level (payloadMembers fs) := by
  rw [samplePayload, Json.ofMembers_of_nodup (by rwa [map_fst_payloadMembers])]
  rfl

/-- The keys in the payload of a field are those of the fields below it. -/
lemma keysAt_payload {f : Field} (htidy : f.Tidy) (level : ℕ) :
    f.payload.keysAt level = (samplePayload f.children).keysAt level := by
  obtain ⟨name, type, shape, element, required, range, description, sample, opaqueType,
    children⟩ := f
  cases shape with
  | literal =>
    obtain rfl : children = [] := htidy.literal rfl
    cases sample with
    | none => rfl
    | some s => exact Json.keysAt_of_isPlain (htidy.sample s rfl).2 level
  | object => rfl
  | array =>
    cases sample with
    | none => exact List.append_nil _
    | some s =>
      obtain ⟨hchildren, hplain⟩ := htidy.sample s rfl
      obtain rfl : children = [] := hchildren
      exact (List.append_nil _).trans (Json.keysAt_of_isPlain hplain level)

lemma memberKeysAt_payloadMembers {fs : List Field} {depth : ℕ}
    (h : ∀ v ∈ visitsAll depth fs, v.field.Tidy ∧ (v.field.children.map name).Nodup) :
    Json.memberKeysAt depth (payloadMembers fs) =
      (visitsAll depth fs).map fun v => (v.depth, v.field.name) := by
  induction fs using forest_induction generalizing depth with
  | nil => rfl
  | cons f fs ihChildren ih =>
    rw [visitsAll_cons, List.forall_mem_cons, List.forall_mem_append] at h
    obtain ⟨⟨htidy, hnodup⟩, hchildren, hrest⟩ := h
    rw [payloadMembers, Json.memberKeysAt, keysAt_payload htidy,
      keysAt_samplePayload_eq_memberKeysAt hnodup, ihChildren hchildren, ih hrest, visitsAll_cons,
      List.map_cons, List.map_append]

/-- The keys of a sample payload are the names of the fields in depth-first order, each at the
depth of its field. -/
theorem keysAt_samplePayload {fields : List Field} (hnames : DistinctNames fields)
    (htidy : ∀ v ∈ visitsAll 0 fields, v.field.Tidy) :
    (samplePayload fields).keysAt 0 =
      (visitsAll 0 fields).map fun v => (v.depth, v.field.name) := by
  rw [keysAt_samplePayload_eq_memberKeysAt hnames.roots]
  apply memberKeysAt_payloadMembers
  intro v hv
  exact ⟨htidy v hv, hnames.children v hv⟩

end Field

end ServiceDocs
