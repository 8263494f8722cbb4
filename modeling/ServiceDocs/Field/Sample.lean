import ServiceDocs.Field.Basic

/-!
# Sample payloads

A list of fields is folded into a sample payload: an object with a key for each field, in order.
An array holds one element. Of two fields with one name the later one gives the value.
-/

namespace ServiceDocs

mutual

/-- The sample value of a field; a literal without a sample is `null`. -/
def Field.payload : Field → Json
  | ⟨_, _, .literal, _, _, _, _, sample, _, _⟩        => sample.getD .null
  | ⟨_, _, .object, _, _, _, _, _, _, children⟩       => .ofMembers (payloadMembers children)
  | ⟨_, _, .array, _, _, _, _, some s, _, _⟩          => .arr [s]
  | ⟨_, _, .array, _, _, _, _, none, _, children⟩     =>
    .arr [.ofMembers (payloadMembers children)]
termination_by structural f => f

/-- The names of fields with their sample values. -/
def payloadMembers : List Field → List (String × Json)
  | []      => []
  | f :: fs => (f.name, f.payload) :: payloadMembers fs
termination_by structural fs => fs

end

/-- The sample payload of a list of fields. -/
def samplePayload (fields : List Field) : Json :=
  .ofMembers (payloadMembers fields)

theorem payloadMembers_eq_map (fields : List Field) :
    payloadMembers fields = fields.map fun f => (f.name, f.payload) := by
  induction fields with
  | nil => rfl
  | cons f fs ih => simp [payloadMembers, ih]

end ServiceDocs
