import ServiceDocs.Proofs.Java.Printed
import ServiceDocs.Signature

/-!
# Printed classes

A class is written with its fields and its methods, one below the other. Every type in it is
written as it is displayed.
-/

namespace ServiceDocs.Java

/-! ### Variables and members -/

/-- A field or a parameter. -/
structure Variable where
  name : String
  type : TypeExpr

namespace Variable

/-- The member that the variable is. -/
def member (v : Variable) : Member :=
  { name := v.name, type := v.type }

/-- The variable can be written. -/
structure IsPrintable (v : Variable) : Prop where
  name : IsName v.name
  type : Java.IsPrintable v.type

instance : DecidablePred IsPrintable := fun v =>
  decidable_of_iff (IsName v.name ∧ Java.IsPrintable v.type)
    ⟨fun h => ⟨h.1, h.2⟩, fun h => ⟨h.name, h.type⟩⟩

end Variable

/-- A member of a class. -/
inductive ClassMember where
  | field (v : Variable)
  | method (returnType : TypeExpr) (name : String) (parameters : List Variable)

namespace ClassMember

/-- The member as it is written. -/
def text : ClassMember → String
  | .field v              => v.member.declaration ++ ";"
  | .method type name ps => type.display ++ " " ++ name ++ parameterList (ps.map (·.member)) ++ ";"

/-- The member can be written. -/
inductive IsPrintable : ClassMember → Prop
  | field {v : Variable} (hv : v.IsPrintable) : IsPrintable (.field v)
  | method {type : TypeExpr} {name : String} {ps : List Variable} (htype : Java.IsPrintable type)
    (hname : IsName name) (hps : ∀ p ∈ ps, p.IsPrintable) : IsPrintable (.method type name ps)

instance : DecidablePred IsPrintable
  | .field v             => decidable_of_iff v.IsPrintable ⟨.field, fun | .field hv => hv⟩
  | .method type name ps =>
    decidable_of_iff (Java.IsPrintable type ∧ IsName name ∧ ∀ p ∈ ps, p.IsPrintable)
      ⟨fun h => .method h.1 h.2.1 h.2.2, fun | .method htype hname hps => ⟨htype, hname, hps⟩⟩

/-- The member, if it is a field. -/
def field? : ClassMember → Option Member
  | .field v      => some v.member
  | .method _ _ _ => none

/-- The member, if it is a method of that class. -/
def method? (owner : String) : ClassMember → Option Method
  | .field _             => none
  | .method type name ps => some
    { name, package := "", declaringType := owner, returnType := type
      parameters := ps.map (·.member) }

end ClassMember

/-- A class with some members. -/
def classText (name : String) (ms : List ClassMember) : String :=
  "class " ++ name ++ " \x7b" ++ String.join (ms.map fun m => "\n  " ++ m.text) ++ "\n\x7d"

/-! ### Items -/

/-- A type with a name behind it. -/
def variableItems (gap : String) (v : Variable) : List Item :=
  typeItems gap v.type ++ [.ofWord " " v.name]

/-- Parameters with commas between them. -/
def parameterItems (gap : String) : List Variable → List Item
  | []           => []
  | [v]          => variableItems gap v
  | v :: w :: vs => variableItems gap v ++ .ofSign "" ',' :: parameterItems " " (w :: vs)

/-- A member behind white space. -/
def memberItems (gap : String) : ClassMember → List Item
  | .field v             => variableItems gap v ++ [.ofSign "" ';']
  | .method type name ps => typeItems gap type ++
    [.ofWord " " name, .ofGroup "" '(' (parameterItems "" ps) "" ')', .ofSign "" ';']

/-- A class. -/
def classItems (name : String) (ms : List ClassMember) : List Item :=
  [.ofWord "" "class", .ofWord " " name,
    .ofGroup " " '{' (ms.flatMap (memberItems "\n  ")) "\n" '}']

/-! ### Texts -/

lemma isIdentifier_class : isIdentifier "class".toList = true := by
  decide

lemma prints_semicolon : Prints [';'] [.ofSign "" ';'] :=
  .separator (by simp [separators]) .nil

lemma prints_variableItems {gap : String} (hgap : IsGap gap) {v : Variable} (h : v.IsPrintable) :
    Prints (gap.toList ++ v.member.declaration.toList) (variableItems gap v) := by
  have hname := Prints.word isGap_space h.name.isIdentifier
  have hvariable := (prints_typeItems hgap v.type h.type).append hname
    (standsApart_ofWord (by simp) v.name [])
  simpa [Member.declaration, Variable.member, variableItems] using hvariable

lemma prints_parameterItems {gap : String} (hgap : IsGap gap) : (vs : List Variable) → vs ≠ [] →
    (∀ v ∈ vs, v.IsPrintable) →
    Prints (gap.toList ++ (String.intercalate ", " (vs.map (·.member.declaration))).toList)
      (parameterItems gap vs)
  | [v], _, h => prints_variableItems hgap (h v List.mem_cons_self)
  | v :: w :: vs, _, h => by
    rw [List.forall_mem_cons] at h
    have hmore := prints_parameterItems isGap_space (w :: vs)
      (List.cons_ne_nil w vs) h.2
    have hlist := (prints_variableItems hgap h.1).append
      (.separator (by simp [separators]) hmore) (standsApart_ofSign "" ',' _)
    simpa [parameterItems, String.intercalate_cons_cons] using hlist

lemma prints_parameterList {ps : List Variable} (h : ∀ p ∈ ps, p.IsPrintable) :
    Prints (parameterList (ps.map (·.member))).toList
      [.ofGroup "" '(' (parameterItems "" ps) "" ')'] := by
  have hinside : Prints (String.intercalate ", " (ps.map (·.member.declaration))).toList
      (parameterItems "" ps) := by
    cases ps with
    | nil => exact .nil
    | cons p ps =>
      exact prints_parameterItems isGap_empty (p :: ps) (List.cons_ne_nil p ps) h
  have hgroup := Prints.group isGap_empty isGap_empty
    (show ('(', ')') ∈ brackets by simp [brackets]) hinside
  simpa [parameterList, Function.comp_def] using hgroup

lemma prints_memberItems {gap : String} (hgap : IsGap gap) {m : ClassMember} (h : m.IsPrintable) :
    Prints (gap.toList ++ m.text.toList) (memberItems gap m) := by
  cases h with
  | @field v hv =>
    have hfield := (prints_variableItems hgap hv).append prints_semicolon
      (standsApart_ofSign "" ';' [])
    simpa [ClassMember.text, memberItems] using hfield
  | @method type name ps htype hname hps =>
    have hlist := (prints_parameterList hps).append prints_semicolon (standsApart_ofSign "" ';' [])
    have hhead := (Prints.word isGap_space hname.isIdentifier).append hlist
      (standsApart_ofGroup "" '(' _ "" ')' _)
    have hmethod := (prints_typeItems hgap type htype).append hhead
      (standsApart_ofWord (by simp) name _)
    simpa [ClassMember.text, memberItems] using hmethod

lemma standsApart_memberItems {gap : String} (hgap : gap ≠ "") {m : ClassMember}
    (h : m.IsPrintable) (is : List Item) : StandsApart (memberItems gap m ++ is) := by
  cases h with
  | field hv =>
    rw [memberItems, variableItems, List.append_assoc, List.append_assoc]
    exact standsApart_typeItems hgap hv.type _
  | method htype _ _ =>
    rw [memberItems, List.append_assoc]
    exact standsApart_typeItems hgap htype _

lemma prints_body {gap : String} (hgap : IsGap gap) (hne : gap ≠ "") {ms : List ClassMember}
    (h : ∀ m ∈ ms, m.IsPrintable) :
    Prints (String.join (ms.map fun m => gap ++ m.text)).toList (ms.flatMap (memberItems gap)) := by
  induction ms with
  | nil => exact .nil
  | cons m ms ih =>
    rw [List.forall_mem_cons] at h
    have hapart : StandsApart (ms.flatMap (memberItems gap)) := by
      cases ms with
      | nil => exact fun ts hts => hts
      | cons n ms => exact standsApart_memberItems hne (h.2 n List.mem_cons_self) _
    have hbody := (prints_memberItems hgap h.1).append (ih h.2) hapart
    simpa [String.toList_join] using hbody

/-- The text of a class consists of its items. -/
lemma prints_classItems {name : String} (hname : IsName name) {ms : List ClassMember}
    (h : ∀ m ∈ ms, m.IsPrintable) : Prints (classText name ms).toList (classItems name ms) := by
  have hbody := Prints.group isGap_space isGap_newline
    (show ('{', '}') ∈ brackets by simp [brackets]) (prints_body isGap_indent (by simp) h)
  have hhead := (Prints.word isGap_space hname.isIdentifier).append hbody
    (standsApart_ofGroup " " '{' _ "\n" '}' [])
  have hclass := (Prints.word isGap_empty isIdentifier_class).append hhead
    (standsApart_ofWord (by simp) name _)
  simpa [classText, classItems] using hclass

end ServiceDocs.Java
