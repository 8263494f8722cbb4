import ServiceDocs.Expansion
import ServiceDocs.Page.Basic
import ServiceDocs.Proofs.TypeExpr.Display

/-!
# Different signatures are shown differently

The separator between parameters also stands between the arguments of a type, and the space in front
of a name also behind each separator. Read from its end, a parameter list still shows one list of
names and types only. It is the last thing in brackets on the line of a declaration, so methods with
different signatures have different declarations, whatever they return.
-/

namespace ServiceDocs

/-! ### Parameters -/

namespace Member

/-- What a declaration shows of a parameter. -/
def signature (m : Member) : TypeExpr × String :=
  (m.type, m.name)

/-- The type is legible, and the name has no marks. -/
structure IsLegible (m : Member) : Prop where
  type : m.type.IsLegible
  name : IsUnmarked m.name

end Member

/-- The characters of a parameter. -/
def signatureText (s : TypeExpr × String) : List Char :=
  s.1.text ++ ' ' :: s.2.toList

/-- A type without anything unknown, and a name. -/
def IsSignature (s : TypeExpr × String) : Prop :=
  s.1.IsLegible ∧ IsUnmarked s.2

lemma IsSignature.readsBack {s : TypeExpr × String} (hs : IsSignature s) :
    ReadsBack IsSignature signatureText s := by
  obtain ⟨t, name⟩ := s
  rintro ⟨u, name'⟩ hu xs ys hxs hys h
  have hname : xs ++ t.text ++ [' '] ++ name.toList = ys ++ u.text ++ [' '] ++ name'.toList := by
    simpa [signatureText] using h
  obtain ⟨hfront, rfl⟩ := hs.2.eq_of_append_eq hu.2 (endsInMark_concat _ (by decide))
    (endsInMark_concat _ (by decide)) hname
  obtain ⟨rfl, rfl⟩ := hs.1.readsBack u hu.1 xs ys hxs hys (List.append_cancel_right hfront)
  exact ⟨rfl, rfl⟩

lemma IsSignature.getLast?_text {s : TypeExpr × String} (hs : IsSignature s) :
    ∃ d, (signatureText s).getLast? = some d ∧ d ≠ '(' := by
  obtain ⟨d, hd⟩ := Option.isSome_iff_exists.mp (List.getLast?_isSome.mpr hs.2.ne_nil)
  refine ⟨d, ?_, ?_⟩
  · rw [signatureText, List.append_cons, List.getLast?_append, hd]
    rfl
  · rintro rfl
    exact hs.2.notMem _ (List.mem_of_getLast? hd) (by decide)

/-! ### Parameter lists -/

lemma toList_parameterList (ps : List Member) :
    (parameterList ps).toList =
      '(' :: [',', ' '].intercalate ((ps.map Member.signature).map signatureText) ++ [')'] := by
  have hsignature : (ps.map Member.declaration).map String.toList =
      (ps.map Member.signature).map signatureText := by
    rw [List.map_map, List.map_map]
    refine List.map_congr_left fun p _ => ?_
    simp [Member.declaration, Member.signature, signatureText, TypeExpr.text]
  rw [parameterList, String.toList_append, String.toList_append, String.toList_intercalate,
    hsignature]
  rfl

section Legible

variable {ps qs : List Member} (hps : ∀ p ∈ ps, p.IsLegible) (hqs : ∀ q ∈ qs, q.IsLegible)

include hps hqs

/-- Wherever a parameter list stands, it shows names and types without ambiguity. -/
lemma signature_eq_of_append_eq {xs ys : List Char}
    (h : xs ++ (parameterList ps).toList = ys ++ (parameterList qs).toList) :
    ps.map Member.signature = qs.map Member.signature := by
  have hsignatures : ∀ {ms : List Member}, (∀ m ∈ ms, m.IsLegible) →
      ∀ s ∈ ms.map Member.signature, IsSignature s := fun hms =>
    List.forall_mem_map.mpr fun m hm => ⟨(hms m hm).type, (hms m hm).name⟩
  rw [toList_parameterList, toList_parameterList, ← List.append_assoc, ← List.append_assoc,
    List.append_cancel_right_eq] at h
  exact (eq_of_intercalate_eq (by decide) (by decide) (fun _ => IsSignature.getLast?_text)
    (hsignatures hps) (fun s hs => (hsignatures hps s hs).readsBack) (hsignatures hqs) h).2

end Legible

/-! ### Declarations -/

/-- The line that declares the method of an entry. -/
def declarationLine (e : MethodEntry) : String :=
  "\t" ++ e.returnType.display ++ " " ++ e.name ++ e.parameters ++ ";"

lemma declarationLine_eq_of_lines_eq {e e' : MethodEntry}
    (h : Page.declarationLines e = Page.declarationLines e') :
    declarationLine e = declarationLine e' := by
  have hlast := List.append_inj_right' h rfl
  simp only [List.cons.injEq] at hlast
  exact hlast.2.2.1

/-- Parameter lists show the same text if and only if they have the same names and types in the same
order, and types show the same text only if they are the same. Methods with different signatures
have different declarations. Names are any texts without the signs of a declaration, such as
identifiers, and no type has an unknown part. -/
theorem declarations_distinct {ps qs : List Member} (hps : ∀ p ∈ ps, p.IsLegible)
    (hqs : ∀ q ∈ qs, q.IsLegible) :
    (parameterList ps = parameterList qs ↔
        ps.map Member.signature = qs.map Member.signature) ∧
      (∀ t u : TypeExpr, t.IsLegible → u.IsLegible → t.display = u.display → t = u) ∧
      ∀ (src : TypeSource) (depth : ℕ) (m n : Method), m.parameters = ps → n.parameters = qs →
        ps.map Member.signature ≠ qs.map Member.signature →
        Page.declarationLines (src.entry depth m) ≠ Page.declarationLines (src.entry depth n) := by
  refine ⟨⟨fun h => ?_, fun h => ?_⟩, fun t u ht hu h => ?_, ?_⟩
  · exact signature_eq_of_append_eq hps hqs (congrArg ([] ++ String.toList ·) h)
  · apply String.toList_injective
    rw [toList_parameterList, toList_parameterList, h]
  · have hstart : EndsInMark [] := by simp [EndsInMark]
    exact (ht.readsBack u hu [] [] hstart hstart (congrArg String.toList h)).2
  · rintro src depth m n rfl rfl hdiff hlines
    have hline := congrArg String.toList (declarationLine_eq_of_lines_eq hlines)
    simp only [declarationLine, String.toList_append, List.append_cancel_right_eq] at hline
    exact hdiff (signature_eq_of_append_eq hps hqs hline)

/-- The comma separates the arguments of a type in one of the methods, and the parameters in the
other one. -/
theorem declarations_distinct_commas :
    let users : TypeExpr := .named "List" [.array (.named "User" [])]
    let ps : List Member := [⟨"users", .named "Map" [.named "String" [], users], false, none, none⟩]
    let qs : List Member := [⟨"key", .named "Map" [.named "String" []], false, none, none⟩,
      ⟨"users", users, false, none, none⟩]
    (∀ p ∈ ps, p.IsLegible) ∧ (∀ q ∈ qs, q.IsLegible) ∧ parameterList ps ≠ parameterList qs ∧
      ∀ (src : TypeSource) (depth : ℕ) (m n : Method), m.parameters = ps → n.parameters = qs →
        Page.declarationLines (src.entry depth m) ≠ Page.declarationLines (src.entry depth n) := by
  intro users ps qs
  have hnames : ∀ name ∈ ["User", "List", "String", "Map", "key", "users"], IsUnmarked name := by
    have hidentifiers : ∀ name ∈ ["User", "List", "String", "Map", "key", "users"],
        Java.isIdentifier name.toList = true := by decide
    exact fun name h => .of_isIdentifier (hidentifiers name h)
  simp only [List.forall_mem_cons] at hnames
  obtain ⟨huser, hlist, hstring, hmap, hkey, hname, _⟩ := hnames
  have husers : users.IsLegible :=
    .named hlist (List.forall_mem_singleton.mpr (.array (.ofName huser)))
  have hps : ∀ p ∈ ps, p.IsLegible := by
    refine List.forall_mem_singleton.mpr ⟨.named hmap (List.forall_mem_cons.mpr ?_), hname⟩
    exact ⟨.ofName hstring, List.forall_mem_singleton.mpr husers⟩
  have hqs : ∀ q ∈ qs, q.IsLegible := by
    refine List.forall_mem_cons.mpr ⟨⟨.named hmap ?_, hkey⟩, ?_⟩
    · exact List.forall_mem_singleton.mpr (.ofName hstring)
    · exact List.forall_mem_singleton.mpr ⟨husers, hname⟩
  have hdiff : ps.map Member.signature ≠ qs.map Member.signature := by decide
  obtain ⟨hlists, _, hlines⟩ := declarations_distinct hps hqs
  exact ⟨hps, hqs, fun h => hdiff (hlists.mp h),
    fun src depth m n hm hn => hlines src depth m n hm hn hdiff⟩

end ServiceDocs
