import ServiceDocs.Identifier
import ServiceDocs.Proofs.Text.Pieces

/-!
# The grammar of qualified names

A text is taken for a name exactly if it is a sequence of segments with dots between them. The name
stands for its last segment. That is a name as well, and a qualifier in front of a name does not
change what the name stands for.
-/

namespace ServiceDocs.Identifier

open Text

/-! ### Grammar -/

/-- A letter, an underscore or a dollar sign with any number of letters, numbers, underscores and
dollar signs behind it. -/
inductive IsSegment : List Char → Prop
  | mk {c : Char} {cs : List Char} (start : isAlphabetic c ∨ c = '_' ∨ c = '$')
    (parts : ∀ d ∈ cs, isAlphanumeric d ∨ d = '_' ∨ d = '$') : IsSegment (c :: cs)

/-- The text consists of these segments, at least one of them, with dots between them. -/
structure IsQualified (text : List Char) (ws : List (List Char)) : Prop where
  ne_nil : ws ≠ []
  segment : ∀ w ∈ ws, IsSegment w
  joined : text = join ['.'] ws

/-! ### Segments -/

lemma isStart_iff {c : Char} : isStart c = true ↔ isAlphabetic c ∨ c = '_' ∨ c = '$' := by
  simp [isStart, or_assoc]

lemma isPart_iff {c : Char} : isPart c = true ↔ isAlphanumeric c ∨ c = '_' ∨ c = '$' := by
  simp [isPart, or_assoc]

lemma isSegment_iff {w : List Char} : isSegment w = true ↔ IsSegment w := by
  cases w with
  | nil => exact iff_of_false Bool.false_ne_true (by rintro ⟨⟩)
  | cons c cs =>
    simp only [isSegment, Bool.and_eq_true, List.all_eq_true, isStart_iff, isPart_iff]
    constructor
    · rintro ⟨hstart, hparts⟩
      exact .mk hstart hparts
    · rintro ⟨hstart, hparts⟩
      exact ⟨hstart, hparts⟩

lemma isPart_of_isStart {c : Char} (h : isStart c = true) : isPart c = true := by
  rw [isStart_iff] at h
  rw [isPart_iff]
  refine h.imp_left fun halpha => ?_
  rw [isAlphanumeric, halpha, Bool.true_or]

/-- The separator belongs to no segment. -/
lemma IsSegment.notMem {w : List Char} (h : IsSegment w) : '.' ∉ w := by
  intro hdot
  rw [← isSegment_iff] at h
  cases w with
  | nil => cases hdot
  | cons c cs =>
    rw [isSegment, Bool.and_eq_true, List.all_eq_true] at h
    have hpart : isPart '.' = true := by
      rcases List.mem_cons.mp hdot with rfl | hmem
      · exact isPart_of_isStart h.1
      · exact h.2 _ hmem
    revert hpart
    decide

/-! ### Qualified names -/

namespace IsQualified

variable {text : List Char} {ws : List (List Char)}

/-- A text is cut into segments in one way. -/
lemma pieces_eq (h : IsQualified text ws) : pieces (· = '.') text = ws := by
  rw [h.joined, pieces_join h.ne_nil fun w hw => (h.segment w hw).notMem]

lemma singleton {w : List Char} (hw : IsSegment w) : IsQualified w [w] where
  ne_nil := List.cons_ne_nil w []
  segment := List.forall_mem_singleton.mpr hw
  joined := rfl

lemma append {text' : List Char} {ws' : List (List Char)} (h : IsQualified text ws)
    (h' : IsQualified text' ws') : IsQualified (text ++ '.' :: text') (ws ++ ws') where
  ne_nil := List.append_ne_nil_of_left_ne_nil h.ne_nil ws'
  segment := List.forall_mem_append.mpr ⟨h.segment, h'.segment⟩
  joined := by
    rw [← h.pieces_eq, ← h'.pieces_eq, ← pieces_append_cons (decide_eq_true rfl), join_pieces]

end IsQualified

lemma isQualified_segments {name : String} (h : ∀ w ∈ segments name, IsSegment w) :
    IsQualified name.toList (segments name) where
  ne_nil := pieces_ne_nil _ _
  segment := h
  joined := (join_pieces '.' name.toList).symm

/-! ### Reading -/

/-- A name is read if it has segments only, and its value is the last one. -/
lemma parse_eq_ok_iff {name : String} {v : SimpleName} :
    parse name = .ok v ↔
      ∃ ws, IsQualified name.toList ws ∧ ws.getLast? = some v.text.toList := by
  have hfault : (segments name).findSome? (fault? name) = none ↔
      ∀ w ∈ segments name, IsSegment w := by
    simp only [List.findSome?_eq_none_iff, fault?_eq_none_iff, isSegment_iff]
  constructor
  · intro h
    rw [parse] at h
    split_ifs at h
    split at h
    · cases h
    · next hnone =>
      refine ⟨segments name, isQualified_segments (hfault.mp hnone), ?_⟩
      rw [← Except.ok.inj h, String.toList_ofList]
      exact List.getLast?_eq_some_getLast _
  · rintro ⟨ws, hws, hlast⟩
    obtain rfl : segments name = ws := hws.pieces_eq
    have hne : name ≠ "" := by
      rintro rfl
      have hnil := hws.segment [] List.mem_cons_self
      cases hnil
    rw [parse, if_neg hne]
    split
    · next e he => simp [hfault.mpr hws.segment] at he
    · rw [List.getLast?_eq_some_getLast hws.ne_nil, Option.some.injEq] at hlast
      congr 2
      rw [hlast, String.ofList_toList]

/-- A text is read as a name if and only if it is a sequence of segments with dots between them. The
value is the last segment: it holds no dot, it is a name that stands for itself, and a name with a
dot in front of the text does not change it. -/
theorem parse_follows_grammar (name : String) :
    ((∃ v, parse name = .ok v) ↔ ∃ ws, IsQualified name.toList ws) ∧
      ∀ v, parse name = .ok v →
        (∀ ws, IsQualified name.toList ws → ws.getLast? = some v.text.toList) ∧
          '.' ∉ v.text.toList ∧ parse v.text = .ok v ∧
          ∀ qualifier u, parse qualifier = .ok u →
            parse (qualifier ++ "." ++ name) = .ok v := by
  constructor
  · constructor
    · rintro ⟨v, hv⟩
      obtain ⟨ws, hws, _⟩ := parse_eq_ok_iff.mp hv
      exact ⟨ws, hws⟩
    · rintro ⟨ws, hws⟩
      have hlast := List.getLast?_eq_some_getLast hws.ne_nil
      have hsegment := hws.segment _ (List.getLast_mem hws.ne_nil)
      refine ⟨⟨String.ofList (ws.getLast hws.ne_nil), ?_⟩, parse_eq_ok_iff.mpr ⟨ws, hws, ?_⟩⟩
      · rw [String.toList_ofList, isSegment_iff]
        exact hsegment
      · rw [hlast, String.toList_ofList]
  · intro v hv
    obtain ⟨ws, hws, hlast⟩ := parse_eq_ok_iff.mp hv
    have hsegment : IsSegment v.text.toList := isSegment_iff.mp v.isSegment
    refine ⟨fun ws' hws' => ?_, hsegment.notMem, ?_, fun qualifier u hu => ?_⟩
    · rw [← hws'.pieces_eq, hws.pieces_eq, hlast]
    · exact parse_eq_ok_iff.mpr ⟨[v.text.toList], .singleton hsegment, rfl⟩
    · obtain ⟨front, hfront, _⟩ := parse_eq_ok_iff.mp hu
      have htext : (qualifier ++ "." ++ name).toList = qualifier.toList ++ '.' :: name.toList := by
        simp
      refine parse_eq_ok_iff.mpr ⟨front ++ ws, htext ▸ hfront.append hws, ?_⟩
      rw [List.getLast?_append, hlast, Option.some_or]

/-- Dots at the ends of a text, or two of them in a row, leave a segment without characters. -/
example :
    (parse "com.example.$Proxy1").map (·.text) = .ok "$Proxy1" ∧
      (parse ".a").map (·.text) = .error (.emptySegment ".a") ∧
      (parse "a.").map (·.text) = .error (.emptySegment "a.") ∧
      (parse "com..Service").map (·.text) = .error (.emptySegment "com..Service") := by
  decide +kernel

end ServiceDocs.Identifier
