import ServiceDocs.Proofs.DocComment.Written
import ServiceDocs.Proofs.Java.Comments

/-!
# Comments without words

A documentation comment may hold nothing but asterisks and white space between its delimiters. No
tags are read from it. A single asterisk on a line is a margin, so a comment with at most one on
each line has no summary; where there are more of them, they are taken for words. If the delimiters
share an asterisk, the slash of the closing one is taken for a word.
-/

namespace ServiceDocs.DocComment

open Text

/-! ### Decorated lines -/

/-- There are only asterisks and white space. -/
def IsDecoration (cs : List Char) : Prop :=
  ∀ c ∈ cs, c = '*' ∨ isBlank c = true

instance : DecidablePred IsDecoration := fun cs =>
  List.decidableBAll (fun c => c = '*' ∨ isBlank c = true) cs

lemma IsDecoration.notMem {cs : List Char} (h : IsDecoration cs) {c : Char} (hstar : c ≠ '*')
    (hc : isBlank c = false) : c ∉ cs := by
  intro hmem
  rcases h c hmem with rfl | hblank
  · exact hstar rfl
  · rw [hblank] at hc
    cases hc

lemma IsDecoration.count_eq_zero_iff {cs : List Char} (h : IsDecoration cs) :
    cs.count '*' = 0 ↔ ∀ c ∈ cs, isBlank c = true := by
  rw [List.count_eq_zero]
  constructor
  · intro hstar c hc
    refine (h c hc).resolve_left ?_
    rintro rfl
    exact hstar hc
  · intro hblank hstar
    cases hblank '*' hstar

lemma stripMargin_sublist (l : List Char) : (stripMargin l).Sublist l := by
  rw [stripMargin]
  split
  · next cs htrim =>
    have hcs : cs.Sublist (trim l) := htrim ▸ List.sublist_cons_self '*' cs
    exact ((trim_sublist cs).trans hcs).trans (trim_sublist l)
  · exact trim_sublist l

lemma trim_stripMargin (l : List Char) : trim (stripMargin l) = stripMargin l := by
  rw [stripMargin]
  split
  · exact trim_trim _
  · exact trim_trim l

/-- A line of asterisks is read as a blank one if they are its margin. -/
lemma IsDecoration.isBlankLine_iff {l : List Char} (h : IsDecoration l) :
    isBlankLine (stripMargin l) = true ↔ l.count '*' ≤ 1 := by
  rw [isBlankLine, trim_stripMargin, List.isEmpty_iff, ← count_trim (c := '*') rfl, stripMargin]
  cases htrim : trim l with
  | nil => simp
  | cons c cs =>
    have hmem : ∀ d ∈ c :: cs, d ∈ l := fun d hd => (trim_sublist l).subset (htrim ▸ hd)
    have hc : isBlank c = false := startsAtWord_trim l c (by rw [htrim]; rfl)
    have hstar : c = '*' := (h c (hmem c List.mem_cons_self)).resolve_right (by simp [hc])
    have hcs : IsDecoration cs := fun d hd => h d (hmem d (List.mem_cons_of_mem c hd))
    subst hstar
    show trim cs = [] ↔ _
    rw [List.count_cons_self, trim_eq_nil_iff, ← hcs.count_eq_zero_iff]
    omega

/-! ### Lines without markup -/

lemma not_infix_of_notMem {c : Char} {pattern cs : List Char} (hc : c ∈ pattern) (h : c ∉ cs) :
    ¬ pattern <:+: cs :=
  fun hpart => h (List.IsInfix.subset hpart hc)

lemma clean_eq_nil_iff {cs : List Char} (h : '{' ∉ cs) : clean cs = [] ↔ words cs = [] := by
  rw [clean, reduceTags_eq_self (not_infix_of_notMem (c := '{') List.mem_cons_self h), flatten]
  constructor
  · intro hnil
    rw [← words_flatten, flatten, hnil, words_nil]
  · intro hnil
    rw [hnil]
    rfl

lemma isBlankLine_iff_words {l : List Char} : isBlankLine l = true ↔ words l = [] := by
  rw [isBlankLine, List.isEmpty_iff, ← (startsAtWord_trim l).eq_nil_iff, words_trim]

/-- Among lines without markup there is a summary unless all of them are blank. -/
lemma summaryOf_eq_none_iff {ls : List (List Char)} (h : ∀ l ∈ ls, '<' ∉ l ∧ '{' ∉ l) :
    summaryOf ls = none ↔ ∀ l ∈ ls, isBlankLine l = true := by
  have herase : ls.map (fun l => erase ['<', '/', 'p', '>'] (erase ['<', 'p', '>'] l)) = ls := by
    refine (List.map_congr_left fun l hl => ?_).trans (List.map_id ls)
    rw [erase_eq_self (not_infix_of_notMem (c := '<') List.mem_cons_self (h l hl).1),
      erase_eq_self (not_infix_of_notMem (c := '<') List.mem_cons_self (h l hl).1), id]
  have hparagraph :
      ∀ l ∈ (ls.dropWhile isBlankLine).takeWhile fun l => !isBlankLine l, l ∈ ls := by
    intro l hl
    exact ((List.takeWhile_sublist _).trans (List.dropWhile_sublist _)).subset hl
  have hbrace :
      '{' ∉ join [' '] ((ls.dropWhile isBlankLine).takeWhile fun l => !isBlankLine l) := by
    intro hmem
    rcases mem_join hmem with hspace | ⟨l, hl, hbrace⟩
    · simp at hspace
    · exact (h l (hparagraph l hl)).2 hbrace
  have hclean : summaryOf ls = none ↔
      clean (join [' '] ((ls.dropWhile isBlankLine).takeWhile fun l => !isBlankLine l)) = [] := by
    rw [summaryOf, herase]
    split
    · next hnil => simp [hnil]
    · next hcons => simp [hcons]
  rw [hclean, clean_eq_nil_iff hbrace, words_join, List.flatMap_eq_nil_iff]
  constructor
  · intro hnil
    obtain hall | ⟨l, rest, hl, hcons⟩ := dropWhile_eq_nil_or_cons isBlankLine ls
    · exact List.dropWhile_eq_nil_iff.mp hall
    · have hwords := hnil l (by simp [hcons, hl])
      rw [← isBlankLine_iff_words, hl] at hwords
      cases hwords
  · intro hblank
    rw [List.dropWhile_eq_nil_iff.mpr hblank]
    exact List.forall_mem_nil _

/-- Where no line begins a tag, there is nothing but a summary. -/
lemma ofContent_of_noTagLine {ls : List (List Char)} (h : ∀ l ∈ ls, isTagLine l = false) :
    ofContent ls = { summary := summaryOf ls } := by
  have hleading : leadingLines ls = ls := by
    rw [leadingLines, List.takeWhile_eq_self_iff]
    simpa using h
  have htags : blockTags ls = [] := by
    rw [blockTags, foldl_addLine_leading h]
    rfl
  rw [ofContent, hleading, htags, List.foldl_nil]

/-! ### Comments without words -/

/-- A documentation comment that has only asterisks and white space between its slashes. Its
delimiters may share an asterisk. -/
structure IsWordless (text : List Char) : Prop where
  opening : DocComment.opening <+: text
  closing : DocComment.closing <:+ text
  decoration : IsDecoration (text.drop 1).dropLast

instance : DecidablePred IsWordless := fun text =>
  decidable_of_iff (DocComment.opening <+: text ∧ DocComment.closing <:+ text ∧
      IsDecoration (text.drop 1).dropLast)
    ⟨fun h => ⟨h.1, h.2.1, h.2.2⟩, fun h => ⟨h.opening, h.closing, h.decoration⟩⟩

/-- Unless the delimiters share an asterisk, the asterisks and white space stand between them. -/
lemma IsWordless.cases {text : List Char} (h : IsWordless text) :
    text = ['/', '*', '*', '/'] ∨
      ∃ inside, text = DocComment.opening ++ inside ++ DocComment.closing ∧
        IsDecoration inside := by
  obtain ⟨⟨rest, rfl⟩, hclosing, hdecoration⟩ := h
  match rest with
  | [] => exact absurd hclosing (by decide)
  | [c] =>
    have hlast := List.reverse_prefix.mpr hclosing
    simp only [DocComment.opening, DocComment.closing, List.reverse_cons, List.reverse_nil,
      List.nil_append, List.cons_append, List.cons_prefix_cons] at hlast
    rw [← hlast.1]
    exact .inl rfl
  | c :: d :: rest =>
    obtain ⟨inside, hinside⟩ : DocComment.closing <:+ c :: d :: rest :=
      List.suffix_of_suffix_length_le hclosing (List.suffix_append _ _)
        (by simp [DocComment.closing])
    have hdrop : (DocComment.opening ++ (c :: d :: rest)).drop 1 =
        ['*', '*'] ++ inside ++ ['*'] ++ ['/'] := by
      simp [← hinside, DocComment.opening, DocComment.closing]
    rw [hdrop, List.dropLast_concat] at hdecoration
    refine .inr ⟨inside, by rw [← hinside, List.append_assoc], fun c hc => hdecoration c ?_⟩
    simp [hc]

section Delimited

variable {raw : String} {inside : List Char} (hraw : raw.toList = opening ++ inside ++ closing)
  (h : IsDecoration inside)

include hraw

lemma ofText_eq_ofBody : ofText raw = ofBody inside := by
  rw [ofText_eq, hraw, body_delimited]

include h

/-- No tags are read, and at most one asterisk on each line is passed over. -/
lemma ofText_decoration :
    (ofText raw).parameters = [] ∧ (ofText raw).returns = none ∧
      ((ofText raw).summary = none ↔ ∀ l ∈ lines inside, l.count '*' ≤ 1) := by
  have hlines : ∀ l ∈ (lines inside).map stripMargin, IsDecoration l := by
    intro l hl c hc
    obtain ⟨line, hline, rfl⟩ := List.mem_map.mp hl
    exact h c (mem_of_mem_pieces inside line hline c ((stripMargin_sublist line).subset hc))
  have htag : ∀ l ∈ (lines inside).map stripMargin, isTagLine l = false := by
    intro l hl
    have hat := (hlines l hl).notMem (c := '@') (by decide) (by decide)
    rw [isTagLine, decide_eq_false_iff_not]
    exact fun hhead => hat (List.mem_of_mem_head? hhead)
  have hmarkup : ∀ l ∈ (lines inside).map stripMargin, '<' ∉ l ∧ '{' ∉ l := fun l hl =>
    ⟨(hlines l hl).notMem (by decide) (by decide), (hlines l hl).notMem (by decide) (by decide)⟩
  rw [ofText_eq_ofBody hraw, ofBody, ofContent_of_noTagLine htag]
  refine ⟨rfl, rfl, ?_⟩
  rw [summaryOf_eq_none_iff hmarkup, List.forall_mem_map]
  refine forall₂_congr fun l hl => IsDecoration.isBlankLine_iff fun c hc => h c ?_
  exact mem_of_mem_pieces inside l hl c hc

end Delimited

/-- The comment whose delimiters share an asterisk. -/
lemma ofText_shared : ofText "/**/" = { summary := some "/" } := by
  decide +kernel

/-- Only a summary may be read from a comment without words. -/
lemma ofText_of_isWordless {text : String} (h : IsWordless text.toList) :
    (ofText text).parameters = [] ∧ (ofText text).returns = none ∧
      ((ofText text).summary = none ↔ ∃ inside, text.toList = opening ++ inside ++ closing ∧
        ∀ l ∈ lines inside, l.count '*' ≤ 1) := by
  obtain htext | ⟨inside, htext, hinside⟩ := h.cases
  · obtain rfl : text = "/**/" := String.toList_injective htext
    rw [ofText_shared]
    refine ⟨rfl, rfl, iff_of_false (Option.some_ne_none _) ?_⟩
    rintro ⟨inside, hlong, _⟩
    have hlength := congrArg List.length hlong
    simp [opening, closing] at hlength
  · obtain ⟨hparameters, hreturns, hsummary⟩ := ofText_decoration htext hinside
    refine ⟨hparameters, hreturns, hsummary.trans ⟨fun hlines => ⟨inside, htext, hlines⟩, ?_⟩⟩
    rintro ⟨inside', htext', hlines⟩
    rw [htext, List.append_cancel_right_eq, List.append_cancel_left_eq] at htext'
    rwa [htext']

/-! ### Descriptions -/

section Descriptions

open Java Java.Tree

/-- The nearest documentation comment counts, behind any other comments. -/
lemma docComment?_behind {others : List Comment} (hothers : ∀ o ∈ others, ¬ o.IsDocumentation)
    {c : Comment} (hc : c.IsDocumentation) (before : List Tree) :
    docComment? (others.map Comment.tree ++ c.tree :: before) = some (ofText c.text) := by
  induction others with
  | nil =>
    rw [List.map_nil, List.nil_append, docComment?, kind_comment, if_pos hc.1]
    exact if_pos hc.2
  | cons o others ih =>
    rw [List.forall_mem_cons] at hothers
    rw [List.map_cons, List.cons_append, docComment?_comment hothers.1, ih hothers.2]

section Documented

variable {before : List Tree} {doc : DocComment} (hdoc : docComment? before = some doc) {t : Tree}

include hdoc

lemma description_of_mem_declaredFields {m : Member} (hm : m ∈ t.declaredFields before) :
    m.description = doc.summary := by
  rw [declaredFields_eq, hdoc] at hm
  cases htype : t.child? .type with
  | none => simp [htype] at hm
  | some type =>
    simp only [htype, Option.map_some, Option.getD_some] at hm
    obtain ⟨d, _, hd⟩ := List.mem_filterMap.mp hm
    obtain ⟨name, _, rfl⟩ := Option.map_eq_some_iff.mp hd
    rfl

lemma descriptions_of_method? {package owner : String} {m : Method}
    (hm : t.method? package owner before = some m) :
    m.description = doc.summary ∧ m.returnDescription = doc.returns ∧
      m.parameters = t.parameters doc := by
  rw [method?_eq, hdoc] at hm
  obtain ⟨name, _, hm⟩ := Option.bind_eq_some_iff.mp hm
  obtain ⟨type, _, rfl⟩ := Option.map_eq_some_iff.mp hm
  exact ⟨rfl, rfl, rfl⟩

end Documented

lemma description_of_mem_parameters {doc : DocComment} {t : Tree} {m : Member}
    (hm : m ∈ t.parameters doc) : m.description = doc.parameter? m.name := by
  rw [parameters_eq] at hm
  cases hlist : t.child? .parameters with
  | none => simp [hlist] at hm
  | some list =>
    simp only [hlist, Option.map_some, Option.getD_some] at hm
    obtain ⟨p, _, hp⟩ := List.mem_filterMap.mp hm
    rw [parameterAt?] at hp
    split_ifs at hp
    · rw [parameter?_eq] at hp
      obtain ⟨name, _, hp⟩ := Option.bind_eq_some_iff.mp hp
      obtain ⟨type, _, rfl⟩ := Option.map_eq_some_iff.mp hp
      rfl
    · rw [spreadParameter?_eq] at hp
      obtain ⟨type, _, hp⟩ := Option.bind_eq_some_iff.mp hp
      obtain ⟨name, _, rfl⟩ := Option.map_eq_some_iff.mp hp
      rfl

end Descriptions

/-- Nothing but a summary is read from a comment without words, and not even that if its delimiters
share no asterisk and no line has more than one. What such a comment describes has that summary, if
any, for its description. -/
theorem ofText_wordless {text : String} (h : IsWordless text.toList) :
    (ofText text).parameters = [] ∧ (ofText text).returns = none ∧
      ((ofText text).summary = none ↔ ∃ inside, text.toList = opening ++ inside ++ closing ∧
        ∀ l ∈ lines inside, l.count '*' ≤ 1) ∧
      ∀ (others : List Java.Comment) (c : Java.Comment) (before : List Java.Tree) (t : Java.Tree),
        (∀ o ∈ others, ¬ o.IsDocumentation) → c.isBlock = true → c.text = text →
        let inFront := others.map Java.Comment.tree ++ c.tree :: before
        (∀ package path kind name,
          (t.declaration package path kind name inFront).description = (ofText text).summary) ∧
        (∀ m ∈ t.declaredFields inFront, m.description = (ofText text).summary) ∧
        ∀ package owner m, t.method? package owner inFront = some m →
          m.description = (ofText text).summary ∧ m.returnDescription = none ∧
            ∀ p ∈ m.parameters, p.description = none := by
  obtain ⟨hparameters, hreturns, hsummary⟩ := ofText_of_isWordless h
  refine ⟨hparameters, hreturns, hsummary, ?_⟩
  intro others c before t hothers hblock htext inFront
  have hc : c.IsDocumentation :=
    ⟨hblock, by rw [htext]; exact List.isPrefixOf_iff_prefix.mpr h.opening⟩
  have hdoc : Java.Tree.docComment? inFront = some (ofText text) := by
    rw [← htext]
    exact docComment?_behind hothers hc before
  refine ⟨?_, fun m hm => description_of_mem_declaredFields hdoc hm, ?_⟩
  · intro package path kind name
    rw [Java.Tree.declaration, hdoc]
    rfl
  · intro package owner m hm
    obtain ⟨hdescription, hreturn, hparams⟩ := descriptions_of_method? hdoc hm
    refine ⟨hdescription, hreturn.trans hreturns, fun p hp => ?_⟩
    rw [description_of_mem_parameters (hparams ▸ hp), parameter?, hparameters]
    rfl

/-- A comment with an asterisk on most of its lines stands in front of another comment and a
class. -/
theorem ofText_wordless_banner :
    let text := "/**\t\n *\u2003\n\n   *\n */"
    let c : Java.Comment := ⟨true, "", text⟩
    let other : Java.Comment := ⟨false, "\n", "// a class"⟩
    IsWordless text.toList ∧ (∀ o ∈ [other], ¬ o.IsDocumentation) ∧ c.isBlock = true ∧
      c.text = text ∧ (ofText text).summary = none ∧
      ∀ before t, (Java.Tree.declaration "p" "A.java" .classType "A"
        ([other].map Java.Comment.tree ++ c.tree :: before) t).description = none := by
  intro text c other
  have h : IsWordless text.toList := by decide +kernel +zetaReduce
  have hother : ∀ o ∈ [other], ¬ o.IsDocumentation := by decide +kernel +zetaReduce
  obtain ⟨_, _, hsummary, hdescription⟩ := ofText_wordless h
  have hnone : (ofText text).summary = none := by
    refine hsummary.mpr ⟨"\t\n *\u2003\n\n   *\n ".toList, ?_, ?_⟩
    · decide +kernel +zetaReduce
    · decide +kernel
  refine ⟨h, hother, rfl, rfl, hnone, fun before t => ?_⟩
  rw [(hdescription [other] c before t hother rfl rfl).1 "p" "A.java" .classType "A", hnone]

/-- A slash is read where the delimiters share an asterisk, and asterisks where there are several on
one line. -/
theorem ofText_reads_asterisks :
    IsWordless "/**/".toList ∧ ofText "/**/" = { summary := some "/" } ∧
      IsWordless "/*****/".toList ∧ ofText "/*****/" = { summary := some "*" } := by
  decide +kernel

end ServiceDocs.DocComment
