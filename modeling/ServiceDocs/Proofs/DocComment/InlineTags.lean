import ServiceDocs.Proofs.DocComment.Marked

/-!
# Inline tags

The reduction of texts ends a tag at the first closing brace behind its name and does not look at
its content again. So it is right about a tag whose content has no braces. If there are braces, the
white space next to them may be lost, and apart from white space the result is right if and only if
there is no tag inside the tag and nothing follows the first closing brace but others.

Until a tag is opened inside another one there are as many closing braces as there should be, but
each of them may have moved to the back. So the closing braces are counted first, and then the
characters that they stand in front of.
-/

namespace ServiceDocs.DocComment

open Text

lemma isBlank_of_mem_braces : ∀ c ∈ ['{', '}'], isBlank c = false := by
  rw [List.forall_mem_cons, List.forall_mem_singleton]
  exact ⟨rfl, rfl⟩

/-! ### Steps of the reduction -/

lemma reduceTags_cons {c : Char} {cs : List Char} (h : c = '{' → cs.head? ≠ some '@') :
    reduceTags (c :: cs) = c :: reduceTags cs := by
  rw [reduceTags, reduceFrom]
  rintro rest rfl rfl
  exact h rfl rfl

lemma reduceFrom_some {cs : List Char} (h : '}' ∉ cs) (tag rest : List Char) :
    reduceFrom (some tag) (cs ++ '}' :: rest) =
      (splitTag (tag.reverse ++ cs)).2 ++ reduceTags rest := by
  induction cs generalizing tag with
  | nil => rw [List.nil_append, reduceFrom, List.append_nil, reduceTags]
  | cons c cs ih =>
    rw [List.mem_cons, not_or] at h
    rw [List.cons_append, reduceFrom, ih h.2, List.reverse_cons, List.append_assoc]
    · rfl
    · exact fun hc => h.1 hc.symm

/-- A tag gives the text behind its name up to the first closing brace. -/
lemma reduceTags_tag {name content : List Char} (hname : ∀ c ∈ name, isBlank c = false)
    (hblank : ∀ c ∈ content.head?, isBlank c = true) (hbrace : '}' ∉ name ++ content)
    (rest : List Char) :
    reduceTags ('{' :: '@' :: (name ++ content ++ '}' :: rest)) =
      trim content ++ reduceTags rest := by
  have htake : ∀ c ∈ name, (!isBlank c) = true := by simpa using hname
  have hcontent : trim ((content.dropWhile fun c => !isBlank c).drop 1) = trim content := by
    cases content with
    | nil => rfl
    | cons c cs =>
      have hc : isBlank c = true := hblank c rfl
      rw [List.dropWhile_cons_of_neg (by simp [hc])]
      simp [trim, trimLeft, hc]
  rw [reduceTags, reduceFrom, reduceFrom_some hbrace, List.reverse_nil, List.nil_append, splitTag,
    List.dropWhile_append_of_pos htake, hcontent]
  rfl

namespace Marked

lemma reduceTags_source_braces {inside rest : Marked} (h : inside.source.head? ≠ some '@') :
    reduceTags (braces inside rest).source =
      '{' :: reduceTags (inside.append (char '}' rest)).source := by
  have hhead := head?_source_append_closing h rest
  rw [source_append, source] at hhead ⊢
  rw [source, reduceTags_cons fun _ => hhead]

lemma reduceTags_source_tag {name : List Char} {content rest : Marked} (hhead : IsHead name content)
    (hcontent : content.IsContent) :
    reduceTags (tag name content rest).source =
      trim content.beforeBrace ++ reduceTags (content.behindBrace rest).source := by
  have hblank : ∀ c ∈ content.beforeBrace.head?, isBlank c = true := by
    rw [head?_beforeBrace]
    exact hhead.blank
  have hbrace : '}' ∉ name ++ content.beforeBrace := by
    simp [hhead.closing, hcontent.notMem_beforeBrace]
  rw [source, List.append_assoc, source_eq_brace, ← List.append_assoc,
    reduceTags_tag hhead.notBlank hblank hbrace]

/-! ### Contents without braces -/

lemma IsContent.of_noBrace {i : Marked} (hi : i.IsContent) (hno : '{' ∉ i.source) :
    i.reduced = i.source ∧ i.beforeBrace = i.source ∧ ∀ t, i.behindBrace t = t := by
  induction i with
  | nil => exact ⟨rfl, rfl, fun _ => rfl⟩
  | char c rest ih =>
    rw [source, List.mem_cons, not_or] at hno
    obtain ⟨hreduced, hbefore, hbehind⟩ := ih hi.2.2 hno.2
    exact ⟨by rw [reduced, source, hreduced], by rw [beforeBrace, source, hbefore], hbehind⟩
  | braces inside rest => exact absurd List.mem_cons_self hno
  | tag name content rest => exact absurd List.mem_cons_self hno

/-- Tags whose contents have no braces are all reduced to their contents. -/
lemma reduceTags_source (t : Marked) (ht : t.IsText) (hno : ∀ i ∈ t.contents, '{' ∉ i.source) :
    reduceTags t.source = t.reduced := by
  induction t, ht using text_induction with
  | nil => rfl
  | char c rest h ih => rw [source, reduced, reduceTags_cons h.1, ih hno]
  | braces inside rest h ih =>
    have hcontents : (inside.append (char '}' rest)).contents = (braces inside rest).contents := by
      rw [contents_append, contents, contents]
    rw [reduceTags_source_braces h.1, ih (hcontents ▸ hno), reduced_append, reduced, reduced]
  | tag name content rest h ih =>
    rw [contents, List.forall_mem_cons] at hno
    obtain ⟨hreduced, hbefore, hbehind⟩ := h.2.1.of_noBrace hno.1
    rw [hbehind] at ih
    rw [reduceTags_source_tag h.1 h.2.1, hbefore, hbehind, ih hno.2, reduced, hreduced]

/-! ### Braces are not lost -/

/-- Before and behind the first closing brace there are the braces of the reduced text and those of
the tags that are opened before it. -/
lemma IsContent.count_brace {i : Marked} (hi : i.IsContent) (t : Marked) :
    ∀ c ∈ ['{', '}'], i.beforeBrace.count c + (i.behindBrace t).reduced.count c =
      i.reduced.count c + i.tagsBeforeBrace + t.reduced.count c := by
  intro c hc
  have hbraces : (if '{' == c then 1 else 0) + (if '}' == c then 1 else 0) = 1 ∧
      (if '@' == c then 1 else 0) = 0 := by
    rw [List.mem_pair] at hc
    rcases hc with rfl | rfl <;> decide
  induction i generalizing t with
  | nil => simp [beforeBrace, behindBrace, reduced, tagsBeforeBrace]
  | char d rest ih =>
    have h := ih hi.2.2 t
    simp only [beforeBrace, behindBrace, reduced, tagsBeforeBrace, List.count_cons]
    omega
  | braces inside rest ihInside _ =>
    have h := ihInside hi.2.1 (rest.append (char '}' t))
    simp only [reduced_append, reduced, List.count_append, List.count_cons] at h
    simp only [beforeBrace, behindBrace, reduced, tagsBeforeBrace, List.count_append,
      List.count_cons]
    omega
  | tag name content rest ihContent _ =>
    have h := ihContent hi.2.1 (rest.append (char '}' t))
    have hname : name.count c = 0 := by
      rw [List.count_eq_zero]
      rw [List.mem_pair] at hc
      rcases hc with rfl | rfl
      · exact hi.1.opening
      · exact hi.1.closing
    simp only [reduced_append, reduced, List.count_append, List.count_cons] at h
    simp only [beforeBrace, behindBrace, reduced, tagsBeforeBrace, List.count_append,
      List.count_cons, count_trim (isBlank_of_mem_braces c hc), hname]
    omega

lemma count_brace_le (t : Marked) (ht : t.IsText) :
    ∀ c ∈ ['{', '}'], t.reduced.count c ≤ (reduceTags t.source).count c := by
  intro c hc
  induction t, ht using text_induction with
  | nil => exact Nat.le_refl _
  | char d rest h ih =>
    rw [source, reduced, reduceTags_cons h.1, List.count_cons, List.count_cons]
    exact Nat.add_le_add_right ih _
  | braces inside rest h ih =>
    rw [reduced_append, reduced] at ih
    rw [reduceTags_source_braces h.1, reduced, List.count_cons, List.count_cons]
    exact Nat.add_le_add_right ih _
  | tag name content rest h ih =>
    have hcount := h.2.1.count_brace rest c hc
    have hblank := isBlank_of_mem_braces c hc
    rw [reduceTags_source_tag h.1 h.2.1, reduced, List.count_append, List.count_append,
      count_trim hblank, count_trim hblank]
    omega

end Marked

/-! ### Closing braces that have moved -/

/-- The number of visible characters that are no closing braces. -/
def others (cs : List Char) : ℕ :=
  (visible cs).countP (· ≠ '}')

/-- The number of closing braces in front of the characters that are none, added up over these. -/
def closingsInFront : List Char → ℕ
  | []      => 0
  | c :: cs => (if c = '}' then cs.countP (· ≠ '}') else 0) + closingsInFront cs

@[simp] lemma others_append (xs ys : List Char) : others (xs ++ ys) = others xs + others ys := by
  rw [others, visible_append, List.countP_append, others, others]

lemma others_cons (c : Char) (cs : List Char) : others (c :: cs) = others [c] + others cs :=
  others_append [c] cs

@[simp] lemma others_closing (cs : List Char) : others ('}' :: cs) = others cs := by
  rw [others, visible_cons_of_notBlank rfl, List.countP_cons_of_neg (by simp), others]

@[simp] lemma others_opening (cs : List Char) : others ('{' :: cs) = others cs + 1 := by
  rw [others, visible_cons_of_notBlank rfl, List.countP_cons_of_pos (by simp), others]

@[simp] lemma others_trim (cs : List Char) : others (trim cs) = others cs := by
  rw [others, visible_trim, others]

lemma closingsInFront_append {xs : List Char} (h : '}' ∉ xs) (ys : List Char) :
    closingsInFront (xs ++ ys) = closingsInFront ys := by
  induction xs with
  | nil => rfl
  | cons x xs ih =>
    rw [List.mem_cons, not_or] at h
    rw [List.cons_append, closingsInFront, if_neg (Ne.symm h.1), ih h.2, Nat.zero_add]

/-- A closing brace that moves back over some characters is no longer in front of them. -/
lemma closingsInFront_cons_append (ys zs : List Char) :
    closingsInFront ('}' :: (ys ++ zs)) =
      closingsInFront (ys ++ '}' :: zs) + ys.countP (· ≠ '}') := by
  induction ys with
  | nil => rfl
  | cons y ys ih =>
    have hothers : (ys ++ '}' :: zs).countP (· ≠ '}') = (ys ++ zs).countP (· ≠ '}') := by simp
    rw [closingsInFront, if_pos rfl] at ih ⊢
    rw [List.cons_append, List.cons_append, closingsInFront, closingsInFront, hothers,
      List.countP_cons, List.countP_cons]
    omega

lemma append_closing_of_countP {ys : List Char} (h : ys.countP (· ≠ '}') = 0) (zs : List Char) :
    ys ++ '}' :: zs = '}' :: (ys ++ zs) := by
  induction ys with
  | nil => rfl
  | cons y ys ih =>
    rw [List.countP_eq_zero, List.forall_mem_cons, ← List.countP_eq_zero] at h
    obtain rfl : y = '}' := by simpa using h.1
    rw [List.cons_append, ih h.2, List.cons_append]

namespace Marked

/-! ### Contents that close last -/

/-- If no tag is opened before the first closing brace, that brace is the one behind the content, or
it belongs to the content like the text behind it. -/
lemma exists_behindBrace {i : Marked} (h : i.tagsBeforeBrace = 0) :
    (i.reduced = i.beforeBrace ∧ ∀ t, i.behindBrace t = t) ∨
      ∃ ys, i.reduced = i.beforeBrace ++ '}' :: ys ∧
        ∀ t, (i.behindBrace t).reduced = ys ++ '}' :: t.reduced := by
  induction i with
  | nil => exact .inl ⟨rfl, fun _ => rfl⟩
  | char c rest ih =>
    obtain ⟨hreduced, hbehind⟩ | ⟨ys, hreduced, hbehind⟩ := ih h
    · exact .inl ⟨by rw [reduced, beforeBrace, hreduced], hbehind⟩
    · exact .inr ⟨ys, by rw [reduced, beforeBrace, hreduced, List.cons_append], hbehind⟩
  | braces inside rest ihInside _ =>
    right
    obtain ⟨hreduced, hbehind⟩ | ⟨ys, hreduced, hbehind⟩ := ihInside h
    · refine ⟨rest.reduced, by rw [reduced, beforeBrace, hreduced, List.cons_append], ?_⟩
      intro t
      rw [behindBrace, hbehind, reduced_append, reduced]
    · refine ⟨ys ++ '}' :: rest.reduced, by simp [reduced, beforeBrace, hreduced], ?_⟩
      intro t
      simp [behindBrace, hbehind, reduced]
  | tag name content rest => cases h

lemma IsContent.isWhite_iff {i : Marked} (hi : i.IsContent) :
    i.IsWhite ↔ i.ClosesLast ∧ others i.reduced = 0 := by
  induction i with
  | nil => simp [IsWhite, ClosesLast, reduced, others]
  | char c rest ih =>
    have hiff := ih hi.2.2
    rw [IsWhite, ClosesLast, reduced, hiff, others, visible]
    cases hc : isBlank c <;> simp [hc, hi.2.1, others, visible]
  | braces inside rest => simp [IsWhite, reduced]
  | tag name content rest => simp [IsWhite, ClosesLast]

lemma IsContent.isVoid_iff {i : Marked} (hi : i.IsContent) :
    i.IsVoid ↔ (∀ j ∈ i.contents, j.ClosesLast) ∧ others i.reduced = 0 := by
  induction i with
  | nil => simp [IsVoid, contents, reduced, others]
  | char c rest ih =>
    have hiff := ih hi.2.2
    rw [IsVoid, contents, reduced, hiff, others, visible]
    cases hc : isBlank c <;> simp [hc, hi.2.1, others, visible]
  | braces inside rest => simp [IsVoid, reduced]
  | tag name content rest _ ih =>
    rw [IsVoid, contents, reduced, hi.2.1.isWhite_iff, ih hi.2.2, List.forall_mem_cons,
      others_append, others_trim, Nat.add_eq_zero_iff]
    tauto

lemma others_beforeBrace_le {i : Marked} (h : i.tagsBeforeBrace = 0) :
    others i.beforeBrace ≤ others i.reduced := by
  obtain ⟨hreduced, -⟩ | ⟨ys, hreduced, -⟩ := exists_behindBrace h
  · rw [hreduced]
  · rw [hreduced, others_append]
    exact Nat.le_add_right _ _

/-- A content closes last if the reduction meets no tag in it before the first closing brace, nothing
else to show behind that brace, and only contents that close last from there on. -/
lemma IsContent.closesLast_iff {i : Marked} (hi : i.IsContent) (t : Marked) :
    (i.ClosesLast ∧ ∀ j ∈ t.contents, j.ClosesLast) ↔
      i.tagsBeforeBrace = 0 ∧ others i.reduced = others i.beforeBrace ∧
        ∀ j ∈ (i.behindBrace t).contents, j.ClosesLast := by
  induction i generalizing t with
  | nil => simp [ClosesLast, tagsBeforeBrace, reduced, beforeBrace, behindBrace]
  | char c rest ih =>
    rw [ClosesLast, tagsBeforeBrace, reduced, beforeBrace, behindBrace, others_cons,
      others_cons c rest.beforeBrace, Nat.add_left_cancel_iff]
    exact ih hi.2.2 t
  | braces inside rest ihInside _ =>
    have hiff := ihInside hi.2.1 (rest.append (char '}' t))
    rw [contents_append, contents, List.forall_mem_append] at hiff
    rw [ClosesLast, tagsBeforeBrace, reduced, beforeBrace, behindBrace, hi.2.2.isVoid_iff,
      others_opening, others_opening, others_append, others_closing]
    constructor
    · rintro ⟨⟨hinside, hrest, hvoid⟩, ht⟩
      obtain ⟨htags, hothers, hbehind⟩ := hiff.mp ⟨hinside, hrest, ht⟩
      exact ⟨htags, by omega, hbehind⟩
    · rintro ⟨htags, hothers, hbehind⟩
      have hle := others_beforeBrace_le htags
      obtain ⟨hinside, hrest, ht⟩ := hiff.mpr ⟨htags, by omega, hbehind⟩
      exact ⟨⟨hinside, hrest, by omega⟩, ht⟩
  | tag name content rest => simp [ClosesLast, tagsBeforeBrace]

/-! ### Comparison with the reduced text -/

lemma IsContent.notMem_visible_beforeBrace {i : Marked} (hi : i.IsContent) :
    '}' ∉ visible i.beforeBrace :=
  fun h => hi.notMem_beforeBrace (List.mem_of_mem_filter h)

section Tag

variable {content : Marked} (hcontent : content.IsContent) (hno : content.tagsBeforeBrace = 0)
    (name : List Char) (rest : Marked)

include hno

lemma others_reduced_tag :
    others (tag name content rest).reduced =
      others content.beforeBrace + others (content.behindBrace rest).reduced := by
  rw [reduced, others_append, others_trim]
  obtain ⟨hreduced, hbehind⟩ | ⟨ys, hreduced, hbehind⟩ := exists_behindBrace hno
  · rw [hreduced, hbehind]
  · simp [hreduced, hbehind, Nat.add_assoc]

lemma visible_reduced_tag (hothers : others content.reduced = others content.beforeBrace) :
    visible (tag name content rest).reduced =
      visible content.beforeBrace ++ visible (content.behindBrace rest).reduced := by
  rw [reduced, visible_append, visible_trim]
  obtain ⟨hreduced, hbehind⟩ | ⟨ys, hreduced, hbehind⟩ := exists_behindBrace hno
  · rw [hreduced, hbehind]
  · rw [hreduced, others_append, others_closing, Nat.add_eq_left] at hothers
    rw [hreduced, hbehind, visible_append, visible_append, visible_cons_of_notBlank rfl,
      visible_cons_of_notBlank rfl, append_closing_of_countP hothers, List.append_assoc,
      List.cons_append]

include hcontent

/-- The brace that ends the content is shown, and the first closing brace is not. -/
lemma closingsInFront_reduced_tag :
    closingsInFront (visible (tag name content rest).reduced) + others content.beforeBrace =
      closingsInFront (visible (content.behindBrace rest).reduced) + others content.reduced := by
  have hbefore := hcontent.notMem_visible_beforeBrace
  rw [reduced, visible_append, visible_trim]
  obtain ⟨hreduced, hbehind⟩ | ⟨ys, hreduced, hbehind⟩ := exists_behindBrace hno
  · rw [hreduced, hbehind, closingsInFront_append hbefore]
  · have hmoved := closingsInFront_cons_append (visible ys) (visible rest.reduced)
    rw [hreduced, hbehind, visible_append, visible_append, visible_cons_of_notBlank rfl,
      visible_cons_of_notBlank rfl, List.append_assoc, List.cons_append,
      closingsInFront_append hbefore, hmoved, others_append, others_closing, others.eq_def ys]
    omega

end Tag

lemma closingsInFront_visible_cons (c : Char) (cs : List Char) :
    closingsInFront (visible (c :: cs)) =
      (if c = '}' then others cs else 0) + closingsInFront (visible cs) := by
  cases hc : isBlank c with
  | true =>
    have hne : c ≠ '}' := by
      rintro rfl
      cases hc
    rw [visible, List.filter_cons_of_neg (by simp [hc]), if_neg hne, Nat.zero_add, visible]
  | false => rw [visible_cons_of_notBlank hc, closingsInFront, others]

/-- If there are as many closing braces as in the reduced text, then none of them has moved to the
front, and only if all contents close last, none has moved to the back either. -/
lemma closingsInFront_le (t : Marked) (ht : t.IsText)
    (hcount : (reduceTags t.source).count '}' = t.reduced.count '}') :
    others (reduceTags t.source) = others t.reduced ∧
      closingsInFront (visible (reduceTags t.source)) ≤ closingsInFront (visible t.reduced) ∧
      (closingsInFront (visible (reduceTags t.source)) = closingsInFront (visible t.reduced) →
        ∀ i ∈ t.contents, i.ClosesLast) := by
  induction t, ht using text_induction with
  | nil => exact ⟨rfl, Nat.le_refl _, fun _ => List.forall_mem_nil _⟩
  | char c rest h ih =>
    rw [source, reduced, reduceTags_cons h.1, List.count_cons, List.count_cons] at hcount
    obtain ⟨hothers, hle, heq⟩ := ih (Nat.add_right_cancel hcount)
    rw [source, reduced, reduceTags_cons h.1, contents, closingsInFront_visible_cons,
      closingsInFront_visible_cons, others_cons, others_cons c rest.reduced, hothers]
    exact ⟨rfl, by omega, fun h => heq (by omega)⟩
  | braces inside rest h ih =>
    rw [reduced_append, contents_append, reduced, contents] at ih
    rw [reduceTags_source_braces h.1, reduced, List.count_cons, List.count_cons] at hcount
    obtain ⟨hothers, hle, heq⟩ := ih (Nat.add_right_cancel hcount)
    rw [reduceTags_source_braces h.1, reduced, contents, closingsInFront_visible_cons,
      closingsInFront_visible_cons, others_opening, others_opening, hothers]
    exact ⟨rfl, by omega, fun h => heq (by omega)⟩
  | tag name content rest h ih =>
    have hnone : content.beforeBrace.count '}' = 0 :=
      List.count_eq_zero.mpr h.2.1.notMem_beforeBrace
    have hbrace := h.2.1.count_brace rest '}' (by simp)
    have hbehind := count_brace_le _ (h.2.1.isText_behindBrace h.2.2) '}' (by simp)
    rw [reduceTags_source_tag h.1 h.2.1, reduced, List.count_append, List.count_append,
      count_trim rfl, count_trim rfl] at hcount
    have hno : content.tagsBeforeBrace = 0 := by omega
    obtain ⟨hothers, hle, heq⟩ := ih (by omega)
    have hbefore := h.2.1.notMem_visible_beforeBrace
    have hfront := closingsInFront_reduced_tag h.2.1 hno name rest
    have hmore := others_beforeBrace_le hno
    rw [reduceTags_source_tag h.1 h.2.1, visible_append, visible_trim,
      closingsInFront_append hbefore, others_append, others_trim, others_reduced_tag hno, hothers]
    refine ⟨rfl, by omega, ?_⟩
    intro h'
    rw [contents, List.forall_mem_cons, h.2.1.closesLast_iff]
    exact ⟨hno, by omega, heq (by omega)⟩

/-- Contents that close last are shown as they are, apart from white space. -/
lemma visible_reduceTags (t : Marked) (ht : t.IsText) (hlast : ∀ i ∈ t.contents, i.ClosesLast) :
    visible (reduceTags t.source) = visible t.reduced := by
  induction t, ht using text_induction with
  | nil => rfl
  | char c rest h ih =>
    have hcons (cs : List Char) : visible (c :: cs) = visible [c] ++ visible cs :=
      visible_append [c] cs
    rw [source, reduced, reduceTags_cons h.1, hcons, hcons rest.reduced, ih hlast]
  | braces inside rest h ih =>
    rw [contents] at hlast
    rw [contents_append, contents, reduced_append, reduced] at ih
    rw [reduceTags_source_braces h.1, reduced, visible_cons_of_notBlank rfl,
      visible_cons_of_notBlank rfl, ih hlast]
  | tag name content rest h ih =>
    rw [contents, List.forall_mem_cons, h.2.1.closesLast_iff] at hlast
    obtain ⟨hno, hothers, hbehind⟩ := hlast
    rw [reduceTags_source_tag h.1 h.2.1, visible_append, visible_trim, ih hbehind,
      visible_reduced_tag hno name rest hothers]

end Marked

/-- Tags whose contents have no braces are reduced to their contents. In any case no brace of a
content is lost. Apart from white space the result is the reduced text if and only if the contents of
all tags close last: they open no tag, and behind the first closing brace they show nothing but
further ones. -/
theorem clean_reduces_tags (t : Marked) (ht : t.IsText) :
    ((∀ i ∈ t.contents, '{' ∉ i.source) → clean t.source = flatten t.reduced) ∧
      (∀ c ∈ ['{', '}'], t.reduced.count c ≤ (clean t.source).count c) ∧
      (visible (clean t.source) = visible t.reduced ↔ ∀ i ∈ t.contents, i.ClosesLast) := by
  refine ⟨?_, ?_, ?_⟩
  · intro hno
    rw [clean, t.reduceTags_source ht hno]
  · intro c hc
    have hblank := isBlank_of_mem_braces c hc
    have hcount : (clean t.source).count c = (reduceTags t.source).count c := by
      rw [clean, ← count_visible hblank (flatten _), visible_flatten, count_visible hblank]
    rw [hcount]
    exact t.count_brace_le ht c hc
  · rw [clean, visible_flatten]
    constructor
    · intro heq
      have hcount : (reduceTags t.source).count '}' = t.reduced.count '}' := by
        rw [← count_visible rfl, heq, count_visible rfl]
      exact (t.closingsInFront_le ht hcount).2.2 (by rw [heq])
    · exact t.visible_reduceTags ht

/-- A tag behind a brace that belongs to no tag, `a{{@code b  c }d`. -/
theorem clean_reduces_tags_behind_brace :
    let content : Marked := " b  c ".toList.foldr .char .nil
    let t : Marked := .char 'a' (.char '{' (.tag "code".toList content (.char 'd' .nil)))
    t.IsText ∧ t.source = "a\x7b\x7b@code b  c \x7dd".toList ∧ clean t.source = "a\x7bb cd".toList := by
  intro content t
  have ht : t.IsText := by decide +kernel
  obtain ⟨hclean, -, -⟩ := clean_reduces_tags t ht
  refine ⟨ht, by decide +kernel, ?_⟩
  rw [hclean (by decide +kernel)]
  decide +kernel

/-- Text behind a pair of braces, `{@code {a} b}`, and a tag in a tag, `{@link {@code a}}`: the first
closing brace is gone instead of the last one, and the tag inside is still there. -/
theorem first_brace_ends_tag :
    let block : Marked := .braces (.char 'a' .nil) (.char ' ' (.char 'b' .nil))
    let t : Marked := .tag "code".toList (.char ' ' block) .nil
    let inner : Marked := .tag "code".toList (.char ' ' (.char 'a' .nil)) .nil
    let u : Marked := .tag "link".toList (.char ' ' inner) .nil
    (t.IsText ∧ t.source = "\x7b@code \x7ba\x7d b\x7d".toList ∧ flatten t.reduced = "\x7ba\x7d b".toList ∧
        clean t.source = "\x7ba b\x7d".toList) ∧
      (u.IsText ∧ u.source = "\x7b@link \x7b@code a\x7d\x7d".toList ∧ flatten u.reduced = "a".toList ∧
        clean u.source = "\x7b@code a\x7d".toList) ∧
      (ofText "/** \x7b@code \x7ba\x7d b\x7d */").summary = some "\x7ba b\x7d" ∧
      (ofText "/** \x7b@link \x7b@code a\x7d\x7d */").summary = some "\x7b@code a\x7d" := by
  decide +kernel

end ServiceDocs.DocComment
