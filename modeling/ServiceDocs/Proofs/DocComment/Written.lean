import ServiceDocs.Proofs.DocComment.Layout
import ServiceDocs.Proofs.DocComment.Lines
import ServiceDocs.Proofs.Text.Replacement

/-!
# Written comments

Reading a written comment gives the words of the summary, of each parameter and of the result back,
whatever its layout is, wherever there are blank lines, and whatever other tags stand in between.
-/

namespace ServiceDocs.DocComment

open Text

/-! ### Plain comments -/

/-- No block tag begins on the line. -/
def NoTagLine (ws : List (List Char)) : Prop :=
  (ws.headD []).head? ≠ some '@'

/-- No inline tag is opened in the words. -/
def NoInlineTag (ws : List (List Char)) : Prop :=
  ∀ w ∈ ws, ¬ ['{', '@'] <:+: w

instance : DecidablePred NoTagLine := fun ws =>
  inferInstanceAs (Decidable ((ws.headD []).head? ≠ some '@'))

instance : DecidablePred NoInlineTag := fun ws =>
  inferInstanceAs (Decidable (∀ w ∈ ws, ¬ ['{', '@'] <:+: w))

/-- The words that a tag may have behind its head: a description has words and no inline tags. -/
inductive TagKind.Allows : TagKind → List (List Char) → Prop where
  | parameter {name : List Char} {ws : List (List Char)} (hne : ws ≠ [])
      (hinline : NoInlineTag ws) : Allows (.parameter name) ws
  | result {long : Bool} {ws : List (List Char)} (hne : ws ≠ [])
      (hinline : NoInlineTag ws) : Allows (.result long) ws
  /-- Any other tag has a name of its own. -/
  | other {name : List Char} {ws : List (List Char)} (hparam : name ≠ ['p', 'a', 'r', 'a', 'm'])
      (hreturn : name ≠ ['r', 'e', 't', 'u', 'r', 'n'])
      (hreturns : name ≠ ['r', 'e', 't', 'u', 'r', 'n', 's']) : Allows (.other name) ws

/-- The tag says what it may say, and no other tag begins on one of its lines. -/
structure TagText.IsPlain (t : TagText) : Prop where
  allowed : t.kind.Allows t.words
  noTagLine : ∀ ws ∈ t.more, NoTagLine ws

/-- There is no markup in the summary, and a blank line ends it. -/
structure CommentText.IsPlain (c : CommentText) : Prop where
  summary_ne_nil : c.summary ≠ []
  line_ne_nil : ∀ ws ∈ c.summary, ws ≠ []
  noTagLine : ∀ ws ∈ c.summary ++ c.details, NoTagLine ws
  noInlineTag : NoInlineTag c.summary.flatten
  noMark : ∀ w ∈ c.summary.flatten, ¬ ['<', 'p', '>'] <:+: w ∧ ¬ ['<', '/', 'p', '>'] <:+: w
  blank : ∀ ws ∈ c.details.head?, ws = []
  tags : ∀ t ∈ c.tags, t.IsPlain

instance : DecidableRel TagKind.Allows
  | .parameter _, ws => decidable_of_iff (ws ≠ [] ∧ NoInlineTag ws)
    ⟨fun h => .parameter h.1 h.2, fun | .parameter hne hinline => ⟨hne, hinline⟩⟩
  | .result _, ws => decidable_of_iff (ws ≠ [] ∧ NoInlineTag ws)
    ⟨fun h => .result h.1 h.2, fun | .result hne hinline => ⟨hne, hinline⟩⟩
  | .other name, _ => decidable_of_iff (name ≠ ['p', 'a', 'r', 'a', 'm'] ∧
      name ≠ ['r', 'e', 't', 'u', 'r', 'n'] ∧ name ≠ ['r', 'e', 't', 'u', 'r', 'n', 's'])
    ⟨fun h => .other h.1 h.2.1 h.2.2, fun | .other hp hr hrs => ⟨hp, hr, hrs⟩⟩

instance : DecidablePred TagText.IsPlain := fun t =>
  decidable_of_iff (t.kind.Allows t.words ∧ ∀ ws ∈ t.more, NoTagLine ws)
    ⟨fun h => ⟨h.1, h.2⟩, fun h => ⟨h.allowed, h.noTagLine⟩⟩

instance : DecidablePred CommentText.IsPlain := fun c =>
  decidable_of_iff (c.summary ≠ [] ∧ (∀ ws ∈ c.summary, ws ≠ []) ∧
      (∀ ws ∈ c.summary ++ c.details, NoTagLine ws) ∧ NoInlineTag c.summary.flatten ∧
      (∀ w ∈ c.summary.flatten, ¬ ['<', 'p', '>'] <:+: w ∧ ¬ ['<', '/', 'p', '>'] <:+: w) ∧
      (∀ ws ∈ c.details.head?, ws = []) ∧ ∀ t ∈ c.tags, t.IsPlain)
    ⟨fun ⟨hsummary, hline, htagLine, hinline, hmark, hblank, htags⟩ =>
      ⟨hsummary, hline, htagLine, hinline, hmark, hblank, htags⟩,
      fun h => ⟨h.summary_ne_nil, h.line_ne_nil, h.noTagLine, h.noInlineTag, h.noMark, h.blank,
        h.tags⟩⟩

/-! ### Descriptions -/

lemma reduceTags_eq_self {cs : List Char} (h : ¬ ['{', '@'] <:+: cs) : reduceTags cs = cs := by
  rw [reduceTags]
  induction cs with
  | nil => rfl
  | cons c cs ih =>
    rw [List.infix_cons_iff, not_or] at h
    rw [reduceFrom, ih h.2]
    rintro rest rfl rfl
    exact h.1 (List.prefix_append ['{', '@'] rest)

lemma clean_of_noInlineTag {cs : List Char} (h : NoInlineTag (Text.words cs)) :
    clean cs = join [' '] (Text.words cs) := by
  have hinfix : ¬ ['{', '@'] <:+: cs :=
    not_infix_of_words (List.cons_ne_nil _ _) (by simp [isBlank]) h
  rw [clean, reduceTags_eq_self hinfix, flatten]

/-! ### Summary -/

namespace Reads

variable {l : List Char} {ws : List (List Char)}

lemma eq_nil_iff (h : Reads l ws) : l = [] ↔ ws = [] := by
  rw [← h.starts.eq_nil_iff, h.words]

lemma isTagLine_iff (h : Reads l ws) : isTagLine l = true ↔ ¬ NoTagLine ws := by
  rw [isTagLine, h.starts.head?_eq, h.words, NoTagLine, decide_eq_true_iff, not_not]

lemma isTagLine_eq_false (h : Reads l ws) (hws : NoTagLine ws) : isTagLine l = false := by
  simpa [hws] using h.isTagLine_iff

lemma isBlankLine_iff (h : Reads l ws) : isBlankLine l = true ↔ ws = [] := by
  rw [isBlankLine, List.isEmpty_iff, ← (startsAtWord_trim l).eq_nil_iff, words_trim, h.words]

end Reads

lemma words_of_reads {ls : List (List Char)} {wss : List (List (List Char))}
    (h : List.Forall₂ Reads ls wss) : ls.flatMap Text.words = wss.flatten := by
  induction h with
  | nil => rfl
  | cons hreads _ ih => rw [List.flatMap_cons, hreads.words, ih, List.flatten_cons]

lemma forall_of_reads {p : List Char → Prop} {q : List (List Char) → Prop} {ls : List (List Char)}
    {wss : List (List (List Char))} (h : List.Forall₂ Reads ls wss)
    (hq : ∀ ws ∈ wss, q ws) (hpq : ∀ {l ws}, Reads l ws → q ws → p l) : ∀ l ∈ ls, p l := by
  induction h with
  | nil => exact List.forall_mem_nil _
  | cons hreads _ ih =>
    rw [List.forall_mem_cons] at hq ⊢
    exact ⟨hpq hreads hq.1, ih hq.2⟩

lemma paragraph_append {ls rest : List (List Char)} (hne : ls ≠ [])
    (hfull : ∀ l ∈ ls, isBlankLine l = false) (hrest : ∀ l ∈ rest.head?, isBlankLine l = true) :
    (([] :: (ls ++ rest)).dropWhile isBlankLine).takeWhile (fun l => !isBlankLine l) = ls := by
  have hstart : ([] :: (ls ++ rest)).dropWhile isBlankLine = ls ++ rest := by
    obtain ⟨l, ls, rfl⟩ := List.exists_cons_of_ne_nil hne
    rw [List.dropWhile_cons_of_pos rfl, List.cons_append, List.dropWhile_cons_of_neg]
    simp [hfull]
  have hend : rest.takeWhile (fun l => !isBlankLine l) = [] := by
    cases rest with
    | nil => rfl
    | cons r rest => exact List.takeWhile_cons_of_neg (by simp [hrest r rfl])
  rw [hstart, List.takeWhile_append_of_pos (by simpa using hfull), hend, List.append_nil]

/-- The first paragraph ends at the first line without words. -/
lemma summaryOf_paragraph {ls rest : List (List Char)} {wss : List (List (List Char))}
    (hreads : List.Forall₂ Reads ls wss) (hne : wss ≠ []) (hline : ∀ ws ∈ wss, ws ≠ [])
    (hinline : NoInlineTag wss.flatten)
    (hmark : ∀ w ∈ wss.flatten, ¬ ['<', 'p', '>'] <:+: w ∧ ¬ ['<', '/', 'p', '>'] <:+: w)
    (hrest : ∀ l ∈ rest.head?, l = []) :
    summaryOf ([] :: ls ++ rest) = some (line wss.flatten) := by
  have hwords := words_of_reads hreads
  have herase : ∀ l ∈ ls, erase ['<', '/', 'p', '>'] (erase ['<', 'p', '>'] l) = l := by
    intro l hl
    have hmem : ∀ w ∈ Text.words l, w ∈ wss.flatten := fun w hw =>
      hwords ▸ List.mem_flatMap.mpr ⟨l, hl, hw⟩
    have hopen : ¬ ['<', 'p', '>'] <:+: l :=
      not_infix_of_words (List.cons_ne_nil _ _) (by simp [isBlank])
        fun w hw => (hmark w (hmem w hw)).1
    have hclose : ¬ ['<', '/', 'p', '>'] <:+: l :=
      not_infix_of_words (List.cons_ne_nil _ _) (by simp [isBlank])
        fun w hw => (hmark w (hmem w hw)).2
    rw [erase_eq_self hopen, erase_eq_self hclose]
  have hfull : ∀ l ∈ ls, isBlankLine l = false := by
    refine forall_of_reads hreads hline fun hl hws => ?_
    simpa [hws] using hl.isBlankLine_iff
  have hblank : ∀ l ∈ (rest.map fun l =>
      erase ['<', '/', 'p', '>'] (erase ['<', 'p', '>'] l)).head?, isBlankLine l = true := by
    intro l hl
    rw [List.head?_map, Option.mem_def, Option.map_eq_some_iff] at hl
    obtain ⟨r, hr, rfl⟩ := hl
    rw [hrest r hr]
    rfl
  have hclean : clean (join [' '] ls) = join [' '] wss.flatten := by
    rw [← hwords, ← words_join]
    apply clean_of_noInlineTag
    rwa [words_join, hwords]
  have hls : ls ≠ [] := by
    rintro rfl
    exact hne (List.forall₂_nil_left_iff.mp hreads)
  obtain ⟨c, cs, hcons⟩ : ∃ c cs, join [' '] wss.flatten = c :: cs := by
    apply List.exists_cons_of_ne_nil
    intro hnil
    have hflatten : wss.flatten = [] := by
      rw [← hwords, ← words_join, ← words_flatten, flatten, words_join ls, hwords, hnil]
      rfl
    obtain ⟨ws, wss, rfl⟩ := List.exists_cons_of_ne_nil hne
    rw [List.flatten_cons, List.append_eq_nil_iff] at hflatten
    exact hline ws List.mem_cons_self hflatten.1
  have hmap : ([] :: ls ++ rest).map (fun l =>
      erase ['<', '/', 'p', '>'] (erase ['<', 'p', '>'] l)) = [] :: (ls ++ rest.map fun l =>
        erase ['<', '/', 'p', '>'] (erase ['<', 'p', '>'] l)) := by
    rw [List.cons_append, List.map_cons, List.map_append, List.map_congr_left herase, List.map_id']
    rfl
  rw [summaryOf, hmap, paragraph_append hls hfull hblank, hclean, hcons, line, hcons]

/-! ### Block tags -/

/-- The tag is of that kind, and its text consists of the subject and the words. -/
structure Records (b : BlockTag) (k : TagKind) (ws : List (List Char)) : Prop where
  name : b.name = k.name
  words : Text.words b.text = k.subject ++ ws
  starts : StartsAtWord b.text

lemma Reads.records {l : List Char} {k : TagKind} {ws : List (List Char)}
    (h : Reads l (k.head ++ ws)) : Records (.ofLine l) k ws := by
  obtain ⟨hname, hwords⟩ := h.starts.splitTag_tail h.words
  exact ⟨hname, hwords, startsAtWord_trim _⟩

lemma Records.append {b : BlockTag} {k : TagKind} {ws vs : List (List Char)} (h : Records b k ws)
    {l : List Char} (hl : Reads l vs) : Records (b.append l) k (ws ++ vs) := by
  rw [BlockTag.append]
  split_ifs with hempty htext
  · -- A blank line inside a tag.
    rw [List.isEmpty_iff, hl.eq_nil_iff] at hempty
    rwa [hempty, List.append_nil]
  · -- Nothing stands on the line of the tag.
    rw [List.isEmpty_iff, ← h.starts.eq_nil_iff, h.words, List.append_eq_nil_iff] at htext
    refine ⟨h.name, ?_, hl.starts⟩
    rw [htext.1, htext.2]
    exact hl.words
  · refine ⟨h.name, ?_, ?_⟩
    · rw [words_append_cons rfl, h.words, hl.words, List.append_assoc]
    · obtain ⟨c, cs, hcons⟩ := List.exists_cons_of_ne_nil (by simpa using htext)
      have hstart := h.starts
      rw [hcons] at hstart ⊢
      exact hstart

/-- Lines that open no tag continue the last one. -/
lemma foldl_addLine_more {b : BlockTag} {k : TagKind} {ws : List (List Char)} (h : Records b k ws)
    {ls : List (List Char)} {wss : List (List (List Char))} (hreads : List.Forall₂ Reads ls wss)
    (hplain : ∀ vs ∈ wss, NoTagLine vs) (before : List BlockTag) :
    ∃ b', ls.foldl addLine (b :: before) = b' :: before ∧ Records b' k (ws ++ wss.flatten) := by
  induction hreads generalizing b ws with
  | nil => exact ⟨b, rfl, by rwa [List.flatten_nil, List.append_nil]⟩
  | @cons l vs ls wss hl _ ih =>
    rw [List.forall_mem_cons] at hplain
    obtain ⟨b', hfold, hb'⟩ := ih (h.append hl) hplain.2
    refine ⟨b', ?_, ?_⟩
    · rw [← hfold, List.foldl_cons, addLine, hl.isTagLine_eq_false hplain.1]
      rfl
    · rwa [List.flatten_cons, ← List.append_assoc]

lemma forall₂_append_right {ls : List (List Char)} {xs ys : List (List (List Char))}
    (h : List.Forall₂ Reads ls (xs ++ ys)) :
    ∃ front back, ls = front ++ back ∧ List.Forall₂ Reads front xs ∧ List.Forall₂ Reads back ys :=
  ⟨_, _, (List.take_append_drop xs.length ls).symm, List.forall₂_take_append ls xs ys h,
    List.forall₂_drop_append ls xs ys h⟩

/-- The lines of some tags give these tags, in order. -/
lemma foldl_addLine_tags {ls : List (List Char)} {tags : List TagText}
    (hreads : List.Forall₂ Reads ls (tags.flatMap TagText.lines)) (hplain : ∀ t ∈ tags, t.IsPlain)
    (before : List BlockTag) :
    ∃ bs, ls.foldl addLine before = bs.reverse ++ before ∧
      List.Forall₂ (fun b t => Records b t.kind t.words) bs tags := by
  induction tags generalizing ls before with
  | nil =>
    cases hreads with
    | nil => exact ⟨[], rfl, .nil⟩
  | cons t tags ih =>
    rw [List.forall_mem_cons] at hplain
    obtain ⟨front, back, rfl, hfront, hback⟩ := forall₂_append_right hreads
    cases hfront with
    | @cons l _ ls _ hl hmore =>
      have htag : isTagLine l = true :=
        hl.isTagLine_iff.mpr (not_not.mpr rfl)
      have hopen : addLine before l = .ofLine l :: before := by
        unfold addLine
        exact if_pos htag
      obtain ⟨b, hfold, hb⟩ := foldl_addLine_more hl.records hmore hplain.1.noTagLine before
      obtain ⟨bs, hfolds, hbs⟩ := ih hback hplain.2 (b :: before)
      refine ⟨b :: bs, ?_, .cons hb hbs⟩
      rw [List.foldl_append, List.foldl_cons, hopen, hfold, hfolds, List.reverse_cons,
        List.append_assoc, List.singleton_append]

/-- A tag says what stands behind its head. -/
lemma apply_of_records {b : BlockTag} {k : TagKind} {ws : List (List Char)} (h : Records b k ws)
    (hallowed : k.Allows ws) (doc : DocComment) :
    apply doc b = { doc with
      parameters := doc.parameters ++ (k.parameter? ws).toList
      returns := (k.result? ws).or doc.returns } := by
  cases hallowed with
  | @parameter name _ hne hinline =>
    obtain ⟨hname, htext⟩ := h.starts.splitTag h.words
    have hword : name ≠ [] := by
      have hmem : name ∈ Text.words b.text := h.words ▸ List.mem_cons_self
      exact (not_blank_of_mem_words hmem).1
    have htext_ne : (splitTag b.text).2 ≠ [] := by
      intro hnil
      rw [hnil, words_nil] at htext
      exact hne htext.symm
    have hclean : String.ofList (clean (splitTag b.text).2) = line ws := by
      rw [clean_of_noInlineTag (htext.symm ▸ hinline), htext]
      rfl
    simp [apply, h.name, TagKind.name, hname, hword, htext_ne, hclean, TagKind.parameter?,
      TagKind.result?]
  | @result long _ hne hinline =>
    have htext : b.text ≠ [] := by
      rw [Ne, ← h.starts.eq_nil_iff, h.words]
      exact hne
    have hclean : String.ofList (clean b.text) = line ws := by
      rw [clean_of_noInlineTag (h.words.symm ▸ hinline), h.words]
      rfl
    cases long <;>
      simp [apply, h.name, TagKind.name, htext, hclean, TagKind.parameter?, TagKind.result?]
  | @other name _ hparam hreturn hreturns =>
    simp [apply, h.name, TagKind.name, hparam, hreturn, hreturns, TagKind.parameter?,
      TagKind.result?]

/-- Parameters are collected in order, and the last result stays. -/
lemma foldl_apply {bs : List BlockTag} {tags : List TagText}
    (h : List.Forall₂ (fun b t => Records b t.kind t.words) bs tags)
    (hplain : ∀ t ∈ tags, t.IsPlain) (doc : DocComment) :
    bs.foldl apply doc = { doc with
      parameters := doc.parameters ++ tags.filterMap TagText.parameter?
      returns := (tags.filterMap TagText.result?).getLast?.or doc.returns } := by
  induction h generalizing doc with
  | nil => simp
  | @cons b t bs tags hb _ ih =>
    rw [List.forall_mem_cons] at hplain
    rw [List.foldl_cons, ih hplain.2, apply_of_records hb hplain.1.allowed]
    congr 1
    · rw [← TagText.parameter?]
      cases hparameter : t.parameter? <;> simp [hparameter]
    · rw [← TagText.result?]
      cases hresult : t.result? with
      | none => simp [hresult]
      | some text =>
        rw [List.filterMap_cons_some hresult, List.getLast?_cons]
        cases (tags.filterMap TagText.result?).getLast? <;> rfl

/-! ### Reading comments -/

lemma foldl_addLine_leading {ls : List (List Char)} (h : ∀ l ∈ ls, isTagLine l = false) :
    ls.foldl addLine [] = [] := by
  induction ls with
  | nil => rfl
  | cons l ls ih =>
    rw [List.forall_mem_cons] at h
    rw [List.foldl_cons, addLine, h.1]
    exact ih h.2

/-- What stands behind the summary begins with a blank line. -/
lemma head?_details {ds ts : List (List Char)} {details : List (List (List Char))}
    {tags : List TagText} (hds : List.Forall₂ Reads ds details)
    (hblank : ∀ ws ∈ details.head?, ws = [])
    (hts : List.Forall₂ Reads ts (tags.flatMap TagText.lines)) :
    ∀ l ∈ (ds ++ (ts ++ [[]]).takeWhile fun l => !isTagLine l).head?, l = [] := by
  cases hds with
  | @cons d _ _ _ hd _ =>
    intro l hl
    obtain rfl : d = l := Option.some.inj hl
    exact hd.eq_nil_iff.mpr (hblank _ rfl)
  | nil =>
    cases tags with
    | nil =>
      obtain rfl := List.forall₂_nil_right_iff.mp hts
      simp [isTagLine]
    | cons t tags =>
      cases hts with
      | @cons l _ ls _ hl _ =>
        have htag : isTagLine l = true := hl.isTagLine_iff.mpr (not_not.mpr rfl)
        simp [htag]

/-- Reading a written comment gives its words back, whatever the layout is. -/
theorem ofText_comment {c : CommentText} (hc : c.IsPlain) {ls : List (List Char)}
    (hls : List.Forall₂ Shows ls c.lines) {indent : List Char} (hindent : Shows indent []) :
    ofText (comment ls indent) = c.meaning := by
  have hreads := reads_comment hls hindent
  rw [ofText_eq, ofBody]
  generalize (Text.lines (body (comment ls indent).toList)).map stripMargin = content at hreads
  obtain ⟨_, _, rfl, hbody, hfinal⟩ := forall₂_append_right hreads
  obtain ⟨_, _, hopening, hlines, rfl⟩ := List.forall₂_cons_right_iff.mp hbody
  obtain ⟨_, _, hclosing, hnothing, rfl⟩ := List.forall₂_cons_right_iff.mp hfinal
  obtain rfl := List.forall₂_nil_right_iff.mp hnothing
  obtain rfl := hopening.eq_nil_iff.mpr rfl
  obtain rfl := hclosing.eq_nil_iff.mpr rfl
  -- No tag begins in the summary and the details, so the lines are cut where the tags begin.
  obtain ⟨leading, tagLines, rfl, hleading, htagLines⟩ := forall₂_append_right hlines
  have hplain : ∀ l ∈ leading, isTagLine l = false :=
    forall_of_reads hleading hc.noTagLine Reads.isTagLine_eq_false
  obtain ⟨bs, hfold, hbs⟩ := foldl_addLine_tags htagLines hc.tags []
  have hblockTags : blockTags ([] :: (leading ++ tagLines) ++ [[]]) = bs := by
    have hlast : ∀ tags, [[]].foldl addLine tags = tags := addLine_nil
    rw [blockTags, List.foldl_append, hlast, List.foldl_cons, addLine_nil, List.foldl_append,
      foldl_addLine_leading hplain, hfold, List.append_nil, List.reverse_reverse]
  obtain ⟨summaryLines, detailLines, rfl, hsummary, hdetails⟩ := forall₂_append_right hleading
  have hleadingLines : leadingLines ([] :: (summaryLines ++ detailLines ++ tagLines) ++ [[]]) =
      [] :: summaryLines ++
        (detailLines ++ (tagLines ++ [[]]).takeWhile fun l => !isTagLine l) := by
    rw [leadingLines, List.cons_append, List.takeWhile_cons_of_pos rfl, List.append_assoc,
      List.takeWhile_append_of_pos (by simpa using hplain), List.append_assoc]
    rfl
  rw [ofContent, hblockTags, hleadingLines, foldl_apply hbs hc.tags,
    summaryOf_paragraph hsummary hc.summary_ne_nil hc.line_ne_nil hc.noInlineTag hc.noMark
      (head?_details hdetails hc.blank htagLines), CommentText.meaning, List.nil_append,
    Option.or_none]

/-- The comment on a method that finds a user. -/
def findUser : CommentText where
  summary := [words "Finds the user".toList, words "by id.".toList]
  details := [[], words "<p>Kept for a minute.".toList]
  tags := [
    ⟨.parameter "id".toList, words "the id".toList, [[], words "of the user".toList]⟩,
    ⟨.other "since".toList, words "1.0".toList, [words "see \x7b@link User\x7d".toList]⟩,
    ⟨.result false, words "nothing".toList, []⟩,
    ⟨.parameter "deep".toList, [], [words "with its groups".toList]⟩,
    ⟨.result true, words "the user, or".toList, [words "null".toList]⟩]

lemma findUser_isPlain : findUser.IsPlain := by
  decide

/-- A way to write it. -/
def findUserLines : List (List Char) :=
  [" * Finds  the user".toList, "   *by id. ".toList, " *".toList,
    " * <p>Kept for a minute.".toList, " * @param id the id".toList, "".toList,
    " *     of the user".toList, " * @since 1.0".toList, " *   see \x7b@link User\x7d".toList,
    "\t* @return nothing".toList, " * @param deep".toList, " *   with its groups".toList,
    " * @returns  the user, or".toList, " * null".toList]

lemma findUser_shows : List.Forall₂ Shows findUserLines findUser.lines := by
  decide

theorem ofText_comment_findUser :
    findUser.IsPlain ∧ List.Forall₂ Shows findUserLines findUser.lines ∧ Shows [' '] [] ∧
      ofText (comment findUserLines [' ']) = {
        summary := some "Finds the user by id."
        parameters := [("id", "the id of the user"), ("deep", "with its groups")]
        returns := some "the user, or null" } := by
  have hindent : Shows [' '] [] := by decide
  refine ⟨findUser_isPlain, findUser_shows, hindent, ?_⟩
  rw [ofText_comment findUser_isPlain findUser_shows hindent]
  decide

end ServiceDocs.DocComment
