import Mathlib.Data.List.Forall2
import ServiceDocs.DocComment
import ServiceDocs.Proofs.Text.Words

/-!
# Layout of comments

A documentation comment is written as a summary, further paragraphs and block tags, one line below
the other, each behind an asterisk. The words of each line are read back, whatever the indentation
and the spaces between the words are.
-/

namespace ServiceDocs.DocComment

open Text

/-! ### Texts of comments -/

/-- Some words on one line. -/
def line (ws : List (List Char)) : String :=
  String.ofList (join [' '] ws)

/-- What a block tag is about. -/
inductive TagKind where
  | parameter (name : List Char)
  /-- There are two spellings of the tag for the result. -/
  | result (long : Bool)
  /-- Any other tag. -/
  | other (name : List Char)

namespace TagKind

/-- The name of the tag. -/
def name : TagKind → List Char
  | .parameter _  => ['p', 'a', 'r', 'a', 'm']
  | .result false => ['r', 'e', 't', 'u', 'r', 'n']
  | .result true  => ['r', 'e', 't', 'u', 'r', 'n', 's']
  | .other name   => name

/-- What the tag is about: the parameter, if it describes one. -/
def subject : TagKind → List (List Char)
  | .parameter name => [name]
  | _               => []

/-- The words in front of what the tag says. -/
def head (k : TagKind) : List (List Char) :=
  ('@' :: k.name) :: k.subject

/-- The parameter that a tag with these words describes. -/
def parameter? (k : TagKind) (ws : List (List Char)) : Option (String × String) :=
  match k with
  | .parameter name => some (String.ofList name, line ws)
  | _               => none

/-- What a tag with these words says about the result. -/
def result? (k : TagKind) (ws : List (List Char)) : Option String :=
  match k with
  | .result _ => some (line ws)
  | _         => none

end TagKind

/-- A block tag: the words on the line of the tag, and the words on each line below. -/
structure TagText where
  kind : TagKind
  first : List (List Char)
  more : List (List (List Char)) := []

namespace TagText

/-- The words on each line of the tag. -/
def lines (t : TagText) : List (List (List Char)) :=
  (t.kind.head ++ t.first) :: t.more

/-- All words that the tag says. -/
def words (t : TagText) : List (List Char) :=
  t.first ++ t.more.flatten

/-- The parameter that the tag describes. -/
def parameter? (t : TagText) : Option (String × String) :=
  t.kind.parameter? t.words

/-- What the tag says about the result. -/
def result? (t : TagText) : Option String :=
  t.kind.result? t.words

end TagText

/-- The words of a comment, line by line. A line without words is a blank line. -/
structure CommentText where
  summary : List (List (List Char))
  /-- What stands between the summary and the tags, from the blank line behind the summary. -/
  details : List (List (List Char)) := []
  tags : List TagText := []

namespace CommentText

/-- The words on each line of the comment. -/
def lines (c : CommentText) : List (List (List Char)) :=
  c.summary ++ c.details ++ c.tags.flatMap TagText.lines

/-- What the comment says: the summary, all parameters in order, and the last result. -/
def meaning (c : CommentText) : DocComment where
  summary := some (line c.summary.flatten)
  parameters := c.tags.filterMap TagText.parameter?
  returns := (c.tags.filterMap TagText.result?).getLast?

end CommentText

/-! ### Layout of comments -/

/-- The line shows these words: they stand behind an asterisk, with any white space in front of the
asterisk, behind it and between the words. A line without words may lack the asterisk. -/
inductive Shows : List Char → List (List Char) → Prop where
  | words {indent content : List Char} (hindent : ∀ c ∈ indent, isBlank c = true)
      (hline : '\n' ∉ indent ++ content) :
      Shows (indent ++ '*' :: content) (Text.words content)
  | blank {indent : List Char} (hindent : ∀ c ∈ indent, isBlank c = true)
      (hline : '\n' ∉ indent) : Shows indent []

lemma trimLeft_blanks_append {bs : List Char} (h : ∀ c ∈ bs, isBlank c = true) (cs : List Char) :
    trimLeft (bs ++ cs) = trimLeft cs :=
  List.dropWhile_append_of_pos h

lemma shows_iff {l : List Char} {ws : List (List Char)} :
    Shows l ws ↔ '\n' ∉ l ∧ (trimLeft l = [] ∧ ws = [] ∨
      (trimLeft l).head? = some '*' ∧ words ((trimLeft l).drop 1) = ws) := by
  constructor
  · intro h
    cases h with
    | @words indent content hindent hline =>
      have htrim : trimLeft (indent ++ '*' :: content) = '*' :: content :=
        trimLeft_blanks_append hindent _
      rw [htrim]
      exact ⟨by simpa using hline, .inr ⟨rfl, rfl⟩⟩
    | blank hindent hline => exact ⟨hline, .inl ⟨List.dropWhile_eq_nil_iff.mpr hindent, rfl⟩⟩
  · rintro ⟨hline, ⟨htrim, rfl⟩ | ⟨hstar, rfl⟩⟩
    · exact .blank (List.dropWhile_eq_nil_iff.mp htrim) hline
    · obtain ⟨bs, hbs, hl⟩ := trimLeft_spec l
      obtain ⟨content, hcontent⟩ := List.head?_eq_some_iff.mp hstar
      rw [hcontent] at hl ⊢
      subst hl
      exact .words hbs (by simpa using hline)

instance : DecidableRel Shows := fun _ _ =>
  decidable_of_iff' _ shows_iff

/-- A comment of the given lines. The line of its closing delimiter is indented, too. -/
def comment (ls : List (List Char)) (indent : List Char) : String :=
  String.ofList (opening ++ '\n' :: ls.flatMap (· ++ ['\n']) ++ indent ++ closing)

/-! ### Reading lines -/

/-- The words of a line without its margin. -/
structure Reads (l : List Char) (ws : List (List Char)) : Prop where
  words : Text.words l = ws
  starts : StartsAtWord l

lemma trimRight_cons_of_notBlank {c : Char} (hc : isBlank c = false) (cs : List Char) :
    trimRight (c :: cs) = c :: trimRight cs := by
  rw [trimRight, trimRight, List.reverse_cons, List.dropWhile_append]
  split_ifs with h
  · rw [List.isEmpty_iff] at h
    simp [hc, h]
  · simp

lemma Shows.reads {l : List Char} {ws : List (List Char)} (h : Shows l ws) :
    Reads (stripMargin l) ws := by
  cases h with
  | @words indent content hindent _ =>
    have htrim : trim (indent ++ '*' :: content) = '*' :: trimRight content := by
      rw [trim, trimLeft_blanks_append hindent]
      exact trimRight_cons_of_notBlank rfl content
    have hstrip : stripMargin (indent ++ '*' :: content) = trim (trimRight content) := by
      rw [stripMargin, htrim]
      rfl
    rw [hstrip]
    exact ⟨by rw [words_trim, words_trimRight], startsAtWord_trim _⟩
  | blank hindent _ =>
    have htrim : trim l = [] := by
      rw [← (startsAtWord_trim l).eq_nil_iff, words_trim, words_eq_nil hindent]
    have hstrip : stripMargin l = [] := by rw [stripMargin, htrim]
    rw [hstrip]
    exact ⟨rfl, startsAtWord_trim []⟩

lemma Shows.noLineFeed {l : List Char} {ws : List (List Char)} (h : Shows l ws) : '\n' ∉ l :=
  (shows_iff.mp h).1

lemma noLineFeed_of_shows {ls : List (List Char)} {wss : List (List (List Char))}
    (h : List.Forall₂ Shows ls wss) : ∀ l ∈ ls, '\n' ∉ l := by
  induction h with
  | nil => exact List.forall_mem_nil _
  | cons hshows _ ih => exact List.forall_mem_cons.mpr ⟨hshows.noLineFeed, ih⟩

lemma body_delimited (cs : List Char) : body (opening ++ cs ++ closing) = cs := by
  have htrim : trim (opening ++ cs ++ closing) = opening ++ cs ++ closing := by
    apply trim_eq_self
    · simp [StartsAtWord, opening, isBlank]
    · simp [StartsAtWord, closing, isBlank]
  have hstart : dropStart? opening (opening ++ cs ++ closing) = some (cs ++ closing) := by
    simp [dropStart?]
  have hend : dropEnd? closing (cs ++ closing) = some cs := by
    simp [dropEnd?]
  simp only [body, htrim, hstart, hend, Option.getD_some]

lemma lines_flatMap {ls : List (List Char)} (h : ∀ l ∈ ls, '\n' ∉ l) {indent : List Char}
    (hindent : '\n' ∉ indent) :
    Text.lines (ls.flatMap (· ++ ['\n']) ++ indent) = ls ++ [indent] := by
  induction ls with
  | nil => exact pieces_of_notMem hindent
  | cons l ls ih =>
    rw [List.forall_mem_cons] at h
    rw [List.flatMap_cons, List.append_assoc, List.append_assoc, List.singleton_append,
      lines_append_cons h.1, ih h.2, List.cons_append]

/-- The first and the last line of a comment hold the delimiters only. -/
lemma reads_comment {ls : List (List Char)} {wss : List (List (List Char))}
    (h : List.Forall₂ Shows ls wss) {indent : List Char} (hindent : Shows indent []) :
    List.Forall₂ Reads ((Text.lines (body (comment ls indent).toList)).map stripMargin)
      ([] :: wss ++ [[]]) := by
  have hlines : Text.lines (body (comment ls indent).toList) = [] :: ls ++ [indent] := by
    have hnone : ∀ l ∈ [] :: ls, '\n' ∉ l :=
      List.forall_mem_cons.mpr ⟨List.not_mem_nil, noLineFeed_of_shows h⟩
    have hbody := body_delimited (([] :: ls).flatMap (· ++ ['\n']) ++ indent)
    rw [← lines_flatMap hnone hindent.noLineFeed, ← hbody, comment, String.toList_ofList]
    simp
  have hshows : List.Forall₂ Shows ([] :: ls ++ [indent]) ([] :: wss ++ [[]]) :=
    List.rel_append (.cons (.blank (List.forall_mem_nil _) List.not_mem_nil) h)
      (.cons hindent .nil)
  rw [hlines, List.forall₂_map_left_iff]
  exact hshows.imp fun _ _ => Shows.reads

end ServiceDocs.DocComment
