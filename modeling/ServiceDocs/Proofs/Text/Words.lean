import Mathlib.Data.List.Infix
import Mathlib.Data.List.TakeWhile
import ServiceDocs.Proofs.Text.Pieces

/-!
# Words of a text

Whatever the white space between them, the words of a text are all that is kept of it when it is
trimmed, cut at its first word or put on one line. A pattern without white space occurs in a text
only inside one of its words.
-/

namespace ServiceDocs.Text

/-! ### Texts and their words -/

lemma words_append_cons {c : Char} (hc : isBlank c = true) (xs ys : List Char) :
    words (xs ++ c :: ys) = words xs ++ words ys := by
  rw [words, pieces_append_cons hc, List.filter_append]
  rfl

lemma words_cons_of_blank {c : Char} (hc : isBlank c = true) (cs : List Char) :
    words (c :: cs) = words cs :=
  words_append_cons hc [] cs

lemma words_eq_singleton {w : List Char} (hne : w ≠ []) (hw : ∀ c ∈ w, isBlank c = false) :
    words w = [w] := by
  simp [words, pieces_eq_singleton hw, hne]

lemma words_eq_nil {cs : List Char} (h : ∀ c ∈ cs, isBlank c = true) : words cs = [] := by
  induction cs with
  | nil => rfl
  | cons c cs ih =>
    rw [List.forall_mem_cons] at h
    rw [words_cons_of_blank h.1, ih h.2]

lemma words_blanks_append {bs : List Char} (h : ∀ c ∈ bs, isBlank c = true) (cs : List Char) :
    words (bs ++ cs) = words cs := by
  induction bs with
  | nil => rfl
  | cons b bs ih =>
    rw [List.forall_mem_cons] at h
    rw [List.cons_append, words_cons_of_blank h.1, ih h.2]

lemma words_append_blanks (cs : List Char) {bs : List Char} (h : ∀ c ∈ bs, isBlank c = true) :
    words (cs ++ bs) = words cs := by
  cases bs with
  | nil => rw [List.append_nil]
  | cons b bs =>
    rw [List.forall_mem_cons] at h
    rw [words_append_cons h.1, words_eq_nil h.2, List.append_nil]

lemma dropWhile_eq_nil_or_cons {α : Type} (p : α → Bool) (cs : List α) :
    cs.dropWhile p = [] ∨ ∃ c rest, p c = false ∧ cs.dropWhile p = c :: rest := by
  cases hrest : cs.dropWhile p with
  | nil => exact .inl rfl
  | cons c rest =>
    have hhead := List.head_dropWhile_not p (l := cs) (by simp [hrest])
    simp only [hrest, List.head_cons] at hhead
    exact .inr ⟨c, rest, hhead, rfl⟩

/-- A text that does not begin with white space begins with its first word. -/
lemma words_cons_of_notBlank {c : Char} (hc : isBlank c = false) (cs : List Char) :
    words (c :: cs) = (c :: cs).takeWhile (fun d => !isBlank d) ::
      words ((c :: cs).dropWhile fun d => !isBlank d) := by
  have hword : words ((c :: cs).takeWhile fun d => !isBlank d) =
      [(c :: cs).takeWhile fun d => !isBlank d] := by
    apply words_eq_singleton
    · simp [hc]
    · intro d hd
      simpa using List.mem_takeWhile_imp hd
  have hsplit : words (c :: cs) = words ((c :: cs).takeWhile (fun d => !isBlank d) ++
      (c :: cs).dropWhile fun d => !isBlank d) := by
    rw [List.takeWhile_append_dropWhile]
  rw [hsplit]
  obtain hrest | ⟨d, rest, hd, hrest⟩ :=
    dropWhile_eq_nil_or_cons (fun d => !isBlank d) (c :: cs)
  · rw [hrest, List.append_nil, hword, words_nil]
  · have hblank : isBlank d = true := by simpa using hd
    rw [hrest, words_append_cons hblank, words_cons_of_blank hblank, hword]
    rfl

lemma not_blank_of_mem_words {cs w : List Char} (h : w ∈ words cs) :
    w ≠ [] ∧ ∀ c ∈ w, isBlank c = false := by
  obtain ⟨hpiece, hne⟩ := List.mem_filter.mp h
  exact ⟨by simpa using hne, not_of_mem_pieces cs w hpiece⟩

/-! ### Trimmed texts -/

/-- The text does not begin with white space. -/
def StartsAtWord (cs : List Char) : Prop :=
  ∀ c ∈ cs.head?, isBlank c = false

lemma trimLeft_spec (cs : List Char) :
    ∃ bs, (∀ c ∈ bs, isBlank c = true) ∧ cs = bs ++ trimLeft cs := by
  refine ⟨cs.takeWhile isBlank, fun c hc => List.mem_takeWhile_imp hc, ?_⟩
  exact List.takeWhile_append_dropWhile.symm

lemma trimRight_spec (cs : List Char) :
    ∃ bs, (∀ c ∈ bs, isBlank c = true) ∧ cs = trimRight cs ++ bs := by
  obtain ⟨bs, hbs, hcs⟩ := trimLeft_spec cs.reverse
  refine ⟨bs.reverse, by simpa using hbs, ?_⟩
  rw [trimRight, ← List.reverse_append]
  exact List.reverse_eq_iff.mp hcs

lemma trim_spec (cs : List Char) :
    ∃ front back, (∀ c ∈ front, isBlank c = true) ∧ (∀ c ∈ back, isBlank c = true) ∧
      cs = front ++ trim cs ++ back := by
  obtain ⟨front, hfront, hcs⟩ := trimLeft_spec cs
  obtain ⟨back, hback, hrest⟩ := trimRight_spec (trimLeft cs)
  refine ⟨front, back, hfront, hback, ?_⟩
  rw [List.append_assoc, trim, ← hrest, ← hcs]

@[simp] lemma words_trimLeft (cs : List Char) : words (trimLeft cs) = words cs := by
  obtain ⟨bs, hbs, hcs⟩ := trimLeft_spec cs
  conv_rhs => rw [hcs, words_blanks_append hbs]

@[simp] lemma words_trimRight (cs : List Char) : words (trimRight cs) = words cs := by
  obtain ⟨bs, hbs, hcs⟩ := trimRight_spec cs
  conv_rhs => rw [hcs, words_append_blanks _ hbs]

@[simp] lemma words_trim (cs : List Char) : words (trim cs) = words cs := by
  rw [trim, words_trimRight, words_trimLeft]

lemma trim_sublist (cs : List Char) : (trim cs).Sublist cs := by
  have hright := (List.dropWhile_sublist isBlank (l := (trimLeft cs).reverse)).reverse
  rw [List.reverse_reverse] at hright
  exact hright.trans (List.dropWhile_sublist isBlank)

lemma startsAtWord_dropWhile (cs : List Char) : StartsAtWord (cs.dropWhile isBlank) := by
  obtain hnil | ⟨c, rest, hc, hcons⟩ := dropWhile_eq_nil_or_cons isBlank cs
  · simp [StartsAtWord, hnil]
  · simp [StartsAtWord, hcons, hc]

lemma startsAtWord_trim (cs : List Char) : StartsAtWord (trim cs) := by
  obtain ⟨bs, _, hcs⟩ := trimRight_spec (trimLeft cs)
  intro c hc
  apply startsAtWord_dropWhile cs
  rw [← trimLeft, hcs]
  exact List.mem_head?_append_of_mem_head? hc

lemma startsAtWord_reverse_trim (cs : List Char) : StartsAtWord (trim cs).reverse := by
  rw [trim, trimRight, List.reverse_reverse]
  exact startsAtWord_dropWhile _

lemma StartsAtWord.dropWhile_eq_self {cs : List Char} (h : StartsAtWord cs) :
    cs.dropWhile isBlank = cs := by
  cases cs with
  | nil => rfl
  | cons c cs => exact List.dropWhile_cons_of_neg (by simp [h c rfl])

lemma trim_cons_of_blank {c : Char} (hc : isBlank c = true) (cs : List Char) :
    trim (c :: cs) = trim cs := by
  rw [trim, trimLeft, List.dropWhile_cons_of_pos hc]
  rfl

lemma trim_concat_of_blank {c : Char} (hc : isBlank c = true) (cs : List Char) :
    trim (cs ++ [c]) = trim cs := by
  rw [trim, trimLeft, List.dropWhile_append]
  split_ifs with hnone
  · rw [List.isEmpty_iff] at hnone
    rw [List.dropWhile_cons_of_pos hc, trim, trimLeft, hnone]
    rfl
  · rw [trimRight, List.reverse_append, List.reverse_singleton, List.singleton_append,
      List.dropWhile_cons_of_pos hc]
    rfl

lemma trim_eq_nil_iff {cs : List Char} : trim cs = [] ↔ ∀ c ∈ cs, isBlank c = true := by
  constructor
  · intro h
    obtain ⟨front, back, hfront, hback, hcs⟩ := trim_spec cs
    rw [hcs, h, List.append_nil]
    exact List.forall_mem_append.mpr ⟨hfront, hback⟩
  · intro h
    rw [trim, trimLeft, List.dropWhile_eq_nil_iff.mpr h]
    rfl

/-- Characters that are not blank are all kept. -/
lemma count_trim {c : Char} (hc : isBlank c = false) (cs : List Char) :
    (trim cs).count c = cs.count c := by
  have hnone : ∀ {bs : List Char}, (∀ b ∈ bs, isBlank b = true) → bs.count c = 0 := by
    intro bs hbs
    refine List.count_eq_zero.mpr fun hmem => ?_
    rw [hbs c hmem] at hc
    cases hc
  obtain ⟨front, back, hfront, hback, hcs⟩ := trim_spec cs
  calc (trim cs).count c
      = (front ++ trim cs ++ back).count c := by
        rw [List.count_append, List.count_append, hnone hfront, hnone hback, Nat.zero_add,
          Nat.add_zero]
    _ = cs.count c := by rw [← hcs]

lemma trim_eq_self {cs : List Char} (hstart : StartsAtWord cs)
    (hend : StartsAtWord cs.reverse) : trim cs = cs := by
  rw [trim, trimLeft, hstart.dropWhile_eq_self, trimRight, hend.dropWhile_eq_self,
    List.reverse_reverse]

@[simp] lemma trim_trim (cs : List Char) : trim (trim cs) = trim cs :=
  trim_eq_self (startsAtWord_trim cs) (startsAtWord_reverse_trim cs)

lemma StartsAtWord.eq_nil_iff {cs : List Char} (h : StartsAtWord cs) : words cs = [] ↔ cs = [] := by
  cases cs with
  | nil => simp
  | cons c cs => simp [words_cons_of_notBlank (h c rfl)]

lemma StartsAtWord.head?_eq {cs : List Char} (h : StartsAtWord cs) :
    cs.head? = ((words cs).headD []).head? := by
  cases cs with
  | nil => rfl
  | cons c cs => simp [words_cons_of_notBlank (h c rfl), h c rfl]

lemma words_splitTag (cs : List Char) :
    words (splitTag cs).2 = words (cs.dropWhile fun c => !isBlank c) := by
  rw [splitTag, words_trim]
  obtain hrest | ⟨c, rest, hc, hrest⟩ := dropWhile_eq_nil_or_cons (fun c => !isBlank c) cs
  · rw [hrest]
    rfl
  · have hblank : isBlank c = true := by simpa using hc
    rw [hrest, words_cons_of_blank hblank]
    rfl

/-- The first word is cut off, and the others stay. -/
lemma StartsAtWord.splitTag {cs w : List Char} {ws : List (List Char)} (h : StartsAtWord cs)
    (hcs : words cs = w :: ws) : (splitTag cs).1 = w ∧ words (splitTag cs).2 = ws := by
  cases cs with
  | nil => cases hcs
  | cons c cs =>
    rw [words_cons_of_notBlank (h c rfl), List.cons.injEq] at hcs
    exact ⟨hcs.1, by rw [words_splitTag, hcs.2]⟩

/-- The same when the first character of the first word has been taken away. -/
lemma StartsAtWord.splitTag_tail {c : Char} {cs w : List Char} {ws : List (List Char)}
    (h : StartsAtWord cs) (hcs : words cs = (c :: w) :: ws) :
    (Text.splitTag (cs.drop 1)).1 = w ∧ words (Text.splitTag (cs.drop 1)).2 = ws := by
  cases cs with
  | nil => cases hcs
  | cons d cs =>
    have hd : isBlank d = false := h d rfl
    rw [words_cons_of_notBlank hd, List.takeWhile_cons_of_pos (by simp [hd]),
      List.dropWhile_cons_of_pos (by simp [hd]), List.cons.injEq, List.cons.injEq] at hcs
    exact ⟨hcs.1.2, by rw [words_splitTag, List.drop_one, List.tail_cons, hcs.2]⟩

/-! ### Joined texts -/

lemma words_join (ls : List (List Char)) : words (join [' '] ls) = ls.flatMap words := by
  induction ls with
  | nil => rfl
  | cons l ls ih =>
    cases ls with
    | nil => simp [join]
    | cons m ms =>
      rw [join, List.append_assoc, List.singleton_append, words_append_cons rfl, ih]
      rfl

@[simp] lemma words_flatten (cs : List Char) : words (flatten cs) = words cs := by
  have hword : ∀ w ∈ words cs, words w = [w] := fun w hw =>
    words_eq_singleton (not_blank_of_mem_words hw).1 (not_blank_of_mem_words hw).2
  rw [flatten, words_join, List.flatMap_congr hword, List.flatMap_singleton']

/-! ### Visible characters -/

/-- The characters of a text that are no white space. -/
def visible (cs : List Char) : List Char :=
  cs.filter fun c => !isBlank c

@[simp] lemma visible_nil : visible [] = [] := rfl

@[simp] lemma visible_append (xs ys : List Char) :
    visible (xs ++ ys) = visible xs ++ visible ys :=
  List.filter_append xs ys

lemma visible_cons_of_notBlank {c : Char} (hc : isBlank c = false) (cs : List Char) :
    visible (c :: cs) = c :: visible cs :=
  List.filter_cons_of_pos (by simp [hc])

lemma count_visible {c : Char} (hc : isBlank c = false) (cs : List Char) :
    (visible cs).count c = cs.count c :=
  List.count_filter (by simp [hc])

/-- The visible characters are those of the words. -/
lemma flatten_words (cs : List Char) : (words cs).flatten = visible cs := by
  rw [visible, ← flatten_pieces, words]
  induction pieces isBlank cs with
  | nil => rfl
  | cons w ws ih => cases w <;> simp [ih]

@[simp] lemma visible_trim (cs : List Char) : visible (trim cs) = visible cs := by
  rw [← flatten_words, words_trim, flatten_words]

@[simp] lemma visible_flatten (cs : List Char) : visible (flatten cs) = visible cs := by
  rw [← flatten_words, words_flatten, flatten_words]

/-! ### Patterns -/

lemma exists_word_cons {c : Char} {cs w : List Char} (hw : w ∈ words cs) :
    ∃ v ∈ words (c :: cs), w <:+: v := by
  cases hc : isBlank c with
  | true => exact ⟨w, by rwa [words_cons_of_blank hc], List.infix_rfl⟩
  | false =>
    obtain ⟨p, ps, hpieces⟩ := List.exists_cons_of_ne_nil (pieces_ne_nil isBlank cs)
    have hcons : words (c :: cs) = (c :: p) :: ps.filter (fun v => !v.isEmpty) := by
      simp [words, pieces_cons_of_neg hc, hpieces, consHead]
    obtain ⟨hmem, hne⟩ := List.mem_filter.mp hw
    rw [hpieces, List.mem_cons] at hmem
    rw [hcons]
    rcases hmem with rfl | hmem
    · exact ⟨c :: w, List.mem_cons_self, List.infix_cons List.infix_rfl⟩
    · exact ⟨w, List.mem_cons_of_mem _ (List.mem_filter.mpr ⟨hmem, hne⟩), List.infix_rfl⟩

/-- A pattern without white space does not reach over the end of a word. -/
lemma exists_word_containing {pattern cs : List Char} (hne : pattern ≠ [])
    (hpattern : ∀ c ∈ pattern, isBlank c = false) (h : pattern <:+: cs) :
    ∃ w ∈ words cs, pattern <:+: w := by
  obtain ⟨front, back, rfl⟩ := h
  induction front with
  | nil =>
    obtain ⟨c, rest, rfl⟩ := List.exists_cons_of_ne_nil hne
    rw [List.forall_mem_cons] at hpattern
    rw [List.nil_append, List.cons_append, words_cons_of_notBlank hpattern.1]
    refine ⟨_, List.mem_cons_self, List.IsPrefix.isInfix ?_⟩
    rw [← List.cons_append, List.takeWhile_append_of_pos (by simpa using hpattern)]
    exact List.prefix_append _ _
  | cons c front ih =>
    -- One more character in front leaves the word as it is, or becomes a part of it.
    obtain ⟨w, hw, hinfix⟩ := ih
    rw [List.cons_append, List.cons_append]
    obtain ⟨v, hv, hwv⟩ := exists_word_cons hw
    exact ⟨v, hv, hinfix.trans hwv⟩

lemma not_infix_of_words {pattern cs : List Char} (hne : pattern ≠ [])
    (hpattern : ∀ c ∈ pattern, isBlank c = false) (h : ∀ w ∈ words cs, ¬ pattern <:+: w) :
    ¬ pattern <:+: cs := by
  intro hinfix
  obtain ⟨w, hw, hwinfix⟩ := exists_word_containing hne hpattern hinfix
  exact h w hw hwinfix

end ServiceDocs.Text
