import ServiceDocs.DocComment
import ServiceDocs.Proofs.Text.Words

/-!
# Texts with inline tags

An inline tag is closed by the brace that matches its own: inside the tag braces stand in pairs, and
there may be further tags. A text is reduced by putting its content in place of every tag, the tags
in this content included.

To compare this with a reduction that goes by the first closing brace, a text is also taken apart at
that brace, whatever it belongs to.
-/

namespace ServiceDocs.DocComment

open Text

/-! ### Texts with inline tags -/

/-- A text as a sequence of characters, of pairs of braces, and of inline tags. -/
inductive Marked where
  | nil
  | char (c : Char) (rest : Marked)
  | braces (inside rest : Marked)
  | tag (name : List Char) (content rest : Marked)

namespace Marked

/-- The text in a comment. -/
def source : Marked → List Char
  | nil                   => []
  | char c rest           => c :: rest.source
  | braces inside rest    => '{' :: (inside.source ++ '}' :: rest.source)
  | tag name content rest => '{' :: '@' :: (name ++ content.source ++ '}' :: rest.source)

/-- The text with every tag reduced to its content. -/
def reduced : Marked → List Char
  | nil                => []
  | char c rest        => c :: rest.reduced
  | braces inside rest => '{' :: (inside.reduced ++ '}' :: rest.reduced)
  | tag _ content rest => trim content.reduced ++ rest.reduced

/-- The contents of the tags that are in no other tag. -/
def contents : Marked → List Marked
  | nil                => []
  | char _ rest        => rest.contents
  | braces inside rest => inside.contents ++ rest.contents
  | tag _ content rest => content :: rest.contents

/-- The name of a tag is a word without braces, and white space ends it. -/
structure IsHead (name : List Char) (content : Marked) : Prop where
  notBlank : ∀ c ∈ name, isBlank c = false
  opening : '{' ∉ name
  closing : '}' ∉ name
  blank : ∀ c ∈ content.source.head?, isBlank c = true

/-- Inside a tag, all braces stand in pairs, and an opening brace in front of an `@` belongs to a
tag. -/
def IsContent : Marked → Prop
  | nil                   => True
  | char c rest           => c ≠ '{' ∧ c ≠ '}' ∧ rest.IsContent
  | braces inside rest    => inside.source.head? ≠ some '@' ∧ inside.IsContent ∧ rest.IsContent
  | tag name content rest => IsHead name content ∧ content.IsContent ∧ rest.IsContent

/-- Outside of tags, there may be any braces that do not open a tag. -/
def IsText : Marked → Prop
  | nil                   => True
  | char c rest           => (c = '{' → rest.source.head? ≠ some '@') ∧ rest.IsText
  | braces inside rest    => inside.source.head? ≠ some '@' ∧ inside.IsText ∧ rest.IsText
  | tag name content rest => IsHead name content ∧ content.IsContent ∧ rest.IsText

instance (name : List Char) (content : Marked) : Decidable (IsHead name content) :=
  decidable_of_iff (name.all (fun c => !isBlank c) = true ∧ '{' ∉ name ∧ '}' ∉ name ∧
      content.source.head?.all isBlank = true)
    ⟨fun ⟨hnotBlank, hopening, hclosing, hblank⟩ =>
      ⟨by simpa using hnotBlank, hopening, hclosing, (Option.all_eq_true _ _).mp hblank⟩,
      fun h => ⟨by simpa using h.notBlank, h.opening, h.closing,
        (Option.all_eq_true _ _).mpr h.blank⟩⟩

instance decidableIsContent : DecidablePred IsContent
  | nil                   => inferInstanceAs (Decidable True)
  | char c rest           =>
    have := decidableIsContent rest
    inferInstanceAs (Decidable (c ≠ '{' ∧ c ≠ '}' ∧ rest.IsContent))
  | braces inside rest    =>
    have := decidableIsContent inside
    have := decidableIsContent rest
    inferInstanceAs (Decidable (inside.source.head? ≠ some '@' ∧ inside.IsContent ∧ rest.IsContent))
  | tag name content rest =>
    have := decidableIsContent content
    have := decidableIsContent rest
    inferInstanceAs (Decidable (IsHead name content ∧ content.IsContent ∧ rest.IsContent))

instance decidableIsText : DecidablePred IsText
  | nil                   => inferInstanceAs (Decidable True)
  | char c rest           =>
    have := decidableIsText rest
    inferInstanceAs (Decidable ((c = '{' → rest.source.head? ≠ some '@') ∧ rest.IsText))
  | braces inside rest    =>
    have := decidableIsText inside
    have := decidableIsText rest
    inferInstanceAs (Decidable (inside.source.head? ≠ some '@' ∧ inside.IsText ∧ rest.IsText))
  | tag name content rest =>
    have := decidableIsText rest
    inferInstanceAs (Decidable (IsHead name content ∧ content.IsContent ∧ rest.IsText))

/-- Continue a text with another one. -/
def append : Marked → Marked → Marked
  | nil,                   t => t
  | char c rest,           t => char c (rest.append t)
  | braces inside rest,    t => braces inside (rest.append t)
  | tag name content rest, t => tag name content (rest.append t)

@[simp] lemma source_append (s t : Marked) : (s.append t).source = s.source ++ t.source := by
  induction s <;> simp [append, source, *]

@[simp] lemma reduced_append (s t : Marked) : (s.append t).reduced = s.reduced ++ t.reduced := by
  induction s <;> simp [append, reduced, *]

@[simp] lemma contents_append (s t : Marked) :
    (s.append t).contents = s.contents ++ t.contents := by
  induction s <;> simp [append, contents, *]

lemma IsContent.isText {i : Marked} (hi : i.IsContent) : i.IsText := by
  induction i with
  | nil => trivial
  | char c rest ih => exact ⟨fun hc => absurd hc hi.1, ih hi.2.2⟩
  | braces inside rest ihInside ih => exact ⟨hi.1, ihInside hi.2.1, ih hi.2.2⟩
  | tag name content rest _ ih => exact ⟨hi.1, hi.2.1, ih hi.2.2⟩

lemma head?_source_append_closing {s : Marked} (h : s.source.head? ≠ some '@') (t : Marked) :
    (s.append (char '}' t)).source.head? ≠ some '@' := by
  rw [source_append, source, List.head?_append]
  cases hhead : s.source.head? with
  | none => simp
  | some c =>
    rw [hhead] at h
    exact h

/-- A closing brace keeps two texts apart. -/
lemma IsText.append_closing {s t : Marked} (hs : s.IsText) (ht : t.IsText) :
    (s.append (char '}' t)).IsText := by
  induction s with
  | nil => exact ⟨fun h => absurd h (by decide), ht⟩
  | char c rest ih => exact ⟨fun hc => head?_source_append_closing (hs.1 hc) t, ih hs.2⟩
  | braces inside rest _ ih => exact ⟨hs.1, hs.2.1, ih hs.2.2⟩
  | tag name content rest _ ih => exact ⟨hs.1, hs.2.1, ih hs.2.2⟩

/-! ### The first closing brace -/

/-- The text in front of the first closing brace, or the whole text if there is none. -/
def beforeBrace : Marked → List Char
  | nil                => []
  | char c rest        => c :: rest.beforeBrace
  | braces inside _    => '{' :: inside.beforeBrace
  | tag name content _ => '{' :: '@' :: (name ++ content.beforeBrace)

/-- What is behind the first closing brace, where a closing brace and the text `t` follow. -/
def behindBrace : Marked → Marked → Marked
  | nil,                t => t
  | char _ rest,        t => rest.behindBrace t
  | braces inside rest, t => inside.behindBrace (rest.append (char '}' t))
  | tag _ content rest, t => content.behindBrace (rest.append (char '}' t))

/-- The number of tags that are opened in front of the first closing brace. -/
def tagsBeforeBrace : Marked → ℕ
  | nil             => 0
  | char _ rest     => rest.tagsBeforeBrace
  | braces inside _ => inside.tagsBeforeBrace
  | tag _ content _ => content.tagsBeforeBrace + 1

lemma source_eq_brace (i t : Marked) :
    i.source ++ '}' :: t.source = i.beforeBrace ++ '}' :: (i.behindBrace t).source := by
  induction i generalizing t with
  | nil => rfl
  | char c rest ih => simp [source, beforeBrace, behindBrace, ih]
  | braces inside rest ihInside ih =>
    have h := ihInside (rest.append (char '}' t))
    simp only [source_append, source] at h
    simp [source, beforeBrace, behindBrace, h]
  | tag name content rest ihContent ih =>
    have h := ihContent (rest.append (char '}' t))
    simp only [source_append, source] at h
    simp [source, beforeBrace, behindBrace, h]

lemma head?_beforeBrace (i : Marked) : i.beforeBrace.head? = i.source.head? := by
  cases i <;> rfl

lemma IsContent.notMem_beforeBrace {i : Marked} (hi : i.IsContent) : '}' ∉ i.beforeBrace := by
  induction i with
  | nil => exact List.not_mem_nil
  | char c rest ih => simp [beforeBrace, ih hi.2.2, Ne.symm hi.2.1]
  | braces inside rest ihInside _ => simp [beforeBrace, ihInside hi.2.1]
  | tag name content rest ihContent _ =>
    simp [beforeBrace, ihContent hi.2.1, hi.1.closing]

lemma IsContent.isText_behindBrace {i t : Marked} (hi : i.IsContent) (ht : t.IsText) :
    (i.behindBrace t).IsText := by
  induction i generalizing t with
  | nil => exact ht
  | char c rest ih => exact ih hi.2.2 ht
  | braces inside rest ihInside _ => exact ihInside hi.2.1 (hi.2.2.isText.append_closing ht)
  | tag name content rest ihContent _ => exact ihContent hi.2.1 (hi.2.2.isText.append_closing ht)

/-- To prove something about all texts, one may follow the reduction: behind the opening of a tag it
goes on at the first closing brace. -/
@[elab_as_elim]
theorem text_induction {motive : (t : Marked) → t.IsText → Prop} (nil : motive nil trivial)
    (char : ∀ c rest (h : (char c rest).IsText), motive rest h.2 → motive (char c rest) h)
    (braces : ∀ inside rest (h : (braces inside rest).IsText),
      motive (inside.append (.char '}' rest)) (h.2.1.append_closing h.2.2) →
        motive (braces inside rest) h)
    (tag : ∀ name content rest (h : (tag name content rest).IsText),
      motive (content.behindBrace rest) (h.2.1.isText_behindBrace h.2.2) →
        motive (tag name content rest) h) :
    ∀ t ht, motive t ht
  | .nil,                   _  => nil
  | .char c rest,           ht => char c rest ht (text_induction nil char braces tag rest ht.2)
  | .braces inside rest,    ht =>
    braces inside rest ht (text_induction nil char braces tag _ _)
  | .tag name content rest, ht =>
    tag name content rest ht (text_induction nil char braces tag _ _)
termination_by t => t.source.length
decreasing_by
  · simp [source]
  · simp [source]
  · have h := congrArg List.length (source_eq_brace content rest)
    simp only [List.length_append, List.length_cons] at h
    simp only [source, List.length_append, List.length_cons]
    omega

/-! ### Contents of tags -/

/-- There is nothing but white space. -/
def IsWhite : Marked → Prop
  | nil         => True
  | char c rest => isBlank c = true ∧ rest.IsWhite
  | braces _ _  => False
  | tag _ _ _   => False

/-- There are only white space and tags without content. -/
def IsVoid : Marked → Prop
  | nil                => True
  | char c rest        => isBlank c = true ∧ rest.IsVoid
  | braces _ _         => False
  | tag _ content rest => content.IsWhite ∧ rest.IsVoid

/-- No tag is opened, and nothing is shown behind the first closing brace but further ones. -/
def ClosesLast : Marked → Prop
  | nil                => True
  | char _ rest        => rest.ClosesLast
  | braces inside rest => inside.ClosesLast ∧ rest.IsVoid
  | tag _ _ _          => False

end Marked

end ServiceDocs.DocComment
