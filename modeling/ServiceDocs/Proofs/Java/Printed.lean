import ServiceDocs.Java.Parser.Type
import ServiceDocs.Proofs.Java.Brackets
import ServiceDocs.TypeExpr.Basic

/-!
# Printed types

The text of a type, as it is written in a declaration, consists of the words, signs and brackets
that its structure prescribes. This holds for all types whose names are identifiers.
-/

namespace ServiceDocs.Java

/-! ### Printed items -/

/-- The text consists of the tokens of these items; words are kept apart, and brackets fit. -/
structure Prints (text : List Char) (is : List Item) : Prop where
  source_eq : Token.source (Item.tokensAll is) = text
  balanced : Item.AreBalanced is
  spaced {ts : List Token} (hapart : Token.Apart ts) (h : Token.Spaced ts) :
    Token.Spaced (Item.tokensAll is ++ ts)

/-- What stands in front of these items does not run into the first one. -/
def StandsApart (is : List Item) : Prop :=
  ∀ ts, Token.Apart ts → Token.Apart (Item.tokensAll is ++ ts)

namespace Item

/-- A word with white space in front. -/
def ofWord (gap word : String) : Item :=
  .token (.ofWord gap word)

/-- A sign with white space in front. -/
def ofSign (gap : String) (c : Char) : Item :=
  .token (.ofSign gap c)

/-- Items in brackets, with white space in front of the brackets. -/
def ofGroup (gap : String) (opening : Char) (is : List Item) (gap' : String) (closing : Char) :
    Item :=
  .group (.ofSign gap opening) is (some (.ofSign gap' closing))

end Item

lemma isGap_empty : IsGap "" := by
  simp [IsGap]

lemma isGap_space : IsGap " " := by
  simp [IsGap, Lexeme.isGap]

lemma isGap_newline : IsGap "\n" := by
  simp [IsGap, Lexeme.isGap]

lemma isGap_indent : IsGap "\n  " := by
  simp [IsGap, Lexeme.isGap]

@[simp] lemma Token.source_append (ts us : List Token) :
    source (ts ++ us) = source ts ++ source us :=
  List.flatMap_append

/-- Signs that are no brackets. -/
def separators : List Char :=
  ['<', '>', ',', ';']

/-- The pairs of brackets. -/
def brackets : List (Char × Char) :=
  [('(', ')'), ('[', ']'), ('{', '}')]

lemma mem_plainSigns_of_separators : ∀ c ∈ separators, c ∈ plainSigns := by
  simp [separators, plainSigns]

lemma mem_plainSigns_of_brackets : ∀ {opening closing}, (opening, closing) ∈ brackets →
    opening ∈ plainSigns ∧ closing ∈ plainSigns := by
  intro opening closing h
  simp only [brackets, List.mem_cons, Prod.mk.injEq, List.not_mem_nil, or_false] at h
  rcases h with ⟨rfl, rfl⟩ | ⟨rfl, rfl⟩ | ⟨rfl, rfl⟩ <;> simp [plainSigns]

lemma isSignToken_ofSign (gap : String) (c : Char) (s : String) :
    Item.isSignToken (.ofSign gap c) s = decide (String.ofList [c] = s) :=
  Bool.true_and _

lemma isNoBracket_ofSign (gap : String) {c : Char} (hc : c ∈ separators) :
    Item.IsNoBracket (.ofSign gap c) := by
  simp only [separators, List.mem_cons, List.not_mem_nil, or_false] at hc
  rcases hc with rfl | rfl | rfl | rfl <;>
    simp [Item.IsNoBracket, Item.opens, Item.closes, Item.reaches, isSignToken_ofSign]

lemma fits_of_brackets (gap gap' : String) {opening closing : Char}
    (h : (opening, closing) ∈ brackets) : Item.opens (.ofSign gap opening) = true ∧
      Item.closes (.ofSign gap opening) (.ofSign gap' closing) = true := by
  simp only [brackets, List.mem_cons, Prod.mk.injEq, List.not_mem_nil, or_false] at h
  rcases h with ⟨rfl, rfl⟩ | ⟨rfl, rfl⟩ | ⟨rfl, rfl⟩ <;> exact ⟨rfl, rfl⟩

lemma isNoBracket_ofWord {gap word : String} (h : isIdentifier word.toList = true) :
    Item.IsNoBracket (.ofWord gap word) := by
  obtain ⟨c, cs, l, -, -, -, hcls, -, htoken⟩ := Token.exists_ofWord_eq gap h
  rw [htoken]
  simp [Item.IsNoBracket, Item.opens, Item.closes, Item.reaches, Item.isSignToken, Token.cls, hcls]

lemma tokensAll_ofGroup (gap : String) (opening : Char) (is : List Item) (gap' : String)
    (closing : Char) : Item.tokensAll [.ofGroup gap opening is gap' closing] =
      .ofSign gap opening :: (Item.tokensAll is ++ [.ofSign gap' closing]) := by
  simp [Item.ofGroup, Item.tokensAll, Item.tokens]

namespace Prints

lemma nil : Prints [] [] where
  source_eq := rfl
  balanced := trivial
  spaced _ h := h

lemma word {gap word : String} (hgap : IsGap gap) (h : isIdentifier word.toList = true) :
    Prints (gap.toList ++ word.toList) [.ofWord gap word] where
  source_eq := by
    obtain ⟨c, cs, l, hword, -, -, -, htext, htoken⟩ := Token.exists_ofWord_eq gap h
    rw [hword, ← htext, Item.tokensAll, Item.ofWord, Item.tokens, htoken]
    simp [Item.tokensAll, Token.source]
  balanced := ⟨isNoBracket_ofWord h, trivial⟩
  spaced hapart hts := .word hgap h hapart hts

lemma separator {c : Char} (hc : c ∈ separators) {text : List Char} {is : List Item}
    (h : Prints text is) : Prints (c :: text) (.ofSign "" c :: is) where
  source_eq := by
    rw [← h.source_eq]
    exact Token.source_cons _ _
  balanced := ⟨isNoBracket_ofSign "" hc, h.balanced⟩
  spaced hapart hts := .sign isGap_empty (mem_plainSigns_of_separators _ hc) (h.spaced hapart hts)

lemma append {x y : List Char} {is js : List Item} (hx : Prints x is) (hy : Prints y js)
    (hjs : StandsApart js) : Prints (x ++ y) (is ++ js) where
  source_eq := by rw [Item.tokensAll_append, Token.source_append, hx.source_eq, hy.source_eq]
  balanced := (Item.areBalanced_append is js).mpr ⟨hx.balanced, hy.balanced⟩
  spaced {ts} hapart hts := by
    rw [Item.tokensAll_append, List.append_assoc]
    exact hx.spaced (hjs ts hapart) (hy.spaced hapart hts)

lemma group {gap gap' : String} (hgap : IsGap gap) (hgap' : IsGap gap') {opening closing : Char}
    (hfit : (opening, closing) ∈ brackets) {text : List Char} {is : List Item}
    (h : Prints text is) :
    Prints (gap.toList ++ opening :: text ++ (gap'.toList ++ [closing]))
      [.ofGroup gap opening is gap' closing] where
  source_eq := by
    have hend : Token.source [.ofSign gap' closing] = gap'.toList ++ [closing] :=
      Token.source_cons _ _
    rw [tokensAll_ofGroup, Token.source_cons, Token.source_append, h.source_eq, hend,
      List.append_assoc]
    rfl
  balanced := ⟨⟨(fits_of_brackets gap gap' hfit).1, (fits_of_brackets gap gap' hfit).2, h.balanced⟩,
    trivial⟩
  spaced {ts} hapart hts := by
    obtain ⟨hopening, hclosing⟩ := mem_plainSigns_of_brackets hfit
    have hbehind : Token.Spaced (.ofSign gap' closing :: ts) := .sign hgap' hclosing hts
    have hinside := h.spaced (fun t ht _ => by obtain rfl := Option.some.inj ht; rfl) hbehind
    rw [tokensAll_ofGroup, List.cons_append, List.append_assoc]
    exact .sign hgap hopening hinside

end Prints

/-! ### Names -/

/-- Keywords, contextual keywords and literals. -/
def reservedWords : List String :=
  ["abstract", "assert", "boolean", "break", "byte", "case", "catch", "char", "class", "const",
   "continue", "default", "do", "double", "else", "enum", "extends", "final", "finally", "float",
   "for", "goto", "if", "implements", "import", "instanceof", "int", "interface", "long", "native",
   "new", "package", "private", "protected", "public", "return", "short", "static", "strictfp",
   "super", "switch", "synchronized", "this", "throw", "throws", "transient", "try", "void",
   "volatile", "while", "_", "true", "false", "null", "exports", "module", "non-sealed", "open",
   "opens", "permits", "provides", "record", "requires", "sealed", "to", "transitive", "uses",
   "var", "when", "with", "yield"]

/-- An identifier that is no keyword. -/
structure IsName (name : String) : Prop where
  isIdentifier : isIdentifier name.toList = true
  notReserved : name ∉ reservedWords

instance : DecidablePred IsName := fun name =>
  decidable_of_iff (isIdentifier name.toList = true ∧ name ∉ reservedWords)
    ⟨fun h => ⟨h.1, h.2⟩, fun h => ⟨h.isIdentifier, h.notReserved⟩⟩

/-- The name of a class or an interface, or a word for a primitive type or `void`. -/
def IsTypeWord (name : String) : Prop :=
  IsName name ∨ name ∈ Parser.primitives

instance : DecidablePred IsTypeWord := fun name =>
  inferInstanceAs (Decidable (IsName name ∨ name ∈ Parser.primitives))

lemma IsTypeWord.isIdentifier {name : String} (h : IsTypeWord name) :
    Java.isIdentifier name.toList = true := by
  rcases h with h | h
  · exact h.isIdentifier
  · revert h
    revert name
    decide

mutual

/-- The type can be written: its names are names of classes, or of primitive types if they have no
arguments. -/
def IsPrintable : TypeExpr → Prop
  | .named name []        => IsTypeWord name
  | .named name (a :: as) => IsName name ∧ ArePrintable (a :: as)
  | .array element        => IsPrintable element
  | .unknown              => False
termination_by structural t => t

/-- All these types can be written. -/
def ArePrintable : List TypeExpr → Prop
  | []      => True
  | a :: as => IsPrintable a ∧ ArePrintable as
termination_by structural ts => ts

end

mutual

instance decidableIsPrintable : (t : TypeExpr) → Decidable (IsPrintable t)
  | .named name []        => inferInstanceAs (Decidable (IsTypeWord name))
  | .named name (a :: as) =>
    have := decidableArePrintable (a :: as)
    inferInstanceAs (Decidable (IsName name ∧ ArePrintable (a :: as)))
  | .array element        => decidableIsPrintable element
  | .unknown              => .isFalse id
termination_by structural t => t

instance decidableArePrintable : (ts : List TypeExpr) → Decidable (ArePrintable ts)
  | []      => .isTrue trivial
  | a :: as =>
    have := decidableIsPrintable a
    have := decidableArePrintable as
    inferInstanceAs (Decidable (IsPrintable a ∧ ArePrintable as))
termination_by structural ts => ts

end

/-! ### Types -/

/-- The brackets of an array. -/
def emptyBrackets : Item :=
  .ofGroup "" '[' [] "" ']'

mutual

/-- A type that is written behind white space. -/
def typeItems (gap : String) : TypeExpr → List Item
  | .named name []        => [.ofWord gap name]
  | .named name (a :: as) =>
    .ofWord gap name :: .ofSign "" '<' :: (argumentItems "" (a :: as) ++ [.ofSign "" '>'])
  | .array element        => typeItems gap element ++ [emptyBrackets]
  | .unknown              => []
termination_by structural t => t

/-- Type arguments with commas between them. -/
def argumentItems (gap : String) : List TypeExpr → List Item
  | []           => []
  | [a]          => typeItems gap a
  | a :: b :: as => typeItems gap a ++ .ofSign "" ',' :: argumentItems " " (b :: as)
termination_by structural ts => ts

end

lemma standsApart_ofSign (gap : String) (c : Char) (is : List Item) :
    StandsApart (.ofSign gap c :: is) := by
  rintro ts - t ht -
  obtain rfl := Option.some.inj ht
  rfl

lemma standsApart_ofGroup (gap : String) (opening : Char) (inside : List Item) (gap' : String)
    (closing : Char) (is : List Item) :
    StandsApart (.ofGroup gap opening inside gap' closing :: is) := by
  rintro ts - t ht -
  obtain rfl := Option.some.inj ht
  rfl

lemma standsApart_ofWord {gap : String} (hgap : gap ≠ "") (word : String) (is : List Item) :
    StandsApart (.ofWord gap word :: is) := by
  rintro ts - t ht hempty
  obtain rfl := Option.some.inj ht
  exact absurd hempty hgap

/-- What may follow the name of a type inside the type. -/
def ContinuesType (is : List Item) : Prop :=
  ∀ i ∈ is.head?, i = .ofSign "" '<' ∨ i = emptyBrackets

/-- A type begins with a word. -/
lemma exists_typeItems_eq (gap : String) : (t : TypeExpr) → IsPrintable t →
    ∃ name is, typeItems gap t = .ofWord gap name :: is ∧ IsTypeWord name ∧ ContinuesType is
  | .named name [],        h => ⟨name, [], rfl, h, fun i hi => by cases hi⟩
  | .named name (a :: as), h =>
    ⟨name, _, rfl, .inl h.1, fun i hi => .inl (Option.some.inj hi).symm⟩
  | .array element,        h => by
    obtain ⟨name, is, heq, hname, his⟩ := exists_typeItems_eq gap element h
    refine ⟨name, is ++ [emptyBrackets], by rw [typeItems, heq, List.cons_append], hname, ?_⟩
    cases is with
    | nil => exact fun i hi => .inr (Option.some.inj hi).symm
    | cons j is => exact his

lemma standsApart_typeItems {gap : String} (hgap : gap ≠ "") {t : TypeExpr} (h : IsPrintable t)
    (is : List Item) : StandsApart (typeItems gap t ++ is) := by
  obtain ⟨name, js, heq, -⟩ := exists_typeItems_eq gap t h
  rw [heq]
  exact standsApart_ofWord hgap name (js ++ is)

mutual

lemma prints_typeItems {gap : String} (hgap : IsGap gap) : (t : TypeExpr) → IsPrintable t →
    Prints (gap.toList ++ t.display.toList) (typeItems gap t)
  | .named name [], h => .word hgap h.isIdentifier
  | .named name (a :: as), h => by
    have hname := Prints.word hgap h.1.isIdentifier
    have hargs := prints_argumentItems isGap_empty (a :: as) h.2
      (List.cons_ne_nil a as)
    have hclose := hargs.append (.separator (by simp [separators]) .nil)
      (standsApart_ofSign "" '>' [])
    have hopen := hname.append (.separator (by simp [separators]) hclose)
      (standsApart_ofSign "" '<' _)
    simpa [TypeExpr.display, typeItems] using hopen
  | .array element, h => by
    have hbrackets := Prints.group isGap_empty isGap_empty
      (show ('[', ']') ∈ brackets by simp [brackets]) .nil
    have harray := (prints_typeItems hgap element h).append hbrackets
      (standsApart_ofGroup "" '[' [] "" ']' [])
    simpa [TypeExpr.display, typeItems, emptyBrackets] using harray

lemma prints_argumentItems {gap : String} (hgap : IsGap gap) : (ts : List TypeExpr) →
    ArePrintable ts → ts ≠ [] →
    Prints (gap.toList ++ (TypeExpr.displayArgs ts).toList) (argumentItems gap ts)
  | [a], h, _ => prints_typeItems hgap a h.1
  | a :: b :: as, h, _ => by
    have hmore := prints_argumentItems isGap_space (b :: as) h.2
      (List.cons_ne_nil b as)
    have hlist := (prints_typeItems hgap a h.1).append
      (.separator (by simp [separators]) hmore) (standsApart_ofSign "" ',' _)
    simpa [TypeExpr.displayArgs, argumentItems] using hlist

end

end ServiceDocs.Java
