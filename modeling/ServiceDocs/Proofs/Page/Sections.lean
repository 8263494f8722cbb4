import ServiceDocs.Proofs.Page.Headings

/-!
# Sections of pages

A page has a heading for each of its sections and no other line that begins with a number sign. The
sample payload of the request or the response is what stands in the first fence below its heading.
-/

namespace ServiceDocs.Page

open ServiceDocs.Field

/-! ### Headings -/

/-- The texts of a page keep to their lines, and no line of the description looks like a
heading. -/
structure KeepsToLines (e : MethodEntry) (c : Coordinates) : Prop where
  names : ∀ text ∈ [e.name, e.package, e.declaringType, e.returnType.display, e.parameters],
    '\n' ∉ text.toList
  coordinates : ∀ text ∈ [c.groupId, c.artifactId, c.version], '\n' ∉ (text.getD "").toList
  description : ∀ l ∈ Text.lines (e.description.getD "").toList,
    (Text.trimLeft l).head? ≠ some '#'
  fields : ∀ fields ∈ [e.request, e.response], ∀ v ∈ visitsAll 0 fields, FitsPage v.field

/-- The heading of the sample payload of one side. -/
def exampleHeading (title : String) : String := "### " ++ title ++ " Example"

/-- The heading of the table of one side. -/
def parametersHeading (title : String) : String := "### " ++ title ++ " Parameters"

lemma noLineFeed_exampleHeading {title : String} (h : '\n' ∉ title.toList) :
    '\n' ∉ (exampleHeading title).toList := by
  simp [exampleHeading, String.toList_append, h]

lemma noLineFeed_parametersHeading {title : String} (h : '\n' ∉ title.toList) :
    '\n' ∉ (parametersHeading title).toList := by
  simp [parametersHeading, String.toList_append, h]

/-- The headings of one side. -/
def sideHeadings (title : String) : List String :=
  ["## " ++ title, exampleHeading title, parametersHeading title]

/-- The headings of a page in order. -/
def headings (e : MethodEntry) (c : Coordinates) : List String :=
  ["# " ++ e.name, "## Description"]
    ++ (if c.isEmpty then [] else ["## Maven Dependency"])
    ++ ["## Interface Declaration"] ++ sideHeadings "Request" ++ sideHeadings "Response"

lemma noHeading_between {start text stop : String} (hstart : '\n' ∉ start.toList)
    (hhead : start.toList.head?.any (· ≠ '#') = true) (htext : '\n' ∉ text.toList)
    (hstop : '\n' ∉ stop.toList) : NoHeading (start ++ text ++ stop) := by
  apply noHeading_of_notMem
  · simp only [String.toList_append, List.mem_append, hstart, htext, hstop, or_self,
      not_false_eq_true]
  · obtain ⟨c, hc, hne⟩ := (Option.any_eq_true _ _).mp hhead
    rw [String.toList_append, String.toList_append, List.head?_append, List.head?_append, hc]
    simpa using hne

section Blocks

variable {e : MethodEntry} {c : Coordinates} (h : KeepsToLines e c)

include h

lemma headingsOf_descriptionLines :
    headingsOf (descriptionLines e) = ["## Description"].map String.toList := by
  have htext := noHeading_descriptionText h.description
  rw [descriptionLines, headingsOf_cons_of_heading (by decide) (by decide), headingsOf_eq_nil]
  · rfl
  · simp only [List.forall_mem_cons]
    exact ⟨by decide, htext, by decide, List.forall_mem_nil _⟩

lemma headingsOf_dependencyLines :
    headingsOf (dependencyLines c) =
      (if c.isEmpty then [] else ["## Maven Dependency"]).map String.toList := by
  rw [dependencyLines]
  split
  · rfl
  · obtain ⟨hgroup, hartifact, hversion, _⟩ := by
      simpa only [List.forall_mem_cons] using h.coordinates
    rw [headingsOf_cons_of_heading (by decide) (by decide), headingsOf_eq_nil]
    · rfl
    · simp only [List.forall_mem_cons]
      refine ⟨by decide, by decide, by decide, ?_, ?_, ?_, by decide, by decide, by decide,
        List.forall_mem_nil _⟩
      · exact noHeading_between (by decide) (by decide) hgroup (by decide)
      · exact noHeading_between (by decide) (by decide) hartifact (by decide)
      · exact noHeading_between (by decide) (by decide) hversion (by decide)

lemma headingsOf_declarationLines :
    headingsOf (declarationLines e) = ["## Interface Declaration"].map String.toList := by
  obtain ⟨hname, hpackage, htype, hresult, hparameters, _⟩ := by
    simpa only [List.forall_mem_cons] using h.names
  rw [declarationLines, List.append_assoc, List.cons_append,
    headingsOf_cons_of_heading (by decide) (by decide), headingsOf_eq_nil]
  · rfl
  · simp only [List.forall_mem_append, List.forall_mem_cons]
    refine ⟨⟨by decide, by decide, List.forall_mem_nil _⟩, ?_, ?_, by decide, ?_, by decide,
      by decide, by decide, by decide, List.forall_mem_nil _⟩
    · split
      · exact List.forall_mem_nil _
      · simp only [List.forall_mem_cons]
        exact ⟨noHeading_between (by decide) (by decide) hpackage (by decide), by decide,
          List.forall_mem_nil _⟩
    · exact noHeading_between (by decide) (by decide) htype (by decide)
    · apply noHeading_of_notMem
      · simp [String.toList_append, hresult, hname, hparameters]
      · simp [String.toList_append]

end Blocks

section Sides

variable {fields : List Field} (h : ∀ v ∈ visitsAll 0 fields, FitsPage v.field)

include h

lemma headingsOf_sampleLines {title : String} (htitle : '\n' ∉ title.toList) :
    headingsOf (sampleLines title fields) = [exampleHeading title].map String.toList := by
  have hhead : (exampleHeading title).toList.head? = some '#' := by
    simp [exampleHeading, String.toList_append]
  rw [sampleLines, List.cons_append, ← exampleHeading,
    headingsOf_cons_of_heading (noLineFeed_exampleHeading htitle) hhead, headingsOf_eq_nil]
  · rfl
  · rw [List.singleton_append, List.forall_mem_cons]
    refine ⟨by decide, ?_⟩
    split
    · exact List.forall_mem_nil _
    · next hne =>
      have hpayload : NoHeading (samplePayload fields).pretty :=
        fun l hl => (lines_samplePayload (by simpa using hne) h l hl).1
      simp only [List.forall_mem_cons]
      exact ⟨by decide, hpayload, by decide, by decide, List.forall_mem_nil _⟩

lemma headingsOf_parameterLines {title : String} (htitle : '\n' ∉ title.toList) :
    headingsOf (parameterLines title fields) = [parametersHeading title].map String.toList := by
  have hhead : (parametersHeading title).toList.head? = some '#' := by
    simp [parametersHeading, String.toList_append]
  rw [parameterLines, List.cons_append, ← parametersHeading,
    headingsOf_cons_of_heading (noLineFeed_parametersHeading htitle) hhead, headingsOf_eq_nil]
  · rfl
  · rw [List.singleton_append, List.forall_mem_cons]
    refine ⟨by decide, ?_⟩
    split
    · exact List.forall_mem_nil _
    · rw [List.forall_mem_append, List.forall_mem_singleton]
      exact ⟨noHeading_tableLines h, by decide⟩

lemma headingsOf_sideLines {title : String} (htitle : '\n' ∉ title.toList) :
    headingsOf (sideLines title fields) = (sideHeadings title).map String.toList := by
  have hheading : '\n' ∉ ("## " ++ title).toList := by
    simp [String.toList_append, htitle]
  have hhead : ("## " ++ title).toList.head? = some '#' := by
    simp [String.toList_append]
  rw [sideLines, headingsOf_append, headingsOf_append, headingsOf_sampleLines h htitle,
    headingsOf_parameterLines h htitle, headingsOf_cons_of_heading hheading hhead,
    headingsOf_cons_of_noHeading (by decide)]
  rfl

end Sides

/-! ### Fences -/

/-- The lines show the sample payload: there are none without fields, and else they are a fenced
text that is read as the payload, by every reader that allows it to be nested as deep as it is. -/
structure ShowsSample (fields : List Field) (block : List (List Char)) : Prop where
  none : fields = [] → block = []
  fenced : fields ≠ [] → ∃ text, block = "```json".toList :: (text ++ [fence, []]) ∧
    fence ∉ text ∧ ∀ limit, (samplePayload fields).nesting ≤ limit →
      Json.ofTextWithin? limit (String.ofList (Text.join ['\n'] text)) =
        some (samplePayload fields)

/-- The lines that show the sample payload, if there are fields. -/
def sampleBlock (fields : List Field) : List (List Char) :=
  if fields.isEmpty then []
  else "```json".toList :: (Text.lines (samplePayload fields).pretty.toList ++ [fence, []])

lemma linesOf_sampleLines (fields : List Field) {title : String} (htitle : '\n' ∉ title.toList) :
    linesOf (sampleLines title fields) =
      (exampleHeading title).toList :: [] :: sampleBlock fields := by
  rw [sampleLines, List.cons_append, ← exampleHeading,
    linesOf_cons_of_notMem (noLineFeed_exampleHeading htitle), List.singleton_append,
    linesOf_cons_of_notMem (by decide), sampleBlock]
  split
  · rfl
  · rw [linesOf_cons_of_notMem (by decide), linesOf_cons]
    rfl

lemma showsSample_sampleBlock {fields : List Field}
    (h : ∀ v ∈ visitsAll 0 fields, FitsPage v.field) : ShowsSample fields (sampleBlock fields) where
  none := by
    rintro rfl
    rfl
  fenced := by
    intro hne
    refine ⟨Text.lines (samplePayload fields).pretty.toList, if_neg (by simpa using hne), ?_, ?_⟩
    · intro hmem
      exact (lines_samplePayload hne h fence hmem).2 rfl
    · intro limit hlimit
      rw [Text.lines, Text.join_pieces, String.ofList_toList]
      exact Json.ofTextWithin?_pretty (proper_samplePayload h) hlimit

/-- The lines have the heading of the sample of a side, its sample payload and the heading of its
table, one behind the other. -/
def HasSample (title : String) (fields : List Field) (ls : List (List Char)) : Prop :=
  ∃ before block after,
    ls = before ++ ((exampleHeading title).toList :: [] :: block) ++
        (parametersHeading title).toList :: after ∧
      ShowsSample fields block

lemma HasSample.between {title : String} {fields : List Field} {ls : List (List Char)}
    (h : HasSample title fields ls) (start stop : List (List Char)) :
    HasSample title fields (start ++ ls ++ stop) := by
  obtain ⟨before, block, after, rfl, hblock⟩ := h
  exact ⟨start ++ before, block, after ++ stop, by simp, hblock⟩

lemma hasSample_sideLines {fields : List Field} (h : ∀ v ∈ visitsAll 0 fields, FitsPage v.field)
    {title : String} (htitle : '\n' ∉ title.toList) :
    HasSample title fields (linesOf (sideLines title fields)) := by
  refine ⟨linesOf ["## " ++ title, ""], sampleBlock fields,
    linesOf ([""] ++ if fields.isEmpty then [] else tableLines fields ++ [""]), ?_,
    showsSample_sampleBlock h⟩
  rw [sideLines, linesOf_append, linesOf_append, linesOf_sampleLines fields htitle, parameterLines,
    ← parametersHeading, List.cons_append,
    linesOf_cons_of_notMem (noLineFeed_parametersHeading htitle)]

/-! ### Structure -/

lemma nodup_headings (e : MethodEntry) (c : Coordinates) : (headings e c).Nodup := by
  have hothers : ∀ b : Bool,
      let others := ["## Description"] ++ (if b then [] else ["## Maven Dependency"])
        ++ ["## Interface Declaration"] ++ sideHeadings "Request" ++ sideHeadings "Response"
      others.Nodup ∧ ∀ text ∈ others, text.toList[1]? = some '#' := by
    decide
  obtain ⟨hnodup, hsign⟩ := hothers c.isEmpty
  apply List.nodup_cons.mpr ⟨?_, hnodup⟩
  intro hmem
  have hname := hsign _ hmem
  simp [String.toList_append] at hname

/-- The lines of a page that begin with a number sign are its headings, each once and in their
order. Between the heading of the sample and that of the table of a side stands its sample payload
in a fence, if there are fields. -/
theorem page_is_sectioned (e : MethodEntry) (c : Coordinates) (h : KeepsToLines e c) :
    let page := Text.lines (render e c).toList
    page.filter isHeading = (headings e c).map String.toList ∧ (headings e c).Nodup ∧
      HasSample "Request" e.request page ∧ HasSample "Response" e.response page := by
  intro page
  have hpage : page = linesOf (lines e c) ++ [[]] := lines_eq_linesOf (lines e c)
  have hrequestTitle : '\n' ∉ "Request".toList := by decide
  have hresponseTitle : '\n' ∉ "Response".toList := by decide
  obtain ⟨hrequest, hresponse, _⟩ := by simpa only [List.forall_mem_cons] using h.fields
  refine ⟨?_, nodup_headings e c, ?_, ?_⟩
  · have hname : headingsOf ["# " ++ e.name, ""] = ["# " ++ e.name].map String.toList := by
      have hline := h.names e.name List.mem_cons_self
      rw [headingsOf_cons_of_heading, headingsOf_cons_of_noHeading (by decide)]
      · rfl
      · simp [String.toList_append, hline]
      · simp [String.toList_append]
    rw [hpage, List.filter_append, ← headingsOf, lines]
    simp only [headingsOf_append, hname, headingsOf_descriptionLines h,
      headingsOf_dependencyLines h, headingsOf_declarationLines h,
      headingsOf_sideLines hrequest hrequestTitle, headingsOf_sideLines hresponse hresponseTitle]
    simp [headings, isHeading]
  · have hside := hasSample_sideLines hrequest hrequestTitle
    rw [hpage, lines, linesOf_append, linesOf_append, List.append_assoc]
    exact hside.between _ _
  · have hside := hasSample_sideLines hresponse hresponseTitle
    rw [hpage, lines, linesOf_append]
    exact hside.between _ _

/-- Headings and fences in a description, in a sample and in the description of a field stay what
they are. -/
theorem page_is_sectioned_quoted :
    let text : Field :=
      { name := "text", type := .ofName "String", shape := .literal,
        sample := some (.str "\n```\n# Response"), description := some "a\n### Request Example" }
    let e : MethodEntry :=
      { name := "find", package := "", declaringType := "Api", returnType := .void,
        parameters := "(String text)", description := some "Finds it.\n  ```\n  See below.",
        request := [text], response := [] }
    let page := Text.lines (render e { version := some "1.0" }).toList
    KeepsToLines e { version := some "1.0" } ∧
      page.filter isHeading =
        ["# find", "## Description", "## Maven Dependency", "## Interface Declaration",
          "## Request", "### Request Example", "### Request Parameters", "## Response",
          "### Response Example", "### Response Parameters"].map String.toList ∧
      HasSample "Request" e.request page ∧ HasSample "Response" e.response page := by
  intro text e page
  have hkeeps : KeepsToLines e { version := some "1.0" } := by
    refine ⟨by decide, by decide, by decide, ?_⟩
    simp only [e, text, List.forall_mem_cons, visitsAll_cons, visitsAll_nil, List.append_nil]
    refine ⟨⟨⟨by decide, by decide, ?_⟩, List.forall_mem_nil _⟩, List.forall_mem_nil _,
      List.forall_mem_nil _⟩
    rintro s ⟨⟩
    trivial
  obtain ⟨hheadings, _, hrequest, hresponse⟩ := page_is_sectioned e { version := some "1.0" } hkeeps
  exact ⟨hkeeps, hheadings, hrequest, hresponse⟩

end ServiceDocs.Page
