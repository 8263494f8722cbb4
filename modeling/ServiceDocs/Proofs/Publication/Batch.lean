import Mathlib.Data.List.Basic
import ServiceDocs.Proofs.FileTree.Directories
import ServiceDocs.Proofs.Publication.AllOrNothing

/-!
# Batches of documents

A batch is a run of publications, each in the tree that the ones before it have left. A failing
publication leaves the tree alone, so each document meets the tree with just those earlier
documents that could be written, and at the end each place holds the last document that was
written to it.
-/

namespace ServiceDocs

namespace FileTree

/-- The place of a document of the given directory. -/
def placeOf (fs : FileTree) (dir : String) (doc : Document) : Place :=
  fs.locate (Path.join dir doc.fileName)

/-- The tree with documents at their places, one after the other. -/
def putAll (fs : FileTree) (dir : String) (docs : List Document) : FileTree :=
  docs.foldl (fun fs doc => fs.put (fs.placeOf dir doc) doc.contents) fs

/-- The last one of some documents that has the given place. -/
def lastAt (fs : FileTree) (dir : String) (docs : List Document) (q : Place) : Option Document :=
  docs.reverse.find? fun doc => fs.placeOf dir doc = q

/-! ### The mode at a place -/

lemma documentMode_of_noLink {fs : FileTree} {p : Place} (hp : ∀ t, fs.get? p ≠ some (.link t)) :
    fs.documentMode p = match fs.get? p with
      | some (.file _ m) => m
      | _                => fs.newMode 0o644 :=
  congrArg
    (fun q => match fs.get? q with
      | some (.file _ m) => m
      | _                => fs.newMode 0o644)
    (linkEnd_of_noLink hp)

lemma documentMode_of_circle {fs : FileTree} {p t : Place}
    (ht : fs.get? (fs.linkEnd p) = some (.link t)) : fs.documentMode p = fs.newMode 0o644 := by
  rw [documentMode, ht]

/-- In the place of a link a document has the mode that it has where the link leads to. -/
lemma documentMode_of_link {fs : FileTree} {p t : Place} (hp : fs.get? p = some (.link t)) :
    fs.documentMode p = fs.documentMode t := by
  rcases exists_trail_or_link fs t with ⟨ps, htrail⟩ | ⟨r, hr⟩
  · rw [documentMode, documentMode, (LinkTrail.link hp htrail).linkEnd_eq]
  · rcases exists_trail_or_link fs p with ⟨ps, htrail⟩ | ⟨r', hr'⟩
    · generalize fs.linkEnd p = e at htrail
      cases htrail with
      | here hno => exact absurd hp (hno t)
      | link hp' htrail =>
        obtain rfl : t = _ := Entry.link.inj (Option.some.inj (hp.symm.trans hp'))
        rw [htrail.linkEnd_eq] at hr
        exact absurd hr (htrail.noLink r)
    · rw [documentMode_of_circle hr, documentMode_of_circle hr']

section Put

variable (fs : FileTree) (dir : String)

/-- A document that is put somewhere has the mode that the next one there gets as well, also the
next one in the place of a link that leads there. -/
@[simp] lemma documentMode_put (p q : Place) (text : String) :
    (fs.put p text).documentMode q = fs.documentMode q := by
  have hself : (fs.put p text).documentMode p = fs.documentMode p := by
    by_cases hne : p = []
    · subst hne
      rw [documentMode_of_noLink (by simp), documentMode_of_noLink (by simp)]
      rfl
    · have hput : (fs.put p text).get? p = _ := get?_set_self fs hne _
      rw [documentMode_of_noLink (by simp [hput]), hput]
  have hhere {r : Place} (hr : ∀ t, fs.get? r ≠ some (.link t)) :
      (fs.put p text).documentMode r = fs.documentMode r := by
    by_cases hrp : r = p
    · exact hrp ▸ hself
    · have hsame := get?_put_of_ne fs hrp text
      rw [documentMode_of_noLink hr, documentMode_of_noLink (by rwa [hsame]), hsame]
      rfl
  have hlink {r t : Place} (hr : fs.get? r = some (.link t))
      (ht : (fs.put p text).documentMode t = fs.documentMode t) :
      (fs.put p text).documentMode r = fs.documentMode r := by
    by_cases hrp : r = p
    · exact hrp ▸ hself
    · have hsame := get?_put_of_ne fs hrp text
      rw [documentMode_of_link hr, documentMode_of_link (hsame.trans hr), ht]
  -- the way along the links may end only before or only after the document is put
  rcases exists_trail_or_link fs q with ⟨ps, htrail⟩ | ⟨r, hr⟩
  · generalize fs.linkEnd q = e at htrail
    induction htrail with
    | here hno => exact hhere hno
    | link hp _ ih => exact hlink hp ih
  · rcases exists_trail_or_link (fs.put p text) q with ⟨ps, htrail⟩ | ⟨r', hr'⟩
    · clear hr
      generalize (fs.put p text).linkEnd q = e at htrail
      induction htrail with
      | @here r hno =>
        by_cases hrp : r = p
        · exact hrp ▸ hself
        · exact hhere (by rwa [get?_put_of_ne fs hrp text] at hno)
      | @link r t _ _ hp _ ih =>
        by_cases hrp : r = p
        · exact hrp ▸ hself
        · exact hlink (by rwa [get?_put_of_ne fs hrp text] at hp) ih
    · rw [documentMode_of_circle hr, documentMode_of_circle hr']
      rfl

@[simp] lemma placeOf_put (p : Place) (text : String) (doc : Document) :
    (fs.put p text).placeOf dir doc = fs.placeOf dir doc := rfl

@[simp] lemma putAll_nil : fs.putAll dir [] = fs := rfl

@[simp] lemma putAll_cons (doc : Document) (docs : List Document) :
    fs.putAll dir (doc :: docs) = (fs.put (fs.placeOf dir doc) doc.contents).putAll dir docs := rfl

@[simp] lemma lastAt_put (p : Place) (text : String) (docs : List Document) (q : Place) :
    (fs.put p text).lastAt dir docs q = fs.lastAt dir docs q := rfl

lemma lastAt_cons (doc : Document) (docs : List Document) (q : Place) :
    fs.lastAt dir (doc :: docs) q =
      (fs.lastAt dir docs q).or (if fs.placeOf dir doc = q then some doc else none) := by
  simp only [lastAt, List.reverse_cons, List.find?_append, List.find?_singleton,
    decide_eq_true_eq]

/-- Each place holds the last document that was put there. -/
lemma get?_putAll {docs : List Document} (hne : ∀ doc ∈ docs, fs.placeOf dir doc ≠ [])
    (q : Place) :
    (fs.putAll dir docs).get? q =
      match fs.lastAt dir docs q with
      | some doc => some (.file (.text doc.contents) (fs.documentMode q))
      | none     => fs.get? q := by
  induction docs generalizing fs with
  | nil => rfl
  | cons doc docs ih =>
    obtain ⟨hdoc, hdocs⟩ := List.forall_mem_cons.mp hne
    have hrest := ih (fs.put (fs.placeOf dir doc) doc.contents) hdocs
    rw [lastAt_put, documentMode_put] at hrest
    rw [putAll_cons, hrest, lastAt_cons]
    cases fs.lastAt dir docs q with
    | some last => rfl
    | none =>
      by_cases hq : fs.placeOf dir doc = q
      · subst hq
        rw [if_pos rfl]
        exact get?_set_self fs hdoc _
      · rw [if_neg hq]
        exact get?_put_of_ne fs (Ne.symm hq) _

end Put

end FileTree

/-! ### The run of a batch -/

/-- One document of a batch: the tree in which it is published, and how that ends. -/
structure Attempt where
  before : FileTree
  document : Document
  result : Except DocError String

namespace Attempt

/-- The document was written. -/
def succeeded (a : Attempt) : Bool :=
  a.result.isOk

/-- The document's entry in the list of failures, if it could not be written. -/
def failure? (a : Attempt) : Option (String × DocError) :=
  match a.result with
  | .ok _    => none
  | .error e => some (a.document.fileName, e)

end Attempt

/-- The documents of a batch, each with the tree in which it is published and the result. -/
def attempts (devices : Nat → Device) (fs : FileTree) (dir : String) :
    List Document → List Attempt
  | []          => []
  | doc :: docs =>
    let p := publish (devices 0) fs dir doc
    ⟨fs, doc, p.result⟩ :: attempts (fun n => devices (n + 1)) (p.final fs) dir docs

/-- The documents that were written, in their order. -/
def writtenDocuments (as : List Attempt) : List Document :=
  (as.filter Attempt.succeeded).map Attempt.document

/-- The documents that could not be written, in their order. -/
def failedDocuments (as : List Attempt) : List Document :=
  (as.filter fun a => !a.succeeded).map Attempt.document

@[simp] lemma writtenDocuments_nil : writtenDocuments [] = [] := rfl

@[simp] lemma writtenDocuments_cons_ok (fs : FileTree) (doc : Document) (path : String)
    (as : List Attempt) :
    writtenDocuments (⟨fs, doc, .ok path⟩ :: as) = doc :: writtenDocuments as := rfl

@[simp] lemma writtenDocuments_cons_error (fs : FileTree) (doc : Document) (e : DocError)
    (as : List Attempt) :
    writtenDocuments (⟨fs, doc, .error e⟩ :: as) = writtenDocuments as := rfl

/-- Every attempt ends in one of two ways. -/
lemma length_writtenDocuments_add (as : List Attempt) :
    (writtenDocuments as).length + (failedDocuments as).length = as.length := by
  rw [writtenDocuments, failedDocuments]
  rw [List.length_map, List.length_map]
  exact (List.length_eq_length_filter_add Attempt.succeeded).symm

lemma map_fst_failures (as : List Attempt) :
    (as.filterMap Attempt.failure?).map Prod.fst = (failedDocuments as).map Document.fileName := by
  induction as with
  | nil => rfl
  | cons a as ih =>
    obtain ⟨fs, doc, _ | _⟩ := a
    · exact congrArg (doc.fileName :: ·) ih
    · exact ih

namespace Publication

/-- What the attempt at one document means for the tree. -/
lemma final_eq (device : Device) (fs : FileTree) (dir : String) (doc : Document) :
    (∃ e, (publish device fs dir doc).result = .error e ∧
        (publish device fs dir doc).final fs = fs) ∨
      ((publish device fs dir doc).result = .ok (Path.join dir doc.fileName) ∧
        (publish device fs dir doc).final fs = fs.put (fs.placeOf dir doc) doc.contents ∧
        fs.placeOf dir doc ≠ []) := by
  rcases publish_cases device fs dir doc with ⟨e, hfails⟩ | ⟨place, hsucceeds⟩
  · exact .inl ⟨e, hfails.result, hfails.final⟩
  · have hplace : place = fs.placeOf dir doc := FileTree.eq_locate_of_place? hsucceeds.located
    subst hplace
    exact .inr ⟨hsucceeds.result, hsucceeds.final,
      FileTree.ne_nil_of_noDirectory hsucceeds.noDirectory⟩

end Publication

section Run

variable (devices : Nat → Device) (fs : FileTree) (dir : String)

lemma fst_publishEach_cons (doc : Document) (docs : List Document) :
    (publishEach devices fs dir (doc :: docs)).1 =
      (publishEach (fun n => devices (n + 1)) ((publish (devices 0) fs dir doc).final fs) dir
        docs).1 := by
  rw [publishEach]
  cases (publish (devices 0) fs dir doc).result <;> rfl

lemma map_document_attempts (docs : List Document) :
    (attempts devices fs dir docs).map Attempt.document = docs := by
  induction docs generalizing devices fs with
  | nil => rfl
  | cons doc docs ih => simp only [attempts, List.map_cons, ih]

/-- A failing document is passed over; one that is written is there for the documents behind it. -/
lemma attempts_cons (doc : Document) (docs : List Document) :
    (∃ e, (publish (devices 0) fs dir doc).result = .error e ∧
        (publish (devices 0) fs dir doc).final fs = fs ∧
        attempts devices fs dir (doc :: docs) =
          ⟨fs, doc, .error e⟩ :: attempts (fun n => devices (n + 1)) fs dir docs) ∨
      ((publish (devices 0) fs dir doc).result = .ok (Path.join dir doc.fileName) ∧
        (publish (devices 0) fs dir doc).final fs = fs.put (fs.placeOf dir doc) doc.contents ∧
        fs.placeOf dir doc ≠ [] ∧
        attempts devices fs dir (doc :: docs) =
          ⟨fs, doc, .ok (Path.join dir doc.fileName)⟩ ::
            attempts (fun n => devices (n + 1)) (fs.put (fs.placeOf dir doc) doc.contents) dir
              docs) := by
  rcases Publication.final_eq (devices 0) fs dir doc with
    ⟨e, hresult, hfinal⟩ | ⟨hresult, hfinal, hne⟩
  · refine .inl ⟨e, hresult, hfinal, ?_⟩
    simp only [attempts, hresult, hfinal]
  · refine .inr ⟨hresult, hfinal, hne, ?_⟩
    simp only [attempts, hresult, hfinal]

/-- The tree after a batch is the tree of the beginning with the documents that were written, and
the report lists these and the others. -/
lemma publishEach_eq (docs : List Document) :
    publishEach devices fs dir docs =
      (fs.putAll dir (writtenDocuments (attempts devices fs dir docs)),
        { written := (writtenDocuments (attempts devices fs dir docs)).map
            fun doc => Path.join dir doc.fileName
          failures := (attempts devices fs dir docs).filterMap Attempt.failure? }) := by
  induction docs generalizing devices fs with
  | nil => rfl
  | cons doc docs ih =>
    rcases attempts_cons devices fs dir doc docs with
      ⟨e, hresult, hfinal, hattempts⟩ | ⟨hresult, hfinal, _, hattempts⟩
    · simp only [publishEach, hresult, hfinal, ih, hattempts, writtenDocuments_cons_error]
      rfl
    · simp only [publishEach, hresult, hfinal, ih, hattempts, writtenDocuments_cons_ok]
      rfl

/-- A document meets the tree with the earlier documents that were written. -/
lemma attempts_eq_append {docs : List Document} {pre post : List Attempt} {a : Attempt}
    (h : attempts devices fs dir docs = pre ++ a :: post) :
    a.before = fs.putAll dir (writtenDocuments pre) ∧
      a.result = (publish (devices pre.length) a.before dir a.document).result := by
  induction docs generalizing devices fs pre with
  | nil => simp [attempts] at h
  | cons doc docs ih =>
    cases pre with
    | nil =>
      obtain ⟨rfl, _⟩ := List.cons.inj h
      exact ⟨rfl, rfl⟩
    | cons b pre =>
      rcases attempts_cons devices fs dir doc docs with
        ⟨e, _, _, hattempts⟩ | ⟨_, _, _, hattempts⟩
      · rw [hattempts] at h
        obtain ⟨rfl, htail⟩ := List.cons.inj h
        exact ih (fun n => devices (n + 1)) fs htail
      · rw [hattempts] at h
        obtain ⟨rfl, htail⟩ := List.cons.inj h
        exact ih (fun n => devices (n + 1)) (fs.put (fs.placeOf dir doc) doc.contents) htail

lemma placeOf_ne_nil_of_mem_writtenDocuments (docs : List Document) :
    ∀ doc ∈ writtenDocuments (attempts devices fs dir docs), fs.placeOf dir doc ≠ [] := by
  induction docs generalizing devices fs with
  | nil => simp [attempts]
  | cons doc docs ih =>
    rcases attempts_cons devices fs dir doc docs with
      ⟨e, _, _, hattempts⟩ | ⟨_, _, hne, hattempts⟩
    · rw [hattempts, writtenDocuments_cons_error]
      exact ih _ fs
    · rw [hattempts, writtenDocuments_cons_ok, List.forall_mem_cons]
      exact ⟨hne, ih _ (fs.put (fs.placeOf dir doc) doc.contents)⟩

end Run

/-! ### The output directory -/

lemma fst_ensureDirectory (fs : FileTree) (dir : String) (refused : String → Option IoError) :
    (ensureDirectory fs dir refused).1 = (fs.makeDirectories dir refused).1 := by
  rw [ensureDirectory]
  obtain ⟨fs', e | _⟩ := fs.makeDirectories dir refused <;> rfl

lemma ensureDirectory_of_isDirectory {fs : FileTree} {dir : String} (h : fs.isDirectory dir)
    (refused : String → Option IoError) : ensureDirectory fs dir refused = (fs, .ok ()) := by
  rw [ensureDirectory, FileTree.makeDirectories_of_isDirectory h]

lemma isDirectory_ensureDirectory {fs fs' : FileTree} {dir : String}
    (hdir : Path.ancestors dir ≠ []) {refused : String → Option IoError}
    (h : ensureDirectory fs dir refused = (fs', .ok ())) : fs'.isDirectory dir := by
  rw [ensureDirectory] at h
  split at h
  · rename_i hmade
    cases h
    exact FileTree.isDirectory_makeDirectories hdir hmade
  · cases h

section PublishAll

variable {devices : Nat → Device} {fs made : FileTree} {dir : String}

lemma publishAll_of_error {e : DocError}
    (h : ensureDirectory fs dir (devices 0).makeDirectory = (made, .error e))
    (docs : List Document) :
    publishAll devices fs dir docs =
      (made, { failures := docs.map fun d => (d.fileName, .other e.message) }) := by
  rw [publishAll, h]

lemma publishAll_of_ok (h : ensureDirectory fs dir (devices 0).makeDirectory = (made, .ok ()))
    (docs : List Document) :
    publishAll devices fs dir docs = publishEach devices made dir docs := by
  rw [publishAll, h]

end PublishAll

/-- A batch of documents either gets no output directory and reports every document as failed, or
each document is attempted in its turn: the tree at the end is the one in which just the successful
ones were put at their places, each place holds the last of those that belong there and else what
it held before, and the report lists the documents that were written and the others, in their
order. A directory that is there need not be made, and one that is made is there. -/
theorem publishAll_accounts (devices : Nat → Device) (fs : FileTree) (dir : String)
    (docs : List Document) :
    let made := ensureDirectory fs dir (devices 0).makeDirectory
    let (tree, report) := publishAll devices fs dir docs
    FileTree.GrowsBy (Path.ancestors dir) fs made.1 ∧
    (fs.isDirectory dir → made = (fs, .ok ())) ∧
    match made.2 with
    | .error _ =>
      tree = made.1 ∧ report.written = [] ∧
        report.failures.map Prod.fst = docs.map Document.fileName
    | .ok () =>
      let as := attempts devices made.1 dir docs
      (Path.ancestors dir ≠ [] → made.1.isDirectory dir) ∧
      as.map Attempt.document = docs ∧
      report.written = (writtenDocuments as).map (fun doc => Path.join dir doc.fileName) ∧
      report.failures.map Prod.fst = (failedDocuments as).map Document.fileName ∧
      tree = made.1.putAll dir (writtenDocuments as) ∧
      (∀ q, tree.get? q =
        match made.1.lastAt dir (writtenDocuments as) q with
        | some doc => some (.file (.text doc.contents) (made.1.documentMode q))
        | none     => made.1.get? q) ∧
      (∀ q e, fs.get? q = some e → made.1.lastAt dir (writtenDocuments as) q = none →
        tree.get? q = some e) ∧
      ∀ pre a post, as = pre ++ a :: post →
        a.before = made.1.putAll dir (writtenDocuments pre) ∧
        a.result = (publish (devices pre.length) a.before dir a.document).result := by
  have hgrows : FileTree.GrowsBy (Path.ancestors dir) fs
      (ensureDirectory fs dir (devices 0).makeDirectory).1 := by
    rw [fst_ensureDirectory]
    exact FileTree.growsBy_makeDirectories fs dir _
  have hpresent : fs.isDirectory dir →
      ensureDirectory fs dir (devices 0).makeDirectory = (fs, .ok ()) :=
    fun h => ensureDirectory_of_isDirectory h _
  have hthere (fs' : FileTree) (hdir : Path.ancestors dir ≠ []) :
      ensureDirectory fs dir (devices 0).makeDirectory = (fs', .ok ()) → fs'.isDirectory dir :=
    isDirectory_ensureDirectory hdir
  rw [publishAll]
  generalize ensureDirectory fs dir (devices 0).makeDirectory = made at hgrows hpresent hthere ⊢
  obtain ⟨fs', e | _⟩ := made
  · refine ⟨hgrows, hpresent, rfl, rfl, ?_⟩
    rw [List.map_map]
    rfl
  · dsimp only
    rw [publishEach_eq]
    have hentries := fs'.get?_putAll dir
      (placeOf_ne_nil_of_mem_writtenDocuments devices fs' dir docs)
    refine ⟨hgrows, hpresent, fun h => hthere fs' h rfl, map_document_attempts devices fs' dir docs,
      rfl, map_fst_failures _, rfl, hentries, ?_, ?_⟩
    · intro q e he hlast
      rw [hentries q, hlast]
      exact hgrows.get?_eq_some he
    · intro pre a post h
      exact attempts_eq_append devices fs' dir h

end ServiceDocs
