import ServiceDocs.Proofs.FileTree.Join
import ServiceDocs.Proofs.Publication.Batch

/-!
# Batches of distinct documents

When the documents of a batch are different entries of the output directory, none of them can be
seen at the target of another one. What a document has been given in its turn is then still there
at the end: a document that was written can be read, and the target of one that was not is what
it was.
-/

namespace ServiceDocs

/-- The documents are different entries of their directory. -/
structure DistinctEntries (docs : List Document) : Prop where
  nodup : (docs.map Document.fileName).Nodup
  isEntryName : ∀ doc ∈ docs, Path.IsEntryName doc.fileName

lemma DistinctEntries.of_cons {doc : Document} {docs : List Document}
    (h : DistinctEntries (doc :: docs)) : DistinctEntries docs where
  nodup := (List.nodup_cons.mp h.nodup).2
  isEntryName := fun d hd => h.isEntryName d (List.mem_cons_of_mem doc hd)

/-- A tree shows what became of a document: its target is a file that holds the document, or the
entry that it was when the document could not be written. -/
def Attempt.SettledIn (a : Attempt) (dir : String) (tree : FileTree) : Prop :=
  match a.result with
  | .ok _    =>
    ∃ p m, tree.entryAt? (Path.join dir a.document.fileName)
      = .ok (p, .file (.text a.document.contents) m)
  | .error _ =>
    tree.entryAt? (Path.join dir a.document.fileName)
      = a.before.entryAt? (Path.join dir a.document.fileName)

section Run

variable (devices : Nat → Device) (fs : FileTree) (dir : String)

/-- A publication cannot be seen at another entry of the directory. -/
lemma entryAt?_final_publish (device : Device) {doc : Document} {name : String}
    (hdoc : Path.IsEntryName doc.fileName) (hname : Path.IsEntryName name)
    (hne : name ≠ doc.fileName) :
    ((publish device fs dir doc).final fs).entryAt? (Path.join dir name) =
      fs.entryAt? (Path.join dir name) := by
  rcases Publication.publish_cases device fs dir doc with ⟨e, hfails⟩ | ⟨place, hsucceeds⟩
  · rw [hfails.final]
  · rw [hsucceeds.final]
    exact FileTree.entryAt?_join_set hdoc hsucceeds.located hsucceeds.noDirectory hname hne _

lemma entryAt?_publishEach {docs : List Document} {name : String} (hname : Path.IsEntryName name)
    (hdocs : ∀ doc ∈ docs, Path.IsEntryName doc.fileName ∧ name ≠ doc.fileName) :
    (publishEach devices fs dir docs).1.entryAt? (Path.join dir name) =
      fs.entryAt? (Path.join dir name) := by
  induction docs generalizing devices fs with
  | nil => rfl
  | cons doc docs ih =>
    obtain ⟨⟨hdoc, hne⟩, hdocs⟩ := List.forall_mem_cons.mp hdocs
    rw [fst_publishEach_cons, ih _ _ hdocs]
    exact entryAt?_final_publish fs dir (devices 0) hdoc hname hne

/-- The publication of a document leaves its target settled. -/
lemma settledIn_final (device : Device) (doc : Document) :
    Attempt.SettledIn ⟨fs, doc, (publish device fs dir doc).result⟩ dir
      ((publish device fs dir doc).final fs) := by
  rcases Publication.publish_cases device fs dir doc with ⟨e, hfails⟩ | ⟨place, hsucceeds⟩
  · rw [hfails.result, hfails.final]
    rfl
  · have hentry := FileTree.entryAt?_put hsucceeds.located hsucceeds.noSlash hsucceeds.noDirectory
      doc.contents
    rw [hsucceeds.result, hsucceeds.final]
    exact ⟨_, _, hentry⟩

lemma Attempt.SettledIn.congr {a : Attempt} {dir : String} {tree tree' : FileTree}
    (h : a.SettledIn dir tree)
    (heq : tree'.entryAt? (Path.join dir a.document.fileName) =
      tree.entryAt? (Path.join dir a.document.fileName)) : a.SettledIn dir tree' := by
  rw [SettledIn, heq]
  exact h

/-- At the end of a batch of distinct documents all of them are settled. -/
theorem settledIn_publishEach {docs : List Document} (hdistinct : DistinctEntries docs) :
    ∀ a ∈ attempts devices fs dir docs, a.SettledIn dir (publishEach devices fs dir docs).1 := by
  induction docs generalizing devices fs with
  | nil => simp [attempts]
  | cons doc docs ih =>
    rw [fst_publishEach_cons, attempts, List.forall_mem_cons]
    refine ⟨?_, ih _ _ hdistinct.of_cons⟩
    have hnames := (List.nodup_cons.mp hdistinct.nodup).1
    apply (settledIn_final fs dir (devices 0) doc).congr
    apply entryAt?_publishEach _ _ _ (hdistinct.isEntryName doc List.mem_cons_self)
    intro other hother
    refine ⟨hdistinct.isEntryName other (List.mem_cons_of_mem doc hother), fun heq => ?_⟩
    exact hnames (heq ▸ List.mem_map_of_mem hother)

/-! ### Batches with their directory -/

/-- The attempts at a batch together with its directory. Where the directory cannot be made, no
document can be written. -/
def attemptsIn (docs : List Document) : List Attempt :=
  match ensureDirectory fs dir (devices 0).makeDirectory with
  | (fs, .error e) => docs.map fun doc => ⟨fs, doc, .error (.other e.message)⟩
  | (fs, .ok ())   => attempts devices fs dir docs

lemma map_document_attemptsIn (docs : List Document) :
    (attemptsIn devices fs dir docs).map Attempt.document = docs := by
  rw [attemptsIn]
  obtain ⟨made, e | _⟩ := ensureDirectory fs dir (devices 0).makeDirectory
  · simp [Function.comp_def]
  · exact map_document_attempts devices made dir docs

lemma failures_publishAll (docs : List Document) :
    (publishAll devices fs dir docs).2.failures =
      (attemptsIn devices fs dir docs).filterMap Attempt.failure? := by
  rw [publishAll, attemptsIn]
  obtain ⟨made, e | _⟩ := ensureDirectory fs dir (devices 0).makeDirectory
  · simp [List.filterMap_map, Function.comp_def, Attempt.failure?]
  · dsimp only
    rw [publishEach_eq]

/-- All documents of a batch of distinct ones are settled at the end. -/
theorem settledIn_publishAll {docs : List Document} (hdistinct : DistinctEntries docs) :
    ∀ a ∈ attemptsIn devices fs dir docs, a.SettledIn dir (publishAll devices fs dir docs).1 := by
  rw [publishAll, attemptsIn]
  obtain ⟨made, e | _⟩ := ensureDirectory fs dir (devices 0).makeDirectory
  · rw [List.forall_mem_map]
    intro doc _
    rfl
  · exact settledIn_publishEach devices made dir hdistinct

end Run

end ServiceDocs
