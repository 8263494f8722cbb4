import ServiceDocs.Proofs.Generation.Plan
import ServiceDocs.Run

/-!
# Outcomes of generations

A generation either changes nothing, or it writes the documents of its plan, and then what it
reports is what the tree shows.
-/

namespace ServiceDocs.Command

/-- The line that reports a document that could not be written. -/
def failureNotice (failure : String × DocError) : Notice :=
  .failure (failure.1 ++ ": " ++ failure.2.message)

/-! ### The ways to end -/

section Ends

variable (devices : Nat → Device) {fs : FileTree} {env : Environment} {type : String}
  {method : Option String} {overrides : Overrides} {settingsFile : Option String} {g : Generation}

lemma runGenerate_of_plan_error {e : CommandError}
    (h : Generation.plan fs env settingsFile overrides type method = .error e) :
    runGenerate devices fs env type method overrides settingsFile = .failed fs e := by
  rw [runGenerate]
  rw [h]

lemma runGenerate_of_no_documents
    (h : Generation.plan fs env settingsFile overrides type method = .ok g)
    (hnone : g.documents = []) :
    let outcome := runGenerate devices fs env type method overrides settingsFile
    outcome.result = .ok () ∧ outcome.tree = fs := by
  rw [runGenerate]
  simp [h, hnone]

lemma runGenerate_of_isSuccess
    (h : Generation.plan fs env settingsFile overrides type method = .ok g)
    (hsome : g.documents ≠ []) (hsuccess : (g.publish devices fs).2.isSuccess) :
    let outcome := runGenerate devices fs env type method overrides settingsFile
    outcome.result = .ok () ∧ outcome.tree = (g.publish devices fs).1 := by
  rw [runGenerate]
  simp [h, hsome, hsuccess]

lemma runGenerate_of_failures
    (h : Generation.plan fs env settingsFile overrides type method = .ok g)
    (hsome : g.documents ≠ []) (hfailures : ¬ (g.publish devices fs).2.isSuccess) :
    runGenerate devices fs env type method overrides settingsFile =
      { tree := (g.publish devices fs).1
        notices := (g.publish devices fs).2.failures.map failureNotice
        result := .error
          (.writeFailed (g.publish devices fs).2.failures.length g.documents.length) } := by
  rw [runGenerate]
  simp only [h, List.isEmpty_iff, hsome, hfailures, if_false]
  rfl

lemma runGenerate_of_documents
    (h : Generation.plan fs env settingsFile overrides type method = .ok g)
    (hsome : g.documents ≠ []) :
    let outcome := runGenerate devices fs env type method overrides settingsFile
    let published := g.publish devices fs
    outcome.tree = published.1 ∧ outcome.result =
      if published.2.isSuccess then .ok ()
      else .error (.writeFailed published.2.failures.length g.documents.length) := by
  dsimp only
  by_cases hsuccess : (g.publish devices fs).2.isSuccess
  · obtain ⟨hresult, htree⟩ := runGenerate_of_isSuccess devices h hsome hsuccess
    rw [if_pos hsuccess]
    exact ⟨htree, hresult⟩
  · rw [if_neg hsuccess, runGenerate_of_failures devices h hsome hsuccess]
    exact ⟨rfl, rfl⟩

end Ends

/-! ### The report and the tree -/

section Published

variable (devices : Nat → Device) (fs : FileTree) {g : Generation}

/-- A batch without failures has written every document. -/
lemma readText_of_isSuccess (hdistinct : DistinctEntries g.documents)
    (hsuccess : (g.publish devices fs).2.isSuccess) :
    ∀ doc ∈ g.documents,
      (g.publish devices fs).1.readText (Path.join g.outDirectory doc.fileName)
        = .ok doc.contents := by
  intro doc hdoc
  rw [← map_document_attemptsIn devices fs g.outDirectory g.documents] at hdoc
  obtain ⟨a, ha, rfl⟩ := List.mem_map.mp hdoc
  have hsettled := settledIn_publishAll devices fs g.outDirectory hdistinct a ha
  have hnone : a.failure? = none := by
    have hfailures : (g.publish devices fs).2.failures = [] := by
      simpa [BatchReport.isSuccess] using hsuccess
    rw [Generation.publish] at hfailures
    rw [failures_publishAll, List.filterMap_eq_nil_iff] at hfailures
    exact hfailures a ha
  obtain ⟨before, doc, e | path⟩ := a
  · cases hnone
  · obtain ⟨p, m, hentry⟩ := hsettled
    exact FileTree.readText_eq_ok_iff.mpr ⟨p, m, FileTree.find?_of_noLink hentry (by simp)⟩

/-- The failures that are reported are those of the attempts, and the other documents were
written. -/
lemma length_failures :
    (g.publish devices fs).2.failures.length =
        (failedDocuments (attemptsIn devices fs g.outDirectory g.documents)).length ∧
      (writtenDocuments (attemptsIn devices fs g.outDirectory g.documents)).length =
        g.documents.length - (g.publish devices fs).2.failures.length := by
  have hfailed : (g.publish devices fs).2.failures.length =
      (failedDocuments (attemptsIn devices fs g.outDirectory g.documents)).length := by
    have hnames := congrArg List.length
      (map_fst_failures (attemptsIn devices fs g.outDirectory g.documents))
    rw [List.length_map, List.length_map] at hnames
    rw [← hnames]
    exact congrArg List.length (failures_publishAll devices fs g.outDirectory g.documents)
  have htotal := length_writtenDocuments_add (attemptsIn devices fs g.outDirectory g.documents)
  have hlength : (attemptsIn devices fs g.outDirectory g.documents).length =
      g.documents.length := by
    rw [← List.length_map, map_document_attemptsIn]
  exact ⟨hfailed, by omega⟩

end Published

/-- A generation that fails for another reason than a failing write could not be planned and has
changed nothing. One that reports failing writes has attempted every document, has written those
that it does not report, and has left the targets of the others as they were. One that succeeds
has written every document, unless the type declares no methods; then it has changed nothing. -/
theorem runGenerate_accounts (devices : Nat → Device) (fs : FileTree) (env : Environment)
    (type : String) (method : Option String) (overrides : Overrides)
    (settingsFile : Option String) :
    let plan := Generation.plan fs env settingsFile overrides type method
    let outcome := runGenerate devices fs env type method overrides settingsFile
    match outcome.result with
    | .ok () =>
      ∃ g, plan = .ok g ∧
        ((g.documents = [] ∧ outcome.tree = fs ∧ method = none ∧ ∃ settings catalog,
            Settings.load fs env settingsFile overrides = .ok settings ∧
            Catalog.ofSources fs settings.sources = .ok catalog ∧
            catalog.source.methodsOf type = .ok []) ∨
          (g.documents ≠ [] ∧ ∀ doc ∈ g.documents,
            outcome.tree.readText (Path.join g.outDirectory doc.fileName) = .ok doc.contents))
    | .error (.writeFailed failed total) =>
      ∃ g, plan = .ok g ∧ total = g.documents.length ∧ 1 ≤ failed ∧
        let as := attemptsIn devices fs g.outDirectory g.documents
        as.map Attempt.document = g.documents ∧
        (failedDocuments as).length = failed ∧ (writtenDocuments as).length = total - failed ∧
        outcome.notices = (as.filterMap Attempt.failure?).map failureNotice ∧
        ∀ a ∈ as, a.SettledIn g.outDirectory outcome.tree
    | .error e => plan = .error e ∧ outcome.tree = fs := by
  intro plan outcome
  cases hplan : plan with
  | error e =>
    have houtcome : outcome = .failed fs e := runGenerate_of_plan_error devices hplan
    rw [houtcome]
    cases e with
    | writeFailed failed total => exact absurd hplan (Generation.plan_ne_writeFailed failed total)
    | _ => exact ⟨rfl, rfl⟩
  | ok g =>
    have hdistinct := Generation.distinctEntries_documents hplan
    by_cases hnone : g.documents = []
    · obtain ⟨hresult, htree⟩ := runGenerate_of_no_documents devices hplan hnone
      rw [hresult]
      exact ⟨g, rfl, .inl ⟨hnone, htree, Generation.declares_no_methods hplan hnone⟩⟩
    by_cases hsuccess : (g.publish devices fs).2.isSuccess
    · obtain ⟨hresult, htree⟩ := runGenerate_of_isSuccess devices hplan hnone hsuccess
      rw [hresult]
      refine ⟨g, rfl, .inr ⟨hnone, ?_⟩⟩
      rw [htree]
      exact readText_of_isSuccess devices fs hdistinct hsuccess
    · have houtcome : outcome = _ := runGenerate_of_failures devices hplan hnone hsuccess
      obtain ⟨hfailed, hwritten⟩ := length_failures devices fs
      have hfailures := failures_publishAll devices fs g.outDirectory g.documents
      rw [houtcome]
      refine ⟨g, rfl, rfl, ?_, map_document_attemptsIn devices fs _ _, hfailed.symm, hwritten,
        congrArg (List.map failureNotice) hfailures,
        settledIn_publishAll devices fs g.outDirectory hdistinct⟩
      rw [Nat.one_le_iff_ne_zero]
      intro hzero
      exact hsuccess (by simp [BatchReport.isSuccess, List.length_eq_zero_iff.mp hzero])

end ServiceDocs.Command
