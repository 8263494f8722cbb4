import ServiceDocs.Catalog.Index
import ServiceDocs.Proofs.Catalog.Insertion

/-!
# Indexes in step

Whatever calls are made, the names and the table of an index stay in step and say what the catalog
says. What has been added stays where it is, and a call that fails has added nothing.
-/

namespace ServiceDocs

/-! ### What calls find -/

namespace IndexCall

/-- The declarations in a file; none if it cannot be read. -/
def foundIn (fs : FileTree) (path : String) : List Declaration :=
  match fs.readText path with
  | .ok text => Catalog.declarationsOf path text
  | .error _ => []

/-- The declarations that a call finds, repeated names included. -/
def found : IndexCall → List Declaration
  | .addSource path text => Catalog.declarationsOf path text
  | .addFile fs path     => foundIn fs path
  | .addPath fs path     =>
    match fs.find? path with
    | .ok (p, .directory _) => (Catalog.sourcesBelow fs path p).flatMap (foundIn fs)
    | .ok _                 => foundIn fs path
    | .error _              => []

end IndexCall

/-! ### The index of a catalog -/

namespace Index

variable {c c' : Catalog}

lemma insert_index (c : Catalog) (d : Declaration) : c.index.insert d = (c.insert d).index := by
  by_cases h : d.name ∈ c.names
  · obtain ⟨e, he⟩ := Option.isSome_iff_exists.mp (Catalog.get?_isSome_iff.mpr h)
    have htable : c.index.table d.name = some e := he
    rw [insert, htable, Catalog.insert_of_mem h]
  have hnone : c.get? d.name = none := by
    rw [← Option.not_isSome_iff_eq_none, Catalog.get?_isSome_iff]
    exact h
  have htable : c.index.table d.name = none := hnone
  have horder : c.names ++ [d.name] = (c.insert d).names :=
    (Catalog.names_insert_of_notMem h).symm
  have hget : (fun name => if name = d.name then some d else c.get? name) = (c.insert d).get? := by
    funext name
    rw [Catalog.insert_of_notMem h]
    by_cases hname : name = d.name
    · subst hname
      rw [Catalog.get?] at hnone
      rw [if_pos rfl, Catalog.get?, List.find?_append, hnone]
      simp
    · rw [if_neg hname, Catalog.get?, Catalog.get?, List.find?_append]
      simp [Ne.symm hname]
  rw [insert, htable]
  exact congrArg₂ Index.mk horder hget

/-! ### Steps -/

section Steps

variable {α β : Type} (ix : Index)

lemma state_bind_run (x : StateM Index α) (f : α → StateM Index β) :
    (x >>= f) ix = f (x ix).1 (x ix).2 := rfl

lemma bind_run (x : Step α) (f : α → Step β) :
    (x >>= f) ix = match x ix with
      | (.ok a, ix')    => f a ix'
      | (.error e, ix') => (.error e, ix') := by
  have hrun := congrFun (ExceptT.run_bind x f) ix
  rw [state_bind_run, ExceptT.run, ExceptT.run] at hrun
  refine hrun.trans ?_
  rcases x ix with ⟨e | a, ix'⟩ <;> rfl

lemma tryCatch_run (x : Step α) (f : DocError → Step α) :
    (tryCatch x f) ix = match x ix with
      | (.ok a, ix')    => (.ok a, ix')
      | (.error e, ix') => f e ix' := by
  have hrun := congrFun (ExceptT.run_tryCatch x f) ix
  rw [state_bind_run, ExceptT.run, ExceptT.run] at hrun
  refine hrun.trans ?_
  rcases x ix with ⟨e | a, ix'⟩ <;> rfl

lemma pure_run (a : α) : (pure a : Step α) ix = (.ok a, ix) := rfl

lemma modify_run (f : Index → Index) : (modify f : Step PUnit) ix = (.ok ⟨⟩, f ix) := rfl

end Steps

lemma addAll_index (c : Catalog) (ds : List Declaration) :
    addAll ds c.index = (.ok ds.length, (c.insertAll ds).index) := by
  have hforM : ∀ c : Catalog, (forM ds fun d => modify (·.insert d) : Step PUnit) c.index =
      (.ok ⟨⟩, (c.insertAll ds).index) := by
    induction ds with
    | nil => exact fun c => rfl
    | cons d ds ih =>
      intro c
      rw [List.forM_cons, bind_run, modify_run, insert_index]
      exact ih (c.insert d)
  rw [addAll, bind_run, hforM]
  rfl

lemma addFile_index (c : Catalog) (fs : FileTree) (path : String) :
    addFile fs path c.index = match c.addFile fs path with
      | .ok (c', n) => (.ok n, c'.index)
      | .error e    => (.error e, c.index) := by
  rw [addFile, Catalog.addFile]
  cases fs.readText path with
  | ok text => exact addAll_index c _
  | error e => rfl

lemma addReadable_index (c : Catalog) (fs : FileTree) (paths : List String) :
    addReadable fs paths c.index =
      (.ok (c.addReadable fs paths).2, (c.addReadable fs paths).1.index) := by
  induction paths generalizing c with
  | nil => rfl
  | cons path paths ih =>
    rw [addReadable, Catalog.addReadable, bind_run, tryCatch_run, addFile_index]
    cases c.addFile fs path with
    | ok added =>
      simp only [bind_run, ih]
      rfl
    | error e =>
      simp only [bind_run, pure_run, ih, Nat.zero_add]

lemma addPath_index (c : Catalog) (fs : FileTree) (path : String) :
    addPath fs path c.index = match c.addPath fs path with
      | .ok (c', n) => (.ok n, c'.index)
      | .error e    => (.error e, c.index) := by
  rw [addPath, Catalog.addPath]
  rcases fs.find? path with e | ⟨p, entry⟩
  · rfl
  · cases entry with
    | directory mode => exact addReadable_index c fs _
    | _ => exact addFile_index c fs path

/-- A call does to the index of a catalog what it does to the catalog. If it fails, it leaves the
index as it is. -/
lemma run_index (c : Catalog) (call : IndexCall) :
    call.run c.index = match call.runCatalog c with
      | .ok (c', n) => (.ok n, c'.index)
      | .error e    => (.error e, c.index) := by
  cases call with
  | addSource path text => exact addAll_index c _
  | addFile fs path => exact addFile_index c fs path
  | addPath fs path => exact addPath_index c fs path

lemma after_index (c : Catalog) (calls : List IndexCall) :
    c.index.after calls = (c.after calls).index := by
  induction calls generalizing c with
  | nil => rfl
  | cons call calls ih =>
    rw [after, Catalog.after, List.foldl_cons, List.foldl_cons, run_index]
    cases call.runCatalog c with
    | error e => exact ih c
    | ok added => exact ih added.1

end Index

/-! ### What a call adds -/

namespace Catalog

variable {c c' : Catalog} {n : ℕ}

lemma addFile_eq_ok {fs : FileTree} {path : String} (h : c.addFile fs path = .ok (c', n)) :
    c' = c.insertAll (IndexCall.foundIn fs path) ∧ n = (IndexCall.foundIn fs path).length := by
  rw [addFile] at h
  rw [IndexCall.foundIn]
  cases hread : fs.readText path with
  | ok text =>
    simp only [hread, Except.ok.injEq, Prod.mk.injEq] at h
    exact ⟨h.1.symm, h.2.symm⟩
  | error e => simp [hread] at h

lemma addFile_eq_error {fs : FileTree} {path : String} {e : DocError}
    (h : c.addFile fs path = .error e) : IndexCall.foundIn fs path = [] := by
  rw [addFile] at h
  rw [IndexCall.foundIn]
  cases hread : fs.readText path with
  | ok text => simp [hread] at h
  | error e => rfl

lemma addReadable_eq (c : Catalog) (fs : FileTree) (paths : List String) :
    c.addReadable fs paths = (c.insertAll (paths.flatMap (IndexCall.foundIn fs)),
      (paths.flatMap (IndexCall.foundIn fs)).length) := by
  induction paths generalizing c with
  | nil => rfl
  | cons path paths ih =>
    rw [addReadable, List.flatMap_cons]
    cases hadd : c.addFile fs path with
    | ok added =>
      obtain ⟨hcatalog, hnumber⟩ := addFile_eq_ok hadd
      simp only [ih, insertAll_append, List.length_append, ← hcatalog, ← hnumber]
    | error e =>
      rw [addFile_eq_error hadd, List.nil_append]
      exact ih c

/-- A call that succeeds inserts the declarations that it finds, and counts them. -/
lemma runCatalog_eq_ok {call : IndexCall} (h : call.runCatalog c = .ok (c', n)) :
    c' = c.insertAll call.found ∧ n = call.found.length := by
  cases call with
  | addSource path text =>
    cases h
    exact ⟨rfl, rfl⟩
  | addFile fs path => exact addFile_eq_ok h
  | addPath fs path =>
    rw [IndexCall.runCatalog, addPath] at h
    rw [IndexCall.found]
    rcases hfind : fs.find? path with e | ⟨p, entry⟩
    · simp [hfind] at h
    · cases entry with
      | directory mode =>
        simp only [hfind, addReadable_eq, Except.ok.injEq, Prod.mk.injEq] at h
        exact ⟨h.1.symm, h.2.symm⟩
      | _ =>
        simp only [hfind] at h
        exact addFile_eq_ok h

lemma prefix_after (c : Catalog) (calls : List IndexCall) :
    c.declarations <+: (c.after calls).declarations := by
  induction calls generalizing c with
  | nil => exact List.prefix_rfl
  | cons call calls ih =>
    rw [after, List.foldl_cons]
    cases hrun : call.runCatalog c with
    | error e => exact ih c
    | ok added =>
      obtain ⟨hcatalog, _⟩ := runCatalog_eq_ok hrun
      have hadded : c.declarations <+: added.1.declarations := by
        rw [hcatalog]
        exact prefix_insertAll c _
      exact hadded.trans (ih added.1)

lemma nodup_names_after (hc : c.names.Nodup) (calls : List IndexCall) :
    (c.after calls).names.Nodup := by
  induction calls generalizing c with
  | nil => exact hc
  | cons call calls ih =>
    rw [after, List.foldl_cons]
    cases hrun : call.runCatalog c with
    | error e => exact ih hc
    | ok added =>
      obtain ⟨hcatalog, _⟩ := runCatalog_eq_ok hrun
      have hadded : added.1.names.Nodup := by
        rw [hcatalog]
        exact nodup_names_insertAll hc
      exact ih hadded

end Catalog

namespace Index

/-- Those of the declarations whose name is there when they are inserted in order. -/
def passedOver (ix : Index) : List Declaration → List Declaration
  | []      => []
  | d :: ds =>
    if (ix.table d.name).isSome then d :: passedOver ix ds
    else passedOver (ix.insert d) ds

lemma size_insertAll_add (c : Catalog) (ds : List Declaration) :
    (c.insertAll ds).size + (c.index.passedOver ds).length = c.size + ds.length := by
  induction ds generalizing c with
  | nil => rfl
  | cons d ds ih =>
    rw [passedOver]
    split_ifs with h
    · have hmem : d.name ∈ c.names := Catalog.get?_isSome_iff.mp h
      have hrest := ih c
      rw [Catalog.insertAll, List.foldl_cons, Catalog.insert_of_mem hmem]
      rw [Catalog.insertAll] at hrest
      simp only [List.length_cons]
      omega
    · have hnot : d.name ∉ c.names := mt Catalog.get?_isSome_iff.mpr h
      have hrest := ih (c.insert d)
      have hsize : (c.insert d).size = c.size + 1 := by
        rw [Catalog.insert_of_notMem hnot]
        exact List.length_append
      rw [insert_index, Catalog.insertAll, List.foldl_cons]
      rw [Catalog.insertAll, hsize] at hrest
      simp only [List.length_cons]
      omega

/-- Whatever calls are made, no name is repeated in the order, the names in the order are those in
the table, each declaration is found under its own name, and there are as many declarations as
names. A declaration that is found stays where it is. A call that fails leaves the index as it is;
one that succeeds counts the declarations that it finds, and those that are passed over are the
ones whose name is already there. The index says what the catalog says. -/
theorem after_in_step (calls : List IndexCall) :
    let ix := Index.after {} calls
    let c := Catalog.after {} calls
    (ix.order.Nodup ∧ (∀ name, name ∈ ix.order ↔ (ix.table name).isSome) ∧
      (∀ name d, ix.table name = some d → d.name = name) ∧ ix.types.length = ix.size) ∧
    (∀ later name d (i : ℕ), ix.table name = some d → ix.order[i]? = some name →
      (ix.after later).table name = some d ∧ (ix.after later).order[i]? = some name ∧
        ix.types[i]? = some d ∧ (ix.after later).types[i]? = some d) ∧
    (∀ call : IndexCall, match call.run ix with
      | (.error _, ix')  => ix' = ix
      | (.ok count, ix') => count = call.found.length ∧
        ix'.size + (ix.passedOver call.found).length = ix.size + count) ∧
    (ix.order = c.names ∧ ix.types = c.declarations ∧ (∀ name, ix.table name = c.get? name) ∧
      ∀ call : IndexCall, (call.run ix).1 = (call.runCatalog c).map Prod.snd) := by
  intro ix c
  have hix : ix = c.index := after_index {} calls
  have hnodup : c.names.Nodup := Catalog.nodup_names_after (c := {}) List.nodup_nil calls
  have htypes : c.index.types = c.declarations := Catalog.filterMap_get?_names hnodup
  rw [hix]
  refine ⟨⟨hnodup, fun name => Catalog.get?_isSome_iff.symm, ?_, ?_⟩, ?_, ?_,
    rfl, htypes, fun name => rfl, ?_⟩
  · intro name d h
    exact Catalog.name_of_get? h
  · rw [htypes]
    exact (List.length_map _).symm
  · intro later name d i htable hi
    have hstart : c.declarations <+: (c.after later).declarations := Catalog.prefix_after c later
    have hnodup' : (c.after later).names.Nodup := Catalog.nodup_names_after hnodup later
    have htypes' : (c.after later).index.types = (c.after later).declarations :=
      Catalog.filterMap_get?_names hnodup'
    have hd : c.declarations[i]? = some d := Catalog.getElem?_declarations hnodup htable hi
    have hd' : (c.after later).declarations[i]? = some d := getElem?_of_isPrefix hstart hd
    rw [after_index, htypes, htypes']
    refine ⟨Catalog.get?_of_isPrefix hstart htable, ?_, hd, hd'⟩
    exact getElem?_of_isPrefix (hstart.map _) hi
  · intro call
    rw [run_index]
    cases hrun : call.runCatalog c with
    | error e => rfl
    | ok added =>
      obtain ⟨hcatalog, hcount⟩ := Catalog.runCatalog_eq_ok hrun
      have hsize := size_insertAll_add c call.found
      rw [← hcatalog, ← hcount] at hsize
      have hlength : ∀ c : Catalog, c.index.size = c.size := fun c => List.length_map _
      simp only [hlength]
      exact ⟨hcount, hsize⟩
  · intro call
    rw [run_index]
    cases call.runCatalog c with
    | error e => rfl
    | ok added => rfl

end Index

end ServiceDocs
