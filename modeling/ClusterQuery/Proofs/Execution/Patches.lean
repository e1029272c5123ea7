import ClusterQuery.Proofs.Document.Merging
import ClusterQuery.Proofs.Execution.Steps

/-!
# What assignments set

A key of an assignment is a path: below a binding of the pattern when it starts with one and goes on, else below every
binding (`assignedPath?`). The patch of a binding is made of the values assigned below it, in order (`patchesOf_eq`); it
spares the paths that are neither above nor below an assigned one (`spares_mergedPatch`).
-/

namespace ClusterQuery

/-- The binding that a path addresses: the one it starts with, when it goes on from there. -/
def addressee? (bindings : List String) (path : FieldPath) : Option String :=
  path.head?.filter fun first => first ∈ bindings && 1 < path.segments.length

/-- The path that a key assigns below a binding, if it does: what follows the binding it addresses, or all of it when it
addresses none. -/
def assignedPath? (bindings : List String) (key binding : String) : Option (List String) :=
  match FieldPath.parse key with
  | .error _ => none
  | .ok path =>
    match addressee? bindings path with
    | some first => if first = binding then SelectorKey.fieldNames? path.tail.segments else none
    | none => SelectorKey.fieldNames? path.segments

/-- What assignments set below a binding: paths with their values, in order. -/
def assignedTo (bindings : List String) (assignments : List Property) (binding : String) :
    List (List String × Literal) :=
  assignments.filterMap fun assignment =>
    (assignedPath? bindings assignment.key binding).map fun path => (path, assignment.value)

/-- A patch with one more value. -/
def assignInto (patch : Document) (assigned : List String × Literal) : Document :=
  patch.merge (Document.nested assigned.1 assigned.2.toDocument)

/-- The patch of all that is assigned. -/
def mergedPatch (assigned : List (List String × Literal)) : Document :=
  assigned.foldl assignInto Document.empty

/-- What a query assigns below a binding. -/
def Query.assigned (query : Query) (binding : String) : List (List String × Literal) :=
  match query.clause with
  | .assign assignments => assignedTo query.graph.bindings assignments binding
  | _ => []

/-- The patch of a binding in a query. -/
def Query.patch (query : Query) (binding : String) : Document :=
  mergedPatch (query.assigned binding)

/-! ## The patches of a run -/

/-- Only field names can be nested. -/
theorem FieldPath.nestFrom_eq (value : Document) (segments : List Segment) :
    nestFrom value segments = (SelectorKey.fieldNames? segments).map (Document.nested · value) := by
  induction segments with
  | nil => rfl
  | cons segment rest ih =>
    cases segment with
    | field name =>
      rw [nestFrom, SelectorKey.fieldNames?, ih]
      cases SelectorKey.fieldNames? rest <;> rfl
    | _ => rfl

/-- A change at the position of a binding is one to the target of the binding. -/
theorem modify_map_findIdx? {α : Type} {targets : List Target} (hnames : (targets.map (·.node.name)).Nodup)
    {binding : String} {position : Nat} (h : targets.findIdx? (·.node.name == binding) = some position)
    (start : Target → α) (change : α → α) : (targets.map start).modify position change =
      targets.map fun target => if binding = target.node.name then change (start target) else start target := by
  induction targets generalizing position with
  | nil => cases h
  | cons target rest ih =>
    obtain ⟨hfirst, hrest⟩ := List.nodup_cons.1 hnames
    rw [List.findIdx?_cons] at h
    by_cases heq : target.node.name = binding
    · rw [beq_iff_eq.2 heq] at h
      cases h
      rw [List.map_cons, List.map_cons, List.modify_zero_cons, if_pos heq.symm]
      congr 1
      -- no later target has the name
      refine List.map_congr_left fun other hother => (if_neg fun he => hfirst ?_).symm
      exact List.mem_map.2 ⟨other, hother, he.symm.trans heq.symm⟩
    · rw [beq_eq_false_iff_ne.2 heq] at h
      obtain ⟨before, hbefore, rfl⟩ := Option.map_eq_some_iff.1 h
      rw [List.map_cons, List.map_cons, List.modify_succ_cons, ih hrest hbefore, if_neg (Ne.symm heq)]

/-- Steps that each set what an assignment sets below every binding set what all of them do. -/
theorem foldlM_assignInto {targets : List Target} {bindings : List String}
    {step : List Document → Property → Except ExecutionError (List Document)}
    (hstep : ∀ (start : Target → Document) assignment next, step (targets.map start) assignment = .ok next →
      next = targets.map fun target =>
        (assignedTo bindings [assignment] target.node.name).foldl assignInto (start target))
    {assignments : List Property} (start : Target → Document) {patches : List Document}
    (h : assignments.foldlM step (targets.map start) = .ok patches) : patches = targets.map fun target =>
      (assignedTo bindings assignments target.node.name).foldl assignInto (start target) := by
  induction assignments generalizing start with
  | nil =>
    cases h
    rfl
  | cons assignment rest ih =>
    rw [List.foldlM_cons] at h
    obtain ⟨next, hnext, h⟩ := bind_eq_ok.1 h
    obtain rfl := hstep start assignment next hnext
    rw [ih _ h]
    refine List.map_congr_left fun target _ => ?_
    rw [← List.foldl_append, assignedTo, assignedTo, assignedTo, ← List.filterMap_append, List.singleton_append]

/-- A path that addresses a binding starts with it and goes on, and a target has the binding. -/
theorem addressee?_eq_some {targets : List Target} {path : FieldPath} {first : String}
    (h : addressee? (targets.map (·.node.name)) path = some first) :
    path.head? = some first ∧ 1 < path.segments.length ∧
      ∃ position, targets.findIdx? (·.node.name == first) = some position := by
  obtain ⟨hhead, hcond⟩ := Option.filter_eq_some_iff.1 h
  simp only [Bool.and_eq_true, decide_eq_true_eq, List.mem_map] at hcond
  obtain ⟨⟨target, htarget, hname⟩, hlength⟩ := hcond
  refine ⟨hhead, hlength, Option.isSome_iff_exists.1 ?_⟩
  rw [List.findIdx?_isSome, List.any_eq_true]
  exact ⟨target, htarget, beq_iff_eq.2 hname⟩

/-- A path that starts with the binding of a target but addresses none does not go on. -/
theorem length_le_of_addressee?_eq_none {targets : List Target} {path : FieldPath} {first : String} {position : Nat}
    (h : addressee? (targets.map (·.node.name)) path = none) (hhead : path.head? = some first)
    (hposition : targets.findIdx? (·.node.name == first) = some position) : ¬1 < path.segments.length := by
  intro hlength
  obtain ⟨hbound, hname, -⟩ := List.findIdx?_eq_some_iff_getElem.1 hposition
  simp only [addressee?, hhead, Option.filter_eq_none_iff, Bool.and_eq_true, decide_eq_true_eq] at h
  exact h first rfl ⟨List.mem_map.2 ⟨_, List.getElem_mem hbound, beq_iff_eq.1 hname⟩, hlength⟩

/-- A value that could be nested stands at the names of a path. -/
theorem nest_eq_ok {ε : Type} {path : FieldPath} {value : Document} {cause : ε} {next : Document → List Document}
    {patches : List Document}
    (h : (match path.nest value with
      | none => Except.error cause
      | some patch => Except.ok (next patch)) = .ok patches) :
    ∃ names, SelectorKey.fieldNames? path.segments = some names ∧ patches = next (Document.nested names value) := by
  rw [FieldPath.nest, FieldPath.nestFrom_eq] at h
  cases hnames : SelectorKey.fieldNames? path.segments with
  | none =>
    rw [hnames] at h
    cases h
  | some names =>
    rw [hnames] at h
    cases h
    exact ⟨names, rfl, rfl⟩

/-- What one assignment sets below a binding. -/
theorem foldl_assignedTo_singleton (bindings : List String) (assignment : Property) (binding : String)
    (start : Document) : (assignedTo bindings [assignment] binding).foldl assignInto start =
      match assignedPath? bindings assignment.key binding with
      | some path => start.merge (Document.nested path assignment.value.toDocument)
      | none => start := by
  rw [assignedTo, List.filterMap_cons]
  cases assignedPath? bindings assignment.key binding <;> rfl

/-- The patch of every target is made of what is assigned below its binding. -/
theorem patchesOf_eq {targets : List Target} (hnames : (targets.map (·.node.name)).Nodup) {assignments : List Property}
    {patches : List Document} (h : patchesOf targets assignments = .ok patches) :
    patches = targets.map fun target =>
      mergedPatch (assignedTo (targets.map (·.node.name)) assignments target.node.name) := by
  refine foldlM_assignInto (fun start assignment next hnext => ?_) (fun _ => Document.empty) h
  obtain ⟨path, hpath, hnext⟩ := bind_eq_ok.1 hnext
  simp only [foldl_assignedTo_singleton, assignedPath?, mapError_eq_ok.1 hpath]
  cases haddressee : addressee? (targets.map (·.node.name)) path with
  | some first =>
    -- the one target of the binding takes the value
    obtain ⟨hhead, hlength, position, hposition⟩ := addressee?_eq_some haddressee
    simp only [hhead, Option.bind_some, hposition, if_pos hlength] at hnext
    obtain ⟨names, hpath, rfl⟩ := nest_eq_ok hnext
    rw [modify_map_findIdx? hnames hposition]
    refine List.map_congr_left fun target _ => ?_
    simp only [hpath]
    split <;> rfl
  | none =>
    -- every target takes the value
    have hnext : (match path.nest assignment.value.toDocument with
        | none => Except.error (ExecutionError.invalidMutation (.throughArray assignment.key))
        | some patch => Except.ok ((targets.map start).map (·.merge patch))) = Except.ok next := by
      cases hhead : path.head? with
      | none =>
        simp only [hhead, Option.bind_none] at hnext
        exact hnext
      | some first =>
        cases hposition : targets.findIdx? (·.node.name == first) with
        | none =>
          simp only [hhead, Option.bind_some, hposition] at hnext
          exact hnext
        | some position =>
          have hlength := length_le_of_addressee?_eq_none haddressee hhead hposition
          simp only [hhead, Option.bind_some, hposition, if_neg hlength] at hnext
          exact hnext
    obtain ⟨names, hpath, rfl⟩ := nest_eq_ok hnext
    simp only [hpath, List.map_map]
    rfl

/-- The patches of the targets of a query are those of its bindings. -/
theorem patchesOf_eq_patch {query : Query} {targets : List Target} {assignments : List Property}
    {patches : List Document} (hnames : query.graph.bindings.Nodup) (hnodes : targets.map (·.node) = query.graph.nodes)
    (hclause : query.clause = .assign assignments) (h : patchesOf targets assignments = .ok patches) :
    patches = targets.map fun target => query.patch target.node.name := by
  have hbindings := Run.names_eq hnodes
  rw [patchesOf_eq (hbindings ▸ hnames) h, hbindings]
  simp only [Query.patch, Query.assigned, hclause]

/-! ## What patches spare -/

theorem Literal.isScalar_toDocument (literal : Literal) : literal.toDocument.isScalar = true := by
  cases literal <;> rfl

theorem Document.orderly_empty : Document.empty.Orderly := by
  intro path fields hpath
  cases path with
  | nil =>
    cases hpath
    exact List.Pairwise.nil
  | cons key rest => cases hpath

/-- Patches have their keys in order. -/
theorem orderly_mergedPatch (assigned : List (List String × Literal)) : (mergedPatch assigned).Orderly := by
  rw [mergedPatch]
  refine List.foldlRecOn assigned assignInto Document.orderly_empty fun patch hpatch entry _ => ?_
  exact hpatch.merge_nested entry.1 entry.2.isScalar_toDocument

/-- A patch spares the paths that are neither above nor below an assigned one. -/
theorem spares_mergedPatch {assigned : List (List String × Literal)} {path : List String} (hpath : path ≠ [])
    (h : ∀ entry ∈ assigned, ¬Comparable entry.1 path) : (mergedPatch assigned).Spares path := by
  rw [mergedPatch]
  refine List.foldlRecOn (motive := (Document.Spares · path)) assigned assignInto ?_ fun patch hpatch entry hentry => ?_
  · obtain ⟨key, rest, rfl⟩ := List.exists_cons_of_ne_nil hpath
    exact nofun
  · exact Document.Spares.merge_nested (fun _ _ => hpatch) (h entry hentry)

theorem Keyed.insert_ne_nil {α : Type} (key : String) (value : α) (pairs : List (String × α)) :
    insert key value pairs ≠ [] := by
  cases pairs with
  | nil => exact List.cons_ne_nil _ _
  | cons pair rest =>
    rw [insert]
    split
    · exact List.cons_ne_nil _ _
    · split <;> exact List.cons_ne_nil _ _

/-- A patch to which something is assigned has a field. -/
theorem mergedPatch_of_ne_nil {assigned : List (List String × Literal)} (hne : assigned ≠ [])
    (h : ∀ entry ∈ assigned, entry.1 ≠ []) : ∃ first rest, mergedPatch assigned = .object (first :: rest) := by
  obtain ⟨before, last, rfl⟩ := (List.eq_nil_or_concat' assigned).resolve_left hne
  obtain ⟨key, path, hlast⟩ := List.exists_cons_of_ne_nil (h last (by simp))
  rw [mergedPatch, List.foldl_append, List.foldl_cons, List.foldl_nil, assignInto, hlast, Document.merge_nested_cons]
  obtain ⟨first, rest, hfields⟩ := List.exists_cons_of_ne_nil (Keyed.insert_ne_nil key _ _)
  exact ⟨first, rest, congrArg Document.object hfields⟩

/-! ## What is set -/

/-- A document keeps what is neither above nor below anything that is assigned. -/
theorem at?_foldl_assignInto_of_not_comparable {assigned : List (List String × Literal)} {path : List String}
    (h : ∀ entry ∈ assigned, ¬Comparable entry.1 path) (document : Document) :
    (assigned.foldl assignInto document).at? path = document.at? path := by
  refine List.foldlRecOn (motive := fun changed => changed.at? path = document.at? path) assigned assignInto rfl
    fun changed hchanged entry hentry => ?_
  rw [assignInto, Document.at?_merge_nested_of_not_comparable entry.2.isScalar_toDocument changed (h entry hentry),
    hchanged]

/-- Of values that are assigned apart from each other, each stands at its path. -/
theorem at?_foldl_assignInto_of_mem {assigned : List (List String × Literal)}
    (h : assigned.Pairwise fun entry other => ¬Comparable entry.1 other.1) {entry : List String × Literal}
    (hentry : entry ∈ assigned) (document : Document) :
    (assigned.foldl assignInto document).at? entry.1 = some entry.2.toDocument := by
  induction assigned generalizing document with
  | nil => exact absurd hentry List.not_mem_nil
  | cons first rest ih =>
    obtain ⟨hfirst, hrest⟩ := List.pairwise_cons.1 h
    rw [List.foldl_cons]
    rcases List.mem_cons.1 hentry with rfl | hentry
    · -- what is assigned later spares it
      rw [at?_foldl_assignInto_of_not_comparable fun other hother hc => hfirst other hother hc.symm]
      exact Document.at?_merge_nested entry.2.isScalar_toDocument document entry.1
    · exact ih hrest hentry _

end ClusterQuery
