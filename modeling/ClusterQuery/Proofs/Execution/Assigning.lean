import ClusterQuery.Proofs.Execution.Addressing
import ClusterQuery.Proofs.Execution.Patches

/-!
# What assignments write

A query that assigns reads all its documents first and then writes them back, target by target, each as it was read
with the patch of the target merged into it (`assign_changed`). One update finds its object again when objects are
looked for where they are (`update_changed`).
-/

namespace ClusterQuery

namespace Run

variable {engine after : Engine}

/-! ## What is written -/

/-- What a target writes to a document: the patch, if it sets anything. -/
def writesOf (patch document : Document) : List (Identity × Document) :=
  match patch with
  | .object (_ :: _) => [(document.identity, patch)]
  | _ => []

/-- All that targets with their documents write, each target its own patch. -/
def allWrites (patchOf : Target → Document) (pairs : List (Target × List Document)) : List (Identity × Document) :=
  pairs.flatMap fun pair => pair.2.flatMap (writesOf (patchOf pair.1))

/-- The store holds what writes have made of its objects. -/
structure Changed (store : Store) (writes : List (Identity × Document)) (engine : Engine) : Prop where
  listings_eq : engine.gateway.store.listings = store.listings
  tame : ∀ write ∈ writes, write.2.Tame
  rewritten : Rewritten writes store.objects engine.gateway.store.objects

/-- An update that succeeds has stored the document with the patch, or there was nothing to set. -/
theorem update_cases {target : Target} {patch document stored : Document}
    (h : update target patch document engine = (.ok stored, after)) :
    (writesOf patch document = [(document.identity, patch)] ∧
      engine.gateway.store.update target.kind.coordinate (target.namespaceOf (document.merge patch))
        (document.merge patch) = (.ok stored, after.gateway.store)) ∨
      writesOf patch document = [] ∧ engine = after := by
  unfold update at h
  split at h
  · rename_i first rest
    refine Or.inl ⟨rfl, ?_⟩
    dsimp only [call] at h
    split at h
    · rename_i answer gateway hcall
      cases h
      exact Gateway.guarded_eq_ok hcall
    · cases (Prod.mk.inj h).1
  · rename_i hempty
    obtain ⟨-, rfl⟩ := pure_eq_ok.1 h
    refine Or.inr ⟨?_, rfl⟩
    unfold writesOf
    split
    · exact absurd rfl (hempty _ _)
    · rfl

/-- A document that is updated has its patch afterwards, and no other. -/
theorem update_changed {store : Store} {target : Target} {patch document stored : Document}
    {writes : List (Identity × Document)} (hnodup : (store.objects.map Document.identity).Nodup)
    (haddresses : Addresses store target document) (hpatch : patch.Tame) (hkept : Changed store writes engine)
    (h : update target patch document engine = (.ok stored, after)) :
    Changed store (writes ++ writesOf patch document) after := by
  rcases update_cases h with ⟨hwrites, hupdate⟩ | ⟨hwrites, rfl⟩
  · have hplaced : ∀ resource, resourceAt? engine.gateway.store.listings target.kind.coordinate = some resource →
        document.isInstance target.kind.coordinate.apiVersion resource.kind = true ∧
          document.namespace? =
            if resource.namespaced then target.namespaceOf (document.merge patch) else none := by
      intro resource hresource
      rw [hkept.listings_eq] at hresource
      obtain ⟨hinstance, hnamespaced⟩ := haddresses.placed resource hresource
      have hsame : (document.merge patch).namespace? = document.namespace? :=
        congrArg Identity.inNamespace (hpatch.identity_merge document)
      refine ⟨hinstance, ?_⟩
      rw [Target.namespaceOf, hsame]
      cases hnamespace : document.namespace? with
      | none => simp
      | some name =>
        obtain ⟨hkind, hresource⟩ := hnamespaced (by simp [hnamespace])
        simp [hkind, hresource]
    obtain ⟨hlistings, hrewritten⟩ :=
      hkept.rewritten.update hnodup hkept.tame hpatch haddresses.stored hplaced hupdate
    rw [hwrites]
    refine ⟨hlistings.trans hkept.listings_eq, List.forall_mem_append.2 ⟨hkept.tame, ?_⟩, hrewritten⟩
    exact List.forall_mem_singleton.2 hpatch
  · rwa [hwrites, List.append_nil]

/-- Pairs of targets and documents with the patches of the targets. -/
theorem zip_zip_map {targets : List Target} (family : Link.Family) (patchOf : Target → Document) :
    (targets.zip family).zip (targets.map patchOf) = (targets.zip family).map fun pair => (pair, patchOf pair.1) := by
  induction targets generalizing family with
  | nil => rfl
  | cons target rest ih =>
    cases family with
    | nil => rfl
    | cons documents others => rw [List.map_cons, List.zip_cons_cons, List.zip_cons_cons, List.map_cons, ih]

/-- Assigning writes the patch of every target to each document matched for it, target by target. -/
theorem assign_changed {rules : List Rule} {context : Context} {graph : Graph} {targets : List Target}
    {assignments : List Property} {result : Result} {patchOf : Target → Document}
    (hnodup : (engine.gateway.store.objects.map Document.identity).Nodup)
    (hhomed : ∀ target ∈ targets, target.kind.Homes engine.gateway.store)
    (hpatches : ∀ patches, patchesOf targets assignments = .ok patches → patches = targets.map patchOf)
    (htame : ∀ target ∈ targets, (patchOf target).Tame)
    (h : assign rules context graph targets assignments engine = (.ok result, after)) :
    ∃ family matching, matched rules context graph targets engine = (.ok family, matching) ∧
      Changed engine.gateway.store (allWrites patchOf (targets.zip family)) after := by
  obtain ⟨patches, middle, hread, h⟩ := bind_eq_ok.1 h
  obtain ⟨hassigned, rfl⟩ := ofExcept_eq_ok.1 hread
  obtain rfl := hpatches patches hassigned
  obtain ⟨family, matching, hmatched, h⟩ := bind_eq_ok.1 h
  obtain ⟨updated, last, hupdated, h⟩ := bind_eq_ok.1 h
  obtain ⟨-, rfl⟩ := pure_eq_ok.1 h
  refine ⟨family, matching, hmatched, ?_⟩
  -- before the first write the objects are as they were read
  have hanswered := (matched_fetches hmatched).1
  have hnone : Changed engine.gateway.store [] matching :=
    ⟨hanswered.listings_eq, nofun, by rw [hanswered.objects_eq]; exact Rewritten.nil _⟩
  rw [zip_zip_map] at hupdated
  have hall : Changed engine.gateway.store
      ([] ++ ((targets.zip family).map fun pair => (pair, patchOf pair.1)).flatMap fun entry =>
        entry.1.2.flatMap (writesOf entry.2)) last := by
    refine mapM_flatMap (fun entry hentry done answer before next hkept hstep => ?_) hnone hupdated
    obtain ⟨pair, hpair, rfl⟩ := List.mem_map.1 hentry
    obtain ⟨stored, written, hwritten, hstep⟩ := bind_eq_ok.1 hstep
    obtain ⟨-, rfl⟩ := pure_eq_ok.1 hstep
    refine mapM_flatMap (fun document hdocument done answer before next hkept hstep => ?_) hkept hwritten
    exact update_changed hnodup (addresses_of_matched hmatched hhomed hpair hdocument)
      (htame _ (List.of_mem_zip hpair).1) hkept hstep
  rwa [List.nil_append, List.flatMap_map] at hall

end Run

end ClusterQuery
