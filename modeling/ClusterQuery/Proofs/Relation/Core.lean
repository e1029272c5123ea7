import ClusterQuery.Proofs.Relation.Round

/-!
# What narrowing leaves

The core of a family is its greatest cut that no edge changes (`IsCore`). Every family has one, and narrowing either
ends there or, when an edge of the list still finds documents to drop in the core, never ends (`narrowAll_spec`).
`Ends` says of the rounds themselves that they come to an end; `narrowAll_eq_some_iff` ties `narrowAll` to them. When
narrowing ends, its result is the greatest family in which every document has a partner along every edge
(`narrowAll_greatest`).
-/

namespace ClusterQuery.Link

/-- Rounds from the first family end with the second: the last of them finds nothing to drop. -/
inductive Ends (links : List Link) : Family → Family → Prop where
  | quiet {family result : Family} (h : narrowRound links family = (result, false)) : Ends links family result
  | again {family narrowed result : Family} (h : narrowRound links family = (narrowed, true))
      (rest : Ends links narrowed result) : Ends links family result

/-- The second family is the greatest cut of the first that no edge changes. -/
structure IsCore (links : List Link) (family core : Family) : Prop where
  isCut : IsCut family core
  settled : Settled links core
  greatest : ∀ other, Below other family → Settled links other → Below other core

/-- A family has one core. -/
theorem IsCore.unique {links : List Link} {family first second : Family} (h : IsCore links family first)
    (h' : IsCore links family second) : first = second :=
  h.isCut.eq_of_below h'.isCut (h'.greatest first h.isCut.below h.settled) (h.greatest second h'.isCut.below h'.settled)

/-- A family that no edge changes is its own core. -/
theorem Settled.isCore {links : List Link} {family : Family} (h : Settled links family) : IsCore links family family :=
  ⟨IsCut.refl family, h, fun _ hle _ => hle⟩

/-- The core depends on which edges there are, not on their order or number. -/
theorem IsCore.congr {links others : List Link} {family core : Family} (hmem : ∀ link, link ∈ others ↔ link ∈ links)
    (h : IsCore links family core) : IsCore others family core :=
  ⟨h.isCut, fun link hl => h.settled link ((hmem link).1 hl),
    fun other hle hs => h.greatest other hle fun link hl => hs link ((hmem link).2 hl)⟩

/-- The core of what a round leaves is a core of the family. -/
theorem IsCore.of_narrowRound {links : List Link} {family core : Family}
    (h : IsCore links (narrowRound links family).1 core) : IsCore links family core :=
  ⟨(isCut_narrowRound links family).trans h.isCut, h.settled,
    fun other hle hs => h.greatest other (below_narrowRound hs hle) hs⟩

/-- Narrowing ends with the core if no edge finds documents to drop there, and else never. -/
theorem narrowAll_spec (links : List Link) (family : Family) :
    ∃ core, IsCore links family core ∧
      narrowAll links family = if links.any (·.drops core) then none else some core := by
  fun_induction narrowAll links family with
  | case1 family narrowed h =>
    have hflag : (narrowRound links family).2 = false := by rw [h]
    have hq := narrowRound_quiet hflag
    have he : narrowed = family := by rw [← hq.1, h]
    subst he
    refine ⟨narrowed, hq.2.settled.isCore, ?_⟩
    rw [← hq.2.settled.narrowRound_flag, h]
    rfl
  | case2 family narrowed h _ ih =>
    obtain ⟨core, hcore, hres⟩ := ih
    have he : (narrowRound links family).1 = narrowed := by rw [h]
    exact ⟨core, IsCore.of_narrowRound (he ▸ hcore), hres⟩
  | case3 family narrowed h hlt =>
    have hs : Settled links family := by
      rcases count_narrowRound_lt_or_settled links family with hc | hs
      · rw [h] at hc
        exact absurd hc hlt
      · exact hs
    refine ⟨family, hs.isCore, ?_⟩
    rw [← hs.narrowRound_flag, h]
    rfl

/-- What narrowing does, given the core. -/
theorem IsCore.narrowAll_eq {links : List Link} {family core : Family} (h : IsCore links family core) :
    narrowAll links family = if links.any (·.drops core) then none else some core := by
  obtain ⟨other, hother, hres⟩ := narrowAll_spec links family
  rwa [hother.unique h] at hres

/-- Narrowing that ends gives the core, and every document there has its partners. -/
theorem narrowAll_eq_some_iff_core {links : List Link} {family result : Family} :
    narrowAll links family = some result ↔ IsCore links family result ∧ ArcConsistent links result := by
  constructor
  · intro h
    obtain ⟨core, hcore, hres⟩ := narrowAll_spec links family
    rw [h] at hres
    split at hres
    · cases hres
    · rename_i hany
      cases hres
      refine ⟨hcore, fun link hl => drops_eq_false_iff.1 ?_⟩
      simpa using fun hd => hany (List.any_eq_true.2 ⟨link, hl, hd⟩)
  · rintro ⟨hcore, hall⟩
    rw [hcore.narrowAll_eq, if_neg]
    simp only [List.any_eq_true, not_exists, not_and]
    intro link hl hd
    rw [drops_eq_false_iff.2 (hall link hl)] at hd
    cases hd

/-- Rounds that find documents to drop and drop none go on for ever. -/
theorem not_ends_of_settled {links : List Link} {family result : Family} (hs : Settled links family)
    (hd : links.any (·.drops family) = true) : ¬Ends links family result := by
  intro h
  induction h with
  | @quiet family result h =>
    have hflag := hs.narrowRound_flag
    rw [h, hd] at hflag
    cases hflag
  | @again family narrowed result h _ ih =>
    have he := hs.narrowRound_eq
    rw [h] at he
    cases he
    exact ih hs hd

/-- Narrowing gives a result exactly when its rounds end, and then the one they end with. -/
theorem narrowAll_eq_some_iff {links : List Link} {family result : Family} :
    narrowAll links family = some result ↔ Ends links family result := by
  constructor
  · intro h
    fun_induction narrowAll links family with
    | case1 family narrowed hround =>
      cases h
      exact Ends.quiet hround
    | case2 family narrowed hround _ ih => exact Ends.again hround (ih h)
    | case3 => cases h
  · intro h
    induction h with
    | quiet h =>
      rw [narrowAll, h]
    | @again family narrowed result h hrest ih =>
      rw [narrowAll, h]
      have hlt : count narrowed < count family := by
        rcases count_narrowRound_lt_or_settled links family with hc | hs
        · rwa [h] at hc
        · -- a round that changes nothing would be followed by itself
          have he := hs.narrowRound_eq
          have hflag := hs.narrowRound_flag
          rw [h] at he hflag
          cases he
          exact absurd hrest (not_ends_of_settled hs hflag.symm)
      simp only [hlt, if_true]
      exact ih

/-! ## The result of narrowing -/

/-- Whenever narrowing ends, its result cuts the family, every document of it has a partner along every edge, and it
holds every family drawn from the first in which every document has; so it is the same for every order and repetition
of the edges. -/
theorem narrowAll_greatest (links : List Link) (family result : Family) (h : narrowAll links family = some result) :
    IsCut family result ∧ ArcConsistent links result ∧
      (∀ other : Family, (∀ position, (listAt other position).Sublist (listAt family position)) →
        ArcConsistent links other → ∀ position, (listAt other position).Sublist (listAt result position)) ∧
      ∀ others : List Link, (∀ link, link ∈ others ↔ link ∈ links) → narrowAll others family = some result := by
  obtain ⟨hcore, hall⟩ := narrowAll_eq_some_iff_core.1 h
  refine ⟨hcore.isCut, hall, fun other hsub hother position => ?_, fun others hmem => ?_⟩
  · have hbelow : Below other result := hcore.greatest other (fun p => (hsub p).subset) hother.settled
    exact hcore.isCut.sublist (hsub position) (hbelow position)
  · exact narrowAll_eq_some_iff_core.2 ⟨hcore.congr hmem, fun link hl => hall link ((hmem link).1 hl)⟩

/-! ## A sample: a chain of owners -/

namespace Sample

/-- A document with a name, which is its id too, and the id of its owner. -/
def document (apiVersion kind name owner : String) : Document :=
  .object [("apiVersion", .string apiVersion), ("kind", .string kind),
    ("metadata", .object [("name", .string name), ("namespace", .string "default"),
      ("ownerReferences", .array [.object [("uid", .string owner)]]), ("uid", .string name)])]

def deployment : Document := document "apps/v1" "Deployment" "web" "nobody"
def ownedSet : Document := document "apps/v1" "ReplicaSet" "web-1" "web"
def strayedSet : Document := document "apps/v1" "ReplicaSet" "old-1" "old"
def ownedPod : Document := document "v1" "Pod" "web-1-a" "web-1"
def strayedPod : Document := document "v1" "Pod" "old-1-a" "old-1"

/-- Deployments, replica sets and pods; one replica set and its pod have lost their deployment. -/
def fetched : Family := [[deployment], [strayedSet, ownedSet], [ownedPod, strayedPod]]

/-- The replica sets at position 1 own the pods at position 2. -/
def setOwnsPod : Link := ofRule 1 2 ⟨"ReplicaSet", "Pod", .ownerReference⟩ true

/-- The deployments at position 0 own the replica sets at position 1. -/
def deploymentOwnsSet : Link := ofRule 0 1 ⟨"Deployment", "ReplicaSet", .ownerReference⟩ true

end Sample

/-- The strayed pod has its replica set and falls in the second round only, after that has fallen; whichever edge comes
first, the owned chain is left. -/
theorem narrowAll_greatest_owners :
    narrowAll [Sample.setOwnsPod, Sample.deploymentOwnsSet] Sample.fetched =
        some [[Sample.deployment], [Sample.ownedSet], [Sample.ownedPod]] ∧
      ArcConsistent [Sample.setOwnsPod, Sample.deploymentOwnsSet]
        [[Sample.deployment], [Sample.ownedSet], [Sample.ownedPod]] ∧
      narrowAll [Sample.deploymentOwnsSet, Sample.setOwnsPod, Sample.deploymentOwnsSet] Sample.fetched =
        some [[Sample.deployment], [Sample.ownedSet], [Sample.ownedPod]] := by
  have h : narrowAll [Sample.setOwnsPod, Sample.deploymentOwnsSet] Sample.fetched =
      some [[Sample.deployment], [Sample.ownedSet], [Sample.ownedPod]] :=
    narrowAll_eq_some_iff.2 (.again rfl (.again rfl (.quiet rfl)))
  obtain ⟨-, hall, -, hsame⟩ := narrowAll_greatest _ _ _ h
  exact ⟨h, hall, hsame _ fun link => by simp [or_comm]⟩

end ClusterQuery.Link
