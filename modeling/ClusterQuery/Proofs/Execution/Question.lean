import ClusterQuery.Proofs.Execution.Links
import ClusterQuery.Proofs.Execution.Reading
import ClusterQuery.Proofs.Relation.Core

/-!
# Questions to a store

What a query asks of a store, without saying how it is found: the greatest family of sets of stored objects in which
each object is asked for under its node and has partners along every edge (`Question.TakesPart`,
`Question.sustained_takesPart`). The documents that a run fetches and narrows are the answers to the question
(`Run.narrowAll_eq_answers`).
-/

namespace ClusterQuery

/-- A question to a store: the nodes with their kinds, the edges and the filters, and all that their meaning depends
on. -/
structure Question where
  rules : List Rule
  context : Context
  subjects : List (Node × Kind)
  edges : List Edge
  filters : List Filter
  objects : List Document

namespace Question

/-- Sets of stored objects by node id sustain each other: each object is asked for under its node and has a partner
along every edge there. -/
structure Sustained (question : Question) (sets : String → Document → Prop) : Prop where
  stored : ∀ id object, sets id object → object ∈ question.objects
  asked : ∀ id object, sets id object →
    ∃ subject ∈ question.subjects, subject.1.id = id ∧ Asked question.context question.filters subject object
  partnered : ∀ edge ∈ question.edges, Run.Partnered question.rules question.subjects sets edge

/-- An object takes part in the pattern at a node when some sets that sustain each other have it there. -/
def TakesPart (question : Question) (id : String) (object : Document) : Prop :=
  ∃ sets, question.Sustained sets ∧ sets id object

open Classical in
/-- The answer at a node: the stored objects that take part there, in store order. -/
noncomputable def answer (question : Question) (id : String) : List Document :=
  question.objects.filter fun object => question.TakesPart id object

/-- The sets of the objects that take part sustain each other, so they are the greatest sets that do. -/
theorem sustained_takesPart (question : Question) : question.Sustained question.TakesPart where
  stored := fun id object ⟨_, hsets, hobject⟩ => hsets.stored id object hobject
  asked := fun id object ⟨_, hsets, hobject⟩ => hsets.asked id object hobject
  partnered := by
    intro edge he
    constructor
    · rintro a ⟨sets, hsets, ha⟩
      obtain ⟨b, hb, hjoins⟩ := (hsets.partnered edge he).1 a ha
      exact ⟨b, ⟨sets, hsets, hb⟩, hjoins⟩
    · rintro b ⟨sets, hsets, hb⟩
      obtain ⟨a, ha, hjoins⟩ := (hsets.partnered edge he).2 b hb
      exact ⟨a, ⟨sets, hsets, ha⟩, hjoins⟩

end Question

namespace Run

variable {graph : Graph} {question : Question}

/-- What a family made list by list from the nodes of a question holds. -/
theorem holds_map (hids : graph.ids = question.subjects.map (·.1.id)) (f : Node × Kind → List Document) {id : String}
    {document : Document} :
    Holds graph (question.subjects.map f) id document ↔
      ∃ subject ∈ question.subjects, subject.1.id = id ∧ document ∈ f subject := by
  rw [Holds, hids]
  constructor
  · rintro ⟨position, hposition, hmem⟩
    rw [List.getElem?_map] at hposition
    obtain ⟨subject, hsubject, rfl⟩ := Option.map_eq_some_iff.1 hposition
    rw [Link.listAt, List.getD_eq_getElem?_getD, List.getElem?_map, hsubject] at hmem
    exact ⟨subject, List.mem_of_getElem? hsubject, rfl, hmem⟩
  · rintro ⟨subject, hmem, rfl, hdocument⟩
    obtain ⟨position, hposition⟩ := List.getElem?_of_mem hmem
    refine ⟨position, by rw [List.getElem?_map, hposition]; rfl, ?_⟩
    rw [Link.listAt, List.getD_eq_getElem?_getD, List.getElem?_map, hposition]
    exact hdocument

open Classical in
/-- The family that a question asks for as far as no edge is concerned. -/
noncomputable def askedFamily (question : Question) : Link.Family :=
  question.subjects.map fun subject =>
    question.objects.filter fun object => Asked question.context question.filters subject object

/-- The asked family holds the stored objects that are asked for. -/
theorem holds_askedFamily (hids : graph.ids = question.subjects.map (·.1.id)) {id : String} {object : Document} :
    Holds graph (askedFamily question) id object ↔ object ∈ question.objects ∧
      ∃ subject ∈ question.subjects, subject.1.id = id ∧ Asked question.context question.filters subject object := by
  rw [askedFamily, holds_map hids]
  simp only [List.mem_filter, decide_eq_true_eq]
  constructor
  · rintro ⟨subject, hmem, hid, hobject, hasked⟩
    exact ⟨hobject, subject, hmem, hid, hasked⟩
  · rintro ⟨hobject, subject, hmem, hid, hasked⟩
    exact ⟨subject, hmem, hid, hobject, hasked⟩

section Narrowing

variable {targets : List Target} {links : List Link} {kept : Link.Family}

variable (hc : graph.Closed) (hnodes : targets.map (·.node) = graph.nodes)
  (hsubjects : targets.map Target.subject = question.subjects) (hedges : graph.edges = question.edges)
  (hlinks : linksOf question.rules graph targets = .ok links)

include hnodes hsubjects in
/-- The node ids of a question are those of the pattern. -/
theorem ids_eq_subjects : graph.ids = question.subjects.map (·.1.id) := by
  rw [← hsubjects, List.map_map, ← ids_eq hnodes]
  rfl

include hc hnodes hsubjects hedges hlinks

/-- What the core of the asked family holds are the objects that take part. -/
theorem holds_core_iff (hcore : Link.IsCore links (askedFamily question) kept) (hall : Link.ArcConsistent links kept)
    {id : String} {object : Document} : Holds graph kept id object ↔ question.TakesPart id object := by
  classical
  have hids := ids_eq_subjects hnodes hsubjects
  constructor
  · -- what is kept sustains itself
    refine fun hholds => ⟨Holds graph kept, ⟨fun id object h => ?_, fun id object h => ?_, ?_⟩, hholds⟩
    · exact ((holds_askedFamily hids).1 (h.mono hcore.isCut.below)).1
    · exact ((holds_askedFamily hids).1 (h.mono hcore.isCut.below)).2
    · rw [← hedges, ← hsubjects]
      exact (arcConsistent_iff hc hnodes hlinks kept).2 hall
  · rintro ⟨sets, hsets, hobject⟩
    -- sets that sustain each other are what a family holds, which lies below the core
    let family : Link.Family := question.subjects.map fun subject => question.objects.filter (sets subject.1.id)
    have hholds : Holds graph family = sets := by
      funext other document
      rw [holds_map hids, eq_iff_iff]
      constructor
      · rintro ⟨subject, -, rfl, hmem⟩
        exact of_decide_eq_true (List.mem_filter.1 hmem).2
      · intro hdocument
        obtain ⟨subject, hsubject, rfl, -⟩ := hsets.asked _ _ hdocument
        exact ⟨subject, hsubject, rfl, List.mem_filter.2 ⟨hsets.stored _ _ hdocument, decide_eq_true hdocument⟩⟩
    have hbelow : Link.Below family (askedFamily question) := by
      refine below_of_holds hc (by simp [family, hids]) fun other document hdocument => ?_
      rw [hholds] at hdocument
      exact (holds_askedFamily hids).2 ⟨hsets.stored _ _ hdocument, hsets.asked _ _ hdocument⟩
    have hsettled : Link.ArcConsistent links family := by
      refine (arcConsistent_iff hc hnodes hlinks family).1 fun edge he => ?_
      rw [hholds, hsubjects]
      exact hsets.partnered edge (hedges ▸ he)
    have hfamily : Holds graph family id object := hholds ▸ hobject
    exact hfamily.mono (hcore.greatest family hbelow hsettled.settled)

/-- Narrowing what a question asks for, when it ends, leaves the answers. -/
theorem narrowAll_eq_answers (h : Link.narrowAll links (askedFamily question) = some kept) :
    kept = question.subjects.map fun subject => question.answer subject.1.id := by
  classical
  have hids := ids_eq_subjects hnodes hsubjects
  obtain ⟨hcore, hall⟩ := Link.narrowAll_eq_some_iff_core.1 h
  have hlength := hcore.isCut.length_eq
  refine Link.ext_listAt (by simpa [askedFamily] using hlength) fun position => ?_
  cases hsubject : question.subjects[position]? with
  | none =>
    have hbound := List.getElem?_eq_none_iff.1 hsubject
    rw [Link.listAt_eq_nil (by simpa [hlength, askedFamily] using hbound), Link.listAt_eq_nil (by simpa using hbound)]
  | some subject =>
    obtain ⟨keep, hkeep⟩ := (Link.isCut_iff.1 hcore.isCut).2 position
    have hposition : graph.ids[position]? = some subject.1.id := by rw [hids, List.getElem?_map, hsubject]; rfl
    have hasked : Link.listAt (askedFamily question) position = question.objects.filter fun object =>
        Asked question.context question.filters subject object := by
      simp [askedFamily, Link.listAt, hsubject]
    have hanswer : Link.listAt (question.subjects.map fun subject => question.answer subject.1.id) position =
        question.answer subject.1.id := by
      simp [Link.listAt, hsubject]
    rw [hanswer, hkeep, hasked, List.filter_filter, Question.answer]
    refine List.filter_congr fun object hobject => ?_
    rw [Bool.eq_iff_iff, decide_eq_true_eq, ← holds_core_iff hc hnodes hsubjects hedges hlinks hcore hall,
      holds_iff hc hposition, hkeep, hasked, List.filter_filter, List.mem_filter]
    exact (and_iff_right hobject).symm

end Narrowing

end Run

end ClusterQuery
