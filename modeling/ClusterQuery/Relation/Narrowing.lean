import ClusterQuery.Relation.Rule

/-!
# Narrowing

Documents take part in a pattern only if every edge at their node links them to a document at the other end. Narrowing
drops the documents without a partner, edge after edge and round after round, until a round finds none to drop. A round
that drops a document makes the family smaller, so only an edge from a node to itself can keep narrowing from its end:
of its two results the second stands, and the first may be smaller over and over. `Link.narrowAll` answers nothing then.
-/

namespace ClusterQuery

/-- An edge between two positions of a family of document lists, with the test that links their documents. -/
structure Link where
  source : Nat
  target : Nat
  /-- A document at the source is linked to one at the target. -/
  linked : Document → Document → Bool

namespace Link

/-- The link of a rule between two positions: the source is the parent or the child. -/
def ofRule (source target : Nat) (rule : Rule) (sourceIsParent : Bool) : Link :=
  ⟨source, target, fun a b => if sourceIsParent then rule.links a b else rule.links b a⟩

/-- The document lists of the nodes of a pattern. -/
abbrev Family := List (List Document)

/-- The list at a position. -/
def listAt (family : Family) (position : Nat) : List Document :=
  family.getD position []

/-- The documents at the source that have a partner at the target. -/
def keptSource (link : Link) (family : Family) : List Document :=
  (listAt family link.source).filter fun a => (listAt family link.target).any fun b => link.linked a b

/-- The documents at the target that have a partner at the source. -/
def keptTarget (link : Link) (family : Family) : List Document :=
  (listAt family link.target).filter fun b => (listAt family link.source).any fun a => link.linked a b

/-- The family after one edge: both ends are narrowed by the lists as they were. -/
def narrow (link : Link) (family : Family) : Family :=
  (family.set link.source (link.keptSource family)).set link.target (link.keptTarget family)

/-- Some document at an end of the edge has no partner at the other. -/
def drops (link : Link) (family : Family) : Bool :=
  (link.keptSource family).length != (listAt family link.source).length ||
    (link.keptTarget family).length != (listAt family link.target).length

/-- The family after every edge once, in order, and whether some edge found documents to drop. -/
def narrowRound : List Link → Family → Family × Bool
  | [], family => (family, false)
  | link :: rest, family =>
    let (narrowed, dropped) := narrowRound rest (link.narrow family)
    (narrowed, link.drops family || dropped)

/-- How many documents a family has. -/
def count (family : Family) : Nat :=
  family.flatten.length

/-- The family after rounds until one finds nothing to drop; nothing when the rounds never end, because one finds
documents to drop and leaves the family as it is. -/
def narrowAll (links : List Link) (family : Family) : Option Family :=
  match narrowRound links family with
  | (narrowed, false) => some narrowed
  | (narrowed, true) => if count narrowed < count family then narrowAll links narrowed else none
termination_by count family

end Link

end ClusterQuery
