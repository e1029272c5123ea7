import Mathlib.Data.List.Induction
import ClusterQuery.Proofs.Graph.WellFormed
import ClusterQuery.Proofs.Query.PrintedText

/-!
# What the printer lays out

The printer goes through the edges and keeps the nodes in their order: at every moment the nodes that have been
mentioned are the first ones of the graph, each with its properties from its first mention, and the edges that have been
written are those so far (`Written`). So the chains it ends with mention the nodes of the graph and join them by its
edges, both in order (`exists_layout`).
-/

namespace ClusterQuery

namespace Query.Layout

/-- The node that edges from a node end at. -/
def lastFrom (source : Node) : List (String × Node) → Node
  | [] => source
  | (_, target) :: rest => lastFrom target rest

/-- The node that the chain ends at. -/
def last (chain : Layout) : Node :=
  lastFrom chain.first chain.hops

/-- The edges that go on from a node. -/
def edgesFrom (source : Node) : List (String × Node) → List Edge
  | [] => []
  | (label, target) :: rest => ⟨source.id, target.id, label⟩ :: edgesFrom target rest

/-- The edges of the chain. -/
def edges (chain : Layout) : List Edge :=
  edgesFrom chain.first chain.hops

/-- The chain with one more edge and the node it leads to. -/
def concat (chain : Layout) (label : String) (target : Node) : Layout :=
  { chain with hops := chain.hops ++ [(label, target)] }

variable (chain : Layout) (label : String) (target : Node)

theorem mentions_concat : (chain.concat label target).mentions = chain.mentions ++ [target] := by
  simp [mentions, concat]

theorem chars_concat : (chain.concat label target).chars = chain.chars ++ hopChars (label, target) := by
  simp [chars, concat]

theorem last_concat : (chain.concat label target).last = target := by
  have hlast (source : Node) (hops : List (String × Node)) : lastFrom source (hops ++ [(label, target)]) = target := by
    induction hops generalizing source with
    | nil => rfl
    | cons hop rest ih => exact ih hop.2
  exact hlast chain.first chain.hops

theorem edges_concat : (chain.concat label target).edges = chain.edges ++ [⟨chain.last.id, target.id, label⟩] := by
  have hedges (source : Node) (hops : List (String × Node)) : edgesFrom source (hops ++ [(label, target)]) =
      edgesFrom source hops ++ [⟨(lastFrom source hops).id, target.id, label⟩] := by
    induction hops generalizing source with
    | nil => rfl
    | cons hop rest ih => exact congrArg _ (ih hop.2)
  exact hedges chain.first chain.hops

end Query.Layout

namespace Graph

open Query (Layout)

/-- The nodes that mentions add up to. -/
def nodesOfMentions (mentions : List Node) : List Node :=
  mentions.foldl (fun nodes node => addToNodes node nodes) []

theorem nodesOfMentions_concat (mentions : List Node) (node : Node) :
    nodesOfMentions (mentions ++ [node]) = addToNodes node (nodesOfMentions mentions) := by
  rw [nodesOfMentions, List.foldl_append]
  rfl

/-- A node as it is mentioned again, without its properties. -/
def bare (node : Node) : Node :=
  { node with properties := [] }

theorem fullText_bare (node : Node) : (bare node).fullText = node.bareText := by
  rfl

/-- Another mention of a node that stands changes nothing. -/
theorem addToNodes_bare {node : Node} {nodes : List Node} (h : node ∈ nodes) :
    addToNodes (bare node) nodes = nodes := by
  induction nodes with
  | nil => exact absurd h List.not_mem_nil
  | cons first rest ih =>
    rw [addToNodes]
    split
    · rfl
    · rename_i hne
      have hmem : node ∈ rest := (List.mem_cons.1 h).resolve_left fun he => hne (he ▸ rfl)
      rw [ih hmem]

/-- The node of a position as it is mentioned when the nodes before a count have been. -/
def mentionAt (count position : Nat) (node : Node) : Node :=
  if position < count then bare node else node

theorem id_mentionAt (count position : Nat) (node : Node) : (mentionAt count position node).id = node.id := by
  unfold mentionAt
  split <;> rfl

variable {graph : Graph}

/-- The mentions so far have introduced the first nodes, in order, and show each node in full once. -/
structure Introduced (graph : Graph) (mentions : List Node) (count : Nat) : Prop where
  count_le : count ≤ graph.nodes.length
  nodes : nodesOfMentions mentions = graph.nodes.take count
  known : ∀ node ∈ mentions, ∃ other ∈ graph.nodes, node = other ∨ node = bare other
  full : ∀ node ∈ graph.nodes.take count, node ∈ mentions

variable {graph : Graph} {mentions : List Node} {count position : Nat} {node : Node}

theorem introduced_nil : Introduced graph [] 0 where
  count_le := Nat.zero_le _
  nodes := rfl
  known := fun _ h => absurd h List.not_mem_nil
  full := fun _ h => absurd h (by simp)

/-- No node before a position has the id of the node there. -/
theorem id_notMem_take (hids : graph.ids.Nodup) (hnode : graph.nodes[position]? = some node) :
    node.id ∉ (graph.nodes.take position).map (·.id) := by
  obtain ⟨hlt, hget⟩ := List.getElem?_eq_some_iff.1 hnode
  have hsplit : graph.ids = (graph.nodes.take position).map (·.id) ++ (graph.nodes.drop position).map (·.id) := by
    rw [ids, ← List.map_append, List.take_append_drop]
  have hdrop : node ∈ graph.nodes.drop position := by
    rw [List.drop_eq_getElem_cons hlt, hget]
    exact List.mem_cons_self
  rw [hsplit] at hids
  exact fun hmem => List.disjoint_of_nodup_append hids hmem (List.mem_map_of_mem hdrop)

/-- The next node or one before it is mentioned. -/
theorem Introduced.concat (h : Introduced graph mentions count) (hids : graph.ids.Nodup)
    (hnode : graph.nodes[position]? = some node) (hle : position ≤ count) :
    Introduced graph (mentions ++ [mentionAt count position node]) (max count (position + 1)) := by
  obtain ⟨hlt, hget⟩ := List.getElem?_eq_some_iff.1 hnode
  have hmem : node ∈ graph.nodes := List.mem_of_getElem? hnode
  rcases Nat.lt_or_eq_of_le hle with hbefore | rfl
  · have htaken : node ∈ graph.nodes.take count :=
      List.mem_of_getElem? ((List.getElem?_take_of_lt hbefore).trans hnode)
    rw [mentionAt, if_pos hbefore, Nat.max_eq_left hbefore]
    refine ⟨h.count_le, ?_, ?_, fun other hother => List.mem_append_left _ (h.full other hother)⟩
    · rw [nodesOfMentions_concat, h.nodes, addToNodes_bare htaken]
    · exact List.forall_mem_append.2 ⟨h.known, List.forall_mem_singleton.2 ⟨node, hmem, Or.inr rfl⟩⟩
  · have htake : graph.nodes.take (position + 1) = graph.nodes.take position ++ [node] := by
      rw [List.take_succ_eq_append_getElem hlt, hget]
    rw [mentionAt, if_neg (Nat.lt_irrefl _), Nat.max_eq_right (Nat.le_succ _)]
    refine ⟨hlt, ?_, ?_, ?_⟩
    · rw [nodesOfMentions_concat, h.nodes, addToNodes_of_notMem (id_notMem_take hids hnode), htake]
    · exact List.forall_mem_append.2 ⟨h.known, List.forall_mem_singleton.2 ⟨node, hmem, Or.inl rfl⟩⟩
    · rw [htake]
      intro other hother
      rcases List.mem_append.1 hother with hbefore | hlast
      · exact List.mem_append_left _ (h.full other hbefore)
      · exact List.mem_append_right _ hlast

/-- The next nodes are mentioned, each for the first time. -/
theorem Introduced.append (h : Introduced graph mentions count) (hids : graph.ids.Nodup) {more : Nat}
    (hle : count + more ≤ graph.nodes.length) :
    Introduced graph (mentions ++ (graph.nodes.drop count).take more) (count + more) := by
  induction more with
  | zero => simpa using h
  | succ more ih =>
    have hlt : count + more < graph.nodes.length := by omega
    have hnode : graph.nodes[count + more]? = some graph.nodes[count + more] := List.getElem?_eq_getElem hlt
    have hstep := (ih (by omega)).concat hids hnode (Nat.le_refl _)
    rw [mentionAt, if_neg (Nat.lt_irrefl _), Nat.max_eq_right (Nat.le_succ _)] at hstep
    have htake : (graph.nodes.drop count).take (more + 1) =
        (graph.nodes.drop count).take more ++ [graph.nodes[count + more]] := by
      rw [List.take_succ_eq_append_getElem (by rw [List.length_drop]; omega), List.getElem_drop]
    rw [htake, ← List.append_assoc]
    exact hstep

namespace Printing

/-- What has been printed of a pattern: chains that are done and one in hand, which mention the first nodes in order and
join them by the edges so far. -/
structure Written (graph : Graph) (edges : List Edge) (printing : Printing) (done : List Layout)
    (inHand : Option Layout) (count : Nat) : Prop where
  mentioned : printing.mentioned = List.range count
  chains : printing.chains.map String.toList = done.map Layout.chars
  chain : printing.chain.toList = inHand.elim [] Layout.chars
  introduced : Introduced graph ((done ++ inHand.toList).flatMap Layout.mentions) count
  edges : (done ++ inHand.toList).flatMap Layout.edges = edges

variable {edges : List Edge} {printing : Printing} {done : List Layout} {inHand : Option Layout}

theorem chars_ne_nil (chain : Layout) : chain.chars ≠ [] := by
  have hnode (node : Node) : node.fullText.toList ≠ [] := by
    unfold Node.fullText
    split <;> simp [Node.bareText]
  exact fun h => hnode chain.first (List.append_eq_nil_iff.1 h).1

theorem written_start : Written graph [] start [] none 0 where
  mentioned := rfl
  chains := rfl
  chain := rfl
  introduced := introduced_nil
  edges := rfl

/-- A mention is printed in full the first time and bare after that. -/
theorem mentionText_range (hnode : graph.nodes[position]? = some node) :
    mentionText graph (List.range count) position = (mentionAt count position node).fullText := by
  rw [mentionText, hnode, mentionAt]
  simp only [List.mem_range]
  split
  · exact (fullText_bare node).symm
  · rfl

/-- After a mention one more node has been mentioned, or no more. -/
theorem mentioned_range (hle : position ≤ count) :
    (if position ∈ List.range count then List.range count else List.range count ++ [position]) =
      List.range (max count (position + 1)) := by
  simp only [List.mem_range]
  rcases Nat.lt_or_eq_of_le hle with hbefore | rfl
  · rw [if_pos hbefore, Nat.max_eq_left hbefore]
  · rw [if_neg (Nat.lt_irrefl _), Nat.max_eq_right (Nat.le_succ _), List.range_succ]

/-- The chain in hand is done. -/
theorem Written.endChain (h : Written graph edges printing done inHand count) :
    Written graph edges printing.endChain (done ++ inHand.toList) none count := by
  cases inHand with
  | none =>
    have hempty : printing.chain = "" := String.toList_injective h.chain
    rw [Printing.endChain, if_pos hempty, Option.toList_none, List.append_nil]
    exact h
  | some chain =>
    have hne : printing.chain ≠ "" := by
      intro he
      have hchars := h.chain
      rw [he] at hchars
      exact chars_ne_nil chain hchars.symm
    rw [Printing.endChain, if_neg hne]
    exact ⟨h.mentioned, by simp [h.chains, h.chain], rfl, by simpa using h.introduced, by simpa using h.edges⟩

/-- A node is mentioned at the start of a chain. -/
theorem Written.mention_first (h : Written graph edges printing done none count) (hids : graph.ids.Nodup)
    (hnode : graph.nodes[position]? = some node) (hle : position ≤ count) :
    Written graph edges (mention graph printing position) done (some ⟨mentionAt count position node, []⟩)
      (max count (position + 1)) := by
  have hintroduced := h.introduced.concat hids hnode hle
  have hempty : printing.chain = "" := String.toList_injective h.chain
  refine ⟨?_, h.chains, ?_, ?_, ?_⟩
  · rw [mention, h.mentioned, mentioned_range hle]
  · simp [mention, h.mentioned, mentionText_range hnode, hempty, Layout.chars]
  · simpa [Layout.mentions] using hintroduced
  · simpa [Layout.edges, Layout.edgesFrom] using h.edges

/-- An edge goes on from the chain in hand to a node. -/
theorem Written.mention_target {chain : Layout} (h : Written graph edges printing done (some chain) count)
    (hids : graph.ids.Nodup) (hnode : graph.nodes[position]? = some node) (hle : position ≤ count) (label : String)
    (tail : Option Nat) :
    Written graph (edges ++ [⟨chain.last.id, node.id, label⟩])
      { mention graph { printing with chain := printing.chain ++ "-[:" ++ label ++ "]->" } position with tail := tail }
      done (some (chain.concat label (mentionAt count position node))) (max count (position + 1)) := by
  have hintroduced := h.introduced.concat hids hnode hle
  refine ⟨?_, h.chains, ?_, ?_, ?_⟩
  · simp only [mention, h.mentioned, mentioned_range hle]
  · have hchain : printing.chain.toList = chain.chars := h.chain
    simp [mention, h.mentioned, mentionText_range hnode, hchain, Layout.chars_concat, Layout.hopChars]
  · simpa [Layout.mentions_concat] using hintroduced
  · have hedges := h.edges
    simp only [Option.toList_some, List.flatMap_append, List.flatMap_singleton] at hedges
    simp [Layout.edges_concat, id_mentionAt, ← hedges]

theorem range_append_range' (count more : Nat) :
    List.range count ++ List.range' count more = List.range (count + more) := by
  have happend := List.range'_append_1 (s := 0) (m := count) (n := more)
  rwa [Nat.zero_add, ← List.range_eq_range', ← List.range_eq_range'] at happend

/-- The nodes without a mention are those from the count on. -/
theorem pending_eq (hmentioned : printing.mentioned = List.range count) (hle : count ≤ graph.nodes.length) :
    pending graph printing = List.range' count (graph.nodes.length - count) := by
  have hsplit : List.range graph.nodes.length = List.range count ++ List.range' count (graph.nodes.length - count) := by
    rw [range_append_range', Nat.add_sub_cancel' hle]
  rw [pending, hmentioned, hsplit, List.filter_append, List.filter_eq_nil_iff.2 (by simp),
    List.filter_eq_self.2 (by simp [List.mem_range'_1]; omega), List.nil_append]

/-- Nodes, each as a chain of its own. -/
def alone (nodes : List Node) : List Layout :=
  nodes.map (⟨·, []⟩)

@[simp] theorem flatMap_mentions_alone (nodes : List Node) : (alone nodes).flatMap Layout.mentions = nodes := by
  simp [alone, List.flatMap_map, Layout.mentions]

@[simp] theorem flatMap_edges_alone (nodes : List Node) : (alone nodes).flatMap Layout.edges = [] := by
  simp [alone, Layout.edges, Layout.edgesFrom]

@[simp] theorem map_chars_alone (nodes : List Node) :
    (alone nodes).map Layout.chars = (nodes.map Node.fullText).map String.toList := by
  simp [alone, Layout.chars]

/-- The nodes that come next are mentioned, each as a chain of its own. -/
theorem Written.mentionAlone (h : Written graph edges printing done none count) (hids : graph.ids.Nodup) {more : Nat}
    (hle : count + more ≤ graph.nodes.length) :
    Written graph edges (mentionAlone graph printing (List.range' count more))
      (done ++ alone ((graph.nodes.drop count).take more)) none (count + more) := by
  have hintroduced := h.introduced.append hids hle
  have hedges := h.edges
  rw [Option.toList_none, List.append_nil] at hintroduced hedges
  have htexts : (List.range' count more).map (mentionText graph printing.mentioned) =
      ((graph.nodes.drop count).take more).map Node.fullText := by
    refine List.ext_getElem (by simp; omega) fun i hi _ => ?_
    have hlt : count + i < graph.nodes.length := by
      rw [List.length_map, List.length_range'] at hi
      omega
    have hnode : graph.nodes[count + i]? = some graph.nodes[count + i] := List.getElem?_eq_getElem hlt
    rw [List.getElem_map, List.getElem_range', Nat.one_mul, h.mentioned, mentionText_range hnode, mentionAt,
      if_neg (by omega)]
    simp
  refine ⟨?_, ?_, h.chain, ?_, ?_⟩
  · rw [Printing.mentionAlone, h.mentioned, range_append_range']
  · rw [Printing.mentionAlone, List.map_append, h.chains, htexts, List.map_append, map_chars_alone]
  · rwa [Option.toList_none, List.append_nil, List.flatMap_append, flatMap_mentions_alone]
  · rw [Option.toList_none, List.append_nil, List.flatMap_append, flatMap_edges_alone, List.append_nil, hedges]

/-- The node that the tail stands for ends the chain in hand. -/
def TailAt (graph : Graph) (printing : Printing) (inHand : Option Layout) (count : Nat) : Prop :=
  ∀ position, printing.tail = some position → position < count ∧
    ∃ chain node, inHand = some chain ∧ graph.nodes[position]? = some node ∧ chain.last.id = node.id

/-- Which ends of an edge are new. -/
theorem fresh_cases (hmentioned : printing.mentioned = List.range count) (source target : Nat) :
    (printing.fresh source target = [] ∧ source < count ∧ target < count) ∨
    (printing.fresh source target = [source] ∧ count ≤ source ∧ (target < count ∨ target = source)) ∨
    (printing.fresh source target = [target] ∧ source < count ∧ count ≤ target) ∨
    (printing.fresh source target = [source, target] ∧ count ≤ source ∧ count ≤ target) := by
  unfold fresh
  rw [hmentioned]
  rcases Nat.lt_or_ge source count with hs | hs <;> rcases Nat.lt_or_ge target count with ht | ht <;>
    by_cases he : source = target <;>
    simp [hs, ht, he, Nat.not_le.2, Nat.not_lt.2]

/-- What is the start of the numbers from a count on holds them in order. -/
theorem getElem?_of_eq_take_range' {entries : List Nat} {bound size : Nat}
    (h : entries = (List.range' count bound).take size) {i entry : Nat} (he : entries[i]? = some entry) :
    entry = count + i := by
  rw [h, List.getElem?_take] at he
  split at he
  · obtain ⟨hlt, hget⟩ := List.getElem?_eq_some_iff.1 he
    rw [← hget, List.getElem_range', Nat.one_mul]
  · cases he

/-- Before an edge the nodes are mentioned that come before both of its ends, unless the ends come next anyway. -/
theorem Written.catchUp (h : Written graph edges printing done inHand count) (hids : graph.ids.Nodup)
    (htail : TailAt graph printing inHand count) {source target : Nat} (hsource : source < graph.nodes.length)
    (htarget : target < graph.nodes.length) :
    ∃ done inHand count, Written graph edges (catchUp graph printing source target) done inHand count ∧
      TailAt graph (catchUp graph printing source target) inHand count ∧ source ≤ count ∧
        target ≤ max count (source + 1) := by
  have hle := h.introduced.count_le
  unfold Printing.catchUp
  rw [pending_eq h.mentioned hle]
  by_cases hnext : printing.fresh source target =
      (List.range' count (graph.nodes.length - count)).take (printing.fresh source target).length
  · rw [if_pos hnext]
    refine ⟨done, inHand, count, h, htail, ?_⟩
    have hat {i entry : Nat} (he : (printing.fresh source target)[i]? = some entry) : entry = count + i :=
      getElem?_of_eq_take_range' hnext he
    rcases fresh_cases h.mentioned source target with ⟨-, hs, ht⟩ | ⟨hf, hs, ht⟩ | ⟨hf, hs, ht⟩ | ⟨hf, hs, ht⟩
    · omega
    · have hfirst : source = count + 0 := hat (by rw [hf]; rfl)
      omega
    · have hfirst : target = count + 0 := hat (by rw [hf]; rfl)
      omega
    · have hfirst : source = count + 0 := hat (by rw [hf]; rfl)
      have hsecond : target = count + 1 := hat (by rw [hf]; rfl)
      omega
  · rw [if_neg hnext]
    obtain ⟨hcount, hlast, hs, ht⟩ : count ≤ (printing.fresh source target).foldl max 0 ∧
        (printing.fresh source target).foldl max 0 < graph.nodes.length ∧
        source ≤ (printing.fresh source target).foldl max 0 ∧ target ≤ (printing.fresh source target).foldl max 0 := by
      rcases fresh_cases h.mentioned source target with ⟨hf, hs, ht⟩ | ⟨hf, hs, ht⟩ | ⟨hf, hs, ht⟩ | ⟨hf, hs, ht⟩
      · exact absurd (by rw [hf]; rfl) hnext
      · simp [hf]
        omega
      · simp [hf]
        omega
      · simp [hf]
        omega
    obtain ⟨more, hmore⟩ := Nat.exists_eq_add_of_le hcount
    have hbefore : (List.range' count (graph.nodes.length - count)).filter
        (· < (printing.fresh source target).foldl max 0) = List.range' count more := by
      have hsplit := List.range'_append_1 (s := count) (m := more) (n := graph.nodes.length - count - more)
      rw [Nat.add_sub_cancel' (by omega)] at hsplit
      rw [← hsplit, hmore, List.filter_append, List.filter_eq_self.2 (by simp [List.mem_range'_1]),
        List.filter_eq_nil_iff.2 (by simp [List.mem_range'_1]; omega), List.append_nil]
    dsimp only
    rw [hbefore]
    have halone := h.endChain.mentionAlone hids (by omega : count + more ≤ graph.nodes.length)
    refine ⟨_, none, count + more, ⟨halone.mentioned, halone.chains, halone.chain, halone.introduced, halone.edges⟩,
      by nofun, by omega, by omega⟩

/-- An id of the graph has the position of a node with that id. -/
theorem exists_position {id : String} (h : id ∈ graph.ids) :
    ∃ position node, graph.position? id = some position ∧ graph.nodes[position]? = some node ∧ node.id = id ∧
      position < graph.nodes.length := by
  obtain ⟨node, hnode, hid⟩ := List.mem_map.1 h
  obtain ⟨position, hposition⟩ : ∃ position, graph.position? id = some position := by
    refine Option.isSome_iff_exists.1 ?_
    rw [position?, List.findIdx?_isSome, List.any_eq_true]
    exact ⟨node, hnode, beq_iff_eq.2 hid⟩
  obtain ⟨hlt, hfound, -⟩ := List.findIdx?_eq_some_iff_getElem.1 hposition
  exact ⟨position, graph.nodes[position], hposition, List.getElem?_eq_getElem hlt, beq_iff_eq.1 hfound, hlt⟩

/-- An edge is printed after the edges before it. -/
theorem Written.addEdge (h : Written graph edges printing done inHand count) (hids : graph.ids.Nodup)
    (htail : TailAt graph printing inHand count) {edge : Edge} (hsource : edge.source ∈ graph.ids)
    (htarget : edge.target ∈ graph.ids) :
    ∃ done inHand count, Written graph (edges ++ [edge]) (addEdge graph printing edge) done inHand count ∧
      TailAt graph (addEdge graph printing edge) inHand count := by
  obtain ⟨source, first, hs, hfirst, hfirstId, hslt⟩ := exists_position hsource
  obtain ⟨target, second, ht, hsecond, hsecondId, htlt⟩ := exists_position htarget
  obtain ⟨done, inHand, count, hready, htail, hsle, htle⟩ := h.catchUp hids htail hslt htlt
  unfold Printing.addEdge
  rw [hs, ht]
  dsimp only
  obtain ⟨done, chain, count, hopened, hlast, htle⟩ : ∃ done chain count,
      Written graph edges
        (if (Printing.catchUp graph printing source target).tail = some source then
          Printing.catchUp graph printing source target
        else mention graph (Printing.catchUp graph printing source target).endChain source) done (some chain) count ∧
      chain.last.id = first.id ∧ target ≤ count := by
    split
    · rename_i hat
      obtain ⟨hlt, chain, node, rfl, hnode, hid⟩ := htail source hat
      rw [hfirst] at hnode
      cases hnode
      exact ⟨done, chain, count, hready, hid, by omega⟩
    · exact ⟨_, _, _, hready.endChain.mention_first hids hfirst hsle, id_mentionAt _ _ _, htle⟩
  have hwritten := hopened.mention_target hids hsecond htle edge.label (some target)
  rw [hlast, hfirstId, hsecondId] at hwritten
  refine ⟨_, _, _, hwritten, ?_⟩
  rintro position ⟨⟩
  refine ⟨by omega, _, second, rfl, hsecond, ?_⟩
  rw [Layout.last_concat, id_mentionAt]

/-- All edges are printed. -/
theorem exists_written_edges (hclosed : graph.Closed) :
    ∃ done inHand count, Written graph graph.edges (graph.edges.foldl (addEdge graph) start) done inHand count := by
  have hfold (edges : List Edge) (hends : ∀ edge ∈ edges, edge.source ∈ graph.ids ∧ edge.target ∈ graph.ids) :
      ∃ done inHand count, Written graph edges (edges.foldl (addEdge graph) start) done inHand count ∧
        TailAt graph (edges.foldl (addEdge graph) start) inHand count := by
    induction edges using List.reverseRecOn with
    | nil => exact ⟨[], none, 0, written_start, nofun⟩
    | append_singleton rest edge ih =>
      obtain ⟨hrest, hedge⟩ := List.forall_mem_append.1 hends
      obtain ⟨hsource, htarget⟩ := List.forall_mem_singleton.1 hedge
      obtain ⟨done, inHand, count, hwritten, htail⟩ := ih hrest
      rw [List.foldl_append]
      exact hwritten.addEdge hclosed.ids_nodup htail hsource htarget
  obtain ⟨done, inHand, count, hwritten, -⟩ := hfold graph.edges hclosed.ends_mem
  exact ⟨done, inHand, count, hwritten⟩

end Printing

/-- The printed pattern is a sequence of chains that introduce all nodes in order and join them by the edges in
order. -/
theorem exists_layout {graph : Graph} (h : graph.Closed) :
    ∃ chains : List Layout, graph.patternText.toList = [',', ' '].intercalate (chains.map Layout.chars) ∧
      Introduced graph (chains.flatMap Layout.mentions) graph.nodes.length ∧
      chains.flatMap Layout.edges = graph.edges := by
  obtain ⟨done, inHand, count, hwritten⟩ := Printing.exists_written_edges h
  have hended := hwritten.endChain
  have hle := hended.introduced.count_le
  have hall := hended.mentionAlone h.ids_nodup (Nat.le_of_eq (Nat.add_sub_cancel' hle))
  rw [Nat.add_sub_cancel' hle] at hall
  have hintroduced := hall.introduced
  have hedges := hall.edges
  rw [Option.toList_none, List.append_nil] at hintroduced hedges
  refine ⟨_, ?_, hintroduced, hedges⟩
  unfold patternText
  dsimp only
  rw [Printing.pending_eq hended.mentioned hle, String.toList_intercalate, hall.chains]
  rfl

end Graph

end ClusterQuery
