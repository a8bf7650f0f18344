import Mlxcel.PromptCache.TrieMatch

/-!
# Popping superseded prefixes

`RadixTrie::pop_prefixes` takes out the records at the strict prefixes of a token list. It walks
down the path of the list, empties the nodes on it and repairs their counts. Unlike `remove` it
prunes nothing, so it leaves nodes behind that lead to no record. A trie on which it was called is
well-formed up to that (`LooseTrie`).

**What is popped.**  The records at the strict prefixes are returned, and all others stay
(`TrieNode.popped_popNode`).

**What a search finds afterwards.**  The walk asks for children and not for records. A node without
records below it is a match that no stored token list has, unless the trie is left empty, which the
walk notices by the count of the root. `popExact_iff` says that this is the only way to go wrong.
-/

namespace Mlxcel.PromptCache

open List CommonPrefix

/-- A prefix that is shorter. -/
def isStrictPrefix (a b : List Token) : Bool := a.isPrefixOf b && a.length < b.length

lemma isStrictPrefix_iff {a b : List Token} :
    isStrictPrefix a b = true ↔ ∃ rest, rest ≠ [] ∧ b = a ++ rest := by
  simp only [isStrictPrefix, Bool.and_eq_true, isPrefixOf_iff_prefix, decide_eq_true_eq]
  constructor
  · rintro ⟨⟨rest, rfl⟩, hlt⟩
    refine ⟨rest, fun hnil => ?_, rfl⟩
    simp [hnil] at hlt
  · rintro ⟨rest, hne, rfl⟩
    refine ⟨⟨rest, rfl⟩, ?_⟩
    have := length_pos_iff.mpr hne
    simp only [length_append]
    omega

@[simp] lemma isStrictPrefix_nil_right (a : List Token) : isStrictPrefix a [] = false := by
  simp [isStrictPrefix]

@[simp] lemma isStrictPrefix_nil_cons (t : Token) (ts : List Token) :
    isStrictPrefix [] (t :: ts) = true := by
  simp [isStrictPrefix]

@[simp] lemma isStrictPrefix_append (p a b : List Token) :
    isStrictPrefix (p ++ a) (p ++ b) = isStrictPrefix a b := by
  rw [Bool.eq_iff_iff, isStrictPrefix_iff, isStrictPrefix_iff]
  simp

namespace TrieNode

mutual

/-- `pop_prefixes` at a node that is reached with `tokens` left, with the records it returns. The
node at the end of the tokens is left alone. -/
def popNode : TrieNode → List Token → TrieNode × List DigestAndLen
  | node, [] => (node, [])
  | ⟨edge, entries, count, children⟩, t :: ts =>
    let (children, below) := popChild children t ts
    (⟨edge, [], count - (entries ++ below).length, children⟩, entries ++ below)

/-- The walk goes on in the child under the first token, if its edge matches. -/
def popChild : List (Token × TrieNode) → Token → List Token →
    List (Token × TrieNode) × List DigestAndLen
  | [], _, _ => ([], [])
  | (k, child) :: rest, t, ts =>
    if k = t then
      if (t :: ts).length < child.edge.length ∨ (t :: ts).take child.edge.length ≠ child.edge then
        ((k, child) :: rest, [])
      else
        let (child, popped) := popNode child ((t :: ts).drop child.edge.length)
        ((k, child) :: rest, popped)
    else
      let (rest, popped) := popChild rest t ts
      ((k, child) :: rest, popped)

end

mutual

/-- Where the nodes of a subtree are, as token lists that follow the node. -/
def positions : TrieNode → List (List Token)
  | ⟨_, _, _, children⟩ => [] :: childPositions children

def childPositions : List (Token × TrieNode) → List (List Token)
  | [] => []
  | (_, child) :: rest => (positions child).map (child.edge ++ ·) ++ childPositions rest

end

lemma positions_eq (node : TrieNode) : node.positions =
    [] :: node.children.flatMap fun kc => kc.2.positions.map (kc.2.edge ++ ·) := by
  have hchildren : ∀ children : List (Token × TrieNode), childPositions children =
      children.flatMap fun kc => kc.2.positions.map (kc.2.edge ++ ·) := by
    intro children
    induction children with
    | nil => rfl
    | cons kc children ih => rw [childPositions, ih, flatMap_cons]
  obtain ⟨edge, entries, count, children⟩ := node
  rw [positions, hchildren]

/-- `node'` is `node` without the records at the strict prefixes of `tokens`, which follow the node,
and these records. -/
structure Popped (start : ℕ) (node : TrieNode) (tokens : List Token) (node' : TrieNode)
    (popped : List DigestAndLen) : Prop where
  wellFormed : WellFormed False start node'
  edge_eq : node'.edge = node.edge
  positions_eq : node'.positions = node.positions
  tails_eq : node'.tails = node.tails.filter fun x => !isStrictPrefix x.1 tokens
  popped_eq : popped = (node.tails.filter fun x => isStrictPrefix x.1 tokens).map
    fun x => ⟨x.2, start + node.edge.length + x.1.length⟩

variable {t : Token}

lemma popChild_append {left : List (Token × TrieNode)} (hleft : ∀ kc ∈ left, kc.1 ≠ t)
    (right : List (Token × TrieNode)) (ts : List Token) :
    popChild (left ++ right) t ts
      = (left ++ (popChild right t ts).1, (popChild right t ts).2) := by
  induction left with
  | nil => rfl
  | cons kc left ih =>
    rw [forall_mem_cons] at hleft
    rw [cons_append, popChild, if_neg hleft.1, ih hleft.2]
    rfl

variable {x : List Token × PromptCacheKeyDigest}

variable {c : TrieNode}

/-- Nothing below a child that is filed under another token is a prefix of the tokens. -/
lemma not_isStrictPrefix_of_mem_paths {k t : Token} {ts : List Token}
    (hhead : c.edge.head? = some k) (hk : k ≠ t) (hx : x ∈ c.paths) :
    isStrictPrefix x.1 (t :: ts) = false := by
  have hxhead := head?_of_mem_paths hhead hx
  obtain ⟨_ | ⟨y, tokens⟩, d⟩ := x
  · simp at hxhead
  · rw [head?_cons, Option.some.injEq] at hxhead
    rw [← Bool.not_eq_true, isStrictPrefix_iff]
    rintro ⟨rest, -, heq⟩
    rw [cons_append, cons.injEq] at heq
    exact hk (hxhead ▸ heq.1.symm)

variable {tokens : List Token}

/-- Nothing below an edge that the tokens do not match is a prefix of them. -/
lemma not_isStrictPrefix_of_edge
    (h : tokens.length < c.edge.length ∨ tokens.take c.edge.length ≠ c.edge) (hx : x ∈ c.paths) :
    isStrictPrefix x.1 tokens = false := by
  obtain ⟨ts, hts, _⟩ := mem_paths.mp hx
  rw [← Bool.not_eq_true, isStrictPrefix_iff, hts]
  rintro ⟨rest, -, rfl⟩
  rw [append_assoc, take_left, length_append] at h
  rcases h with h | h
  · omega
  · exact h rfl

variable {pruned : Prop} {start : ℕ} {node : TrieNode}

lemma WellFormed.sum_subtreeCount {children : List (Token × TrieNode)}
    (h : ∀ k c, (k, c) ∈ children → WellFormed pruned start c) :
    (children.map fun kc => kc.2.subtreeCount).sum
      = (children.flatMap fun kc => kc.2.paths).length := by
  rw [length_flatMap]
  refine congrArg List.sum (map_congr_left ?_)
  rintro ⟨k, c⟩ hc
  rw [length_paths, (h k c hc).subtreeCount_eq]

section PopChildren

variable {start n : ℕ} {edge ts : List Token} {entries popped : List DigestAndLen} {t : Token}
  {children children' : List (Token × TrieNode)}

/-- A node on the path loses its own records and what is popped below it. -/
lemma popped_of_children (h : WellFormed False start ⟨edge, entries, n, children⟩)
    (hkeys : children'.map Prod.fst = children.map Prod.fst)
    (hkeyed : ∀ k c, (k, c) ∈ children' → c.edge.head? = some k)
    (below : ∀ k c, (k, c) ∈ children' → WellFormed False (start + edge.length) c)
    (hpositions : (children'.flatMap fun kc => kc.2.positions.map (kc.2.edge ++ ·))
      = children.flatMap fun kc => kc.2.positions.map (kc.2.edge ++ ·))
    (hpaths : (children'.flatMap fun kc => kc.2.paths)
      = (children.flatMap fun kc => kc.2.paths).filter fun x => !isStrictPrefix x.1 (t :: ts))
    (hpopped : popped
      = ((children.flatMap fun kc => kc.2.paths).filter fun x => isStrictPrefix x.1 (t :: ts)).map
        fun x => ⟨x.2, start + edge.length + x.1.length⟩) :
    Popped start ⟨edge, entries, n, children⟩ (t :: ts)
      ⟨edge, [], n - (entries ++ popped).length, children'⟩ (entries ++ popped) := by
  have hshape := h.shape
  have hcount : n = entries.length + (children.flatMap fun kc => kc.2.paths).length := by
    have hn : n = _ := h.subtreeCount_eq
    rw [hn, tails_eq, length_append, length_map]
  have hsplit := length_eq_length_filter_add
    (l := children.flatMap fun kc => kc.2.paths) (fun x => isStrictPrefix x.1 (t :: ts))
  refine ⟨.mk ?_ ⟨by simp, by simp, ?_, hkeyed, False.elim⟩ below, rfl, ?_, ?_, ?_⟩
  · show n - (entries ++ popped).length = 0 + _
    rw [WellFormed.sum_subtreeCount below, hpaths, hpopped, length_append, length_map]
    omega
  · rw [hkeys]
    exact hshape.keys_nodup
  · rw [positions_eq, positions_eq, hpositions]
  · rw [tails_eq, tails_eq]
    simp [hpaths]
  · rw [tails_eq, filter_append, map_append]
    congr 1
    have hown : (entries.map fun e => (([] : List Token), e.digest)).filter
        (fun x => isStrictPrefix x.1 (t :: ts)) = entries.map fun e => ([], e.digest) := by
      refine filter_eq_self.mpr fun x hx => ?_
      obtain ⟨e, -, rfl⟩ := mem_map.mp hx
      exact isStrictPrefix_nil_cons t ts
    rw [hown, map_map]
    refine (map_id _).symm.trans (map_congr_left fun e he => ?_)
    rw [id_eq, Function.comp_apply, length_nil, add_zero, ← hshape.tokenLen_eq e he]

end PopChildren

/-- Where no path is a strict prefix, all of them are kept and none is popped. -/
lemma filter_paths {l : List (Token × TrieNode)}
    (h : ∀ kc ∈ l, ∀ x ∈ kc.2.paths, isStrictPrefix x.1 tokens = false) :
    ((l.flatMap fun kc => kc.2.paths).filter fun x => !isStrictPrefix x.1 tokens)
        = (l.flatMap fun kc => kc.2.paths) ∧
      ((l.flatMap fun kc => kc.2.paths).filter fun x => isStrictPrefix x.1 tokens) = [] := by
  have hall : ∀ x ∈ l.flatMap fun kc => kc.2.paths, isStrictPrefix x.1 tokens = false := by
    intro x hx
    obtain ⟨kc, hkc, hx⟩ := mem_flatMap.mp hx
    exact h kc hkc x hx
  exact ⟨filter_eq_self.mpr fun x hx => by simp [hall x hx],
    filter_eq_nil_iff.mpr fun x hx => by simp [hall x hx]⟩

/-- **What a call pops.**  The records at the strict prefixes are returned, all others stay. -/
theorem popped_popNode (h : WellFormed False start node) : ∀ tokens : List Token,
      Popped start node tokens (popNode node tokens).1 (popNode node tokens).2 := by
  induction h with
  | @mk start node count shape below ih =>
    intro tokens
    have hnode : WellFormed False start node := .mk count shape below
    rcases tokens with _ | ⟨t, ts⟩
    · rw [popNode]
      exact ⟨hnode, rfl, rfl, by simp, by simp⟩
    obtain ⟨edge, entries, n, children⟩ := node
    rw [popNode]
    -- when the walk ends here, nothing below is a prefix of the tokens
    have hend : (∀ kc ∈ children, ∀ x ∈ kc.2.paths, isStrictPrefix x.1 (t :: ts) = false) →
        Popped start ⟨edge, entries, n, children⟩ (t :: ts)
          ⟨edge, [], n - (entries ++ []).length, children⟩ (entries ++ []) := by
      intro hnone
      obtain ⟨hkept, hdropped⟩ := filter_paths hnone
      exact popped_of_children hnode rfl shape.keyed below rfl hkept.symm (by rw [hdropped]; rfl)
    rcases exists_split_children children t with hne | ⟨left, c, right, rfl, hleft⟩
    · have hpop : popChild children t ts = (children, []) := by
        have happend := popChild_append hne [] ts
        rwa [popChild, append_nil] at happend
      rw [hpop]
      exact hend fun kc hkc x hx =>
        not_isStrictPrefix_of_mem_paths (shape.keyed kc.1 kc.2 hkc) (hne kc hkc) hx
    have hc : (t, c) ∈ left ++ (t, c) :: right := by simp
    have hothers : ∀ kc ∈ left ++ right, ∀ x ∈ kc.2.paths,
        isStrictPrefix x.1 (t :: ts) = false := by
      intro kc hkc x hx
      exact not_isStrictPrefix_of_mem_paths (shape.erase.keyed kc.1 kc.2 hkc)
        (shape.key_ne kc hkc) hx
    rw [popChild_append hleft, popChild, if_pos rfl]
    by_cases hedge : (t :: ts).length < c.edge.length ∨ (t :: ts).take c.edge.length ≠ c.edge
    · rw [if_pos hedge]
      refine hend fun kc hkc x hx => ?_
      have hkc : kc ∈ left ∨ kc = (t, c) ∨ kc ∈ right := by simpa using hkc
      rcases hkc with hkc | rfl | hkc
      · exact hothers kc (mem_append_left _ hkc) x hx
      · exact not_isStrictPrefix_of_edge hedge hx
      · exact hothers kc (mem_append_right _ hkc) x hx
    rw [if_neg hedge]
    rw [not_or, not_not] at hedge
    have htokens : t :: ts = c.edge ++ (t :: ts).drop c.edge.length := by
      conv_lhs => rw [← take_append_drop c.edge.length (t :: ts), hedge.2]
    have hchild := ih t c hc ((t :: ts).drop c.edge.length)
    generalize (t :: ts).drop c.edge.length = rest at htokens hchild ⊢
    generalize popNode c rest = out at hchild ⊢
    obtain ⟨c', popped⟩ := out
    dsimp only at hchild
    have hshift : ∀ x : List Token × PromptCacheKeyDigest,
        isStrictPrefix (c.edge ++ x.1) (t :: ts) = isStrictPrefix x.1 rest := by
      intro x
      rw [htokens, isStrictPrefix_append]
    obtain ⟨hkept, hdropped⟩ := filter_paths fun kc hkc => hothers kc (mem_append_left right hkc)
    obtain ⟨hkept', hdropped'⟩ := filter_paths fun kc hkc => hothers kc (mem_append_right left hkc)
    refine popped_of_children hnode (by simp) ?_ ?_ ?_ ?_ ?_
    · intro k d hd
      rcases mem_replace hd with hd | ⟨rfl, rfl⟩
      · exact shape.keyed k d hd
      · rw [hchild.edge_eq]
        exact shape.keyed k c hc
    · intro k d hd
      rcases mem_replace hd with hd | ⟨rfl, rfl⟩
      · exact below k d hd
      · exact hchild.wellFormed
    · simp [hchild.positions_eq, hchild.edge_eq]
    · rw [flatMap_append, flatMap_append, flatMap_cons, flatMap_cons,
        filter_append, filter_append, hkept, hkept']
      rw [paths, paths, hchild.tails_eq, hchild.edge_eq, filter_map]
      simp only [Function.comp_def, hshift]
    · rw [flatMap_append, flatMap_cons, filter_append, filter_append,
        hdropped, hdropped', nil_append, append_nil, paths, filter_map, map_map]
      simp only [Function.comp_def, hshift]
      refine hchild.popped_eq.trans (map_congr_left fun x _ => ?_)
      rw [length_append, add_assoc (start + edge.length)]

/-! ## The walk in a trie with empty nodes -/

/-- A request that ends at a node is matched up to it, whatever the node leads to. -/
lemma depth_walk_of_mem_positions (h : WellFormed pruned start node) :
    ∀ p ∈ node.positions, ∀ consumed : ℕ,
      (walk node p consumed).depth = consumed + p.length := by
  induction h with
  | @mk start node count shape below ih =>
    intro p hp consumed
    rw [positions_eq, mem_cons] at hp
    rcases hp with rfl | hp
    · rw [walk]
      rfl
    obtain ⟨⟨k, c⟩, hc, hp⟩ := mem_flatMap.mp hp
    obtain ⟨q, hq, rfl⟩ := mem_map.mp hp
    obtain ⟨edge', hedge⟩ := List.head?_eq_some_iff.mp (shape.keyed k c hc)
    have hfull : commonPrefixLen c.edge (c.edge ++ q) = c.edge.length :=
      commonPrefixLen_eq_length_iff.mpr ⟨q, rfl⟩
    have hcons : c.edge ++ q = k :: (edge' ++ q) := by rw [hedge, cons_append]
    rw [hcons] at hfull ⊢
    obtain ⟨edge, entries, n, children⟩ := node
    rcases shape.walk_cons k (edge' ++ q) consumed with
      ⟨hne, -⟩ | ⟨left, c', right, _, rfl, -, hstep⟩
    · exact absurd rfl (hne (k, c) hc)
    -- the child under the token is the one the position goes through
    obtain rfl : c' = c := by
      have hc : (k, c) ∈ left ∨ (k, c) = (k, c') ∨ (k, c) ∈ right := by simpa using hc
      rcases hc with hc | hc | hc
      · exact absurd rfl (shape.key_ne (k, c) (mem_append_left _ hc))
      · exact (Prod.mk.inj hc).2.symm
      · exact absurd rfl (shape.key_ne (k, c) (mem_append_right _ hc))
    rcases hstep with ⟨d, hd, hmid, -⟩ | ⟨rest, hrest, heq⟩
    · omega
    · obtain rfl : rest = q := append_cancel_left (hrest.trans hcons.symm)
      rw [heq, ih k c' hc rest hq, ← hcons, length_append, add_assoc]

/-- Where a walk over `tokens` from the end of `node` stops: it matches `d` of them, and it stops at
the first node behind the matched ones. -/
structure Stops (node : TrieNode) (tokens : List Token) (d : ℕ) (subtree : TrieNode) : Prop where
  position : ∃ p ∈ node.positions, tokens.take d <+: p ∧ d ≤ tokens.length ∧ (d ≠ 0 → p ≠ []) ∧
    ∀ x ∈ node.tails, p <+: x.1 → subtree.records ≠ []

lemma stops_self (h : WellFormed pruned start node) (tokens : List Token) :
    Stops node tokens 0 node := by
  refine ⟨[], by rw [positions_eq]; exact mem_cons_self, by simp, Nat.zero_le _, by simp, ?_⟩
  intro x hx _ hnone
  rw [h.records_eq_map, map_eq_nil_iff] at hnone
  exact absurd hx (by simp [hnone])

/-- What starts with the edge of a child is stored below that child. -/
lemma exists_mem_tails_child {n : ℕ} {edge q : List Token} {entries : List DigestAndLen}
    {left right : List (Token × TrieNode)}
    (shape : Shape pruned start ⟨edge, entries, n, left ++ (t, c) :: right⟩)
    (hx : x ∈ tails ⟨edge, entries, n, left ++ (t, c) :: right⟩) (hq : c.edge ++ q <+: x.1) :
    ∃ y ∈ c.tails, q <+: y.1 := by
  obtain ⟨edge', hedge⟩ := List.head?_eq_some_iff.mp (shape.keyed t c (by simp))
  obtain ⟨rest, hrest⟩ := hq
  have hpath : x ∈ c.paths := by
    rcases mem_tails_children.mp hx with hx | hx
    · exact hx
    · have hcons : x = (t :: (edge' ++ q ++ rest), x.2) := by
        refine Prod.ext ?_ rfl
        rw [← hrest, hedge]
        simp
      rw [hcons] at hx
      exact absurd hx shape.notMem_tails_rest
  obtain ⟨ys, hys, hmem⟩ := mem_paths.mp hpath
  rw [← hrest, append_assoc] at hys
  exact ⟨_, hmem, rest, append_cancel_left hys⟩

/-- **The walk** in a trie that may have empty nodes. -/
theorem stops_walk (h : WellFormed pruned start node) : ∀ (tokens : List Token) (consumed : ℕ),
      ∃ d, (walk node tokens consumed).depth = consumed + d ∧
        Stops node tokens d (walk node tokens consumed).subtree := by
  induction h with
  | @mk start node count shape below ih =>
    intro tokens consumed
    have hnode : WellFormed pruned start node := .mk count shape below
    rcases tokens with _ | ⟨t, ts⟩
    · rw [walk]
      exact ⟨0, rfl, stops_self hnode _⟩
    obtain ⟨edge, entries, n, children⟩ := node
    rcases shape.walk_cons t ts consumed with
      ⟨-, heq⟩ | ⟨left, c, right, edge', rfl, hedge, hstep⟩
    · rw [heq]
      exact ⟨0, rfl, stops_self hnode _⟩
    have hc : (t, c) ∈ left ++ (t, c) :: right := by simp
    have hchild : WellFormed pruned (start + edge.length) c := below t c hc
    have hpositions : ∀ q ∈ c.positions,
        c.edge ++ q ∈ positions ⟨edge, entries, n, left ++ (t, c) :: right⟩ := by
      intro q hq
      rw [positions_eq]
      refine mem_cons_of_mem _ (mem_flatMap.mpr ⟨(t, c), hc, ?_⟩)
      exact mem_map.mpr ⟨q, hq, rfl⟩
    rcases hstep with ⟨d, hd, -, heq⟩ | ⟨rest, hrest, heq⟩
    · -- the walk ends inside the edge
      rw [heq, hd]
      refine ⟨_, rfl, ⟨c.edge ++ [], hpositions [] ?_, ?_, commonPrefixLen_le_right _ _, ?_, ?_⟩⟩
      · rw [positions_eq]
        exact mem_cons_self
      · rw [← take_commonPrefixLen, append_nil]
        exact take_prefix _ _
      · simp [hedge]
      · intro x hx hextends
        obtain ⟨y, hy, -⟩ := exists_mem_tails_child shape hx hextends
        intro hnone
        rw [hchild.records_eq_map, map_eq_nil_iff] at hnone
        exact absurd hy (by simp [hnone])
    · -- the whole edge is matched
      rw [heq]
      obtain ⟨d, hdepth, hstops⟩ := ih t c hc rest (consumed + c.edge.length)
      obtain ⟨q, hq, htake, hle, -, hrecords⟩ := hstops.position
      refine ⟨c.edge.length + d, by rw [hdepth, add_assoc],
        ⟨c.edge ++ q, hpositions q hq, ?_, ?_, ?_, ?_⟩⟩
      · rw [← hrest, take_length_add_append]
        exact prefix_append_right_inj _ |>.mpr htake
      · rw [← hrest, length_append]
        omega
      · simp [hedge]
      · intro x hx hextends
        obtain ⟨y, hy, hqy⟩ := exists_mem_tails_child shape hx hextends
        exact hrecords y hy hqy

end TrieNode

/-! ## Histories with `pop_prefixes` -/

/-- A trie that may have nodes without records below them. -/
structure LooseTrie where
  root : TrieNode
  edge_eq : root.edge = []
  wellFormed : root.WellFormed False 0

/-- A call on a trie. -/
inductive LooseOp
  | insert (tokens : List Token) (digest : PromptCacheKeyDigest)
  | remove (tokens : List Token) (digest : PromptCacheKeyDigest)
  | popPrefixes (tokens : List Token)

namespace LooseTrie

open TrieNode

def empty : LooseTrie :=
  ⟨⟨[], [], 0, []⟩, RadixTrie.empty.edge_eq,
    .mk rfl ⟨by simp, by simp, by simp, by simp, by simp⟩ (by simp)⟩

variable (trie : LooseTrie) (tokens : List Token)

/-- The pairs of tokens and digest in the trie. -/
def stored : List (List Token × PromptCacheKeyDigest) := trie.root.tails

def insert (digest : PromptCacheKeyDigest) : LooseTrie where
  root := insertInto trie.root tokens ⟨digest, tokens.length⟩
  edge_eq := by rw [edge_insertInto, trie.edge_eq]
  wellFormed := by
    refine (inserted_insertInto trie.wellFormed ?_).wellFormed
    rw [trie.edge_eq, nil_append, zero_add]

lemma removed_root {tokens : List Token} {digest : PromptCacheKeyDigest}
    {root : TrieNode} (h : removeFrom true trie.root tokens digest = some root) :
    root.WellFormed False 0 ∧ root.edge = [] := by
  have hspec := removeFrom_spec trie.wellFormed true tokens digest
  rw [h, RemoveResult, trie.edge_eq] at hspec
  exact ⟨hspec.1.wellFormed, (hspec.2 rfl).symm⟩

def remove (digest : PromptCacheKeyDigest) : LooseTrie × Bool :=
  match h : removeFrom true trie.root tokens digest with
  | none => (trie, false)
  | some root => (⟨root, (trie.removed_root h).2, (trie.removed_root h).1⟩, true)

/-- `pop_prefixes`: the trie afterwards and the records it returns. -/
def popPrefixes : LooseTrie × List DigestAndLen :=
  (⟨(popNode trie.root tokens).1,
      (popped_popNode trie.wellFormed tokens).edge_eq.trans trie.edge_eq,
      (popped_popNode trie.wellFormed tokens).wellFormed⟩, (popNode trie.root tokens).2)

def findLongestPrefix (minLen : ℕ) : Option TrieMatch :=
  match trie.root.walkLongest tokens with
  | none => none
  | some found => if found.depth < minLen then none else some found

def apply : LooseOp → LooseTrie
  | .insert tokens digest => trie.insert tokens digest
  | .remove tokens digest => (trie.remove tokens digest).1
  | .popPrefixes tokens => (trie.popPrefixes tokens).1

/-- The trie after a sequence of calls on an empty one. -/
def run (ops : List LooseOp) : LooseTrie := ops.foldl apply empty

/-- **A call of `pop_prefixes` is exact**: it returns the records at the strict prefixes of the
tokens, keeps all other pairs, and a search afterwards finds nothing or a depth that a stored token
list shares with the request, at a subtree with records. -/
structure PopExact (trie : LooseTrie) (tokens : List Token) : Prop where
  returned : (trie.popPrefixes tokens).2 =
    (trie.stored.filter fun x => isStrictPrefix x.1 tokens).map fun x => ⟨x.2, x.1.length⟩
  kept : (trie.popPrefixes tokens).1.stored =
    trie.stored.filter fun x => !isStrictPrefix x.1 tokens
  found : ∀ request minLen found,
    (trie.popPrefixes tokens).1.findLongestPrefix request minLen = some found →
    found.candidates ≠ [] ∧
      ∃ x ∈ (trie.popPrefixes tokens).1.stored, found.depth ≤ commonPrefixLen x.1 request

/-- Every node but the root leads to a record that is not at a strict prefix of the tokens, or all
records are at strict prefixes of the tokens. -/
def LeadsOn : Prop :=
  (∀ x ∈ trie.stored, isStrictPrefix x.1 tokens = true) ∨
    ∀ p ∈ trie.root.positions, p ≠ [] →
      ∃ x ∈ trie.stored, isStrictPrefix x.1 tokens = false ∧ p <+: x.1

lemma popped_root :
    Popped 0 trie.root tokens (trie.popPrefixes tokens).1.root (trie.popPrefixes tokens).2 :=
  popped_popNode trie.wellFormed tokens

lemma stored_popPrefixes : (trie.popPrefixes tokens).1.stored =
    trie.stored.filter fun x => !isStrictPrefix x.1 tokens :=
  (trie.popped_root tokens).tails_eq

variable {request : List Token} {minLen : ℕ} {found : TrieMatch}

/-- A search finds what the walk finds, unless the trie is empty or nothing is matched. -/
lemma findLongestPrefix_eq_some {trie : LooseTrie} :
    trie.findLongestPrefix request minLen = some found ↔
      trie.stored ≠ [] ∧ found.depth ≠ 0 ∧ minLen ≤ found.depth ∧
        walk trie.root request 0 = found := by
  have hcount : trie.root.subtreeCount = 0 ↔ trie.stored = [] := by
    rw [trie.wellFormed.subtreeCount_eq, length_eq_zero_iff, stored]
  rw [findLongestPrefix, walkLongest]
  simp only [hcount]
  by_cases hnil : trie.stored = []
  · simp [hnil]
  · by_cases hzero : (walk trie.root request 0).depth = 0
    · simp only [hnil, if_false, hzero, if_true, reduceCtorEq, false_iff]
      rintro ⟨-, hne, -, rfl⟩
      exact hne hzero
    · simp only [hnil, if_false, hzero, Option.ite_none_left_eq_some, Option.some.injEq, not_lt]
      constructor
      · rintro ⟨hmin, rfl⟩
        exact ⟨hnil, hzero, hmin, rfl⟩
      · rintro ⟨-, -, hmin, rfl⟩
        exact ⟨hmin, rfl⟩

/-- A search in a trie whose nodes all lead on finds what is there. -/
lemma found_of_leadsOn {trie : LooseTrie} {tokens : List Token} (h : trie.LeadsOn tokens)
    (hfound : (trie.popPrefixes tokens).1.findLongestPrefix request minLen = some found) :
    found.candidates ≠ [] ∧
      ∃ x ∈ (trie.popPrefixes tokens).1.stored, found.depth ≤ commonPrefixLen x.1 request := by
  have hpositions := (trie.popped_root tokens).positions_eq
  have hstored := trie.stored_popPrefixes tokens
  obtain ⟨hne, hdepth, -, rfl⟩ := findLongestPrefix_eq_some.mp hfound
  obtain ⟨d, hd, hstops⟩ := stops_walk (trie.popPrefixes tokens).1.wellFormed request 0
  rw [zero_add] at hd
  rw [hd] at hdepth ⊢
  obtain ⟨p, hp, htake, hle, hp0, hrecords⟩ := hstops.position
  rcases h with hall | hleads
  · refine absurd (filter_eq_nil_iff.mpr fun x hx => ?_) (hstored ▸ hne)
    simp [hall x hx]
  · rw [hpositions] at hp
    obtain ⟨x, hx, hkept, hextends⟩ := hleads p hp (hp0 hdepth)
    have hmem : x ∈ (trie.popPrefixes tokens).1.stored := by
      rw [hstored, mem_filter]
      exact ⟨hx, by simp [hkept]⟩
    refine ⟨fun hnone => hrecords x hmem hextends ?_, x, hmem, ?_⟩
    · have hperm := dfs_perm (walk (trie.popPrefixes tokens).1.root request 0).subtree
      rw [TrieMatch.candidates] at hnone
      rw [hnone] at hperm
      exact hperm.nil_eq.symm
    · obtain ⟨rest, hrest⟩ := htake.trans hextends
      have hlen : (request.take d).length = d := length_take_of_le hle
      rw [le_commonPrefixLen_iff]
      refine ⟨?_, hle, ?_⟩
      · rw [← hrest, length_append]
        omega
      · rw [← hrest, take_left' hlen]

/-- A node that leads to no record is found by a request that ends at it. -/
lemma leadsOn_of_found {trie : LooseTrie} {tokens : List Token}
    (h : ∀ request found, (trie.popPrefixes tokens).1.findLongestPrefix request 0 = some found →
      ∃ x ∈ (trie.popPrefixes tokens).1.stored, found.depth ≤ commonPrefixLen x.1 request) :
    trie.LeadsOn tokens := by
  have hpositions := (trie.popped_root tokens).positions_eq
  have hstored := trie.stored_popPrefixes tokens
  by_cases hempty : (trie.popPrefixes tokens).1.stored = []
  · left
    intro x hx
    rw [hstored, filter_eq_nil_iff] at hempty
    simpa using hempty x hx
  · right
    intro p hp hp0
    rw [← hpositions] at hp
    have hdepth := depth_walk_of_mem_positions (trie.popPrefixes tokens).1.wellFormed p hp 0
    rw [zero_add] at hdepth
    obtain ⟨x, hx, hle⟩ := h p (walk (trie.popPrefixes tokens).1.root p 0)
      (findLongestPrefix_eq_some.mpr ⟨hempty, by simpa [hdepth] using hp0, Nat.zero_le _, rfl⟩)
    rw [hdepth, le_commonPrefixLen_iff, take_length] at hle
    rw [hstored, mem_filter] at hx
    refine ⟨x, hx.1, by simpa using hx.2, ?_⟩
    rw [← hle.2.2]
    exact take_prefix _ _

/-- **When popping is exact.**  After any sequence of calls, a call of `pop_prefixes` is exact if
and only if it leaves no node behind that leads to no record, or no record at all. -/
theorem popExact_iff (ops : List LooseOp) (tokens : List Token) :
    (run ops).PopExact tokens ↔ (run ops).LeadsOn tokens := by
  have hpopped := (run ops).popped_root tokens
  constructor
  · intro h
    exact leadsOn_of_found fun request found hfound => (h.found request 0 found hfound).2
  · intro h
    refine ⟨?_, (run ops).stored_popPrefixes tokens, fun request minLen found => found_of_leadsOn h⟩
    have hreturned := hpopped.popped_eq
    rw [(run ops).edge_eq] at hreturned
    simpa [stored] using hreturned

/-- Two records in different branches; the first one is popped, and its node stays. -/
theorem not_popExact :
    ¬ (run [.insert [1] Digest.zero, .insert [2] Digest.zero]).PopExact [1, 5] := by
  intro h
  exact absurd (h.found [1] 1 ⟨⟨[1], [], 0, []⟩, 0, 1⟩ (by rfl)).1 (by decide)

end LooseTrie

end Mlxcel.PromptCache
