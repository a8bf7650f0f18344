import Mlxcel.PromptCache.Trie
import Mathlib.Order.Bounds.Basic

/-!
# Longest-prefix search in the radix trie

The search walks down the edges that the request matches and stops at a node, or inside an edge.
The candidates are the digests of the subtree where it stopped, collected with an explicit stack.

**One walk.** `TrieNode.walked_walk` says that the walk stops at the longest common prefix that any
stored token list has with the request, and that the subtree it stops at holds exactly the digests
that reach it.

**All histories.** `radixTrie_exact` is the refinement over every sequence of insertions and
removals: the trie is an exact longest-prefix index over what was inserted and not removed since.
-/

namespace Mlxcel.PromptCache

open Function List CommonPrefix

/-- Where a walk ended: the subtree, the tokens matched of its edge when the walk ended inside it,
and the number of request tokens matched. -/
structure TrieMatch where
  subtree : TrieNode
  consumedFromSubtreeEdge : ℕ
  depth : ℕ

namespace TrieNode

mutual

/-- The loop of `walk_longest` at a node that is matched up to its end. -/
def walk : TrieNode → List Token → ℕ → TrieMatch
  | node, [], consumed => ⟨node, 0, consumed⟩
  | ⟨edge, entries, count, children⟩, t :: ts, consumed =>
    (walkChild children t ts consumed).getD ⟨⟨edge, entries, count, children⟩, 0, consumed⟩

/-- The step to the child under the next token: nothing when the walk cannot go on. -/
def walkChild : List (Token × TrieNode) → Token → List Token → ℕ → Option TrieMatch
  | [], _, _, _ => none
  | (k, child) :: rest, t, ts, consumed =>
    if k = t then
      let matched := commonPrefixLen child.edge (t :: ts)
      if matched = 0 then none
      else if matched < child.edge.length then some ⟨child, matched, consumed + matched⟩
      else some (walk child ((t :: ts).drop matched) (consumed + matched))
    else walkChild rest t ts consumed

end

def walkLongest (root : TrieNode) (tokens : List Token) : Option TrieMatch :=
  if root.subtreeCount = 0 then none
  else
    let found := walk root tokens 0
    if found.depth = 0 then none else some found

mutual

/-- The number of nodes of a subtree. -/
def nodeCount : TrieNode → ℕ
  | ⟨_, _, _, children⟩ => 1 + childNodeCount children

def childNodeCount : List (Token × TrieNode) → ℕ
  | [] => 0
  | (_, child) :: rest => nodeCount child + childNodeCount rest

end

/-- The loop of `dfs`, whose stack has its top in front. One node is popped in each round. -/
def dfsLoop : ℕ → List TrieNode → List DigestAndLen
  | 0, _ => []
  | _ + 1, [] => []
  | fuel + 1, node :: stack =>
    node.entries ++ dfsLoop fuel ((node.children.map Prod.snd).reverse ++ stack)

def dfs (node : TrieNode) : List DigestAndLen := dfsLoop node.nodeCount [node]

end TrieNode

/-- `for_each_candidate`: the digests that are visited. -/
def TrieMatch.candidates (found : TrieMatch) : List DigestAndLen := found.subtree.dfs

def RadixTrie.findLongestPrefix (trie : RadixTrie) (tokens : List Token) (minLen : ℕ) :
    Option TrieMatch :=
  match trie.root.walkLongest tokens with
  | none => none
  | some found => if found.depth < minLen then none else some found

namespace TrieNode

variable {pruned : Prop}

/-! ## The traversal -/

mutual

/-- The records of a subtree. -/
def records : TrieNode → List DigestAndLen
  | ⟨_, entries, _, children⟩ => entries ++ childRecords children

def childRecords : List (Token × TrieNode) → List DigestAndLen
  | [] => []
  | (_, child) :: rest => records child ++ childRecords rest

end

lemma records_eq (node : TrieNode) :
    node.records = node.entries ++ node.children.flatMap fun kc => kc.2.records := by
  have hchildren : ∀ children : List (Token × TrieNode),
      childRecords children = children.flatMap fun kc => kc.2.records := by
    intro children
    induction children with
    | nil => rfl
    | cons kc children ih => rw [childRecords, ih, flatMap_cons]
  obtain ⟨edge, entries, count, children⟩ := node
  rw [records, hchildren]

lemma nodeCount_eq (node : TrieNode) :
    node.nodeCount = 1 + (node.children.map fun kc => kc.2.nodeCount).sum := by
  have hchildren : ∀ children : List (Token × TrieNode),
      childNodeCount children = (children.map fun kc => kc.2.nodeCount).sum := by
    intro children
    induction children with
    | nil => rfl
    | cons kc children ih => rw [childNodeCount, ih, map_cons, sum_cons]
  obtain ⟨edge, entries, count, children⟩ := node
  rw [nodeCount, hchildren]

/-- With a round for each node on and below the stack, the loop visits all their records. -/
lemma dfsLoop_perm : ∀ (fuel : ℕ) (stack : List TrieNode), (stack.map nodeCount).sum ≤ fuel →
    (dfsLoop fuel stack).Perm (stack.flatMap records) := by
  intro fuel
  induction fuel with
  | zero =>
    intro stack hfuel
    cases stack with
    | nil => exact .refl _
    | cons node stack =>
      rw [map_cons, sum_cons, nodeCount_eq] at hfuel
      omega
  | succ fuel ih =>
    intro stack hfuel
    cases stack with
    | nil => exact .refl _
    | cons node stack =>
      have hrest : ((((node.children.map Prod.snd).reverse ++ stack).map nodeCount).sum
          ≤ fuel) := by
        rw [map_cons, sum_cons, nodeCount_eq] at hfuel
        rw [map_append, sum_append, map_reverse, sum_reverse, map_map]
        have hcomp : (nodeCount ∘ Prod.snd : Token × TrieNode → ℕ)
            = fun kc => kc.2.nodeCount := rfl
        rw [hcomp]
        omega
      rw [flatMap_cons, records_eq, append_assoc]
      refine .append_left _ ((ih _ hrest).trans ?_)
      rw [flatMap_append]
      refine .append_right _ ?_
      refine ((reverse_perm _).flatMap_right _).trans ?_
      rw [flatMap_map]

lemma dfs_perm (node : TrieNode) : node.dfs.Perm node.records := by
  have h := dfsLoop_perm node.nodeCount [node] (by simp)
  rwa [flatMap_cons, flatMap_nil, append_nil] at h

variable {start : ℕ} {node : TrieNode}

/-- A record keeps the digest and the full length of its tokens. -/
lemma WellFormed.records_eq_map (h : WellFormed pruned start node) :
    node.records
      = node.tails.map fun x => ⟨x.2, start + node.edge.length + x.1.length⟩ := by
  induction h with
  | @mk start node _ shape _ ih =>
    rw [records_eq, tails_eq, map_append, map_map, map_flatMap]
    congr 1
    · refine (map_id _).symm.trans (map_congr_left ?_)
      intro e he
      rw [id_eq, comp_apply, length_nil, Nat.add_zero, ← shape.tokenLen_eq e he]
    · refine flatMap_congr ?_
      rintro ⟨k, c⟩ hc
      rw [ih k c hc, paths, map_map]
      refine map_congr_left ?_
      intro x _
      rw [comp_apply, length_append, Nat.add_assoc (start + node.edge.length)]

/-! ## The walk -/

/-- What holds of a walk over `tokens` that starts at the end of `node`, matches `d` of them and
stops at `subtree`. -/
structure Walked (start : ℕ) (node : TrieNode) (tokens : List Token) (d : ℕ) (subtree : TrieNode) :
    Prop where
  le_depth : ∀ x ∈ node.tails, commonPrefixLen x.1 tokens ≤ d
  records_eq : subtree.records
    = (node.tails.filter fun x => decide (commonPrefixLen x.1 tokens = d)).map
        fun x => ⟨x.2, start + node.edge.length + x.1.length⟩
  reached : node.tails ≠ [] → ∃ x ∈ node.tails, commonPrefixLen x.1 tokens = d

lemma walked_self {tokens : List Token} (h : WellFormed pruned start node)
    (hzero : ∀ x ∈ node.tails, commonPrefixLen x.1 tokens = 0) :
    Walked start node tokens 0 node := by
  refine ⟨fun x hx => (hzero x hx).le, ?_, ?_⟩
  · rw [h.records_eq_map, filter_eq_self.mpr]
    simpa using hzero
  · intro hne
    obtain ⟨x, hx⟩ := exists_mem_of_ne_nil _ hne
    exact ⟨x, hx, hzero x hx⟩

lemma WellFormed.tails_ne_nil (h : WellFormed True start node) :
    node.entries ≠ [] ∨ node.children ≠ [] → node.tails ≠ [] := by
  induction h with
  | @mk start node _ shape _ ih =>
    rintro (hentries | hchildren) hnil
    · rw [tails_eq, append_eq_nil_iff, map_eq_nil_iff] at hnil
      exact hentries hnil.1
    · obtain ⟨⟨k, c⟩, hc⟩ := exists_mem_of_ne_nil _ hchildren
      obtain ⟨x, hx⟩ := exists_mem_of_ne_nil _ (ih k c hc (shape.inhabited trivial k c hc))
      have hx' : (c.edge ++ x.1, x.2) ∈ node.tails :=
        mem_tails.mpr (.inr ⟨k, c, hc, mem_paths.mpr ⟨x.1, rfl, hx⟩⟩)
      rw [hnil] at hx'
      exact absurd hx' not_mem_nil

lemma walkChild_append {left : List (Token × TrieNode)} {t : Token}
    (hleft : ∀ kc ∈ left, kc.1 ≠ t) (right : List (Token × TrieNode)) (ts : List Token)
    (consumed : ℕ) : walkChild (left ++ right) t ts consumed = walkChild right t ts consumed := by
  induction left with
  | nil => rfl
  | cons kc left ih =>
    rw [forall_mem_cons] at hleft
    rw [cons_append, walkChild, if_neg hleft.1, ih hleft.2]

/-- A step of the walk: it stays, ends inside the edge of a child, or goes on behind that edge. -/
lemma Shape.walk_cons {edge : List Token} {entries : List DigestAndLen} {n : ℕ}
    {children : List (Token × TrieNode)} (shape : Shape pruned start ⟨edge, entries, n, children⟩)
    (t : Token) (ts : List Token) (consumed : ℕ) :
    let stop := walk ⟨edge, entries, n, children⟩ (t :: ts) consumed
    ((∀ kc ∈ children, kc.1 ≠ t) ∧ stop = ⟨⟨edge, entries, n, children⟩, 0, consumed⟩) ∨
      ∃ left c right edge', children = left ++ (t, c) :: right ∧ c.edge = t :: edge' ∧
        ((∃ d, d = commonPrefixLen c.edge (t :: ts) ∧ d < c.edge.length ∧
            stop = ⟨c, d, consumed + d⟩) ∨
          ∃ rest, c.edge ++ rest = t :: ts ∧ stop = walk c rest (consumed + c.edge.length)) := by
  rcases exists_split_children children t with hne | ⟨left, c, right, rfl, hleft⟩
  · have hnone := walkChild_append hne [] ts consumed
    rw [append_nil] at hnone
    rw [walk, hnone]
    exact .inl ⟨hne, rfl⟩
  obtain ⟨edge', hedge⟩ := List.head?_eq_some_iff.mp (shape.keyed t c (by simp))
  refine .inr ⟨left, c, right, edge', rfl, hedge, ?_⟩
  have hpos : commonPrefixLen c.edge (t :: ts) ≠ 0 := by
    rw [hedge, commonPrefixLen_cons_cons, if_pos rfl]
    exact Nat.succ_ne_zero _
  rw [walk, walkChild_append hleft, walkChild, if_pos rfl]
  simp only [if_neg hpos]
  split_ifs with hmid
  · exact .inl ⟨_, rfl, hmid, rfl⟩
  · have hfull : commonPrefixLen c.edge (t :: ts) = c.edge.length :=
      le_antisymm (commonPrefixLen_le_left _ _) (Nat.not_lt.mp hmid)
    obtain ⟨rest, hrest⟩ := commonPrefixLen_eq_length_iff.mp hfull
    refine .inr ⟨rest, hrest, ?_⟩
    rw [hfull, ← hrest, drop_left, Option.getD_some]

/-- What is not below the child under the next token shares nothing with the request. -/
lemma commonPrefixLen_eq_zero {t : Token} {ts : List Token} (shape : Shape pruned start node)
    (hne : ∀ kc ∈ node.children, kc.1 ≠ t) :
    ∀ x ∈ node.tails, commonPrefixLen x.1 (t :: ts) = 0 := by
  rintro ⟨tokens, d⟩ hx
  rcases tokens with _ | ⟨t', tokens⟩
  · rfl
  · obtain ⟨c, hc, _⟩ := (mem_tails_cons shape).mp hx
    rw [commonPrefixLen_cons_cons, if_neg (hne (t', c) hc)]

section WalkChild

variable {start n : ℕ} {edge ts : List Token} {entries : List DigestAndLen} {t : Token}
  {c : TrieNode} {left right : List (Token × TrieNode)}

lemma filter_tails_children {p : List Token × PromptCacheKeyDigest → Bool}
    (hp : ∀ x ∈ tails ⟨edge, entries, n, left ++ right⟩, p x = false) :
    (tails ⟨edge, entries, n, left ++ (t, c) :: right⟩).filter p = c.paths.filter p := by
  have hnil : (tails ⟨edge, entries, n, left ++ right⟩).filter p = [] := by
    rw [filter_eq_nil_iff]
    intro x hx
    rw [hp x hx]
    exact Bool.false_ne_true
  rw [tails_eq] at hnil ⊢
  simp only [flatMap_append, flatMap_cons, filter_append,
    append_eq_nil_iff] at hnil ⊢
  rw [hnil.1, hnil.2.1, hnil.2.2]
  simp

/-- A walk through a child: all paths of the child share at least one token with the request, and
nothing else does. -/
lemma walked_child {d : ℕ} {subtree : TrieNode}
    (shape : Shape pruned start ⟨edge, entries, n, left ++ (t, c) :: right⟩)
    (hleft : ∀ kc ∈ left ++ right, kc.1 ≠ t) (hd : d ≠ 0)
    (hle : ∀ x ∈ c.paths, commonPrefixLen x.1 (t :: ts) ≤ d)
    (hrecords : subtree.records
      = (c.paths.filter fun x => decide (commonPrefixLen x.1 (t :: ts) = d)).map
          fun x => ⟨x.2, start + edge.length + x.1.length⟩)
    (hreached : ∃ x ∈ c.paths, commonPrefixLen x.1 (t :: ts) = d) :
    Walked start ⟨edge, entries, n, left ++ (t, c) :: right⟩ (t :: ts) d subtree := by
  have hzero := @commonPrefixLen_eq_zero pruned start ⟨edge, entries, n, left ++ right⟩ t ts
    shape.erase hleft
  refine ⟨?_, ?_, ?_⟩
  · intro x hx
    rcases mem_tails_children.mp hx with hx | hx
    · exact hle x hx
    · exact (hzero x hx).trans_le (Nat.zero_le d)
  · rw [hrecords, filter_tails_children]
    intro x hx
    rw [hzero x hx]
    exact decide_eq_false hd.symm
  · obtain ⟨x, hx, hxd⟩ := hreached
    exact fun _ => ⟨x, mem_tails_children.mpr (.inl hx), hxd⟩

end WalkChild

/-- **The walk.** It matches as many request tokens as any stored token list shares, and stops at
the subtree of those that share so many. -/
theorem walked_walk (h : WellFormed True start node) :
    ∀ (tokens : List Token) (consumed : ℕ),
      ∃ d, (walk node tokens consumed).depth = consumed + d ∧
        Walked start node tokens d (walk node tokens consumed).subtree := by
  induction h with
  | @mk start node count shape below ih =>
    intro tokens consumed
    have hnode : WellFormed True start node := .mk count shape below
    rcases tokens with _ | ⟨t, ts⟩
    · rw [walk]
      exact ⟨0, rfl, walked_self hnode fun x _ => commonPrefixLen_nil_right x.1⟩
    obtain ⟨edge, entries, n, children⟩ := node
    rcases shape.walk_cons t ts consumed with
      ⟨hne, heq⟩ | ⟨left, c, right, edge', rfl, hedge, hstep⟩
    · rw [heq]
      exact ⟨0, rfl, walked_self hnode (commonPrefixLen_eq_zero shape hne)⟩
    have hc : (t, c) ∈ left ++ (t, c) :: right := by simp
    have hothers : ∀ kc ∈ left ++ right, kc.1 ≠ t := shape.key_ne
    have hchild : WellFormed True (start + edge.length) c := below t c hc
    have hinhabited : c.tails ≠ [] := hchild.tails_ne_nil (shape.inhabited trivial t c hc)
    rcases hstep with ⟨d, hd, hmid, heq⟩ | ⟨rest, hrest, heq⟩
    · -- The walk ends inside the edge, which all paths of the child share.
      have hall : ∀ x ∈ c.paths, commonPrefixLen x.1 (t :: ts) = d := by
        intro x hx
        obtain ⟨ts', hts', _⟩ := mem_paths.mp hx
        rw [hd] at hmid ⊢
        rw [hts', commonPrefixLen_append_left hmid]
      have hpos : d ≠ 0 := by simp [hd, hedge, commonPrefixLen_cons_cons]
      rw [heq]
      refine ⟨d, rfl, walked_child shape hothers hpos (fun x hx => (hall x hx).le) ?_ ?_⟩
      · rw [List.filter_eq_self.mpr (by simpa using hall), hchild.records_eq_map, paths, map_map]
        refine map_congr_left ?_
        intro x _
        rw [comp_apply, length_append, Nat.add_assoc (start + edge.length)]
      · obtain ⟨x, hx⟩ := exists_mem_of_ne_nil _ hinhabited
        have hx' : (c.edge ++ x.1, x.2) ∈ c.paths := mem_paths.mpr ⟨x.1, rfl, hx⟩
        exact ⟨_, hx', hall _ hx'⟩
    · -- The whole edge is matched: the walk goes on below the child.
      rw [heq]
      obtain ⟨d, hdepth, hwalked⟩ := ih t c hc rest (consumed + c.edge.length)
      have hshift : ∀ x : List Token × PromptCacheKeyDigest,
          commonPrefixLen (c.edge ++ x.1) (t :: ts)
            = c.edge.length + commonPrefixLen x.1 rest := by
        intro x
        rw [← hrest, commonPrefixLen_append_append]
      refine ⟨c.edge.length + d, by rw [hdepth, Nat.add_assoc],
        walked_child shape hothers ?_ ?_ ?_ ?_⟩
      · simp [hedge]
      · intro x hx
        obtain ⟨y, hy, rfl⟩ := mem_map.mp hx
        rw [hshift]
        exact Nat.add_le_add_left (hwalked.le_depth y hy) _
      · rw [hwalked.records_eq, paths, filter_map, map_map]
        have hfilter : ((fun x : List Token × PromptCacheKeyDigest =>
            decide (commonPrefixLen x.1 (t :: ts) = c.edge.length + d)) ∘
            fun p : List Token × PromptCacheKeyDigest => (c.edge ++ p.1, p.2))
            = fun x : List Token × PromptCacheKeyDigest => decide (commonPrefixLen x.1 rest = d) := by
          funext x
          simp [hshift]
        rw [hfilter]
        refine map_congr_left ?_
        intro x _
        rw [comp_apply, length_append, Nat.add_assoc (start + edge.length)]
      · obtain ⟨x, hx, hxd⟩ := hwalked.reached hinhabited
        exact ⟨(c.edge ++ x.1, x.2), mem_paths.mpr ⟨x.1, rfl, hx⟩, by rw [hshift, hxd]⟩

/-- `node` is `root` or below it. -/
inductive IsNodeOf (root : TrieNode) : TrieNode → Prop
  | root : IsNodeOf root root
  | child {node : TrieNode} {k : Token} {c : TrieNode} :
      IsNodeOf root node → (k, c) ∈ node.children → IsNodeOf root c

lemma IsNodeOf.wellFormed {root : TrieNode} (h : IsNodeOf root node)
    (hroot : WellFormed pruned 0 root) : ∃ start, WellFormed pruned start node := by
  induction h with
  | root => exact ⟨0, hroot⟩
  | child _ hc ih =>
    obtain ⟨start, hnode⟩ := ih
    exact ⟨_, hnode.child hc⟩

end TrieNode

/-! ## Histories of a trie -/

/-- A call on a trie. -/
inductive TrieOp
  | insert (tokens : List Token) (digest : PromptCacheKeyDigest)
  | remove (tokens : List Token) (digest : PromptCacheKeyDigest)

namespace RadixTrie

open TrieNode

def apply (trie : RadixTrie) : TrieOp → RadixTrie
  | .insert tokens digest => trie.insert tokens digest
  | .remove tokens digest => (trie.remove tokens digest).1

/-- The trie after a sequence of calls on an empty one. -/
def run (ops : List TrieOp) : RadixTrie := ops.foldl apply empty

/-- The pair was inserted and not removed since. -/
def Live (ops : List TrieOp) (x : List Token × PromptCacheKeyDigest) : Prop :=
  ∃ before after, ops = before ++ .insert x.1 x.2 :: after ∧ .remove x.1 x.2 ∉ after

variable {x : List Token × PromptCacheKeyDigest}

lemma live_concat {ops : List TrieOp} {op : TrieOp} :
    Live (ops ++ [op]) x ↔
      op = .insert x.1 x.2 ∨ (Live ops x ∧ op ≠ .remove x.1 x.2) := by
  constructor
  · rintro ⟨before, after, heq, hafter⟩
    rcases eq_nil_or_concat after with rfl | ⟨after, last, rfl⟩
    · exact .inl (singleton_inj.mp (append_inj' heq rfl).2)
    · rw [concat_eq_append] at heq hafter
      rw [← cons_append, ← append_assoc] at heq
      obtain ⟨hops, hop⟩ := append_inj' heq rfl
      rw [singleton_inj.mp hop]
      rw [mem_append, not_or, mem_singleton] at hafter
      exact .inr ⟨⟨before, after, hops, hafter.1⟩, .symm hafter.2⟩
  · rintro (rfl | ⟨⟨before, after, rfl, hafter⟩, hop⟩)
    · exact ⟨ops, [], rfl, not_mem_nil⟩
    · refine ⟨before, after ++ [op], by simp, ?_⟩
      rw [mem_append, not_or, mem_singleton]
      exact ⟨hafter, Ne.symm hop⟩

/-- One call changes what is stored as it changes what is live. -/
lemma mem_stored_apply {trie : RadixTrie} {op : TrieOp} :
    x ∈ (trie.apply op).stored ↔
      op = .insert x.1 x.2 ∨ (x ∈ trie.stored ∧ op ≠ .remove x.1 x.2) := by
  cases op with
  | insert tokens digest =>
    rw [apply, mem_stored_insert, Prod.ext_iff]
    simp [eq_comm]
  | remove tokens digest =>
    rw [apply, mem_stored_remove.2, Ne, Prod.ext_iff]
    simp [eq_comm]

lemma mem_stored_run {ops : List TrieOp} :
    x ∈ (run ops).stored ↔ Live ops x := by
  induction ops using List.reverseRecOn with
  | nil =>
    refine iff_of_false not_mem_nil ?_
    rintro ⟨before, after, heq, _⟩
    simp at heq
  | append_singleton ops op ih =>
    rw [run, foldl_append, foldl_cons, live_concat, ← ih]
    exact mem_stored_apply

/-- **Search.** A match has the greatest common prefix that a stored token list has with the
request, if that is not zero and not below the minimum, and its candidates are the records of the
token lists that reach it. -/
theorem findLongestPrefix_spec (trie : RadixTrie) (request : List Token) (minLen : ℕ) :
    (∀ d, (∃ found, trie.findLongestPrefix request minLen = some found ∧ found.depth = d) ↔
      IsGreatest {n | ∃ x ∈ trie.stored, commonPrefixLen x.1 request = n} d ∧ 1 ≤ d ∧ minLen ≤ d) ∧
    ∀ found, trie.findLongestPrefix request minLen = some found →
      found.candidates.Perm
        ((trie.stored.filter fun x => decide (commonPrefixLen x.1 request = found.depth)).map
          fun x => ⟨x.2, x.1.length⟩) := by
  obtain ⟨d, hdepth, hwalked⟩ := walked_walk trie.wellFormed request 0
  rw [Nat.zero_add] at hdepth
  have hgreatest : trie.stored ≠ [] →
      IsGreatest {n | ∃ x ∈ trie.stored, commonPrefixLen x.1 request = n} d := by
    intro hne
    refine ⟨hwalked.reached hne, ?_⟩
    rintro n ⟨x, hx, rfl⟩
    exact hwalked.le_depth x hx
  have hfind : ∀ found, trie.findLongestPrefix request minLen = some found ↔
      trie.stored ≠ [] ∧ 1 ≤ d ∧ minLen ≤ d ∧ walk trie.root request 0 = found := by
    intro found
    have hcount : trie.root.subtreeCount = 0 ↔ trie.stored = [] := by
      rw [trie.wellFormed.subtreeCount_eq, length_eq_zero_iff, stored]
    rw [findLongestPrefix, walkLongest]
    simp only [hcount, hdepth]
    by_cases hnil : trie.stored = []
    · simp [hnil]
    · by_cases hzero : d = 0
      · simp [hzero]
      · simp only [hnil, hzero, if_false, hdepth]
        have hpos : 1 ≤ d := Nat.one_le_iff_ne_zero.mpr hzero
        simp [hpos, hnil]
  refine ⟨?_, ?_⟩
  · intro d'
    constructor
    · rintro ⟨found, hfound, rfl⟩
      obtain ⟨hne, hpos, hmin, rfl⟩ := (hfind found).mp hfound
      rw [hdepth]
      exact ⟨hgreatest hne, hpos, hmin⟩
    · rintro ⟨hd', hpos, hmin⟩
      have hne : trie.stored ≠ [] := by
        obtain ⟨x, hx, _⟩ := hd'.1
        exact ne_nil_of_mem hx
      have heq : d = d' := (hgreatest hne).unique hd'
      rw [← heq] at hpos hmin ⊢
      exact ⟨_, (hfind _).mpr ⟨hne, hpos, hmin, rfl⟩, hdepth⟩
  · intro found hfound
    obtain ⟨_, _, _, rfl⟩ := (hfind found).mp hfound
    rw [hdepth]
    refine (dfs_perm _).trans ?_
    rw [hwalked.records_eq, trie.edge_eq, stored]
    simp

/-- **The trie is an exact longest-prefix index.** After any sequence of insertions and removals:
it stores, once each, the pairs inserted and not removed since, and counts them; every node counts
the records below it and files its children under the first token of their non-empty edges; and a
search finds the greatest common prefix of a stored token list with the request, and visits the
records of those that have it. -/
theorem radixTrie_exact (ops : List TrieOp) :
    (run ops).stored.Nodup ∧
    (∀ tokens digest, (tokens, digest) ∈ (run ops).stored ↔ Live ops (tokens, digest)) ∧
    (run ops).len = (run ops).stored.length ∧
    (∀ node, IsNodeOf (run ops).root node →
      node.subtreeCount = node.records.length ∧ (node.children.map Prod.fst).Nodup ∧
      ∀ k c, (k, c) ∈ node.children → ∃ rest, c.edge = k :: rest) ∧
    ∀ (request : List Token) (minLen : ℕ),
      (∀ d, (∃ found, (run ops).findLongestPrefix request minLen = some found ∧ found.depth = d) ↔
        IsGreatest {n | ∃ x ∈ (run ops).stored, commonPrefixLen x.1 request = n} d ∧
          1 ≤ d ∧ minLen ≤ d) ∧
      ∀ found, (run ops).findLongestPrefix request minLen = some found →
        found.candidates.Perm
          (((run ops).stored.filter fun x =>
            decide (commonPrefixLen x.1 request = found.depth)).map
              fun x => ⟨x.2, x.1.length⟩) := by
  refine ⟨stored_nodup _, fun tokens digest => mem_stored_run, len_eq _, ?_,
    findLongestPrefix_spec _⟩
  intro node hnode
  obtain ⟨start, hwf⟩ := hnode.wellFormed (run ops).wellFormed
  refine ⟨?_, hwf.shape.keys_nodup, ?_⟩
  · rw [hwf.subtreeCount_eq, hwf.records_eq_map, length_map]
  · intro k c hc
    exact List.head?_eq_some_iff.mp (hwf.shape.keyed k c hc)

end RadixTrie

end Mlxcel.PromptCache
