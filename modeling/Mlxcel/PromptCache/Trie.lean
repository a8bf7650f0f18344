import Mlxcel.Lib.CommonPrefix
import Mlxcel.Lib.Sha256
import Mlxcel.Token
import Mathlib.Algebra.BigOperators.Group.List.Basic
import Mathlib.Data.List.Nodup

/-!
# The radix trie over token prefixes

Each bucket of the prompt cache has a path-compressed trie that maps token lists to key digests. A
node carries the run of tokens on its incoming edge, the digests whose tokens end at it, the number
of digests in its subtree, and its children under the first token of their edges.

The source walks the tree in a loop, records the path, changes the last node and repairs the nodes
of the path from the deepest one up. Here the descent is a recursion and the repair is what it does
on its way back. The child map of a node is an association list. Its order stands for the order in
which a hash map yields its values, and no result depends on it.

**What a node stores.** `TrieNode.tails` lists the digests of a subtree with the tokens that follow
the node; `TrieNode.paths` puts the edge of the node in front.

**Well-formedness.** `TrieNode.WellFormed` says that counts are exact, that a child has a non-empty
edge and is filed under its first token, that no two children share a key, and that no child is an
empty leaf. `RadixTrie` carries it as a field, so that `insert` and `remove` keep it by type.

**Refinement.** Insertion adds one pair to what is stored (`RadixTrie.mem_stored_insert`), removal
takes one away (`RadixTrie.mem_stored_remove`), however edges are split, fused and pruned.
-/

namespace Mlxcel.PromptCache

open List CommonPrefix

/-- The BLAKE3 digest of a prompt-cache key. -/
abbrev PromptCacheKeyDigest := Digest

/-- A digest with the length of the token list it was stored under. -/
structure DigestAndLen where
  digest : PromptCacheKeyDigest
  tokenLen : ℕ
deriving DecidableEq

structure TrieNode where
  edge : List Token
  entries : List DigestAndLen
  subtreeCount : ℕ
  children : List (Token × TrieNode)

namespace TrieNode

/-- The entries of the node plus the counts of its children. -/
def recomputeSubtreeCount (node : TrieNode) : ℕ :=
  node.entries.length + (node.children.map fun kc => kc.2.subtreeCount).sum

def recount (node : TrieNode) : TrieNode :=
  { node with subtreeCount := node.recomputeSubtreeCount }

/-! ## Insertion -/

/-- Store a record in a node. One with the same digest is replaced in place. -/
def storeRecord (record : DigestAndLen) : List DigestAndLen → List DigestAndLen
  | [] => [record]
  | e :: entries =>
    if e.digest = record.digest then record :: entries else e :: storeRecord record entries

/-- A new node without children that holds one record. -/
def leaf (edge : List Token) (record : DigestAndLen) : TrieNode := ⟨edge, [record], 1, []⟩

/-- The node that takes the place of `child` when `tokens` leave its edge after `common` tokens. It
keeps the shared tokens; `child` moves under it with the rest of its edge. A record that goes on
gets a leaf of its own: the two remainders start with different tokens. -/
def splitEdge (child : TrieNode) (common : ℕ) (tokens : List Token) (record : DigestAndLen) :
    TrieNode :=
  let shared := child.edge.take common
  let oldRemainder := child.edge.drop common
  let oldChild := { child with edge := oldRemainder }
  if tokens.length = common then
    recount ⟨shared, [record], 0, [(oldRemainder.headD 0, oldChild)]⟩
  else
    let newRemainder := tokens.drop common
    recount ⟨shared, [], 0,
      [(oldRemainder.headD 0, oldChild), (newRemainder.headD 0, leaf newRemainder record)]⟩

mutual

/-- `insert_into`: the record ends at this node, or goes into a child. -/
def insertInto : TrieNode → List Token → DigestAndLen → TrieNode
  | ⟨edge, entries, count, children⟩, [], record =>
    recount ⟨edge, storeRecord record entries, count, children⟩
  | ⟨edge, entries, count, children⟩, t :: ts, record =>
    recount ⟨edge, entries, count, insertChild children t ts record⟩

/-- The child under the first token takes the record, or its edge is split. When no child has that
token, a leaf is added. -/
def insertChild : List (Token × TrieNode) → Token → List Token → DigestAndLen →
    List (Token × TrieNode)
  | [], t, ts, record => [(t, leaf (t :: ts) record)]
  | (k, child) :: rest, t, ts, record =>
    if k = t then
      let common := commonPrefixLen child.edge (t :: ts)
      if common = child.edge.length then
        (k, insertInto child ((t :: ts).drop common) record) :: rest
      else
        (k, splitEdge child common (t :: ts) record) :: rest
    else (k, child) :: insertChild rest t ts record

end

/-! ## Removal -/

/-- A node without entries and with exactly one child takes over that child. -/
def mergeOnlyChildIfEmpty (node : TrieNode) : TrieNode :=
  match node.entries, node.children with
  | [], [(_, child)] => recount ⟨node.edge ++ child.edge, child.entries, 0, child.children⟩
  | _, _ => node

mutual

/-- `remove_from`: nothing when the digest is not stored under the tokens. The nodes on the way
drop a child that became an empty leaf, and all but the root fuse with an only child. -/
def removeFrom (isRoot : Bool) : TrieNode → List Token → PromptCacheKeyDigest → Option TrieNode
  | ⟨edge, entries, count, children⟩, [], digest =>
    let kept := entries.filter fun e => e.digest ≠ digest
    if kept.length = entries.length then none else some (recount ⟨edge, kept, count, children⟩)
  | ⟨edge, entries, count, children⟩, t :: ts, digest =>
    (removeChild children t ts digest).map fun children =>
      recount (if isRoot then ⟨edge, entries, count, children⟩
        else mergeOnlyChildIfEmpty ⟨edge, entries, count, children⟩)

/-- The descent continues in the child under the first token, if its edge matches. -/
def removeChild : List (Token × TrieNode) → Token → List Token → PromptCacheKeyDigest →
    Option (List (Token × TrieNode))
  | [], _, _, _ => none
  | (k, child) :: rest, t, ts, digest =>
    if k = t then
      if (t :: ts).length < child.edge.length ∨ (t :: ts).take child.edge.length ≠ child.edge then
        none
      else
        (removeFrom false child ((t :: ts).drop child.edge.length) digest).map fun child =>
          if child.entries.isEmpty ∧ child.children.isEmpty then rest else (k, child) :: rest
    else (removeChild rest t ts digest).map fun rest => (k, child) :: rest

end

/-! ## What a subtree stores -/

mutual

/-- The digests of a subtree, each with the tokens that lead to it from the node. -/
def tails : TrieNode → List (List Token × PromptCacheKeyDigest)
  | ⟨_, entries, _, children⟩ => entries.map (fun e => ([], e.digest)) ++ childPaths children

def childPaths : List (Token × TrieNode) → List (List Token × PromptCacheKeyDigest)
  | [] => []
  | (_, child) :: rest => (tails child).map (fun p => (child.edge ++ p.1, p.2)) ++ childPaths rest

end

/-- The digests of a subtree, each with the tokens that lead to it from above the edge. -/
def paths (node : TrieNode) : List (List Token × PromptCacheKeyDigest) :=
  node.tails.map fun p => (node.edge ++ p.1, p.2)

lemma childPaths_eq (children : List (Token × TrieNode)) :
    childPaths children = children.flatMap fun kc => kc.2.paths := by
  induction children with
  | nil => rfl
  | cons kc children ih =>
    rw [childPaths, ih]
    rfl

lemma tails_eq (node : TrieNode) : node.tails = node.entries.map (fun e => ([], e.digest)) ++
      node.children.flatMap fun kc => kc.2.paths := by
  obtain ⟨edge, entries, count, children⟩ := node
  rw [tails, childPaths_eq]

variable {node : TrieNode} {start : ℕ} {record : DigestAndLen} {entries : List DigestAndLen}
variable {edge : List Token} {t : Token} {tokens : List Token} {digest : PromptCacheKeyDigest}

lemma mem_tails {x : List Token × PromptCacheKeyDigest} :
    x ∈ node.tails ↔ (x.1 = [] ∧ x.2 ∈ node.entries.map fun e => e.digest) ∨
      ∃ k c, (k, c) ∈ node.children ∧ x ∈ c.paths := by
  obtain ⟨tokens, digest⟩ := x
  cases tokens with
  | nil => simp [tails_eq]
  | cons t ts => simp [tails_eq]

lemma mem_paths {x : List Token × PromptCacheKeyDigest} :
    x ∈ node.paths ↔ ∃ ts, x.1 = node.edge ++ ts ∧ (ts, x.2) ∈ node.tails := by
  obtain ⟨tokens, digest⟩ := x
  simp only [paths, mem_map, Prod.mk.injEq, Prod.exists]
  constructor
  · rintro ⟨ts, d, h, rfl, rfl⟩
    exact ⟨ts, rfl, h⟩
  · rintro ⟨ts, rfl, h⟩
    exact ⟨ts, digest, h, rfl, rfl⟩

@[simp] lemma tails_recount (node : TrieNode) : (recount node).tails = node.tails := by
  rw [tails_eq, tails_eq]
  rfl

@[simp] lemma edge_recount (node : TrieNode) : (recount node).edge = node.edge := rfl

@[simp] lemma paths_recount (node : TrieNode) : (recount node).paths = node.paths := by
  rw [paths, paths, tails_recount, edge_recount]

/-! ## Well-formed nodes -/

/-- What holds at one node whose edge starts after `start` tokens, apart from its count. A trie is
`pruned` if no child is an empty leaf. -/
structure Shape (pruned : Prop) (start : ℕ) (node : TrieNode) : Prop where
  tokenLen_eq : ∀ e ∈ node.entries, e.tokenLen = start + node.edge.length
  digests_nodup : (node.entries.map fun e => e.digest).Nodup
  keys_nodup : (node.children.map Prod.fst).Nodup
  keyed : ∀ k c, (k, c) ∈ node.children → c.edge.head? = some k
  inhabited : pruned → ∀ k c, (k, c) ∈ node.children → c.entries ≠ [] ∨ c.children ≠ []

/-- Every node of the subtree has its shape and an exact count. -/
inductive WellFormed (pruned : Prop) : ℕ → TrieNode → Prop
  | mk {start : ℕ} {node : TrieNode} (count : node.subtreeCount = node.recomputeSubtreeCount)
      (shape : Shape pruned start node)
      (below : ∀ k c, (k, c) ∈ node.children → WellFormed pruned (start + node.edge.length) c) :
      WellFormed pruned start node

variable {pruned : Prop}

lemma WellFormed.shape (h : WellFormed pruned start node) : Shape pruned start node := by
  cases h with
  | mk _ shape _ => exact shape

lemma WellFormed.child (h : WellFormed pruned start node) {k : Token} {c : TrieNode}
    (hc : (k, c) ∈ node.children) : WellFormed pruned (start + node.edge.length) c := by
  cases h with
  | mk _ _ below => exact below k c hc

/-- Recounting is all that a node of the right shape over well-formed children lacks. -/
lemma Shape.wellFormed (h : Shape pruned start node)
    (below : ∀ k c, (k, c) ∈ node.children → WellFormed pruned (start + node.edge.length) c) :
    WellFormed pruned start (recount node) :=
  .mk rfl ⟨h.tokenLen_eq, h.digests_nodup, h.keys_nodup, h.keyed, h.inhabited⟩ below

/-! ## Children of a node -/

section Children

variable {count : ℕ} {c c' : TrieNode} {left right : List (Token × TrieNode)}

/-- No child is filed under the token, or the first that is splits the children. -/
lemma exists_split_children (children : List (Token × TrieNode)) (t : Token) :
    (∀ kc ∈ children, kc.1 ≠ t) ∨ ∃ left c right, children = left ++ (t, c) :: right ∧
      ∀ kc ∈ left, kc.1 ≠ t := by
  induction children with
  | nil => exact .inl (by simp)
  | cons kc children ih =>
    by_cases hkc : kc.1 = t
    · exact .inr ⟨[], kc.2, children, by rw [← hkc]; rfl, by simp⟩
    · rcases ih with hne | ⟨left, c, right, rfl, hleft⟩
      · exact .inl (forall_mem_cons.mpr ⟨hkc, hne⟩)
      · exact .inr ⟨kc :: left, c, right, rfl, forall_mem_cons.mpr ⟨hkc, hleft⟩⟩

lemma mem_tails_children {x : List Token × PromptCacheKeyDigest} :
    x ∈ tails ⟨edge, entries, count, left ++ (t, c) :: right⟩ ↔
      x ∈ c.paths ∨ x ∈ tails ⟨edge, entries, count, left ++ right⟩ := by
  simp only [tails_eq, flatMap_append, flatMap_cons, mem_append]
  tauto

section

/-- A child after one of them has been replaced. -/
lemma mem_replace {k : Token} {d : TrieNode} (hd : (k, d) ∈ left ++ (t, c') :: right) :
    (k, d) ∈ left ++ (t, c) :: right ∨ k = t ∧ d = c' := by
  simp only [mem_append, mem_cons, Prod.mk.injEq] at hd ⊢
  tauto

variable (h : Shape pruned start ⟨edge, entries, count, left ++ (t, c) :: right⟩)

include h

lemma Shape.replace
    (hhead : c'.edge.head? = some t) (hinhabited : c'.entries ≠ [] ∨ c'.children ≠ []) :
    Shape pruned start ⟨edge, entries, count, left ++ (t, c') :: right⟩ := by
  refine ⟨h.tokenLen_eq, h.digests_nodup, by simpa using h.keys_nodup, ?_, ?_⟩
  · intro k d hd
    rcases mem_replace hd with hd | ⟨rfl, rfl⟩
    · exact h.keyed k d hd
    · exact hhead
  · intro hpruned k d hd
    rcases mem_replace hd with hd | ⟨rfl, rfl⟩
    · exact h.inhabited hpruned k d hd
    · exact hinhabited

lemma Shape.erase : Shape pruned start ⟨edge, entries, count, left ++ right⟩ := by
  have hsub : (left ++ right).Sublist (left ++ (t, c) :: right) :=
    (sublist_cons_self _ _).append_left left
  exact ⟨h.tokenLen_eq, h.digests_nodup, h.keys_nodup.sublist (hsub.map _),
    fun k d hd => h.keyed k d (hsub.subset hd),
    fun hpruned k d hd => h.inhabited hpruned k d (hsub.subset hd)⟩

lemma Shape.key_ne : ∀ kc ∈ left ++ right, kc.1 ≠ t := by
  have hnodup := h.keys_nodup
  rw [map_append, map_cons, nodup_middle, ← map_append,
    nodup_cons] at hnodup
  intro kc hkc heq
  exact hnodup.1 (mem_map.mpr ⟨kc, hkc, heq⟩)

end

lemma Shape.add {children : List (Token × TrieNode)}
    (h : Shape pruned start ⟨edge, entries, count, children⟩) (hne : ∀ kc ∈ children, kc.1 ≠ t)
    (hhead : c.edge.head? = some t) (hinhabited : c.entries ≠ [] ∨ c.children ≠ []) :
    Shape pruned start ⟨edge, entries, count, children ++ [(t, c)]⟩ := by
  have hmem : ∀ k d, (k, d) ∈ children ++ [(t, c)] → (k, d) ∈ children ∨ (k = t ∧ d = c) := by
    simp
  refine ⟨h.tokenLen_eq, h.digests_nodup, ?_, ?_, ?_⟩
  · rw [map_append, nodup_append]
    refine ⟨h.keys_nodup, by simp, ?_⟩
    intro a ha b hb
    obtain ⟨kc, hkc, rfl⟩ := mem_map.mp ha
    rw [map_singleton, mem_singleton] at hb
    rw [hb]
    exact hne kc hkc
  · intro k d hd
    rcases hmem k d hd with hd | ⟨rfl, rfl⟩
    · exact h.keyed k d hd
    · exact hhead
  · intro hpruned k d hd
    rcases hmem k d hd with hd | ⟨rfl, rfl⟩
    · exact h.inhabited hpruned k d hd
    · exact hinhabited

end Children

/-- The edge of a well-formed node may be cut: the rest of it starts later. -/
lemma WellFormed.cutEdge {shared rest : List Token} (h : WellFormed pruned start node)
    (hedge : node.edge = shared ++ rest) :
    WellFormed pruned (start + shared.length) { node with edge := rest } := by
  have hlen : start + shared.length + rest.length = start + node.edge.length := by
    rw [hedge, length_append]
    omega
  cases h with
  | mk count shape below =>
    refine .mk count ⟨?_, shape.digests_nodup, shape.keys_nodup, shape.keyed, shape.inhabited⟩ ?_
    · rw [hlen]
      exact shape.tokenLen_eq
    · rw [hlen]
      exact below

lemma paths_cutEdge {shared rest : List Token} (hedge : node.edge = shared ++ rest) :
    node.paths = (paths { node with edge := rest }).map fun p => (shared ++ p.1, p.2) := by
  have htails : tails { node with edge := rest } = node.tails := by
    rw [tails_eq, tails_eq]
  rw [paths, paths, htails, hedge]
  simp

/-! ## Insertion keeps and adds -/

/-- `node'` is `node` with the record added under `tokens`, which start above the edge. -/
structure Inserted (pruned : Prop) (start : ℕ) (node : TrieNode) (tokens : List Token)
    (record : DigestAndLen) (node' : TrieNode) : Prop where
  wellFormed : WellFormed pruned start node'
  head_eq : node'.edge.head? = node.edge.head?
  inhabited : node'.entries ≠ [] ∨ node'.children ≠ []
  mem_paths : ∀ x, x ∈ node'.paths ↔ x = (tokens, record.digest) ∨ x ∈ node.paths

lemma storeRecord_ne_nil (record : DigestAndLen) (entries : List DigestAndLen) :
    storeRecord record entries ≠ [] := by
  cases entries with
  | nil => simp [storeRecord]
  | cons e entries => rw [storeRecord]; split_ifs <;> simp

lemma mem_storeRecord {e : DigestAndLen} (h : e ∈ storeRecord record entries) :
    e = record ∨ e ∈ entries := by
  induction entries with
  | nil => exact .inl (mem_singleton.mp h)
  | cons e' entries ih =>
    rw [storeRecord] at h
    split_ifs at h
    · rcases mem_cons.mp h with h | h
      · exact .inl h
      · exact .inr (mem_cons_of_mem _ h)
    · rcases mem_cons.mp h with h | h
      · exact .inr (h ▸ mem_cons_self)
      · exact (ih h).imp_right (mem_cons_of_mem _)

lemma digest_mem_storeRecord {d : PromptCacheKeyDigest} :
    d ∈ (storeRecord record entries).map (fun e => e.digest) ↔
      d = record.digest ∨ d ∈ entries.map fun e => e.digest := by
  induction entries with
  | nil => simp [storeRecord]
  | cons e entries ih =>
    rw [storeRecord]
    split_ifs with he
    · simp [he]
    · simp only [map_cons, mem_cons]
      tauto

lemma storeRecord_nodup (h : (entries.map fun e => e.digest).Nodup) :
    ((storeRecord record entries).map fun e => e.digest).Nodup := by
  induction entries with
  | nil => simp [storeRecord]
  | cons e entries ih =>
    rw [map_cons, nodup_cons] at h
    rw [storeRecord]
    split_ifs with he
    · rw [map_cons, ← he, nodup_cons]
      exact h
    · rw [map_cons, nodup_cons, digest_mem_storeRecord]
      exact ⟨fun hor => hor.elim he h.1, ih h.2⟩

lemma leaf_wellFormed (hlen : record.tokenLen = start + edge.length) :
    WellFormed pruned start (leaf edge record) := by
  refine .mk rfl ⟨?_, ?_, ?_, ?_, ?_⟩ ?_
  all_goals simp [leaf, hlen]

@[simp] lemma paths_leaf (edge : List Token) (record : DigestAndLen) :
    (leaf edge record).paths = [(edge, record.digest)] := by
  rw [paths, tails_eq]
  simp [leaf]

/-- A split edge keeps what was below it and adds the record. -/
lemma inserted_splitEdge {child : TrieNode} {ts : List Token} (h : WellFormed pruned start child)
    (hhead : child.edge.head? = some t)
    (hinhabited : pruned → child.entries ≠ [] ∨ child.children ≠ [])
    (hlen : record.tokenLen = start + (t :: ts).length)
    (hcommon : commonPrefixLen child.edge (t :: ts) ≠ child.edge.length) :
    Inserted pruned start child (t :: ts) record
      (splitEdge child (commonPrefixLen child.edge (t :: ts)) (t :: ts) record) := by
  obtain ⟨shared, old, new, hedge, htokens, hp, hne⟩ := exists_common_split child.edge (t :: ts)
  -- The edge and the tokens start with `t`, so something is shared and the rest is not empty.
  have hshared : shared.head? = some t := by
    cases shared with
    | nil =>
      rw [nil_append] at hedge htokens
      rw [← hedge, hhead, ← htokens] at hne
      exact absurd rfl (hne t rfl t rfl)
    | cons x shared =>
      rw [cons_append, cons.injEq] at htokens
      rw [htokens.1]
      rfl
  rcases old with _ | ⟨o, old⟩
  · rw [append_nil] at hedge
    exact absurd (by rw [← hp, hedge]) hcommon
  have htake : child.edge.take (commonPrefixLen child.edge (t :: ts)) = shared := by
    rw [← hp, hedge, take_left]
  have hdrop : child.edge.drop (commonPrefixLen child.edge (t :: ts)) = o :: old := by
    rw [← hp, hedge, drop_left]
  have hnew : (t :: ts).drop (commonPrefixLen child.edge (t :: ts)) = new := by
    rw [← hp, htokens, drop_left]
  have hold := h.cutEdge hedge
  have hpaths := paths_cutEdge hedge
  have hhead' : shared.head? = child.edge.head? := by rw [hshared, hhead]
  have hlen' : record.tokenLen = start + shared.length + new.length := by
    rw [hlen, htokens, length_append]
    omega
  rw [splitEdge, htake, hdrop, hnew]
  split_ifs with hend
  · -- The record ends where the edge is split.
    have hnil : new = [] := by
      exact length_eq_zero_iff.mp (by omega)
    rw [hnil] at htokens
    rw [hnil, length_nil] at hlen'
    refine ⟨Shape.wellFormed ⟨by simpa using hlen', by simp, by simp, by simp, by simpa⟩ (by simpa),
      hhead', .inl (cons_ne_nil _ _), ?_⟩
    rw [hpaths, htokens, paths_recount, paths, tails_eq]
    simp
  · -- The record goes on under a leaf of its own.
    rcases new with _ | ⟨n, new⟩
    · rw [append_nil] at htokens
      exact absurd (by rw [← hp, htokens]) hend
    have hon : o ≠ n := hne o rfl n rfl
    refine ⟨Shape.wellFormed ⟨by simp, by simp, by simpa using hon, ?_, ?_⟩ ?_, hhead',
      .inr (cons_ne_nil _ _), ?_⟩
    · simp +contextual [leaf, or_imp]
    · simp +contextual [leaf, or_imp, hinhabited]
    · simp only [mem_cons, not_mem_nil, or_false]
      rintro k c (⟨_, rfl⟩ | ⟨_, rfl⟩)
      · exact hold
      · exact leaf_wellFormed hlen'
    · rw [hpaths, htokens, paths_recount, paths, tails_eq]
      simp [or_comm]

lemma insertChild_append {left : List (Token × TrieNode)} (hleft : ∀ kc ∈ left, kc.1 ≠ t)
    (right : List (Token × TrieNode)) (ts : List Token) (record : DigestAndLen) :
    insertChild (left ++ right) t ts record = left ++ insertChild right t ts record := by
  induction left with
  | nil => rfl
  | cons kc left ih =>
    rw [forall_mem_cons] at hleft
    rw [cons_append, insertChild, if_neg hleft.1, ih hleft.2, cons_append]

@[simp] lemma edge_insertInto (node : TrieNode) (tokens : List Token) (record : DigestAndLen) :
    (insertInto node tokens record).edge = node.edge := by
  obtain ⟨edge, entries, n, children⟩ := node
  cases tokens with
  | nil => rfl
  | cons t ts => rfl

lemma mem_paths_of_mem_tails {node' : TrieNode} (hedge : node.edge = edge)
    (hedge' : node'.edge = edge) (h : ∀ x, x ∈ node'.tails ↔ x = (tokens, digest) ∨ x ∈ node.tails)
    (x : List Token × PromptCacheKeyDigest) :
    x ∈ node'.paths ↔ x = (edge ++ tokens, digest) ∨ x ∈ node.paths := by
  obtain ⟨ts, d⟩ := x
  simp only [mem_paths, hedge, hedge', h, Prod.mk.injEq]
  constructor
  · rintro ⟨ts', rfl, ⟨rfl, rfl⟩ | h⟩
    · exact .inl ⟨rfl, rfl⟩
    · exact .inr ⟨ts', rfl, h⟩
  · rintro (⟨rfl, rfl⟩ | ⟨ts', rfl, h⟩)
    · exact ⟨tokens, rfl, .inl ⟨rfl, rfl⟩⟩
    · exact ⟨ts', rfl, .inr h⟩

lemma Inserted.child {n : ℕ} {c c' : TrieNode} {left right : List (Token × TrieNode)}
    (hc : Inserted pruned (start + edge.length) c tokens record c')
    (shape : Shape pruned start ⟨edge, entries, n, left ++ (t, c) :: right⟩)
    (below : ∀ k d, (k, d) ∈ left ++ (t, c) :: right → WellFormed pruned (start + edge.length) d) :
    Inserted pruned start ⟨edge, entries, n, left ++ (t, c) :: right⟩ (edge ++ tokens) record
      (recount ⟨edge, entries, n, left ++ (t, c') :: right⟩) := by
  have hhead : c'.edge.head? = some t := by
    rw [hc.head_eq]
    exact shape.keyed t c (by simp)
  refine ⟨(shape.replace hhead hc.inhabited).wellFormed ?_, rfl, .inr (by simp [recount]), ?_⟩
  · intro k d hd
    rcases mem_replace hd with hd | ⟨-, rfl⟩
    · exact below k d hd
    · exact hc.wellFormed
  · refine mem_paths_of_mem_tails rfl rfl ?_
    intro x
    rw [tails_recount, mem_tails_children, mem_tails_children, hc.mem_paths, or_assoc]

/-- **Insertion.** A well-formed node stays well-formed and stores one pair more. -/
theorem inserted_insertInto (h : WellFormed pruned start node) :
    ∀ {tokens : List Token} {record : DigestAndLen},
      record.tokenLen = start + (node.edge ++ tokens).length →
      Inserted pruned start node (node.edge ++ tokens) record (insertInto node tokens record) := by
  induction h with
  | @mk start node count shape below ih =>
    intro tokens record hlen
    obtain ⟨edge, entries, n, children⟩ := node
    rcases tokens with _ | ⟨t, ts⟩
    · -- The record ends here.
      refine ⟨Shape.wellFormed ⟨?_, storeRecord_nodup shape.digests_nodup, shape.keys_nodup,
        shape.keyed, shape.inhabited⟩ below, rfl, .inl (storeRecord_ne_nil _ _), ?_⟩
      · intro e he
        rcases mem_storeRecord he with rfl | he
        · rw [append_nil] at hlen
          exact hlen
        · exact shape.tokenLen_eq e he
      · refine mem_paths_of_mem_tails rfl rfl ?_
        intro x
        rw [insertInto, tails_recount, mem_tails, mem_tails, digest_mem_storeRecord, Prod.ext_iff]
        tauto
    have hlen' : record.tokenLen = start + edge.length + (t :: ts).length := by
      rw [hlen, length_append]
      exact (Nat.add_assoc _ _ _).symm
    rcases exists_split_children children t with hne | ⟨left, c, right, rfl, hleft⟩
    · -- No child has the first token: a leaf is added.
      have hchildren : insertChild children t ts record
          = children ++ [(t, leaf (t :: ts) record)] := by
        have happend := insertChild_append hne [] ts record
        rwa [append_nil] at happend
      rw [insertInto, hchildren]
      refine ⟨(shape.add hne rfl (.inl (cons_ne_nil _ _))).wellFormed ?_, rfl,
        .inr (by simp [recount]), ?_⟩
      · intro k d hd
        rcases mem_append.mp hd with hd | hd
        · exact below k d hd
        · rw [(Prod.mk.inj (mem_singleton.mp hd)).2]
          exact leaf_wellFormed hlen'
      · refine mem_paths_of_mem_tails rfl rfl ?_
        intro x
        rw [tails_recount, mem_tails_children, paths_leaf, mem_singleton, append_nil]
    · have hc : (t, c) ∈ left ++ (t, c) :: right := by simp
      rw [insertInto, insertChild_append hleft, insertChild]
      by_cases hfull : commonPrefixLen c.edge (t :: ts) = c.edge.length
      · -- The whole edge is on the path: the child takes the record.
        obtain ⟨rest, hrest⟩ := commonPrefixLen_eq_length_iff.mp hfull
        have hdrop : (t :: ts).drop c.edge.length = rest := by rw [← hrest, drop_left]
        simp only [hfull, hdrop]
        rw [← hrest] at hlen' ⊢
        exact (ih t c hc hlen').child shape below
      · simp only [if_neg hfull]
        exact (inserted_splitEdge (below t c hc) (shape.keyed t c hc)
          (fun hpruned => shape.inhabited hpruned t c hc) hlen' hfull).child shape below

/-! ## Removal keeps and drops -/

lemma head?_of_mem_paths {k : Token} {x : List Token × PromptCacheKeyDigest}
    (hhead : node.edge.head? = some k) (hx : x ∈ node.paths) : x.1.head? = some k := by
  obtain ⟨ts, hts, _⟩ := mem_paths.mp hx
  rw [hts, head?_append, hhead, Option.some_or]

lemma mem_tails_nil (h : Shape pruned start node) {d : PromptCacheKeyDigest} :
    ([], d) ∈ node.tails ↔ d ∈ node.entries.map fun e => e.digest := by
  rw [mem_tails]
  constructor
  · rintro (⟨_, hd⟩ | ⟨k, c, hc, hx⟩)
    · exact hd
    · simpa using head?_of_mem_paths (h.keyed k c hc) hx
  · intro hd
    exact .inl ⟨rfl, hd⟩

lemma mem_tails_cons (h : Shape pruned start node) {ts : List Token} {d : PromptCacheKeyDigest} :
    (t :: ts, d) ∈ node.tails ↔ ∃ c, (t, c) ∈ node.children ∧ (t :: ts, d) ∈ c.paths := by
  rw [mem_tails]
  constructor
  · rintro (⟨hnil, _⟩ | ⟨k, c, hc, hx⟩)
    · exact absurd hnil (cons_ne_nil _ _)
    · have hk : some t = some k := head?_of_mem_paths (h.keyed k c hc) hx
      rw [Option.some.inj hk]
      rw [Option.some.inj hk] at hx
      exact ⟨c, hc, hx⟩
  · rintro ⟨c, hc, hx⟩
    exact .inr ⟨t, c, hc, hx⟩

/-- `node'` is `node` with the digest dropped from under `tokens`, which start above the edge. -/
structure Removed (pruned : Prop) (start : ℕ) (node : TrieNode) (tokens : List Token)
    (digest : PromptCacheKeyDigest) (node' : TrieNode) : Prop where
  wellFormed : WellFormed pruned start node'
  edge_prefix : node.edge <+: node'.edge
  mem : (tokens, digest) ∈ node.paths
  mem_paths : ∀ x, x ∈ node'.paths ↔ x ∈ node.paths ∧ x ≠ (tokens, digest)

lemma mem_paths_of_mem_tails_drop {node' : TrieNode} (hedge : node.edge = edge)
    (hedge' : node'.edge = edge) (h : ∀ x, x ∈ node'.tails ↔ x ∈ node.tails ∧ x ≠ (tokens, digest))
    (x : List Token × PromptCacheKeyDigest) :
    x ∈ node'.paths ↔ x ∈ node.paths ∧ x ≠ (edge ++ tokens, digest) := by
  obtain ⟨ts, d⟩ := x
  simp only [mem_paths, hedge, hedge', h]
  constructor
  · rintro ⟨ts', rfl, hx, hne⟩
    refine ⟨⟨ts', rfl, hx⟩, ?_⟩
    simpa using hne
  · rintro ⟨⟨ts', rfl, hx⟩, hne⟩
    refine ⟨ts', rfl, hx, ?_⟩
    simpa using hne

lemma mergeOnlyChildIfEmpty_spec (shape : Shape pruned start node)
    (below : ∀ k c, (k, c) ∈ node.children → WellFormed pruned (start + node.edge.length) c) :
    WellFormed pruned start (recount (mergeOnlyChildIfEmpty node)) ∧
      node.edge <+: (mergeOnlyChildIfEmpty node).edge ∧
      ∀ x, x ∈ (mergeOnlyChildIfEmpty node).paths ↔ x ∈ node.paths := by
  obtain ⟨edge, entries, n, children⟩ := node
  rw [mergeOnlyChildIfEmpty]
  split
  · next k child hentries hchildren =>
    subst hentries hchildren
    have hchild := below k child (mem_singleton_self _)
    have hlen : start + (edge ++ child.edge).length = start + edge.length + child.edge.length := by
      rw [length_append, Nat.add_assoc]
    refine ⟨Shape.wellFormed ⟨?_, hchild.shape.digests_nodup, hchild.shape.keys_nodup,
      hchild.shape.keyed, hchild.shape.inhabited⟩ ?_, prefix_append _ _, ?_⟩
    · intro e he
      rw [hchild.shape.tokenLen_eq e he]
      exact hlen.symm
    · intro k' c' hc'
      have hbelow := hchild.child hc'
      rw [← hlen] at hbelow
      exact hbelow
    · have htails : tails ⟨edge ++ child.edge, child.entries, 0, child.children⟩ = child.tails := by
        rw [tails_eq, tails_eq]
      have hpaths : tails ⟨edge, [], n, [(k, child)]⟩ = child.paths := by
        rw [tails_eq]
        simp
      rw [paths_recount, paths, htails, paths, hpaths, paths]
      simp
  · exact ⟨shape.wellFormed below, prefix_rfl, fun _ => .rfl⟩

lemma removeChild_append {left : List (Token × TrieNode)} (hleft : ∀ kc ∈ left, kc.1 ≠ t)
    (right : List (Token × TrieNode)) (ts : List Token) (digest : PromptCacheKeyDigest) :
    removeChild (left ++ right) t ts digest
      = (removeChild right t ts digest).map fun rest => left ++ rest := by
  induction left with
  | nil => simp
  | cons kc left ih =>
    rw [forall_mem_cons] at hleft
    rw [cons_append, removeChild, if_neg hleft.1, ih hleft.2, Option.map_map]
    rfl

section RemoveChild

variable {n : ℕ} {ts : List Token} {c c' : TrieNode} {left right : List (Token × TrieNode)}

/-- Only the child under the first token stores a pair that starts with it. -/
lemma Shape.notMem_tails_rest
    (shape : Shape pruned start ⟨edge, entries, n, left ++ (t, c) :: right⟩) :
    (t :: ts, digest) ∉ tails ⟨edge, entries, n, left ++ right⟩ := by
  intro hx
  obtain ⟨d, hd, _⟩ := (mem_tails_cons shape.erase).mp hx
  exact shape.key_ne (t, d) hd rfl

/-- The children after a removal below one of them, which is dropped if it became an empty leaf. -/
lemma Removed.children (hc : Removed pruned (start + edge.length) c (t :: ts) digest c')
    (shape : Shape pruned start ⟨edge, entries, n, left ++ (t, c) :: right⟩)
    (below : ∀ k d, (k, d) ∈ left ++ (t, c) :: right → WellFormed pruned (start + edge.length) d)
    {children : List (Token × TrieNode)}
    (hchildren : children = if c'.entries.isEmpty ∧ c'.children.isEmpty then left ++ right
      else left ++ (t, c') :: right) :
    Shape pruned start ⟨edge, entries, n, children⟩ ∧
      (∀ k d, (k, d) ∈ children → WellFormed pruned (start + edge.length) d) ∧
      ∀ x, x ∈ tails ⟨edge, entries, n, children⟩ ↔
        x ∈ tails ⟨edge, entries, n, left ++ (t, c) :: right⟩ ∧ x ≠ (t :: ts, digest) := by
  have hmem : ∀ x, x ∈ c'.paths ∨ x ∈ tails ⟨edge, entries, n, left ++ right⟩ ↔
      x ∈ tails ⟨edge, entries, n, left ++ (t, c) :: right⟩ ∧ x ≠ (t :: ts, digest) := by
    intro x
    rw [mem_tails_children, hc.mem_paths]
    constructor
    · rintro (⟨hx, hne⟩ | hx)
      · exact ⟨.inl hx, hne⟩
      · exact ⟨.inr hx, fun h => shape.notMem_tails_rest (h ▸ hx)⟩
    · rintro ⟨hx | hx, hne⟩
      · exact .inl ⟨hx, hne⟩
      · exact .inr hx
  split_ifs at hchildren with hempty
  · rw [List.isEmpty_iff, List.isEmpty_iff] at hempty
    have hnone : c'.paths = [] := by
      rw [paths, tails_eq, hempty.1, hempty.2]
      rfl
    subst hchildren
    refine ⟨shape.erase, fun k d hd => below k d ?_, ?_⟩
    · exact ((sublist_cons_self _ _).append_left left).subset hd
    · intro x
      rw [← hmem, hnone]
      simp
  · rw [List.isEmpty_iff, List.isEmpty_iff, not_and_or] at hempty
    have hhead : c'.edge.head? = some t := by
      obtain ⟨suffix, hsuffix⟩ := hc.edge_prefix
      rw [← hsuffix, head?_append, shape.keyed t c (by simp), Option.some_or]
    subst hchildren
    refine ⟨shape.replace hhead hempty, ?_, ?_⟩
    · intro k d hd
      rcases mem_replace hd with hd | ⟨-, rfl⟩
      · exact below k d hd
      · exact hc.wellFormed
    · intro x
      rw [mem_tails_children, hmem]

end RemoveChild

/-- A node after a removal below it: it is recounted, and fused unless it is the root. -/
lemma removed_recount {n : ℕ} {old children : List (Token × TrieNode)} (isRoot : Bool)
    (hmem : (tokens, digest) ∈ tails ⟨edge, entries, n, old⟩)
    (h : Shape pruned start ⟨edge, entries, n, children⟩ ∧
      (∀ k d, (k, d) ∈ children → WellFormed pruned (start + edge.length) d) ∧
      ∀ x, x ∈ tails ⟨edge, entries, n, children⟩ ↔
        x ∈ tails ⟨edge, entries, n, old⟩ ∧ x ≠ (tokens, digest)) :
    Removed pruned start ⟨edge, entries, n, old⟩ (edge ++ tokens) digest
        (recount (if isRoot then ⟨edge, entries, n, children⟩
          else mergeOnlyChildIfEmpty ⟨edge, entries, n, children⟩)) ∧
      (isRoot = true → edge = (recount (if isRoot then ⟨edge, entries, n, children⟩
          else mergeOnlyChildIfEmpty ⟨edge, entries, n, children⟩)).edge) := by
  obtain ⟨shape, below, htails⟩ := h
  have hpaths := @mem_paths_of_mem_tails_drop ⟨edge, entries, n, old⟩ edge tokens digest
    ⟨edge, entries, n, children⟩ rfl rfl htails
  have hmem : (edge ++ tokens, digest) ∈ paths ⟨edge, entries, n, old⟩ :=
    mem_paths.mpr ⟨tokens, rfl, hmem⟩
  cases isRoot with
  | true =>
    refine ⟨⟨shape.wellFormed below, prefix_rfl, hmem, ?_⟩, fun _ => rfl⟩
    intro x
    rw [← hpaths]
    exact iff_of_eq (congrArg (x ∈ ·) (paths_recount _))
  | false =>
    obtain ⟨hwf, hedge, hmerge⟩ := mergeOnlyChildIfEmpty_spec shape below
    refine ⟨⟨hwf, hedge, hmem, ?_⟩, by simp⟩
    intro x
    rw [← hpaths, ← hmerge]
    exact iff_of_eq (congrArg (x ∈ ·) (paths_recount _))

/-- What a removal under `tokens`, which follow the node, returns. -/
def RemoveResult (pruned : Prop) (start : ℕ) (isRoot : Bool) (node : TrieNode) (tokens : List Token)
    (digest : PromptCacheKeyDigest) : Option TrieNode → Prop
  | none => (tokens, digest) ∉ node.tails
  | some node' => Removed pruned start node (node.edge ++ tokens) digest node' ∧
      (isRoot = true → node.edge = node'.edge)

lemma removeFrom_nil_spec {isRoot : Bool} (h : WellFormed pruned start node) :
    RemoveResult pruned start isRoot node [] digest (removeFrom isRoot node [] digest) := by
  have shape := h.shape
  have hmem := @mem_tails_nil _ _ _ shape digest
  obtain ⟨edge, entries, n, children⟩ := node
  rw [removeFrom]
  have hkept : (entries.filter fun e => decide (e.digest ≠ digest)).length = entries.length ↔
      digest ∉ entries.map fun e => e.digest := by
    simp
  split_ifs with hlen
  · rw [RemoveResult, hmem]
    exact hkept.mp hlen
  · have hstored : ([], digest) ∈ tails ⟨edge, entries, n, children⟩ := by
      rw [hmem]
      exact not_not.mp fun hnot => hlen (hkept.mpr hnot)
    refine ⟨⟨Shape.wellFormed ⟨?_, ?_, shape.keys_nodup, shape.keyed, shape.inhabited⟩
      fun k c hc => h.child hc, prefix_rfl, mem_paths.mpr ⟨[], rfl, hstored⟩,
      mem_paths_of_mem_tails_drop rfl rfl ?_⟩, fun _ => rfl⟩
    · exact fun e he => shape.tokenLen_eq e (mem_of_mem_filter he)
    · exact shape.digests_nodup.sublist (filter_sublist.map _)
    · rintro ⟨ts, d⟩
      rw [tails_recount, mem_tails, mem_tails]
      have hchildren : ∀ k c, (k, c) ∈ children → (ts, d) ∈ c.paths → ts ≠ [] := by
        rintro k c hc hx rfl
        simpa using head?_of_mem_paths (shape.keyed k c hc) hx
      have hfilter : d ∈ (entries.filter fun e => decide (e.digest ≠ digest)).map
          (fun e => e.digest) ↔ d ∈ entries.map (fun e => e.digest) ∧ d ≠ digest := by
        simp only [mem_map, mem_filter, decide_eq_true_eq]
        constructor
        · rintro ⟨e, ⟨he, hne⟩, rfl⟩
          exact ⟨⟨e, he, rfl⟩, hne⟩
        · rintro ⟨⟨e, he, rfl⟩, hne⟩
          exact ⟨e, ⟨he, hne⟩, rfl⟩
      rw [hfilter]
      constructor
      · rintro (⟨hts, hd, hne⟩ | ⟨k, c, hc, hx⟩)
        · exact ⟨.inl ⟨hts, hd⟩, fun heq => hne (Prod.mk.inj heq).2⟩
        · exact ⟨.inr ⟨k, c, hc, hx⟩, fun heq => hchildren k c hc hx (Prod.mk.inj heq).1⟩
      · rintro ⟨⟨hts, hd⟩ | ⟨k, c, hc, hx⟩, hne⟩
        · exact .inl ⟨hts, hd, fun heq => hne (Prod.ext hts heq)⟩
        · exact .inr ⟨k, c, hc, hx⟩

/-- The tokens that a child's edge does not match are not stored below the child. -/
lemma notMem_paths_of_edge {c : TrieNode}
    (h : tokens.length < c.edge.length ∨ tokens.take c.edge.length ≠ c.edge) :
    (tokens, digest) ∉ c.paths := by
  intro hx
  obtain ⟨ts, hts, _⟩ := mem_paths.mp hx
  have hts : tokens = c.edge ++ ts := hts
  rw [hts, take_left, length_append] at h
  rcases h with h | h
  · omega
  · exact h rfl

/-- **Removal.** When the digest is not stored under the tokens nothing is returned; otherwise the
node stays well-formed and loses that pair. The edge of the root stays. -/
theorem removeFrom_spec (h : WellFormed pruned start node) :
    ∀ (isRoot : Bool) (tokens : List Token) (digest : PromptCacheKeyDigest),
      RemoveResult pruned start isRoot node tokens digest
        (removeFrom isRoot node tokens digest) := by
  induction h with
  | @mk start node count shape below ih =>
    intro isRoot tokens digest
    rcases tokens with _ | ⟨t, ts⟩
    · exact removeFrom_nil_spec (.mk count shape below)
    obtain ⟨edge, entries, n, children⟩ := node
    rw [removeFrom]
    rcases exists_split_children children t with hne | ⟨left, c, right, rfl, hleft⟩
    · -- No child has the first token.
      have hnone := removeChild_append hne [] ts digest
      rw [append_nil] at hnone
      rw [hnone]
      show (t :: ts, digest) ∉ tails ⟨edge, entries, n, children⟩
      rw [mem_tails_cons shape]
      rintro ⟨c, hc, _⟩
      exact hne (t, c) hc rfl
    have hc : (t, c) ∈ left ++ (t, c) :: right := by simp
    rw [removeChild_append hleft, removeChild, if_pos rfl]
    have hstored : (t :: ts, digest) ∉ c.paths →
        (t :: ts, digest) ∉ tails ⟨edge, entries, n, left ++ (t, c) :: right⟩ := by
      rw [mem_tails_children]
      exact fun hx => not_or.mpr ⟨hx, shape.notMem_tails_rest⟩
    by_cases hedge : (t :: ts).length < c.edge.length ∨ (t :: ts).take c.edge.length ≠ c.edge
    · rw [if_pos hedge]
      exact hstored (notMem_paths_of_edge hedge)
    rw [if_neg hedge]
    -- The edge matches, so the tokens continue after it.
    rw [not_or, not_not] at hedge
    have htokens : c.edge ++ (t :: ts).drop c.edge.length = t :: ts := by
      nth_rewrite 1 [← hedge.2]
      exact take_append_drop _ _
    have hchild := ih t c hc false ((t :: ts).drop c.edge.length) digest
    cases hremove : removeFrom false c ((t :: ts).drop c.edge.length) digest with
    | none =>
      rw [hremove] at hchild
      refine hstored fun hx => hchild ?_
      obtain ⟨ts', hts', hx⟩ := mem_paths.mp hx
      have hts' : t :: ts = c.edge ++ ts' := hts'
      rwa [hts', drop_left]
    | some c' =>
      rw [hremove] at hchild
      have hchild := hchild.1
      rw [htokens] at hchild
      refine removed_recount isRoot (mem_tails_children.mpr (.inl hchild.mem))
        (hchild.children shape below ?_)
      exact apply_ite (fun rest => left ++ rest) _ _ _

/-! ## Counts and duplicates -/

@[simp] lemma length_paths (node : TrieNode) : node.paths.length = node.tails.length :=
  length_map _

lemma WellFormed.subtreeCount_eq (h : WellFormed pruned start node) :
    node.subtreeCount = node.tails.length := by
  induction h with
  | @mk start node count _ _ ih =>
    rw [count, recomputeSubtreeCount, tails_eq, length_append, length_map,
      length_flatMap]
    congr 2
    refine map_congr_left ?_
    rintro ⟨k, c⟩ hc
    rw [length_paths]
    exact ih k c hc

lemma WellFormed.tails_nodup (h : WellFormed pruned start node) : node.tails.Nodup := by
  induction h with
  | @mk start node _ shape _ ih =>
    have hentries : (node.entries.map fun e => (([] : List Token), e.digest)).Nodup := by
      have hmap := shape.digests_nodup.map (Prod.mk_right_injective ([] : List Token))
      rwa [map_map] at hmap
    have hpaths : ∀ kc ∈ node.children, kc.2.paths.Nodup := by
      rintro ⟨k, c⟩ hc
      refine (ih k c hc).map ?_
      intro x y hxy
      simpa [Prod.ext_iff] using hxy
    rw [tails_eq, nodup_append']
    refine ⟨hentries, ?_, ?_⟩
    · rw [nodup_flatMap]
      refine ⟨hpaths, ?_⟩
      -- Paths below different children start with different tokens.
      refine ((pairwise_map.mp shape.keys_nodup).imp_of_mem ?_)
      rintro ⟨k, c⟩ ⟨k', c'⟩ hc hc' hne x hx hx'
      have hk := head?_of_mem_paths (shape.keyed k c hc) hx
      rw [head?_of_mem_paths (shape.keyed k' c' hc') hx', Option.some.injEq] at hk
      exact hne hk.symm
    · intro x hx hx'
      obtain ⟨e, _, rfl⟩ := mem_map.mp hx
      obtain ⟨⟨k, c⟩, hc, hx'⟩ := mem_flatMap.mp hx'
      simpa using head?_of_mem_paths (shape.keyed k c hc) hx'

end TrieNode

/-! ## The trie of a bucket -/

/-- A trie is a well-formed root without an edge. -/
structure RadixTrie where
  root : TrieNode
  edge_eq : root.edge = []
  wellFormed : root.WellFormed True 0

namespace RadixTrie

open TrieNode

def empty : RadixTrie :=
  ⟨⟨[], [], 0, []⟩, rfl, .mk rfl ⟨by simp, by simp, by simp, by simp, by simp⟩ (by simp)⟩

variable (trie : RadixTrie)

def len : ℕ := trie.root.subtreeCount

/-- The pairs of tokens and digest in the trie. -/
def stored : List (List Token × PromptCacheKeyDigest) := trie.root.tails

lemma paths_root : trie.root.paths = trie.stored := by
  simp [paths, trie.edge_eq, stored]

lemma inserted_root (tokens : List Token) (digest : PromptCacheKeyDigest) :
    Inserted True 0 trie.root tokens ⟨digest, tokens.length⟩
      (insertInto trie.root tokens ⟨digest, tokens.length⟩) := by
  have h := @inserted_insertInto _ 0 _ trie.wellFormed tokens ⟨digest, tokens.length⟩
  rw [trie.edge_eq, Nat.zero_add] at h
  exact h rfl

def insert (tokens : List Token) (digest : PromptCacheKeyDigest) : RadixTrie :=
  ⟨insertInto trie.root tokens ⟨digest, tokens.length⟩,
    by rw [edge_insertInto, trie.edge_eq], (trie.inserted_root tokens digest).wellFormed⟩

lemma removed_root {tokens : List Token} {digest : PromptCacheKeyDigest}
    {root : TrieNode} (h : removeFrom true trie.root tokens digest = some root) :
    Removed True 0 trie.root tokens digest root ∧ root.edge = [] := by
  have hspec := removeFrom_spec trie.wellFormed true tokens digest
  rw [h, RemoveResult, trie.edge_eq] at hspec
  exact ⟨hspec.1, (hspec.2 rfl).symm⟩

/-- The trie without the digest, and whether it was there. -/
def remove (tokens : List Token) (digest : PromptCacheKeyDigest) : RadixTrie × Bool :=
  match h : removeFrom true trie.root tokens digest with
  | none => (trie, false)
  | some root => (⟨root, (trie.removed_root h).2, (trie.removed_root h).1.wellFormed⟩, true)

lemma stored_nodup : trie.stored.Nodup := trie.wellFormed.tails_nodup

lemma len_eq : trie.len = trie.stored.length := trie.wellFormed.subtreeCount_eq

/-- **Insertion adds one pair.** -/
theorem mem_stored_insert {trie : RadixTrie} {tokens : List Token} {digest : PromptCacheKeyDigest}
    {x : List Token × PromptCacheKeyDigest} :
    x ∈ (trie.insert tokens digest).stored ↔ x = (tokens, digest) ∨ x ∈ trie.stored := by
  rw [← paths_root, ← paths_root]
  exact (trie.inserted_root tokens digest).mem_paths x

/-- **Removal takes one pair away**, and says whether it was there. -/
theorem mem_stored_remove {trie : RadixTrie} {tokens : List Token} {digest : PromptCacheKeyDigest} :
    ((trie.remove tokens digest).2 = true ↔ (tokens, digest) ∈ trie.stored) ∧
      ∀ x, x ∈ (trie.remove tokens digest).1.stored ↔ x ∈ trie.stored ∧ x ≠ (tokens, digest) := by
  rw [remove]
  split
  · next h =>
    have hspec := removeFrom_spec trie.wellFormed true tokens digest
    rw [h] at hspec
    have hspec : (tokens, digest) ∉ trie.stored := hspec
    refine ⟨by simp [hspec], ?_⟩
    intro x
    exact ⟨fun hx => ⟨hx, fun heq => hspec (heq ▸ hx)⟩, fun hx => hx.1⟩
  · next root h =>
    have hremoved := (trie.removed_root h).1
    rw [← paths_root]
    refine ⟨by simp [hremoved.mem], ?_⟩
    intro x
    rw [← paths_root]
    exact hremoved.mem_paths x

end RadixTrie

end Mlxcel.PromptCache
