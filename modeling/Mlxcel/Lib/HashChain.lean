import Mathlib.Data.List.Basic
import Mathlib.Data.Set.Function

/-!
# Hash chains

A hash chain over blocks `b₀, b₁, …` starts from a seed and hashes each block together with the
digest before it: `dᵢ = h (enc dᵢ₋₁ bᵢ)`. The file is generic in the hash `h : π → δ`, in the
encoding `enc : δ → β → π` of a link and in the seed.

**Vocabulary.**
* `chain h enc seed bs` is the list of digests, `links h enc seed bs` the list of the strings that
  were hashed to obtain them;
* `digest h enc seed bs` is the digest after all of `bs`.

**Main results.** When `h` has no collision among the links of two chains and a link determines
its parts, equal digests at one index mean equal blocks up to that index (`chain_inj`). When
moreover no link hashes to the seed, equal digests also sit at equal indices (`chain_index_inj`).
Nothing is assumed about `h` outside the links that occur: a hash into a finite type is never
injective everywhere.
-/

namespace HashChain

open List

variable {β δ π : Type*}

section Chain

variable (h : π → δ) (enc : δ → β → π)

/-- The digests of a hash chain. -/
def chain (seed : δ) : List β → List δ
  | [] => []
  | b :: bs => h (enc seed b) :: chain (h (enc seed b)) bs

/-- The strings hashed along a hash chain. -/
def links (seed : δ) : List β → List π
  | [] => []
  | b :: bs => enc seed b :: links (h (enc seed b)) bs

variable (seed : δ) (bs : List β)

/-- The digest that a hash chain ends with. -/
def digest : δ :=
  bs.foldl (fun d b => h (enc d b)) seed

@[simp] lemma length_chain : (chain h enc seed bs).length = bs.length := by
  induction bs generalizing seed with
  | nil => rfl
  | cons b bs ih => simp [chain, ih]

lemma getElem?_chain (i : ℕ) : (chain h enc seed bs)[i]? =
      bs[i]?.map fun b => h (enc (digest h enc seed (bs.take i)) b) := by
  induction bs generalizing seed i with
  | nil => simp [chain]
  | cons b bs ih =>
    cases i with
    | zero => simp [chain, digest]
    | succ i => simpa [chain, digest] using ih (h (enc seed b)) i

lemma getElem?_links (i : ℕ) : (links h enc seed bs)[i]? =
      bs[i]?.map fun b => enc (digest h enc seed (bs.take i)) b := by
  induction bs generalizing seed i with
  | nil => simp [links]
  | cons b bs ih =>
    cases i with
    | zero => simp [links, digest]
    | succ i => simpa [links, digest] using ih (h (enc seed b)) i

lemma chain_take (k : ℕ) : chain h enc seed (bs.take k) = (chain h enc seed bs).take k := by
  induction bs generalizing seed k with
  | nil => simp [chain]
  | cons b bs ih =>
    cases k with
    | zero => simp [chain]
    | succ k => simp [chain, ih]

end Chain

section Collisions

variable {h : π → δ} {enc enc' : δ → β → π} {seed : δ} {bs cs : List β} {i j : ℕ} {d : δ}

/-- A digest of the chain is the hash of a link, whose block and predecessor are known. -/
lemma exists_link_of_getElem?_chain (hd : (chain h enc seed bs)[i]? = some d) :
    ∃ b, bs[i]? = some b ∧ d = h (enc (digest h enc seed (bs.take i)) b) ∧
      enc (digest h enc seed (bs.take i)) b ∈ links h enc seed bs := by
  rw [getElem?_chain, Option.map_eq_some_iff] at hd
  obtain ⟨b, hb, rfl⟩ := hd
  refine ⟨b, hb, rfl, mem_of_getElem? (i := i) ?_⟩
  rw [getElem?_links, hb, Option.map_some]

/-- The predecessor of the block at index `i + 1` is the digest at index `i`. -/
lemma getElem?_chain_pred (hd : (chain h enc seed bs)[i + 1]? = some d) :
    (chain h enc seed bs)[i]? = some (digest h enc seed (bs.take (i + 1))) := by
  obtain ⟨b, hb, _⟩ := exists_link_of_getElem?_chain hd
  have hlt : i < bs.length := by
    have := (List.getElem?_eq_some_iff.mp hb).1
    omega
  rw [getElem?_chain, getElem?_eq_getElem hlt, ← take_append_getElem hlt, digest, digest, foldl_append]
  rfl

variable {S : Set π} {R : Prop}

/-- **Equal digests commit to equal blocks.** If `h` has no collision on `S`, which contains the
links of both chains, and equal links have equal predecessors, equal blocks and satisfy `R`, then
chains that agree at one index have the same blocks up to it. -/
theorem chain_inj (hS : Set.InjOn h S)
    (hb : ∀ x ∈ links h enc seed bs, x ∈ S) (hc : ∀ x ∈ links h enc' seed cs, x ∈ S)
    (henc : ∀ p q, ∀ b ∈ bs, ∀ c ∈ cs, enc p b = enc' q c → R ∧ p = q ∧ b = c)
    (hbd : (chain h enc seed bs)[i]? = some d) (hcd : (chain h enc' seed cs)[i]? = some d) :
    R ∧ ∀ t ≤ i, bs[t]? = cs[t]? := by
  induction i generalizing d
  all_goals
    obtain ⟨b, hbi, rfl, hbS⟩ := exists_link_of_getElem?_chain hbd
    obtain ⟨c, hci, heq, hcS⟩ := exists_link_of_getElem?_chain hcd
    obtain ⟨hR, hpq, rfl⟩ := henc _ _ b (mem_of_getElem? hbi) c (mem_of_getElem? hci)
      (hS (hb _ hbS) (hc _ hcS) heq)
    refine ⟨hR, fun t ht => ?_⟩
  case zero => rw [Nat.le_zero.mp ht, hbi, hci]
  case succ i ih =>
    have hprev := ih (getElem?_chain_pred hbd) (hpq ▸ getElem?_chain_pred hcd)
    rcases Nat.lt_or_eq_of_le ht with ht | rfl
    · exact hprev.2 t (Nat.le_of_lt_succ ht)
    · rw [hbi, hci]

/-- **Equal digests sit at equal indices.** If moreover no string of `S` hashes to the seed, a
digest of one chain can only recur in the other chain at the index where it stands. -/
theorem chain_index_inj (hS : Set.InjOn h S) (hseed : ∀ x ∈ S, h x ≠ seed)
    (hb : ∀ x ∈ links h enc seed bs, x ∈ S) (hc : ∀ x ∈ links h enc' seed cs, x ∈ S)
    (henc : ∀ p q, ∀ b ∈ bs, ∀ c ∈ cs, enc p b = enc' q c → p = q)
    (hbd : (chain h enc seed bs)[i]? = some d) (hcd : (chain h enc' seed cs)[j]? = some d) :
    i = j := by
  induction i generalizing j d
  all_goals
    obtain ⟨b, hbi, rfl, hbS⟩ := exists_link_of_getElem?_chain hbd
    obtain ⟨c, hci, heq, hcS⟩ := exists_link_of_getElem?_chain hcd
    have hpq := henc _ _ b (mem_of_getElem? hbi) c (mem_of_getElem? hci)
      (hS (hb _ hbS) (hc _ hcS) heq)
  case zero =>
    cases j with
    | zero => rfl
    | succ j =>
      -- The predecessor in the second chain is a digest, the one in the first is the seed.
      obtain ⟨c', _, hprev, hcS'⟩ :=
        exists_link_of_getElem?_chain (getElem?_chain_pred hcd)
      refine absurd ?_ (hseed _ (hc _ hcS'))
      rw [← hprev, ← hpq]
      rfl
  case succ i ih =>
    cases j with
    | zero =>
      obtain ⟨b', _, hprev, hbS'⟩ :=
        exists_link_of_getElem?_chain (getElem?_chain_pred hbd)
      refine absurd ?_ (hseed _ (hb _ hbS'))
      rw [← hprev, hpq]
      rfl
    | succ j => rw [ih (getElem?_chain_pred hbd) (hpq ▸ getElem?_chain_pred hcd)]

/-- Chains over lists with the same blocks up to an index agree at that index. -/
lemma getElem?_chain_congr (hbc : ∀ t ≤ i, bs[t]? = cs[t]?) :
    (chain h enc seed bs)[i]? = (chain h enc seed cs)[i]? := by
  have htake : bs.take i = cs.take i := by
    apply ext_getElem?
    intro t
    rcases Nat.lt_or_ge t i with ht | ht
    · rw [getElem?_take_of_lt ht, getElem?_take_of_lt ht, hbc t ht.le]
    · rw [getElem?_take_eq_none ht, getElem?_take_eq_none ht]
  rw [getElem?_chain, getElem?_chain, htake, hbc i le_rfl]

end Collisions

end HashChain
