import Mlxcel.PromptCache.Pins
import Mathlib.Data.List.TakeWhile
import Mathlib.Data.Prod.Lex

/-!
# Lookups of the prompt cache

A lookup asks the trie of the bucket first and scans all entries only if the trie has no winner.
The two selections filter separately, and the depth at which the trie stops may come from an entry
that was drained or that is longer than the request. This file shows that they agree.

**Selection.** Both selections run the same tournament, `selectCandidate`, over their candidates.
`Priority` is the order that it decides by: matched length, session of the caller, last use.
`selectCandidate_spec` says that it returns a candidate of the highest priority.

**Candidates.** `Eligible` says once which entries may win. The candidates of the scan are the
eligible entries, and those of the trie are the eligible entries whose common prefix with the
request is the depth of the trie. As no entry of the bucket has a longer one, a trie with candidates
has those of the highest priority.

**Lengths.** What a lookup reports is at most the common prefix of entry and request, so that the
block hashes up to it agree and the clamp to whole blocks does nothing else.
-/

namespace Mlxcel.PromptCache

open List CommonPrefix Chunks BestCandidate SessionlessBucketKey Option

variable {δ π : Type}

/-! ## Selection -/

/-- The order of a tier: matched length, then last use. -/
abbrev BestCandidate.rank (c : BestCandidate) : ℕ ×ₗ ℕ := toLex (c.matched, c.lastUsed)

/-- The order of candidates of both tiers: matched length, then the session of the caller, then
last use. -/
abbrev Priority (c : Bool × BestCandidate) : ℕ ×ₗ Bool ×ₗ ℕ :=
  toLex (c.2.matched, toLex (c.1, c.2.lastUsed))

/-- The candidates of a tier. -/
def tier (same : Bool) (candidates : List (Bool × BestCandidate)) : List BestCandidate :=
  (candidates.filter fun c => decide (c.1 = same)).map Prod.snd

lemma mem_tier {same : Bool} {candidates : List (Bool × BestCandidate)} {c : BestCandidate} :
    c ∈ tier same candidates ↔ (same, c) ∈ candidates := by
  simp only [tier, List.mem_map, mem_filter, decide_eq_true_eq]
  constructor
  · rintro ⟨x, ⟨hx, rfl⟩, rfl⟩
    exact hx
  · intro h
    exact ⟨(same, c), ⟨h, rfl⟩, rfl⟩

lemma beats_iff (a b : BestCandidate) : a.beats b = true ↔ b.rank < a.rank := by
  rw [beats, Prod.Lex.toLex_lt_toLex]
  by_cases h : a.matched = b.matched
  · simp [h]
  · simp [h, Ne.symm h]

/-- Keeping the best is the step of `List.argmax`. -/
lemma argmax_concat_eq_keepBest (l : List BestCandidate) (c : BestCandidate) :
    (l ++ [c]).argmax rank = some (keepBest (l.argmax rank) c) := by
  rw [argmax_concat]
  cases h : l.argmax rank with
  | none => rfl
  | some b =>
    by_cases hb : c.beats b = true
    · simp [keepBest, hb, (beats_iff c b).mp hb]
    · have hrank : ¬ b.rank < c.rank := fun h => hb ((beats_iff c b).mpr h)
      simp only [keepBest, if_neg hb, if_neg hrank]

variable (candidates : List (Bool × BestCandidate))

/-- Each tier ends with its best candidate. -/
lemma foldl_considerCandidate : candidates.foldl considerCandidate (none, none)
      = ((tier true candidates).argmax rank,
        (tier false candidates).argmax rank) := by
  induction candidates using List.reverseRecOn with
  | nil => rfl
  | append_singleton l c ih =>
    obtain ⟨same, c⟩ := c
    have htier : ∀ t, tier t (l ++ [(same, c)])
        = tier t l ++ if same = t then [c] else [] := by
      intro t
      by_cases h : same = t <;> simp [tier, h]
    rw [foldl_append, foldl_cons, ih, htier, htier, considerCandidate]
    cases same with
    | true => simp [argmax_concat_eq_keepBest]
    | false => simp [argmax_concat_eq_keepBest]

lemma priority_le_iff {t t' : Bool} {c c' : BestCandidate} :
    Priority (t, c) ≤ Priority (t', c') ↔ c.matched < c'.matched ∨
      c.matched = c'.matched ∧ (t < t' ∨ t = t' ∧ c.lastUsed ≤ c'.lastUsed) := by
  rw [Prod.Lex.toLex_le_toLex, Prod.Lex.toLex_le_toLex]

variable {same other : Option BestCandidate}

lemma preferSession_eq_none :
    preferSession same other = none ↔ same = none ∧ other = none := by
  cases same with
  | none => simp [preferSession]
  | some s =>
    cases other with
    | none => simp [preferSession]
    | some t =>
      simp only [preferSession]
      split_ifs <;> simp

lemma preferSession_eq_some {winner : BestCandidate} (h : preferSession same other = some winner) :
    (same = some winner ∧ ∀ c ∈ other, c.matched ≤ winner.matched) ∨
      (other = some winner ∧ ∀ c ∈ same, c.matched < winner.matched) := by
  cases same with
  | none => exact .inr ⟨h, by simp⟩
  | some s =>
    cases other with
    | none => exact .inl ⟨h, by simp⟩
    | some t =>
      simp only [preferSession] at h
      split_ifs at h with hlt
      · obtain rfl : t = winner := some.inj h
        exact .inr ⟨rfl, by simpa using hlt⟩
      · obtain rfl : s = winner := some.inj h
        exact .inl ⟨rfl, by simpa using hlt⟩

/-- **The tournament** has a winner unless there are no candidates, and no candidate has a higher
priority than the winner. -/
theorem selectCandidate_spec : (selectCandidate candidates = none ↔ candidates = []) ∧
      ∀ winner, selectCandidate candidates = some winner → ∃ same,
        (same, winner) ∈ candidates ∧ ∀ c ∈ candidates, Priority c ≤ Priority (same, winner) := by
  have hmem : ∀ {same b}, (tier same candidates).argmax rank = some b →
      (same, b) ∈ candidates := by
    intro same b hb
    exact mem_tier.mp (argmax_mem hb)
  have hbound : ∀ {same c}, (same, c) ∈ candidates →
      ∃ b, (tier same candidates).argmax rank = some b ∧
        (c.matched < b.matched ∨ c.matched = b.matched ∧ c.lastUsed ≤ b.lastUsed) := by
    intro same c hc
    cases hb : (tier same candidates).argmax rank with
    | none =>
      rw [argmax_eq_none] at hb
      exact absurd (mem_tier.mpr hc) (by simp [hb])
    | some b =>
      exact ⟨b, rfl, Prod.Lex.toLex_le_toLex.mp (le_of_mem_argmax (mem_tier.mpr hc) hb)⟩
  rw [selectCandidate, foldl_considerCandidate]
  refine ⟨?_, ?_⟩
  · rw [preferSession_eq_none, argmax_eq_none, argmax_eq_none]
    constructor
    · rintro ⟨hsame, hother⟩
      refine eq_nil_iff_forall_not_mem.mpr ?_
      rintro ⟨same, c⟩ hc
      have hc' := mem_tier.mpr hc
      cases same with
      | true => simp [hsame] at hc'
      | false => simp [hother] at hc'
    · rintro rfl
      exact ⟨rfl, rfl⟩
  · intro winner hwinner
    rcases preferSession_eq_some hwinner with ⟨hbest, hothers⟩ | ⟨hbest, hothers⟩
    · refine ⟨true, hmem hbest, ?_⟩
      rintro ⟨same, c⟩ hc
      rw [priority_le_iff]
      obtain ⟨b, hb, hle⟩ := hbound hc
      cases same with
      | true =>
        obtain rfl : b = winner := some.inj (hb.symm.trans hbest)
        exact hle.imp_right fun h => ⟨h.1, .inr ⟨rfl, h.2⟩⟩
      | false =>
        have hb' := hothers b hb
        rcases Nat.lt_or_ge c.matched winner.matched with h | h
        · exact .inl h
        · exact .inr ⟨by omega, .inl rfl⟩
    · refine ⟨false, hmem hbest, ?_⟩
      rintro ⟨same, c⟩ hc
      rw [priority_le_iff]
      obtain ⟨b, hb, hle⟩ := hbound hc
      cases same with
      | true =>
        have hb' := hothers b hb
        exact .inl (by omega)
      | false =>
        obtain rfl : b = winner := some.inj (hb.symm.trans hbest)
        exact hle.imp_right fun h => ⟨h.1, .inr ⟨rfl, h.2⟩⟩

/-- Two tournaments have winners of the same priority if each candidate of the first is one of the
second, and each of the second is matched by one of the first. -/
lemma priority_eq_of_selectCandidate {l l' : List (Bool × BestCandidate)} (hsub : l ⊆ l')
    (hbound : ∀ c ∈ l', ∃ c' ∈ l, Priority c ≤ Priority c') :
    (selectCandidate l = none ↔ selectCandidate l' = none) ∧
      ∀ winner winner', selectCandidate l = some winner → selectCandidate l' = some winner' →
        ∃ same same', (same, winner) ∈ l ∧ (same', winner') ∈ l' ∧
          Priority (same, winner) = Priority (same', winner') := by
  refine ⟨?_, ?_⟩
  · rw [(selectCandidate_spec l).1, (selectCandidate_spec l').1]
    constructor
    · rintro rfl
      refine eq_nil_iff_forall_not_mem.mpr ?_
      intro c hc
      obtain ⟨c', hc', _⟩ := hbound c hc
      exact absurd hc' not_mem_nil
    · rintro rfl
      exact subset_nil.mp hsub
  · intro winner winner' hw hw'
    obtain ⟨same, hmem, hmax⟩ := (selectCandidate_spec l).2 winner hw
    obtain ⟨same', hmem', hmax'⟩ := (selectCandidate_spec l').2 winner' hw'
    obtain ⟨c, hc, hle⟩ := hbound _ hmem'
    exact ⟨same, same', hmem, hmem', le_antisymm (hmax' _ (hsub hmem)) (hle.trans (hmax c hc))⟩

/-! ## Candidates -/

namespace Inner

/-- An entry that may win a lookup. -/
structure Eligible (s : Inner δ π) (key : PromptCacheKey) (tokens : List Token)
    (slot : EntrySlot) : Prop where
  bucket : slot.sessionless = fromKey key
  undrained : s.hasDetached slot.entry = true
  contained : s.config.apcEnabled = false → slot.entry.tokens <+: tokens
  long : s.config.minPrefixTokens ≤ commonPrefixLen slot.entry.tokens tokens

/-- An entry as a candidate: its matched length is its common prefix with the request. -/
def candidateOf (s : Inner δ π) (key : PromptCacheKey) (tokens : List Token)
    (digest : PromptCacheKeyDigest) (slot : EntrySlot) : Bool × BestCandidate :=
  (sameSession slot key,
    ⟨digest, commonPrefixLen slot.entry.tokens tokens, s.lastUsed slot.entry⟩)

variable {s : Inner δ π} {key : PromptCacheKey} {tokens : List Token} {c : Bool × BestCandidate}

variable {digest : PromptCacheKeyDigest} {slot : EntrySlot}

lemma scanCandidate_eq_some :
    s.scanCandidate key tokens s.config.minPrefixTokens s.config.apcEnabled ⟨digest, slot⟩ = some c ↔
      Eligible s key tokens slot ∧ s.candidateOf key tokens digest slot = c := by
  have hle := commonPrefixLen_le_left slot.entry.tokens tokens
  unfold scanCandidate candidateOf
  simp only [ite_none_left_eq_some, not_or, not_and, not_not, not_lt, some.injEq]
  cases hapc : s.config.apcEnabled with
  | true =>
    simp only [Bool.not_eq_false]
    constructor
    · rintro ⟨⟨hbucket, hdetached⟩, _, _, hlong, rfl⟩
      exact ⟨⟨hbucket, hdetached, by simp [hapc], hlong⟩, rfl⟩
    · rintro ⟨h, rfl⟩
      exact ⟨⟨h.bucket, h.undrained⟩, h.long.trans hle, by simp, h.long, rfl⟩
  | false =>
    simp only [Bool.false_eq_true, if_false, Bool.not_eq_false, forall_const]
    constructor
    · rintro ⟨⟨hbucket, hdetached⟩, hlong, ⟨_, htake⟩, _, rfl⟩
      have hprefix := prefix_iff_eq_take.mpr htake
      have hall := commonPrefixLen_eq_length_iff.mpr hprefix
      refine ⟨⟨hbucket, hdetached, fun _ => hprefix, ?_⟩, ?_⟩
      · rw [hall]
        exact hlong
      · rw [hall]
    · rintro ⟨h, rfl⟩
      have hprefix := h.contained hapc
      have hall := commonPrefixLen_eq_length_iff.mpr hprefix
      have hlong := h.long
      rw [hall] at hlong ⊢
      exact ⟨⟨h.bucket, h.undrained⟩, hlong, ⟨ hprefix.length_le, prefix_iff_eq_take.mp hprefix⟩,
        hlong, rfl⟩

/-- The trie judges an entry of the bucket that reaches its depth as the scan does. -/
lemma trieCandidate_eq_some (hslot : s.entries.lookup digest = some slot)
    (hbucket : slot.sessionless = fromKey key) :
    s.trieCandidate key tokens s.config.minPrefixTokens s.config.apcEnabled
        (commonPrefixLen slot.entry.tokens tokens) ⟨digest, slot.entry.tokens.length⟩ = some c ↔
      Eligible s key tokens slot ∧ s.candidateOf key tokens digest slot = c := by
  have hle := commonPrefixLen_le_left slot.entry.tokens tokens
  unfold trieCandidate candidateOf
  simp only [hslot, min_eq_left hle, ite_none_left_eq_some, not_and, not_lt,
    Bool.not_eq_false, some.injEq, not_not]
  constructor
  · rintro ⟨hdetached, _, hall, hlong, rfl⟩
    exact ⟨⟨hbucket, hdetached, fun h => commonPrefixLen_eq_length_iff.mp (hall h), hlong⟩, rfl⟩
  · rintro ⟨h, rfl⟩
    refine ⟨h.undrained, ?_, fun hapc => ?_, h.long, rfl⟩
    · intro hlt
      by_contra hapc
      have hshort := (h.contained (Bool.eq_false_of_not_eq_true hapc)).length_le
      omega
    · exact commonPrefixLen_eq_length_iff.mpr (h.contained hapc)

variable {o : HashOrder}

lemma mem_scanCandidates : c ∈ (o.order s.entries.entries).filterMap
        (s.scanCandidate key tokens s.config.minPrefixTokens s.config.apcEnabled) ↔
      ∃ digest slot, s.entries.lookup digest = some slot ∧ Eligible s key tokens slot ∧
        s.candidateOf key tokens digest slot = c := by
  rw [mem_filterMap]
  constructor
  · rintro ⟨⟨digest, slot⟩, he, hc⟩
    exact ⟨digest, slot, AList.mem_lookup_iff.mpr ((o.perm _).mem_iff.mp he),
      scanCandidate_eq_some.mp hc⟩
  · rintro ⟨digest, slot, hslot, hc⟩
    exact ⟨⟨digest, slot⟩, (o.perm _).mem_iff.mpr (AList.mem_lookup_iff.mp hslot),
      scanCandidate_eq_some.mpr hc⟩

lemma mem_trieCandidates (hs : Ok none s) {trie : RadixTrie} {minLen : ℕ} {found : TrieMatch}
    (htrie : s.tries.lookup (fromKey key) = some trie)
    (hfound : trie.findLongestPrefix tokens minLen = some found) :
    c ∈ (o.order found.candidates).filterMap (s.trieCandidate key tokens s.config.minPrefixTokens
        s.config.apcEnabled found.depth) ↔
      ∃ digest slot, s.entries.lookup digest = some slot ∧ Eligible s key tokens slot ∧
        commonPrefixLen slot.entry.tokens tokens = found.depth ∧
        s.candidateOf key tokens digest slot = c := by
  have hcandidates := (trie.findLongestPrefix_spec tokens minLen).2 found hfound
  have hstored : ∀ {x d}, (x, d) ∈ trie.stored ↔ ∃ slot, s.entries.lookup d = some slot ∧
      slot.sessionless = .fromKey key ∧ slot.entry.tokens = x := by
    intro x d
    rw [← hs.indexed, storedIn, htrie]
    rfl
  rw [mem_filterMap]
  constructor
  · rintro ⟨dl, hdl, hc⟩
    have hdl' := hcandidates.mem_iff.mp ((o.perm _).mem_iff.mp hdl)
    rw [List.mem_map] at hdl'
    obtain ⟨⟨x, d⟩, hx, rfl⟩ := hdl'
    rw [mem_filter, decide_eq_true_eq] at hx
    obtain ⟨slot, hslot, hbucket, rfl⟩ := hstored.mp hx.1
    rw [← hx.2, trieCandidate_eq_some hslot hbucket] at hc
    exact ⟨d, slot, hslot, hc.1, hx.2, hc.2⟩
  · rintro ⟨d, slot, hslot, heligible, hdepth, hc⟩
    refine ⟨⟨d, slot.entry.tokens.length⟩, (o.perm _).mem_iff.mpr (hcandidates.mem_iff.mpr ?_), ?_⟩
    · rw [List.mem_map]
      refine ⟨(slot.entry.tokens, d), ?_, rfl⟩
      rw [mem_filter, decide_eq_true_eq]
      exact ⟨hstored.mpr ⟨slot, hslot, heligible.bucket, rfl⟩, hdepth⟩
    · rw [← hdepth, trieCandidate_eq_some hslot heligible.bucket]
      exact ⟨heligible, hc⟩

/-- The candidate that a lookup decides for. -/
def winner (o : HashOrder) (s : Inner δ π) (key : PromptCacheKey) (tokens : List Token) :
    Option BestCandidate :=
  (s.tries.lookup (fromKey key)).bind fun trie =>
    s.bestCandidate o trie key tokens

/-- The winner is that of a tournament whose candidates are eligible entries and include one of
the highest priority. -/
lemma winner_eq_selectCandidate (hs : Ok none s) (o : HashOrder) (key : PromptCacheKey)
    (tokens : List Token) :
    ∃ candidates, s.winner o key tokens = selectCandidate candidates ∧
      (∀ c ∈ candidates, ∃ digest slot, s.entries.lookup digest = some slot ∧
        Eligible s key tokens slot ∧ s.candidateOf key tokens digest slot = c) ∧
      ∀ digest slot, s.entries.lookup digest = some slot → Eligible s key tokens slot →
        ∃ c ∈ candidates, Priority (s.candidateOf key tokens digest slot) ≤ Priority c := by
  cases htrie : s.tries.lookup (.fromKey key) with
  | none =>
    refine ⟨[], by rw [winner, htrie]; rfl, by simp, ?_⟩
    intro digest slot hslot heligible
    have hmem := hs.indexed.mpr ⟨slot, hslot, heligible.bucket, rfl⟩
    rw [storedIn, htrie] at hmem
    exact absurd hmem not_mem_nil
  | some trie =>
    have hwinner : s.winner o key tokens = s.bestCandidate o trie key tokens := by
      rw [winner, htrie]
      rfl
    rw [hwinner, bestCandidate]
    cases hbest : s.selectBest o trie key tokens s.config.minPrefixTokens s.config.apcEnabled with
    | none =>
      refine ⟨_, rfl, fun c hc => mem_scanCandidates.mp hc, ?_⟩
      intro digest slot hslot heligible
      exact ⟨_, mem_scanCandidates.mpr ⟨digest, slot, hslot, heligible, rfl⟩, le_rfl⟩
    | some best =>
      rw [selectBest] at hbest
      cases hfound : trie.findLongestPrefix tokens s.config.minPrefixTokens with
      | none => simp [hfound] at hbest
      | some found =>
        simp only [hfound] at hbest
        refine ⟨_, hbest.symm, ?_, ?_⟩
        · intro c hc
          obtain ⟨digest, slot, hslot, heligible, _, hc⟩ :=
            (mem_trieCandidates hs htrie hfound).mp hc
          exact ⟨digest, slot, hslot, heligible, hc⟩
        · intro digest slot hslot heligible
          -- No entry of the bucket is deeper than the trie, and those at its depth are there.
          have hdepth : commonPrefixLen slot.entry.tokens tokens ≤ found.depth := by
            have hgreatest := ((trie.findLongestPrefix_spec tokens _).1 found.depth).mp
              ⟨found, hfound, rfl⟩
            refine hgreatest.1.2 ⟨(slot.entry.tokens, digest), ?_, rfl⟩
            have hmem := hs.indexed.mpr ⟨slot, hslot, heligible.bucket, rfl⟩
            rw [storedIn, htrie] at hmem
            exact hmem
          rcases hdepth.eq_or_lt with heq | hlt
          · exact ⟨_, (mem_trieCandidates hs htrie hfound).mpr
              ⟨digest, slot, hslot, heligible, heq, rfl⟩, le_rfl⟩
          · obtain ⟨same, hmem, _⟩ := (selectCandidate_spec _).2 best hbest
            refine ⟨_, hmem, priority_le_iff.mpr (.inl ?_)⟩
            obtain ⟨_, _, _, _, heq, hc⟩ := (mem_trieCandidates hs htrie hfound).mp hmem
            rw [← (Prod.mk.inj hc).2]
            exact hlt.trans_eq heq.symm

/-- The trie with its fallback and the scan decide for entries of the same matched length, the same
tier and the same last use, whatever the orders in which they meet the entries. -/
structure Agrees (s : Inner δ π) (key : PromptCacheKey) (tokens : List Token) (o o' : HashOrder) :
    Prop where
  none_iff : s.winner o key tokens = none ↔
    s.selectBestByScan o' key tokens s.config.minPrefixTokens s.config.apcEnabled = none
  same : ∀ w w', s.winner o key tokens = some w →
    s.selectBestByScan o' key tokens s.config.minPrefixTokens s.config.apcEnabled = some w' →
    ∃ slot slot', s.entries.lookup w.digest = some slot ∧ s.entries.lookup w'.digest = some slot' ∧
      w.matched = w'.matched ∧ sameSession slot key = sameSession slot' key ∧
      s.lastUsed slot'.entry ≤ s.lastUsed slot.entry

/-- **The two selections agree** in every well-formed store. -/
theorem agrees_of_ok (hs : Ok none s) (key : PromptCacheKey) (tokens : List Token)
    (o o' : HashOrder) : Agrees s key tokens o o' := by
  obtain ⟨candidates, hwinner, hsub, hbound⟩ := winner_eq_selectCandidate hs o key tokens
  have hscan : ∀ c ∈ (o'.order s.entries.entries).filterMap
      (s.scanCandidate key tokens s.config.minPrefixTokens s.config.apcEnabled),
      ∃ c' ∈ candidates, Priority c ≤ Priority c' := by
    intro c hc
    obtain ⟨digest, slot, hslot, heligible, rfl⟩ := mem_scanCandidates.mp hc
    exact hbound digest slot hslot heligible
  have hcompare := priority_eq_of_selectCandidate
    (fun c hc => mem_scanCandidates.mpr (hsub c hc)) hscan
  rw [← hwinner] at hcompare
  refine ⟨hcompare.1, ?_⟩
  intro w w' hw hw'
  obtain ⟨same, same', hmem, hmem', hpriority⟩ := hcompare.2 w w' hw hw'
  obtain ⟨digest, slot, hslot, _, hc⟩ := hsub _ hmem
  obtain ⟨digest', slot', hslot', _, hc'⟩ := mem_scanCandidates.mp hmem'
  rw [← hc, ← hc'] at hpriority
  have hfields := Prod.mk.inj (toLex.injective hpriority)
  have hsession := Prod.mk.inj (toLex.injective hfields.2)
  rw [Prod.mk.injEq] at hc hc'
  refine ⟨slot, slot', ?_, ?_, ?_, hsession.1, hsession.2.ge⟩
  · rw [← hc.2]
    exact hslot
  · rw [← hc'.2]
    exact hslot'
  · rw [← hc.2, ← hc'.2]
    exact hfields.1

end Inner

/-! ## Lengths -/

/-- The chunks of a common prefix in whole blocks. -/
lemma chunks_take_of_le_commonPrefixLen {blockSize k : ℕ} (hpos : 0 < blockSize)
    {a b : List Token} (hk : k * blockSize ≤ commonPrefixLen a b) :
    chunks blockSize (b.take (k * blockSize)) = (chunks blockSize a).take k := by
  refine ext_getElem? fun j => ?_
  rcases Nat.lt_or_ge j k with hj | hj
  · have hblock : (j + 1) * blockSize ≤ k * blockSize := Nat.mul_le_mul_right _ hj
    rw [getElem?_take_of_lt hj]
    refine chunks_eq_of_take_eq hpos ?_
    rw [take_take, min_eq_left hblock]
    exact (le_commonPrefixLen_iff.mp (hblock.trans hk)).2.2.symm
  · have hblock : k * blockSize ≤ j * blockSize := Nat.mul_le_mul_right _ hj
    rw [getElem?_take_eq_none hj, getElem?_chunks hpos, if_neg]
    rw [length_take]
    omega

lemma takeWhile_zip_take {α : Type} [DecidableEq α] (l : List α) {k n : ℕ} (hk : k ≤ l.length)
    (hn : k ≤ n) :
    ((((l.take k).zip l).take n).takeWhile fun p => decide (p.1 = p.2)).length = k := by
  rw [take_of_length_le (by rw [length_zip, length_take]; omega)]
  exact (commonPrefixLen_eq_length_iff.mpr ( take_prefix k l)).trans (length_take_of_le hk)

variable {blockSize : ℕ}

/-- **The clamp.** Up to the common prefix all block hashes agree, so that only the incomplete
block at the end is cut off. -/
theorem apcConsistentPrefixLen_eq {entryTokens tokens : List Token} (hpos : 0 < blockSize)
    (algo : ApcHashAlgo) (extraHash : Digest) :
    apcConsistentPrefixLen tokens (blockHashChain entryTokens blockSize algo extraHash) blockSize
        algo extraHash (commonPrefixLen entryTokens tokens)
      = blockSize * (commonPrefixLen entryTokens tokens / blockSize) := by
  generalize hn : commonPrefixLen entryTokens tokens = n
  have hleft : n ≤ entryTokens.length := hn ▸ commonPrefixLen_le_left _ _
  have hright : n ≤ tokens.length := hn ▸ commonPrefixLen_le_right _ _
  have hmul : n / blockSize * blockSize ≤ n := Nat.div_mul_le_self _ _
  have hchain : ∀ l : List Token, blockHashChain l blockSize algo extraHash
      = HashChain.chain (apcHash algo) (apcBlockPreimage extraHash) .zero
        (chunks blockSize l) := by
    intro l
    rw [blockHashChain, if_neg hpos.ne']
  have hlen : n / blockSize ≤ (blockHashChain entryTokens blockSize algo extraHash).length := by
    rw [hchain, HashChain.length_chain, length_chunks]
    exact Nat.div_le_div_right (by omega)
  have hrequest : blockHashChain (tokens.take (n / blockSize * blockSize)) blockSize algo extraHash
      = (blockHashChain entryTokens blockSize algo extraHash).take (n / blockSize) := by
    rw [hchain, hchain, chunks_take_of_le_commonPrefixLen hpos (hmul.trans_eq hn.symm),
      HashChain.chain_take]
  rw [apcConsistentPrefixLen]
  split_ifs with hshort
  · rw [Nat.div_eq_of_lt (hshort.resolve_left hpos.ne')]
    rfl
  · simp only [min_eq_left hlen, min_eq_left (hmul.trans hright), hrequest]
    rw [length_take, min_eq_left hlen, min_self, takeWhile_zip_take _ hlen le_rfl]
    by_cases hzero : n / blockSize = 0
    · rw [if_pos hzero, hzero, Nat.mul_zero]
    · rw [if_neg hzero, Nat.mul_comm]

namespace Inner

/-- What a lookup may report about an entry. -/
structure Reports (config : PromptCacheConfig) (tokens : List Token) (entry : CacheEntry) (n : ℕ) :
    Prop where
  min_le : config.minPrefixTokens ≤ n
  le_entry : n ≤ entry.tokens.length
  le_request : n ≤ tokens.length
  take_eq : entry.tokens.take n = tokens.take n
  whole : config.apcEnabled = false → n = entry.tokens.length
  blocks : config.apcEnabled = true → entry.apcBlockHashes.isSome →
    n = config.apc.blockSize * (commonPrefixLen entry.tokens tokens / config.apc.blockSize)

variable {s : Inner δ π} {key : PromptCacheKey} {tokens : List Token}

variable {o : HashOrder}

/-- The winner is an eligible entry with its common prefix. -/
lemma eligible_of_winner (hs : Ok none s) {w : BestCandidate}
    (hw : s.winner o key tokens = some w) :
    ∃ slot, s.entries.lookup w.digest = some slot ∧ Eligible s key tokens slot ∧
      w.matched = commonPrefixLen slot.entry.tokens tokens := by
  obtain ⟨candidates, hwinner, hsub, _⟩ := winner_eq_selectCandidate hs o key tokens
  obtain ⟨same, hmem, _⟩ := (selectCandidate_spec candidates).2 w (hwinner.symm.trans hw)
  obtain ⟨digest, slot, hslot, heligible, hc⟩ := hsub _ hmem
  rw [Prod.mk.injEq] at hc
  rw [← hc.2]
  exact ⟨slot, hslot, heligible, rfl⟩

/-- The verified length of an eligible entry. -/
lemma reports_verifiedLen (hs : Ok none s) {digest : PromptCacheKeyDigest} {slot : EntrySlot}
    (hslot : s.entries.lookup digest = some slot) (heligible : Eligible s key tokens slot)
    (hmin : s.config.minPrefixTokens ≤ verifiedLen s.config key tokens slot.entry
      (commonPrefixLen slot.entry.tokens tokens)) :
    Reports s.config tokens slot.entry (verifiedLen s.config key tokens slot.entry
      (commonPrefixLen slot.entry.tokens tokens)) := by
  cases hapc : s.config.apcEnabled with
  | false =>
    have hall := commonPrefixLen_eq_length_iff.mpr (heligible.contained hapc)
    have hverified : verifiedLen s.config key tokens slot.entry
        (commonPrefixLen slot.entry.tokens tokens) = commonPrefixLen slot.entry.tokens tokens := by
      rw [verifiedLen, hapc]
      rfl
    rw [hverified] at hmin ⊢
    exact ⟨hmin, commonPrefixLen_le_left _ _, commonPrefixLen_le_right _ _,
      take_commonPrefixLen _ _, fun _ => hall, by simp [hapc]⟩
  | true =>
    have hpos : 0 < s.config.apc.blockSize := by
      simp only [PromptCacheConfig.apcEnabled, ApcConfig.isEnabled, Bool.and_eq_true,
        decide_eq_true_eq] at hapc
      exact hapc.2.2
    have hextra : slot.sessionless.mmDigest = key.mmDigest := by
      rw [heligible.bucket]
      rfl
    have hverified : verifiedLen s.config key tokens slot.entry
        (commonPrefixLen slot.entry.tokens tokens) = s.config.apc.blockSize
          * (commonPrefixLen slot.entry.tokens tokens / s.config.apc.blockSize) := by
      rw [verifiedLen, hapc, hs.hashed hapc hslot, hextra]
      exact apcConsistentPrefixLen_eq hpos _ _
    rw [hverified] at hmin ⊢
    have hle := Nat.mul_div_le (commonPrefixLen slot.entry.tokens tokens) s.config.apc.blockSize
    obtain ⟨hentry, hrequest, htake⟩ := le_commonPrefixLen_iff.mp hle
    exact ⟨hmin, hentry, hrequest, htake, by simp [hapc], fun _ _ => rfl⟩

/-- **A lookup never over-claims** in a well-formed store. -/
theorem reports_of_ok (hs : Ok none s) {now touched : Instant} {entry : CacheEntry} {n : ℕ}
    (h : (s.lookupLongestPrefix o key tokens now touched).1 = some (entry, n)) :
    Reports s.config tokens entry n := by
  have hkeeps := upkeep_keeps.sweepForLookup o now s
  have hok := hkeeps.ok hs
  rw [← hkeeps.config_eq]
  rw [lookupLongestPrefix] at h
  split_ifs at h
  generalize s.sweepForLookup o now = t at h hok ⊢
  cases htrie : t.tries.lookup (.fromKey key) with
  | none => simp [htrie] at h
  | some trie =>
    have hwinner : t.winner o key tokens = t.bestCandidate o trie key tokens := by
      rw [winner, htrie]
      rfl
    simp only [htrie, ← hwinner] at h
    cases hw : t.winner o key tokens with
    | none => simp [hw] at h
    | some w =>
      obtain ⟨slot, hslot, heligible, hmatched⟩ := eligible_of_winner hok hw
      simp only [hw, hslot, hmatched] at h
      split_ifs at h with hmin
      rw [some.injEq, Prod.mk.injEq] at h
      rw [← h.1, ← h.2]
      exact reports_verifiedLen hok hslot heligible (Nat.le_of_not_lt hmin)

end Inner

namespace World

open Mlxcel.PromptCache.Inner

/-- **Lookups** equal brute force and never over-claim. After every sequence of calls, in the state
and in what the sweep of a lookup leaves of it, the trie with its fallback agrees with the scan; and
what a lookup reports is a common prefix of entry and request of at least the minimum, the whole
entry without automatic prefix caching and all whole blocks of the common prefix with it. -/
theorem lookup_exact (config : PromptCacheConfig) (ops : List (Op δ π)) (key : PromptCacheKey)
    (tokens : List Token) :
    (∀ o o', Agrees (run config ops).inner key tokens o o') ∧
      (∀ sweep now o o', Agrees ((run config ops).inner.sweepForLookup sweep now) key tokens o o') ∧
      ∀ o now touched entry n,
        ((run config ops).inner.lookupLongestPrefix o key tokens now touched).1 = some (entry, n) →
        Reports config tokens entry n := by
  have hok := (conserved_run config ops).ok
  refine ⟨agrees_of_ok hok key tokens, ?_, ?_⟩
  · intro sweep now
    exact agrees_of_ok ((upkeep_keeps.sweepForLookup sweep now _).ok hok) key tokens
  · intro o now touched entry n h
    rw [← (conserved_run config ops).config_eq]
    exact reports_of_ok hok h

/-- After the replacement, the adoption and the eviction, the entry that is left serves the first token
of a longer request. -/
theorem lookup_exact_replacingRun :
    ((run hugeConfig replacingRun).inner.lookupLongestPrefix insertionOrder (oneKey 1) [1, 2] 0
        0).1 = some (⟨[1], 6, none, 1⟩, 1) ∧
      Reports hugeConfig [1, 2] ⟨[1], 6, none, 1⟩ 1 := by
  have h : ((run hugeConfig replacingRun).inner.lookupLongestPrefix insertionOrder (oneKey 1)
      [1, 2] 0 0).1 = some (⟨[1], 6, none, 1⟩, 1) := by decide +kernel
  exact ⟨h, (lookup_exact hugeConfig replacingRun (oneKey 1) [1, 2]).2.2 insertionOrder 0 0 _ _ h⟩

end World

end Mlxcel.PromptCache
