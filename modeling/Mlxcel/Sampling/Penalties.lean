import Mlxcel.Token
import Mathlib.Data.Finset.Sort

/-!
# The incremental penalty state

`SamplerState::sync` looks at one token of a history, at the end of what it absorbed before. A
history with the same token there is taken to go on from the one before, whatever stands in front of
it. `tracksAll_iff` says which histories may follow each other.
-/

namespace Mlxcel.Sampling

open List

/-- What `sync` works on. The flags are set by `for_config` and stay. A token without an entry has
the count zero. -/
structure SamplerState (trackSeen trackCounts : Bool) where
  seenSorted : List Token := []
  counts : Token → ℕ := fun _ => 0
  absorbedLen : ℕ := 0
  tipToken : Token := 0

namespace SamplerState

variable {trackSeen trackCounts : Bool}

section

variable (s : SamplerState trackSeen trackCounts) (history : List Token)

/-- `binary_search` finds the one place of a new token in a sorted list. -/
def absorbOne (token : Token) : SamplerState trackSeen trackCounts :=
  { s with
    seenSorted :=
      if trackSeen ∧ token ∉ s.seenSorted then s.seenSorted.orderedInsert (· ≤ ·) token
      else s.seenSorted
    counts := if trackCounts then Function.update s.counts token (s.counts token + 1) else s.counts }

def rebuild : SamplerState trackSeen trackCounts :=
  { (history.foldl absorbOne {} : SamplerState trackSeen trackCounts) with
    absorbedLen := history.length
    tipToken := history.getLast?.getD 0 }

def sync : SamplerState trackSeen trackCounts :=
  let tipMatches := s.absorbedLen = 0 ∨
    s.absorbedLen ≤ history.length ∧ history[s.absorbedLen - 1]? = some s.tipToken
  if history.length < s.absorbedLen ∨ ¬ tipMatches then rebuild history
  else
    { (history.drop s.absorbedLen).foldl absorbOne s with
      absorbedLen := history.length
      tipToken := history.getLast?.getD s.tipToken }

/-- **As after a rebuild**: what is tracked is the sorted set of the tokens of the history, and how
often each occurs. -/
structure Tracks : Prop where
  seen : trackSeen = true → s.seenSorted = history.toFinset.sort
  counts : trackCounts = true → s.counts = fun t => history.count t

/-- The state also knows where the history ended. -/
structure Absorbed : Prop extends Tracks s history where
  absorbedLen : s.absorbedLen = history.length
  tipToken : history ≠ [] → history.getLast? = some s.tipToken

end

/-- Every sync leaves the state as after a rebuild. -/
def TracksAll : SamplerState trackSeen trackCounts → List (List Token) → Prop
  | _, [] => True
  | s, history :: histories =>
    Tracks (s.sync history) history ∧ TracksAll (s.sync history) histories

variable (trackSeen trackCounts) in
/-- The history goes on from the one before, or the token at the end of that one is another, or the
tokens that were absorbed make up for those in front, as far as they are tracked. -/
def Follows (before history : List Token) : Prop :=
  history[before.length - 1]? = before.getLast? →
    let absorbed := before ++ history.drop before.length
    (trackSeen = true → absorbed.toFinset = history.toFinset) ∧
      (trackCounts = true → absorbed.Perm history)

variable {s : SamplerState trackSeen trackCounts} {before : List Token}

lemma Tracks.absorbOne (h : Tracks s before) (token : Token) :
    Tracks (s.absorbOne token) (before ++ [token]) := by
  refine ⟨fun hseen => ?_, fun hcounts => ?_⟩
  · have htoken : (before ++ [token]).toFinset = insert token before.toFinset := by simp
    simp only [SamplerState.absorbOne, hseen, h.seen hseen, htoken]
    split_ifs with hnew
    · have hnodup := Finset.sort_nodup before.toFinset (· ≤ ·)
      have hsorted := (toFinset_sort (· ≤ ·) ((perm_orderedInsert (· ≤ ·) token _).nodup_iff.mpr
        (nodup_cons.mpr ⟨hnew.2, hnodup⟩))).mpr ((Finset.pairwise_sort _ _).orderedInsert _ _)
      rw [← hsorted, toFinset_eq_of_perm _ _ (perm_orderedInsert _ _ _), toFinset_cons,
        Finset.sort_toFinset]
    · rw [Finset.insert_eq_of_mem (by simpa using hnew)]
  · funext t
    simp only [SamplerState.absorbOne, hcounts, if_true, h.counts hcounts, Function.update_apply]
    grind

lemma tracks_empty : Tracks ({} : SamplerState trackSeen trackCounts) [] := ⟨by simp, by simp⟩

/-- Tokens that are absorbed are appended to what is tracked. -/
lemma Tracks.foldl (h : Tracks s before) (tokens : List Token) :
    Tracks (tokens.foldl SamplerState.absorbOne s) (before ++ tokens) := by
  induction tokens generalizing s before with
  | nil => simpa using h
  | cons token tokens ih => simpa using ih (h.absorbOne token)

/-- Two histories are tracked alike exactly if their tokens are the same. -/
lemma Tracks.iff (h : Tracks s before) (history : List Token) : Tracks s history ↔
    (trackSeen = true → before.toFinset = history.toFinset) ∧
      (trackCounts = true → before.Perm history) := by
  constructor
  · intro htracks
    refine ⟨fun hseen => ?_, fun hcounts => perm_iff_count.mpr fun t => ?_⟩
    · rw [← before.toFinset.sort_toFinset (· ≤ ·), ← h.seen hseen, htracks.seen hseen,
        Finset.sort_toFinset]
    · exact congrFun ((h.counts hcounts).symm.trans (htracks.counts hcounts)) t
  · rintro ⟨hset, hperm⟩
    refine ⟨fun hseen => ?_, fun hcounts => ?_⟩
    · rw [h.seen hseen, hset hseen]
    · rw [h.counts hcounts]
      exact funext (hperm hcounts).count_eq

/-- **One sync.** -/
lemma Absorbed.sync (h : Absorbed s before) (history : List Token) :
    (Tracks (s.sync history) history ↔ Follows trackSeen trackCounts before history) ∧
      (s.sync history).absorbedLen = history.length ∧
      (history ≠ [] → history.getLast? = some (s.sync history).tipToken) := by
  have htip : ∀ last, history ≠ [] → history.getLast? = some (history.getLast?.getD last) := by
    intro last hne
    rw [getLast?_eq_some_getLast hne, Option.getD_some]
  have hdiverged : (history.length < s.absorbedLen ∨ ¬ (s.absorbedLen = 0 ∨
      s.absorbedLen ≤ history.length ∧ history[s.absorbedLen - 1]? = some s.tipToken)) ↔
      ¬ (before = [] ∨ history[before.length - 1]? = before.getLast?) := by
    rw [h.absorbedLen]
    by_cases hne : before = []
    · simp [hne]
    · rw [h.tipToken hne, length_eq_zero_iff]
      grind
  simp only [SamplerState.sync, hdiverged]
  split_ifs with hsame
  · -- the tail is absorbed
    have hiff := (h.toTracks.foldl (history.drop s.absorbedLen)).iff history
    refine ⟨⟨fun htracks _ => ?_, fun hfollows => ?_⟩, rfl, htip _⟩
    · rw [← h.absorbedLen]
      exact hiff.mp ⟨htracks.1, htracks.2⟩
    · obtain ⟨hseen, hcounts⟩ := hiff.mpr (by
        rw [h.absorbedLen]
        rcases hsame with rfl | hlast
        · simp
        · exact hfollows hlast)
      exact ⟨hseen, hcounts⟩
  · -- the state is rebuilt
    obtain ⟨hseen, hcounts⟩ := tracks_empty.foldl history
    exact ⟨iff_of_true ⟨hseen, hcounts⟩ fun hlast => absurd (.inr hlast) hsame, rfl, htip 0⟩

/-- **The penalty state equals a rebuild** after every sync exactly if each history follows the one
before it. -/
theorem tracksAll_iff (trackSeen trackCounts : Bool) (histories : List (List Token)) :
    TracksAll ({} : SamplerState trackSeen trackCounts) histories ↔
      ([] :: histories).IsChain (Follows trackSeen trackCounts) := by
  have hrun : ∀ (s : SamplerState trackSeen trackCounts) before, Absorbed s before →
      (TracksAll s histories ↔ (before :: histories).IsChain (Follows trackSeen trackCounts)) := by
    induction histories with
    | nil => simp [TracksAll]
    | cons history histories ih =>
      intro s before h
      obtain ⟨hiff, hlen, htip⟩ := h.sync history
      rw [TracksAll, isChain_cons_cons, hiff]
      exact and_congr_right fun hfollows => ih _ history ⟨hiff.mpr hfollows, hlen, htip⟩
  exact hrun _ [] ⟨tracks_empty, rfl, by simp⟩

/-- The history 1, 2 is replaced by 3, 2: the token 1 stays, and 3 is not seen. -/
theorem not_tracksAll : ¬ TracksAll ({} : SamplerState true true) [[1, 2], [3, 2]] := by
  rintro ⟨-, h, -⟩
  exact absurd (congrFun (h.counts rfl) 3) (by decide)

end SamplerState

end Mlxcel.Sampling
