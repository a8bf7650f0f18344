import Mlxcel.ToolCalls.Parser

/-!
# What the stripping leaves, position by position

`strip_thinking` cuts in four passes, each over what the one before left. Here the same text is
described without the passes, by which positions of a text are reasoning:

* `Primed` — a position up to the end of a closing marker that nothing before it opened or closed;
* `InBlock` — a position behind an opening marker whose closing marker does not end before it;
* `kept` — the symbols at the positions of a predicate;
* **`stripThinking_eq_shown`** — what is left is what stands outside of both, first for `<think>`
  and then for `<|channel>`.

The markers of the two families start with `<` and have no second `<`, so none overlaps another
(`HeadOnly.apart`).
-/

namespace Mlxcel.ToolCalls

open Str

/-! ## Symbols at chosen positions -/

section Kept

variable {α : Type}

open Classical in
/-- The symbols of a text at the positions that satisfy `p`. -/
noncomputable def kept (p : ℕ → Prop) : List α → List α
  | [] => []
  | a :: s => (if p 0 then [a] else []) ++ kept (fun i => p (i + 1)) s

variable {p q : ℕ → Prop} {s t : List α}

lemma kept_append : kept p (s ++ t) = kept p s ++ kept (fun i => p (i + s.length)) t := by
  induction s generalizing p with
  | nil => simp [kept]
  | cons a s ih => simp [kept, ih, Nat.add_assoc]

lemma kept_split {n : ℕ} (hn : n ≤ s.length) :
    kept p s = kept p (s.take n) ++ kept (fun i => p (i + n)) (s.drop n) := by
  conv_lhs => rw [← List.take_append_drop n s, kept_append, List.length_take_of_le hn]

lemma kept_of_forall (h : ∀ i < s.length, p i) : kept p s = s := by
  induction s generalizing p with
  | nil => rfl
  | cons a s ih =>
    have htail : kept (fun i => p (i + 1)) s = s := ih fun i hi => h (i + 1) (by simpa using hi)
    rw [kept, if_pos (h 0 (by simp)), htail, List.singleton_append]

lemma kept_of_forall_not (h : ∀ i < s.length, ¬ p i) : kept p s = [] := by
  induction s generalizing p with
  | nil => rfl
  | cons a s ih =>
    have htail : kept (fun i => p (i + 1)) s = [] := ih fun i hi => h (i + 1) (by simpa using hi)
    rw [kept, if_neg (h 0 (by simp)), htail, List.nil_append]

lemma kept_congr (h : ∀ i, p i ↔ q i) : kept p s = kept q s := by
  have hpq : p = q := funext fun i => propext (h i)
  rw [hpq]

end Kept

/-! ## Markers that do not overlap -/

/-- The word starts with `a` and has no second `a`. -/
def HeadOnly (a : Char) (word : List Char) : Prop := ∃ rest, word = a :: rest ∧ a ∉ rest

section Apart

variable {a : Char} {v w text : List Char} {i j : ℕ}

lemma getElem?_of_isPrefix_drop (h : w <+: text.drop i) {k : ℕ} (hk : k < w.length) :
    text[i + k]? = some w[k] := by
  obtain ⟨r, hr⟩ := h
  rw [← List.getElem?_drop, ← hr, List.getElem?_append_left hk, List.getElem?_eq_getElem hk]

/-- A word that starts with `a` does not start inside another one. -/
lemma HeadOnly.apart (hv : HeadOnly a v) (hw : HeadOnly a w) (hi : v <+: text.drop i)
    (hj : w <+: text.drop j) (hij : i < j) : i + v.length ≤ j := by
  by_contra hlt
  obtain ⟨restV, rfl, hnot⟩ := hv
  obtain ⟨restW, rfl, -⟩ := hw
  obtain ⟨d, rfl⟩ : ∃ d, j = i + (d + 1) := ⟨j - i - 1, by omega⟩
  rw [List.length_cons, not_le] at hlt
  have hd : d < restV.length := by omega
  have hhead : text[i + (d + 1) + 0]? = some a := getElem?_of_isPrefix_drop hj (Nat.succ_pos _)
  have hinside : text[i + (d + 1)]? = some restV[d] :=
    getElem?_of_isPrefix_drop hi (Nat.succ_lt_succ hd)
  have heq : restV[d] = a := Option.some.inj (hinside.symm.trans hhead)
  exact hnot (heq ▸ List.getElem_mem hd)

end Apart

/-! ## Positions of reasoning -/

section Positions

variable (tagOpen tagClose text : List Char)

/-- An opening marker stands at or before position `i`, and no closing marker behind it ends
before `i`. -/
def InBlock (i : ℕ) : Prop :=
  ∃ j ≤ i, tagOpen <+: text.drop j ∧
    ∀ k ≥ j, tagClose <+: text.drop k → i < k + tagClose.length

/-- Position `i` is up to the end of a closing marker that no marker of its family comes before. -/
def Primed (i : ℕ) : Prop :=
  ∃ k, tagClose <+: text.drop k ∧ i < k + tagClose.length ∧
    ∀ j < k, ¬ tagOpen <+: text.drop j ∧ ¬ tagClose <+: text.drop j

/-- The text behind a block that the prompt opened. -/
noncomputable def behindPrimed : List Char := kept (fun i => ¬ Primed tagOpen tagClose text i) text

/-- The text outside of the blocks. -/
noncomputable def outsideBlocks : List Char := kept (fun i => ¬ InBlock tagOpen tagClose text i) text

end Positions

variable {a : Char} {tagOpen tagClose : List Char}

/-- Behind a closing marker the blocks are those of the text behind it. -/
lemma inBlock_drop_iff {text : List Char} {close i : ℕ} (hopen : HeadOnly a tagOpen)
    (hclose : HeadOnly a tagClose) (hclosing : tagClose <+: text.drop close) :
    InBlock tagOpen tagClose text (i + (close + tagClose.length)) ↔
      InBlock tagOpen tagClose (text.drop (close + tagClose.length)) i := by
  simp only [InBlock, List.drop_drop]
  constructor
  · rintro ⟨j, hji, hat, hopened⟩
    have hbehind : close < j := by
      by_contra hle
      have := hopened close (by omega) hclosing
      omega
    have hend : close + tagClose.length ≤ j := hclose.apart hopen hclosing hat hbehind
    refine ⟨j - (close + tagClose.length), by omega, ?_, ?_⟩
    · rwa [Nat.add_sub_cancel' hend]
    · intro k hk hclosed
      have := hopened (close + tagClose.length + k) (by omega) hclosed
      omega
  · rintro ⟨j, hji, hat, hopened⟩
    refine ⟨close + tagClose.length + j, by omega, hat, ?_⟩
    intro k hk hclosed
    have := hopened (k - (close + tagClose.length)) (by omega)
      (by rwa [Nat.add_sub_cancel' (by omega)])
    omega

/-- Of a stretch that ends in a block, what stands before the block is outside. -/
lemma kept_take {text : List Char} {start n : ℕ} (hn : start ≤ n) (hlen : n ≤ text.length)
    (hfirst : ∀ j < start, ¬ tagOpen <+: text.drop j)
    (hblock : ∀ i, start ≤ i → i < n → InBlock tagOpen tagClose text i) :
    kept (fun i => ¬ InBlock tagOpen tagClose text i) (text.take n) = text.take start := by
  have hcut : start ≤ (text.take n).length := by rw [List.length_take_of_le hlen]; exact hn
  have hbefore : kept (fun i => ¬ InBlock tagOpen tagClose text i) ((text.take n).take start) =
      (text.take n).take start := by
    refine kept_of_forall fun i hi => ?_
    rw [List.length_take_of_le hcut] at hi
    rintro ⟨j, hji, hopen, -⟩
    exact hfirst j (hji.trans_lt hi) hopen
  have hinside : kept (fun i => ¬ InBlock tagOpen tagClose text (i + start))
      ((text.take n).drop start) = [] := by
    refine kept_of_forall_not fun i hi hout => hout (hblock _ (Nat.le_add_left _ _) ?_)
    rw [List.length_drop, List.length_take_of_le hlen] at hi
    omega
  rw [kept_split hcut, hbefore, hinside, List.append_nil, List.take_take, Nat.min_eq_left hn]

lemma stripBalanced_closed {text : List Char} {start e : ℕ} (hne : tagClose ≠ [])
    (hstart : find tagOpen text = some start) (hend : find tagClose (text.drop start) = some e) :
    stripBalanced tagOpen tagClose hne text = text.take start ++
      stripBalanced tagOpen tagClose hne (text.drop (start + e + tagClose.length)) := by
  rw [stripBalanced, hstart]
  dsimp only
  split
  next e' hend' =>
    obtain rfl : e = e' := Option.some.inj (hend.symm.trans hend')
    rfl
  next hend' => exact absurd (hend.symm.trans hend') (by simp)

lemma stripBalanced_unclosed {text : List Char} {start : ℕ} (hne : tagClose ≠ [])
    (hstart : find tagOpen text = some start) (hend : find tagClose (text.drop start) = none) :
    stripBalanced tagOpen tagClose hne text = text.take start := by
  rw [stripBalanced, hstart]
  dsimp only
  split
  next hend' => exact absurd (hend.symm.trans hend') (by simp)
  next => rfl

/-- **The blocks go.** -/
lemma stripBalanced_eq (hopen : HeadOnly a tagOpen) (hclose : HeadOnly a tagClose)
    (hne : tagClose ≠ []) (text : List Char) :
    stripBalanced tagOpen tagClose hne text = outsideBlocks tagOpen tagClose text := by
  induction text using stripBalanced.induct tagOpen tagClose hne with
  | case1 text hnone =>
    rw [stripBalanced, hnone]
    refine (kept_of_forall fun i hi => ?_).symm
    rintro ⟨j, hji, hat, -⟩
    exact find_eq_none.mp hnone j (hji.trans hi.le) hat
  | case2 text start hstart e hend ih =>
    obtain ⟨-, hat, hfirst⟩ := find_eq_some.mp hstart
    obtain ⟨-, hclosing, hbefore⟩ := find_eq_some.mp hend
    rw [List.drop_drop] at hclosing
    have hle := find_add_length_le hend
    rw [List.length_drop] at hle
    have hpos := List.length_pos_of_ne_nil hne
    have hbehind : outsideBlocks tagOpen tagClose (text.drop (start + e + tagClose.length)) =
        kept (fun i => ¬ InBlock tagOpen tagClose text (i + (start + e + tagClose.length)))
          (text.drop (start + e + tagClose.length)) :=
      kept_congr fun i => not_congr (inBlock_drop_iff hopen hclose hclosing).symm
    have hblock : ∀ i, start ≤ i → i < start + e + tagClose.length →
        InBlock tagOpen tagClose text i := by
      intro i hi hlt
      refine ⟨start, hi, hat, fun k hk hclosed => ?_⟩
      -- the closing marker that was found is the first one behind the opening marker
      have hlater : ¬ k - start < e := by
        intro hk'
        refine hbefore (k - start) hk' ?_
        rwa [List.drop_drop, Nat.add_sub_cancel' hk]
      omega
    rw [stripBalanced_closed hne hstart hend, ih, hbehind, outsideBlocks,
      kept_split (show start + e + tagClose.length ≤ text.length by omega),
      kept_take (by omega) (by omega) hfirst hblock]
  | case3 text start hstart hend =>
    obtain ⟨hle, hat, hfirst⟩ := find_eq_some.mp hstart
    have hblock : ∀ i, start ≤ i → i < text.length → InBlock tagOpen tagClose text i := by
      intro i hi _
      refine ⟨start, hi, hat, fun k hk hclosed => ?_⟩
      have hin : ¬ k - start ≤ (text.drop start).length := by
        intro hk'
        refine find_eq_none.mp hend (k - start) hk' ?_
        rwa [List.drop_drop, Nat.add_sub_cancel' hk]
      rw [List.length_drop] at hin
      omega
    have hkept := kept_take hle le_rfl hfirst hblock
    rw [List.take_length] at hkept
    rw [stripBalanced_unclosed hne hstart hend, outsideBlocks, hkept]

/-- The closing marker of a primed block is the first one, and no opening marker comes before it. -/
lemma primed_iff {text : List Char} {closePos : ℕ}
    (hfind : find tagClose text = some closePos) (i : ℕ) :
    Primed tagOpen tagClose text i ↔
      i < closePos + tagClose.length ∧ ∀ j < closePos, ¬ tagOpen <+: text.drop j := by
  obtain ⟨-, hat, hfirst⟩ := find_eq_some.mp hfind
  constructor
  · rintro ⟨k, hclosed, hi, hnothing⟩
    obtain rfl : k = closePos := by
      rcases lt_trichotomy k closePos with hlt | heq | hgt
      · exact absurd hclosed (hfirst k hlt)
      · exact heq
      · exact absurd hat (hnothing closePos hgt).2
    exact ⟨hi, fun j hj => (hnothing j hj).1⟩
  · rintro ⟨hi, hunopened⟩
    exact ⟨closePos, hat, hi, fun j hj => ⟨hunopened j hj, hfirst j hj⟩⟩

/-- The text before a closing marker contains an opening marker if one starts there. -/
lemma contains_take_iff (hopen : HeadOnly a tagOpen) (hclose : HeadOnly a tagClose)
    {text : List Char} {closePos : ℕ} (hat : tagClose <+: text.drop closePos) :
    contains tagOpen (text.take closePos) = true ↔
      ∃ j < closePos, tagOpen <+: text.drop j := by
  constructor
  · intro hin
    obtain ⟨j, hj⟩ := Option.isSome_iff_exists.mp hin
    obtain ⟨-, hpre, -⟩ := find_eq_some.mp hj
    rw [List.drop_take, List.prefix_take_iff] at hpre
    obtain ⟨rest, rfl, -⟩ := hopen
    refine ⟨j, ?_, hpre.1⟩
    have := hpre.2
    rw [List.length_cons] at this
    omega
  · rintro ⟨j, hj, hpre⟩
    have hend := hopen.apart hclose hpre hat hj
    have hwithin : tagOpen <+: (text.take closePos).drop j := by
      rw [List.drop_take, List.prefix_take_iff]
      exact ⟨hpre, by omega⟩
    exact contains_iff_isInfix.mpr (hwithin.isInfix.trans (List.drop_suffix _ _).isInfix)

/-- **A primed block goes.** -/
lemma stripPrimed_eq (hopen : HeadOnly a tagOpen) (hclose : HeadOnly a tagClose)
    (text : List Char) :
    stripPrimed tagOpen tagClose text = behindPrimed tagOpen tagClose text := by
  rw [stripPrimed]
  cases hfind : find tagClose text with
  | none =>
    refine (kept_of_forall fun i _ => ?_).symm
    rintro ⟨k, hat, -, -⟩
    have hin : tagClose <:+: text := hat.isInfix.trans (List.drop_suffix _ _).isInfix
    rw [← contains_iff_isInfix, contains, hfind] at hin
    exact absurd hin (by simp)
  | some closePos =>
    obtain ⟨-, hat, -⟩ := find_eq_some.mp hfind
    have hlen := find_add_length_le hfind
    dsimp only
    split_ifs with hopened
    · obtain ⟨j, hj, hpre⟩ := (contains_take_iff hopen hclose hat).mp hopened
      refine (kept_of_forall fun i _ hprimed => ?_).symm
      exact ((primed_iff hfind i).mp hprimed).2 j hj hpre
    · rw [contains_take_iff hopen hclose hat] at hopened
      push Not at hopened
      have hbefore : kept (fun i => ¬ Primed tagOpen tagClose text i)
          (text.take (closePos + tagClose.length)) = [] := by
        refine kept_of_forall_not fun i hi hout => hout ((primed_iff hfind i).mpr ⟨?_, hopened⟩)
        rwa [List.length_take_of_le hlen] at hi
      have hbehind : kept (fun i => ¬ Primed tagOpen tagClose text
          (i + (closePos + tagClose.length))) (text.drop (closePos + tagClose.length)) =
          text.drop (closePos + tagClose.length) := by
        refine kept_of_forall fun i _ hprimed => ?_
        have := ((primed_iff hfind _).mp hprimed).1
        omega
      rw [behindPrimed, kept_split hlen, hbefore, hbehind, List.nil_append]

/-! ## The stripped text -/

/-- What is shown of a text: primed blocks and blocks of the two families are left out. -/
noncomputable def shown (text : List Char) : List Char :=
  outsideBlocks channelOpen channelClose <| outsideBlocks thinkOpen thinkClose <|
    behindPrimed channelOpen channelClose <| behindPrimed thinkOpen thinkClose text

lemma headOnly_thinkOpen : HeadOnly '<' thinkOpen := ⟨_, rfl, by decide⟩

lemma headOnly_thinkClose : HeadOnly '<' thinkClose := ⟨_, rfl, by decide⟩

lemma headOnly_channelOpen : HeadOnly '<' channelOpen := ⟨_, rfl, by decide⟩

lemma headOnly_channelClose : HeadOnly '<' channelClose := ⟨_, rfl, by decide⟩

/-- **What is stripped is what is reasoning.** -/
theorem stripThinking_eq_shown (text : List Char) : stripThinking text = shown text := by
  rw [stripThinking, stripPrimed_eq headOnly_thinkOpen headOnly_thinkClose,
    stripPrimed_eq headOnly_channelOpen headOnly_channelClose,
    stripBalanced_eq headOnly_thinkOpen headOnly_thinkClose,
    stripBalanced_eq headOnly_channelOpen headOnly_channelClose]
  rfl

end Mlxcel.ToolCalls
