import Mathlib.Data.List.Infix

/-!
# Matching tensor keys with captures

A wildcard pattern is cut into the literals around its `*`s. A match needs the first literal in
front, the last one at the end, and those between them one after the other: `match_interior` takes
the first place for each. A later place leaves less text, so it can never help, and the retries are
all in vain. They go on one byte after the place that failed, and this panics inside a character.
-/

namespace Mlxcel.Surgery

open List

/-- A pattern as its literals; the source keeps the text of the pattern for its messages. -/
structure WildcardPattern where
  literals : List (List Char)

namespace WildcardPattern

def parse (s : List Char) : WildcardPattern := ⟨s.splitOn '*'⟩

def wildcardCount (p : WildcardPattern) : ℕ := p.literals.length - 1

def renderLiterals : List (List Char) → List (List Char) → List Char
  | [], _ => []
  | lit :: literals, captures =>
    lit ++ (captures.headD [] ++ renderLiterals literals captures.tail)

def render (p : WildcardPattern) (captures : List (List Char)) : List Char :=
  renderLiterals p.literals captures

/-- What a match leaves behind, `none` for a panic: whether it succeeded, and the captures. -/
abbrev Outcome := Option (Bool × List (List Char))

/-- The loop over the places of `lit`: `before` is what has been searched, and `next` matches what
follows a place. -/
def search (next : List Char → List (List Char) → Outcome) (lit before : List Char) :
    List Char → List (List Char) → Outcome
  | [], captures => some (false, captures)
  | c :: rest, captures =>
    if lit <+: c :: rest then
      match next ((c :: rest).drop lit.length) (captures ++ [before]) with
      | some (false, captures) =>
        -- the next slice starts one byte after this place
        if c.utf8Size = 1 then search next lit (before ++ [c]) rest captures.dropLast else none
      | outcome => outcome
    else search next lit (before ++ [c]) rest captures

def matchInterior : List (List Char) → List Char → List (List Char) → Outcome
  | [], text, captures => some (true, captures ++ [text])
  | lit :: interior, text, captures =>
    if lit = [] then matchInterior interior text (captures ++ [[]])
    else search (matchInterior interior) lit [] text captures

def matchWithCaptures (p : WildcardPattern) (text : List Char) :
    Option (Option (List (List Char))) :=
  match p.literals with
  | [] => some (if text = [] then some [] else none)
  | first :: literals =>
    if first <+: text then
      let remaining := text.drop first.length
      match literals.getLast? with
      | none => some (if remaining = [] then some [] else none)
      | some last =>
        if last <:+ remaining then
          let middle := remaining.take (remaining.length - last.length)
          if literals.length = 1 then some (some [middle])
          else (matchInterior literals.dropLast middle []).map fun (found, captures) =>
            if found then some captures else none
        else some none
    else some none

/-- One string for each wildcard, such that the pattern becomes the text. -/
def IsCapture (p : WildcardPattern) (text : List Char) (captures : List (List Char)) : Prop :=
  captures.length = p.wildcardCount ∧ p.render captures = text

/-- The matcher returns captures of the text, or nothing and there are none. -/
def Correct (p : WildcardPattern) (text : List Char) : Prop :=
  match p.matchWithCaptures text with
  | some (some captures) => p.IsCapture text captures
  | some none => ∀ captures, ¬ p.IsCapture text captures
  | none => False

/-- The literals occur in the text one after the other, between captures. -/
def Found (interior : List (List Char)) (text : List Char) : Prop :=
  ∃ c cs, cs.length = interior.length ∧ c ++ renderLiterals interior cs = text

/-- The literal occurs in the text with such a rest. -/
def Occurs (lit : List Char) (Q : List Char → Prop) (text : List Char) : Prop :=
  ∃ a b, a ++ (lit ++ b) = text ∧ Q b

/-- The literal starts with a character of several bytes. -/
def Wide (lit : List Char) : Prop := ∃ c ∈ lit.head?, c.utf8Size ≠ 1

/-- A literal that starts with a character of several bytes occurs after the ones before it. -/
def Trapped : List (List Char) → List Char → Prop
  | [], _ => False
  | lit :: interior, text => Occurs lit (fun rest => Wide lit ∨ Trapped interior rest) text

variable {lit first last before text b : List Char} {interior captures cs : List (List Char)}

section Occurrences

variable {rest : List Char} {Q : List Char → Prop} {c : Char}

lemma Occurs.append (a : List Char) (h : Occurs lit Q b) : Occurs lit Q (a ++ b) := by
  obtain ⟨u, v, rfl, hQ⟩ := h
  exact ⟨a ++ u, v, append_assoc .., hQ⟩

/-- The first place of a literal is as good as any. -/
lemma occurs_append_iff (hQ : ∀ a b, Q b → Q (a ++ b)) : Occurs lit Q (lit ++ b) ↔ Q b := by
  refine ⟨?_, fun h => ⟨[], b, rfl, h⟩⟩
  rintro ⟨u, v, heq, hv⟩
  have hlen := congrArg length heq
  simp only [length_append] at hlen
  have hsuffix : v <:+ lit ++ b := ⟨u ++ lit, by rw [append_assoc, heq]⟩
  obtain ⟨w, rfl⟩ := suffix_of_suffix_length_le hsuffix (suffix_append lit b) (by omega)
  exact hQ w v hv

lemma occurs_cons_iff (h : ¬ lit <+: c :: rest) : Occurs lit Q (c :: rest) ↔ Occurs lit Q rest := by
  refine ⟨?_, Occurs.append [c]⟩
  rintro ⟨u, v, heq, hv⟩
  cases u with
  | nil => exact absurd ⟨v, heq⟩ h
  | cons d u => exact ⟨u, v, (cons.inj heq).2, hv⟩

lemma Found.append (a : List Char) (h : Found interior b) : Found interior (a ++ b) := by
  obtain ⟨c, cs, hlen, rfl⟩ := h
  exact ⟨a ++ c, cs, hlen, append_assoc ..⟩

lemma found_cons_iff : Found (lit :: interior) text ↔ Occurs lit (Found interior) text := by
  constructor
  · rintro ⟨c, _ | ⟨d, cs⟩, hlen, rfl⟩
    · cases hlen
    · exact ⟨c, _, rfl, d, cs, Nat.succ.inj hlen, rfl⟩
  · rintro ⟨c, _, rfl, d, cs, hlen, rfl⟩
    exact ⟨c, d :: cs, congrArg Nat.succ hlen, rfl⟩

lemma Trapped.append (a : List Char) (h : Trapped interior b) : Trapped interior (a ++ b) := by
  cases interior with
  | nil => exact h
  | cons lit interior => exact Occurs.append a h

lemma found_append_iff : Found (lit :: interior) (lit ++ b) ↔ Found interior b := by
  rw [found_cons_iff, occurs_append_iff fun a _ => Found.append a]

lemma trapped_append_iff :
    Trapped (lit :: interior) (lit ++ b) ↔ Wide lit ∨ Trapped interior b :=
  occurs_append_iff fun a _ => Or.imp_right (Trapped.append a)

end Occurrences

/-- What matching literals against a text comes to, with `before` in front of the first capture. -/
inductive Meets (interior : List (List Char)) (text before : List Char)
    (captures : List (List Char)) : Outcome → Prop
  | found (c : List Char) (cs : List (List Char)) (hlen : cs.length = interior.length)
      (htext : c ++ renderLiterals interior cs = text) :
      Meets interior text before captures (some (true, captures ++ (before ++ c) :: cs))
  | lost (captures' : List (List Char)) (hfound : ¬ Found interior text)
      (htrapped : ¬ Trapped interior text) :
      Meets interior text before captures (some (false, captures'))
  | panicked (hfound : ¬ Found interior text) (htrapped : Trapped interior text) :
      Meets interior text before captures none

/-- A place of the literal at which the rest matches. -/
lemma Meets.here {c : List Char} (hlen : cs.length = interior.length)
    (htext : c ++ renderLiterals interior cs = b) :
    Meets (lit :: interior) (lit ++ b) before captures
      (some (true, captures ++ [before] ++ ([] ++ c) :: cs)) := by
  have h : Meets (lit :: interior) (lit ++ b) before captures _ :=
    .found [] (c :: cs) (congrArg Nat.succ hlen) (congrArg (lit ++ ·) htext)
  simpa using h

lemma search_meets (hlit : lit ≠ [])
    (hnext : ∀ text captures, Meets interior text [] captures (matchInterior interior text captures)) :
    Meets (lit :: interior) text before captures
      (search (matchInterior interior) lit before text captures) := by
  induction text generalizing before captures with
  | nil =>
    have hno {Q} : ¬ Occurs lit Q [] := by
      rintro ⟨u, v, heq, -⟩
      simp [hlit] at heq
    exact .lost _ (found_cons_iff.not.mpr hno) hno
  | cons c rest ih =>
    rw [search]
    by_cases h : lit <+: c :: rest
    · obtain ⟨b, hb⟩ := h
      have hwide : Wide lit ↔ c.utf8Size ≠ 1 := by
        obtain ⟨d, lit, rfl⟩ := exists_cons_of_ne_nil hlit
        simp [Wide, (cons.inj hb).1]
      rw [if_pos ⟨b, hb⟩, ← hb, drop_left]
      have hmeets := hnext b (captures ++ [before])
      generalize matchInterior interior b (captures ++ [before]) = outcome at hmeets
      cases hmeets with
      | found d cs hlen htext => exact .here hlen htext
      | panicked hfound htrapped =>
        exact .panicked (found_append_iff.not.mpr hfound) (trapped_append_iff.mpr (.inr htrapped))
      | lost captures' hfound htrapped =>
        have hlost : ¬ Found (lit :: interior) (lit ++ b) := found_append_iff.not.mpr hfound
        dsimp only
        by_cases hsize : c.utf8Size = 1
        · -- nothing is found further on either
          have hfree : ¬ Trapped (lit :: interior) (lit ++ b) := by
            rw [trapped_append_iff, hwide]
            exact not_or_intro (not_not_intro hsize) htrapped
          rw [if_pos hsize]
          have hrest := @ih (before ++ [c]) captures'.dropLast
          generalize search _ _ _ _ _ = outcome at hrest
          rw [hb] at hlost hfree ⊢
          cases hrest with
          | found d cs hlen htext => exact absurd (Found.append [c] ⟨d, cs, hlen, htext⟩) hlost
          | lost captures'' => exact .lost _ hlost hfree
          | panicked _ htrapped => exact absurd (htrapped.append [c]) hfree
        · rw [if_neg hsize]
          exact .panicked hlost (trapped_append_iff.mpr (.inl (hwide.mpr hsize)))
    · rw [if_neg h]
      have hskip : Found (lit :: interior) (c :: rest) ↔ Found (lit :: interior) rest := by
        rw [found_cons_iff, occurs_cons_iff h, found_cons_iff]
      have hrest := @ih (before ++ [c]) captures
      generalize search _ _ _ _ _ = outcome at hrest
      cases hrest with
      | found d cs hlen htext =>
        rw [append_assoc]
        exact .found (c :: d) cs hlen (congrArg (c :: ·) htext)
      | lost captures' hfound htrapped =>
        exact .lost _ (hskip.not.mpr hfound) ((occurs_cons_iff h).not.mpr htrapped)
      | panicked hfound htrapped =>
        exact .panicked (hskip.not.mpr hfound) ((occurs_cons_iff h).mpr htrapped)

lemma matchInterior_meets :
    Meets interior text [] captures (matchInterior interior text captures) := by
  induction interior generalizing text captures with
  | nil => exact .found text [] rfl (append_nil _)
  | cons lit interior ih =>
    rw [matchInterior]
    by_cases hlit : lit = []
    · rw [if_pos hlit]
      subst hlit
      have hwide : ¬ Wide [] := by simp [Wide]
      have hmeets := @ih text (captures ++ [[]])
      generalize matchInterior _ _ _ = outcome at hmeets
      cases hmeets with
      | found c cs hlen htext => exact .here hlen htext
      | lost captures' hfound htrapped =>
        exact .lost _ (found_append_iff.not.mpr hfound)
          (trapped_append_iff.not.mpr (not_or_intro hwide htrapped))
      | panicked hfound htrapped =>
        exact .panicked (found_append_iff.not.mpr hfound) (trapped_append_iff.mpr (.inr htrapped))
    · rw [if_neg hlit]
      exact search_meets hlit fun _ _ => ih

lemma renderLiterals_append (h : cs.length = interior.length) :
    renderLiterals (interior ++ [last]) cs = renderLiterals interior cs ++ last := by
  induction interior generalizing cs with
  | nil => simp [renderLiterals, length_eq_zero_iff.mp h]
  | cons lit interior ih =>
    cases cs with
    | nil => cases h
    | cons c cs => simp [renderLiterals, ih (Nat.succ.inj h)]

variable {p : WildcardPattern}

lemma correct_of_singleton (h : p.literals = [first]) : p.Correct text := by
  have hcapture (cs) : p.IsCapture text cs ↔ cs = [] ∧ first = text := by
    rw [IsCapture, wildcardCount, render, h, length_singleton, length_eq_zero_iff]
    refine and_congr_right ?_
    rintro rfl
    simp [renderLiterals]
  by_cases htext : first <+: text
  · obtain ⟨rest, rfl⟩ := htext
    cases rest <;> simp_all [Correct, matchWithCaptures]
  · have hne : first ≠ text := fun heq => htext (heq ▸ prefix_rfl)
    simp [Correct, matchWithCaptures, h, hcapture, htext, hne]

/-- The captures of a pattern with a wildcard. -/
lemma isCapture_iff (h : p.literals = first :: (interior ++ [last])) :
    p.IsCapture text captures ↔ ∃ c cs, captures = c :: cs ∧ cs.length = interior.length ∧
      first ++ (c ++ renderLiterals interior cs ++ last) = text := by
  rw [IsCapture, wildcardCount, render, h]
  constructor
  · rintro ⟨hlen, rfl⟩
    cases captures with
    | nil => simp at hlen
    | cons c cs =>
      have hcs : cs.length = interior.length := by simpa using hlen
      exact ⟨c, cs, rfl, hcs, by simp [renderLiterals, renderLiterals_append hcs]⟩
  · rintro ⟨c, cs, rfl, hcs, rfl⟩
    simp [renderLiterals, renderLiterals_append hcs, hcs]

lemma matchWithCaptures_append (h : p.literals = first :: (interior ++ [last]))
    (middle : List Char) : p.matchWithCaptures (first ++ (middle ++ last)) =
      (matchInterior interior middle []).map fun (found, captures) =>
        if found then some captures else none := by
  cases interior with
  | nil => simp [matchWithCaptures, h, matchInterior]
  | cons lit interior => simp [matchWithCaptures, h, getLast?_cons, dropLast_cons_of_ne_nil]

lemma correct_of_ne (h : p.literals = first :: (interior ++ [last]))
    (htext : ∀ middle, text ≠ first ++ (middle ++ last)) : p.Correct text := by
  have hnone : p.matchWithCaptures text = some none := by
    by_cases hfirst : first <+: text
    · obtain ⟨remaining, rfl⟩ := hfirst
      have hlast : ¬ last <:+ remaining := by
        rintro ⟨middle, rfl⟩
        exact htext middle rfl
      simp [matchWithCaptures, h, hlast]
    · simp [matchWithCaptures, h, hfirst]
  rw [Correct, hnone]
  intro captures hcapture
  obtain ⟨c, cs, -, -, heq⟩ := (isCapture_iff h).mp hcapture
  exact htext _ heq.symm

lemma correct_append_iff (h : p.literals = first :: (interior ++ [last])) {middle : List Char} :
    p.Correct (first ++ (middle ++ last)) ↔ Found interior middle ∨ ¬ Trapped interior middle := by
  have hmeets := @matchInterior_meets middle interior []
  rw [Correct, matchWithCaptures_append h]
  generalize matchInterior interior middle [] = outcome at hmeets
  cases hmeets with
  | found c cs hlen htext =>
    exact iff_of_true ((isCapture_iff h).mpr ⟨c, cs, rfl, hlen, by rw [htext]⟩)
      (.inl ⟨c, cs, hlen, htext⟩)
  | lost captures' hfound htrapped =>
    refine iff_of_true (fun captures hcapture => hfound ?_) (.inr htrapped)
    obtain ⟨c, cs, -, hlen, heq⟩ := (isCapture_iff h).mp hcapture
    exact ⟨c, cs, hlen, append_cancel_right (append_cancel_left heq)⟩
  | panicked hfound htrapped =>
    exact iff_of_false id (not_or_intro hfound (not_not_intro htrapped))

/-- **The matcher is sound and complete**, except that it panics on a text that does not match
where it has to retry inside a character. -/
theorem correct_iff (pattern text : List Char) : (parse pattern).Correct text ↔
    ∀ first interior last middle, (parse pattern).literals = first :: (interior ++ [last]) →
      text = first ++ (middle ++ last) → Found interior middle ∨ ¬ Trapped interior middle := by
  constructor
  · rintro hcorrect first interior last middle h rfl
    exact (correct_append_iff h).mp hcorrect
  · intro hcond
    obtain ⟨first, literals, h⟩ := exists_cons_of_ne_nil (splitOn_ne_nil '*' pattern)
    rcases eq_nil_or_concat' literals with rfl | ⟨interior, last, rfl⟩
    · exact correct_of_singleton h
    by_cases htext : ∃ middle, text = first ++ (middle ++ last)
    · obtain ⟨middle, rfl⟩ := htext
      exact (correct_append_iff h).mpr (hcond _ _ _ _ h rfl)
    · exact correct_of_ne h (not_exists.mp htext)

/-- The retry after `é` starts inside it. -/
theorem not_forall_correct : ¬ (parse ['*', 'é', '*', 'x', '*']).Correct ['é'] := id

end WildcardPattern

end Mlxcel.Surgery
