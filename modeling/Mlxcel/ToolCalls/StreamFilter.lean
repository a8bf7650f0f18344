import Mlxcel.Lib.Str
import Mlxcel.Lib.Scanner

/-!
# The streaming content filter

`StreamFilter` receives the decoded fragments of a generation and splits them into the text that
goes to `delta.content` and the text that goes to `delta.reasoning_content`, dropping the
structural markers of the model families and the text of tool calls.

Texts are lists of characters, and offsets count characters; the source's byte offsets cut a text
at the same places. Where the code adds up bytes (`fragment_lengths`, `max_delim_len`) the model
does too, through `len`.

* `StreamFilter.feed`, `StreamFilter.flush` and the functions under them, with the token positions
  they account for;
* `reference`, the split of a whole text in one scan that repeatedly takes the leftmost delimiter;
* **`stream_eq_reference`** — however a text is cut into fragments, the filter emits what the
  reference says.
-/

namespace Mlxcel.ToolCalls

open List Str Scanner Table

/-- The length of a text in bytes. -/
def len (s : List Char) : ℕ := (s.map Char.utf8Size).sum

/-- What a matched delimiter does. -/
inductive DelimiterAction
  | enterThinking
  | exitThinking
  | enterToolCall
  | exitToolCall
  | strip
  deriving DecidableEq, Repr

/-- The state of the filter: where text goes. -/
inductive FilterState
  | content
  | thinking
  | toolCall
  deriving DecidableEq, Repr

def chatDelimiters : List (List Char × DelimiterAction) :=
  [("</think>".toList, .exitThinking),
   ("<think>".toList, .enterThinking),
   ("</mm:think>".toList, .exitThinking),
   ("<mm:think>".toList, .enterThinking),
   ("]<]minimax[>[".toList, .strip),
   ("<|tool_call>".toList, .enterToolCall),
   ("<tool_call|>".toList, .exitToolCall),
   ("<|channel>".toList, .enterThinking),
   ("<channel|>".toList, .exitThinking),
   ("<|think|>".toList, .strip),
   ("<|turn>".toList, .strip),
   ("<turn|>".toList, .strip),
   ("</tool_call>".toList, .exitToolCall),
   ("<tool_call>".toList, .enterToolCall),
   ("[TOOL_CALLS]".toList, .enterToolCall)]

/-- One call's output: the text for the two channels, and the token positions it used up. -/
structure FilterOutput where
  content : Option (List Char) := none
  reasoning : Option (List Char) := none
  suppressedPositions : ℕ := 0
  consumedPositions : ℕ := 0
  deriving DecidableEq, Repr

/-- The filter: its state, the text held back, the bytes each fragment contributed to it, and the
length of the longest delimiter. -/
structure StreamFilter where
  state : FilterState
  buffer : List Char
  fragmentLengths : List ℕ
  maxDelimLen : ℕ
  deriving DecidableEq, Repr

/-- `apply_action`, on the state. -/
def applyAction (action : DelimiterAction) (state : FilterState) : FilterState :=
  match action with
  | .enterThinking => .thinking
  | .exitThinking => .content
  | .enterToolCall => .toolCall
  | .exitToolCall => .content
  | .strip => state

/-- The number of fragments that `n` bytes at the front span, and the fragments after them; a
fragment that is cut stays with its remainder. -/
def drainFragmentLengths : ℕ → List ℕ → ℕ × List ℕ
  | 0, lengths => (0, lengths)
  | _ + 1, [] => (0, [])
  | n + 1, fragLen :: lengths =>
    if fragLen ≤ n + 1 then
      let (count, rest) := drainFragmentLengths (n + 1 - fragLen) lengths
      (count + 1, rest)
    else
      (1, (fragLen - (n + 1)) :: lengths)

/-- One step of the search: the earlier occurrence wins, and at one place the longer delimiter. -/
def earlier (buffer : List Char) (earliest : Option (ℕ × ℕ × DelimiterAction))
    (d : List Char × DelimiterAction) : Option (ℕ × ℕ × DelimiterAction) :=
  match find d.1 buffer with
  | none => earliest
  | some pos =>
    match earliest with
    | some (bestPos, bestLen, _) =>
      if pos < bestPos ∨ pos = bestPos ∧ d.1.length > bestLen then
        some (pos, d.1.length, d.2)
      else earliest
    | none => some (pos, d.1.length, d.2)

/-- `find_earliest_delimiter`: the position, the length and the action. -/
def findEarliestDelimiter (buffer : List Char) : Option (ℕ × ℕ × DelimiterAction) :=
  chatDelimiters.foldl (earlier buffer) none

/-- What a run of the drain loop has gathered. -/
structure Drained where
  content : List Char := []
  reasoning : List Char := []
  suppressedPositions : ℕ := 0
  consumedPositions : ℕ := 0

/-- Text in front of a delimiter goes where the state says. -/
def Drained.push (out : Drained) (state : FilterState) (text : List Char) : Drained :=
  match state with
  | .content => { out with content := out.content ++ text }
  | .thinking => { out with reasoning := out.reasoning ++ text }
  | .toolCall => out

namespace StreamFilter

def new : StreamFilter where
  state := .content
  buffer := []
  fragmentLengths := []
  maxDelimLen := (chatDelimiters.map fun d => len d.1).foldl max 0

def newPrimedOpenThinking : StreamFilter := { new with state := .thinking }

/-- Some suffix of the buffer that starts here is a proper beginning of a delimiter. -/
def partialAt (buffer : List Char) (i : ℕ) : Bool :=
  chatDelimiters.any fun d =>
    decide (len (buffer.drop i) < len d.1) && (buffer.drop i).isPrefixOf d.1

variable (f : StreamFilter)

/-- `safe_emit_length`: the offset of the first suffix, among those shorter than the longest
delimiter, that may still become a delimiter. -/
def safeEmitLength : ℕ :=
  let checkFrom := len f.buffer - (f.maxDelimLen - 1)
  match (List.range f.buffer.length).find? fun i =>
      !decide (len (f.buffer.take i) < checkFrom) && partialAt f.buffer i with
  | some i => i
  | none => f.buffer.length

/-- Drain `n` characters from the front, and count the positions they span. -/
def drainFront (n : ℕ) : ℕ × StreamFilter :=
  let drained := drainFragmentLengths (len (f.buffer.take n)) f.fragmentLengths
  (drained.1, { f with buffer := f.buffer.drop n, fragmentLengths := drained.2 })

/-- Emit `n` characters from the front; nothing happens for `n = 0`. -/
def emitFront (out : Drained) (n : ℕ) : StreamFilter × Drained :=
  if n > 0 then
    let out := out.push f.state (f.buffer.take n)
    let (count, f) := f.drainFront n
    (f, { out with consumedPositions := out.consumedPositions + count })
  else (f, out)

/-- Consume a delimiter at the front and apply its action. -/
def consumeDelimiter (out : Drained) (delimLen : ℕ)
    (action : DelimiterAction) : StreamFilter × Drained :=
  let (count, f) := f.drainFront delimLen
  ({ f with state := applyAction action f.state },
   { out with
      suppressedPositions := out.suppressedPositions + count
      consumedPositions := out.consumedPositions + count })

end StreamFilter

/-! ## The search for the earliest delimiter -/

/-- What the search has found among the delimiters `ds`: none of them occurs, or one that does and
that no other one precedes. -/
def Earliest (buffer : List Char) (ds : List (List Char × DelimiterAction)) :
    Option (ℕ × ℕ × DelimiterAction) → Prop
  | none => ∀ d ∈ ds, find d.1 buffer = none
  | some (pos, delimLen, action) =>
    (∃ d ∈ ds, d.1.length = delimLen ∧ d.2 = action ∧ find d.1 buffer = some pos) ∧
      ∀ d ∈ ds, ∀ i, find d.1 buffer = some i → pos ≤ i

variable {buffer text : List Char}

variable {ds : List (List Char × DelimiterAction)} {best : Option (ℕ × ℕ × DelimiterAction)}

lemma Earliest.step (h : Earliest buffer ds best) (d : List Char × DelimiterAction) :
    Earliest buffer (ds ++ [d]) (earlier buffer best d) := by
  cases hfind : find d.1 buffer with
  | none =>
    simp only [earlier, hfind]
    cases best with
    | none =>
      intro e he
      rcases mem_append.mp he with he | he
      · exact h e he
      · rw [mem_singleton.mp he, hfind]
    | some b =>
      obtain ⟨⟨e, he, hlen, hact, hpos⟩, hmin⟩ := h
      refine ⟨⟨e, by simp [he], hlen, hact, hpos⟩, fun e he i hi => ?_⟩
      rcases mem_append.mp he with he | he
      · exact hmin e he i hi
      · rw [mem_singleton.mp he, hfind] at hi
        simp at hi
  | some pos =>
    have hnew : ∀ bound, (∀ e ∈ ds, ∀ i, find e.1 buffer = some i → bound ≤ i) → bound ≤ pos →
        ∀ e ∈ ds ++ [d], ∀ i, find e.1 buffer = some i → bound ≤ i := by
      intro bound hds hpos e he i hi
      rcases mem_append.mp he with he | he
      · exact hds e he i hi
      · rw [mem_singleton.mp he, hfind, Option.some.injEq] at hi
        omega
    simp only [earlier, hfind]
    cases best with
    | none =>
      refine ⟨⟨d, by simp, rfl, rfl, hfind⟩, hnew pos (fun e he i hi => ?_) le_rfl⟩
      rw [h e he] at hi
      simp at hi
    | some b =>
      obtain ⟨⟨e, he, hlen, hact, hpos⟩, hmin⟩ := h
      simp only
      split_ifs with hlt
      · refine ⟨⟨d, by simp, rfl, rfl, hfind⟩, hnew pos (fun e he i hi => ?_) le_rfl⟩
        have := hmin e he i hi
        omega
      · exact ⟨⟨e, by simp [he], hlen, hact, hpos⟩, hnew _ hmin (by omega)⟩

lemma Earliest.foldl {ds es : List (List Char × DelimiterAction)} (h : Earliest buffer ds best) :
    Earliest buffer (ds ++ es) (es.foldl (earlier buffer) best) := by
  induction es generalizing ds best with
  | nil => simpa using h
  | cons e es ih => simpa using ih (h.step e)

lemma findEarliestDelimiter_spec (buffer : List Char) :
    Earliest buffer chatDelimiters (findEarliestDelimiter buffer) := by
  have h : Earliest buffer [] none := by simp [Earliest]
  simpa [findEarliestDelimiter] using h.foldl

/-- No delimiter is empty, and none occurs inside another. -/
def chatTable : Table Char DelimiterAction where
  entries := chatDelimiters
  ne_nil := by decide +kernel
  factorFree := by decide +kernel

variable {pos delimLen : ℕ} {action : DelimiterAction}

/-- **The earliest delimiter.** It stands at `pos`, and nothing starts before it. -/
lemma findEarliestDelimiter_eq_some
    (h : findEarliestDelimiter buffer = some (pos, delimLen, action)) :
    ∃ d ∈ chatDelimiters, d.1.length = delimLen ∧ d.2 = action ∧
      buffer = buffer.take pos ++ (d.1 ++ buffer.drop (pos + delimLen)) ∧
      ∀ i < pos, chatTable.matchAt (buffer.drop i) = none := by
  have hspec := findEarliestDelimiter_spec buffer
  rw [h] at hspec
  obtain ⟨⟨d, hd, hlen, hact, hfind⟩, hmin⟩ := hspec
  refine ⟨d, hd, hlen, hact, by rw [← hlen]; exact find_split hfind, fun i hi => ?_⟩
  rw [matchAt_eq_none]
  intro e he hpre
  cases hfe : find e.1 buffer with
  | none =>
    have hle := find_add_length_le hfind
    exact find_eq_none.mp hfe i (by omega) hpre
  | some j =>
    have hj := hmin e he j hfe
    exact (find_eq_some.mp hfe).2.2 i (by omega) hpre

lemma findEarliestDelimiter_pos (h : findEarliestDelimiter buffer = some (pos, delimLen, action)) :
    0 < delimLen := by
  obtain ⟨d, hd, rfl, -⟩ := findEarliestDelimiter_eq_some h
  exact length_pos_of_ne_nil (chatTable.ne_nil d hd)

lemma findEarliestDelimiter_eq_none (h : findEarliestDelimiter buffer = none) (i : ℕ) :
    chatTable.matchAt (buffer.drop i) = none := by
  have hspec := findEarliestDelimiter_spec buffer
  rw [h] at hspec
  rw [matchAt_eq_none]
  intro e he hpre
  by_cases hi : i ≤ buffer.length
  · exact find_eq_none.mp (hspec e he) i hi hpre
  · rw [drop_eq_nil_of_le (by omega), prefix_nil] at hpre
    exact chatTable.ne_nil e he hpre

/-! ## Feeding and flushing -/

namespace StreamFilter

/-- The loop of `drain_buffer`: drop the delimiters of the buffer one after the other, then emit
what cannot be the start of one. -/
def drainLoop (f : StreamFilter) (out : Drained) : StreamFilter × Drained :=
  if f.buffer = [] then (f, out)
  else
    match _hfound : findEarliestDelimiter f.buffer with
    | some (pos, delimLen, action) =>
      let front := f.emitFront out pos
      let next := front.1.consumeDelimiter front.2 delimLen action
      drainLoop next.1 next.2
    | none => f.emitFront out f.safeEmitLength
termination_by f.buffer.length
decreasing_by
  rename_i hne
  have hpos := findEarliestDelimiter_pos _hfound
  have hlen := length_pos_of_ne_nil hne
  simp only [consumeDelimiter, emitFront, drainFront]
  split_ifs <;> simp only [length_drop] <;> omega

def drainBuffer (f : StreamFilter) : FilterOutput × StreamFilter :=
  let (f, out) := f.drainLoop {}
  ({ content := if out.content = [] then none else some out.content
     reasoning := if out.reasoning = [] then none else some out.reasoning
     suppressedPositions := out.suppressedPositions
     consumedPositions := out.consumedPositions }, f)

def feed (f : StreamFilter) (fragment : List Char) : FilterOutput × StreamFilter :=
  if fragment = [] then ({ consumedPositions := 1 }, f)
  else
    drainBuffer
      { f with
        fragmentLengths := f.fragmentLengths ++ [len fragment]
        buffer := f.buffer ++ fragment }

def flush (f : StreamFilter) : FilterOutput × StreamFilter :=
  let cleared := { f with buffer := [], fragmentLengths := [] }
  if f.buffer = [] then ({}, cleared)
  else
    match f.state with
    | .content => ({ content := some f.buffer }, cleared)
    | .thinking => ({ reasoning := some f.buffer }, cleared)
    | .toolCall => ({}, cleared)

end StreamFilter

/-- The text of both channels, gathered over calls. -/
@[ext] structure Emitted where
  content : List Char
  reasoning : List Char
  deriving DecidableEq, Repr

namespace Emitted

instance : Append Emitted := ⟨fun a b => ⟨a.content ++ b.content, a.reasoning ++ b.reasoning⟩⟩

variable (a b : Emitted)

@[simp] lemma content_append : (a ++ b).content = a.content ++ b.content := rfl

@[simp] lemma reasoning_append : (a ++ b).reasoning = a.reasoning ++ b.reasoning :=
  rfl

lemma append_assoc (a b d : Emitted) : a ++ b ++ d = a ++ (b ++ d) := by
  ext1 <;> simp

end Emitted

/-- The text that one call emits. -/
def FilterOutput.emitted (out : FilterOutput) : Emitted :=
  ⟨out.content.getD [], out.reasoning.getD []⟩

/-- **A whole generation**: feed the fragments in turn, then flush. -/
def StreamFilter.stream (f : StreamFilter) : List (List Char) → Emitted
  | [] => f.flush.1.emitted
  | fragment :: fragments => (f.feed fragment).1.emitted ++ (f.feed fragment).2.stream fragments

variable (primed : Bool) (state : FilterState)

/-- The filter that a request starts with. -/
def startFilter : StreamFilter :=
  if primed then .newPrimedOpenThinking else .new

/-- `split_reasoning_and_content`: the whole text in one fragment. -/
def splitReasoningAndContent (rawText : List Char) (primedOpenThinking : Bool) :
    Option (List Char) × List Char :=
  let first := (startFilter primedOpenThinking).feed rawText
  let last := first.2.flush
  let reasoning := first.1.reasoning.getD [] ++ last.1.reasoning.getD []
  let content := first.1.content.getD [] ++ last.1.content.getD []
  (if reasoning = [] then none else some reasoning, content)

/-! ## The reference -/

/-- Text that stands between delimiters, by the current state. -/
def routed (text : List Char) : Emitted :=
  match state with
  | .content => ⟨text, []⟩
  | .thinking => ⟨[], text⟩
  | .toolCall => ⟨[], []⟩

/-- The longest delimiter that a text starts with. -/
def longestAt (s : List Char) : Option (List Char × DelimiterAction) :=
  chatDelimiters.foldl (fun best d =>
    if d.1.isPrefixOf s ∧ ∀ b ∈ best, b.1.length < d.1.length then some d else best) none

/-- The leftmost delimiter of a text, the longest one at its place, with the text before and
after it. -/
def leftmost : List Char → Option (List Char × (List Char × DelimiterAction) × List Char)
  | [] => none
  | a :: s =>
    match longestAt (a :: s) with
    | some d => some ([], d, (a :: s).drop d.1.length)
    | none => (leftmost s).map fun split => (a :: split.1, split.2)

variable {s : List Char}

lemma longestAt_foldl (hds : ds ⊆ chatDelimiters) {best : Option (List Char × DelimiterAction)}
    (hbest : ∀ b ∈ best, b ∈ chatDelimiters ∧ b.1 <+: s) :
    ds.foldl (fun best d =>
        if d.1.isPrefixOf s ∧ ∀ b ∈ best, b.1.length < d.1.length then some d else best) best =
      best.or (ds.find? fun d => d.1.isPrefixOf s) := by
  induction ds generalizing best with
  | nil => simp
  | cons d ds ih =>
    obtain ⟨hd, hds⟩ := cons_subset.mp hds
    by_cases hpre : d.1.isPrefixOf s = true
    · have hmatch := matchAt_eq_some (T := chatTable).mpr
        ⟨hd, isPrefixOf_iff_prefix.mp hpre⟩
      cases best with
      | none =>
        rw [foldl_cons, if_pos ⟨hpre, by simp⟩,
          ih hds (by simpa using ⟨hd, isPrefixOf_iff_prefix.mp hpre⟩)]
        simp [hpre]
      | some b =>
        -- two delimiters at one place are the same, so the second is not longer
        have hb := matchAt_eq_some (T := chatTable).mpr (hbest b rfl)
        rw [hmatch, Option.some.injEq] at hb
        rw [foldl_cons, if_neg (by simp [hb]), ih hds hbest]
        simp
    · rw [foldl_cons, if_neg (by simp [hpre]), ih hds hbest]
      simp [hpre]

/-- With these delimiters there is never more than one to choose from. -/
lemma longestAt_eq (s : List Char) : longestAt s = chatTable.matchAt s := by
  rw [longestAt, longestAt_foldl (List.Subset.refl _) (by simp)]
  rfl

variable {before after : List Char} {d : List Char × DelimiterAction}

lemma leftmost_eq_some (h : leftmost text = some (before, d, after)) :
    d ∈ chatDelimiters ∧ text = before ++ (d.1 ++ after) ∧
      ∀ i < before.length, chatTable.matchAt (text.drop i) = none := by
  induction text generalizing before with
  | nil => simp [leftmost] at h
  | cons a s ih =>
    rw [leftmost, longestAt_eq] at h
    cases hmatch : chatTable.matchAt (a :: s) with
    | some e =>
      obtain ⟨he, r, hr⟩ := matchAt_eq_some.mp hmatch
      simp only [hmatch] at h
      obtain ⟨rfl, rfl, rfl⟩ := h
      exact ⟨he, by simp [← hr], by simp⟩
    | none =>
      simp only [hmatch, Option.map_eq_some_iff] at h
      obtain ⟨⟨u, rest⟩, hsplit, rfl, rfl⟩ := h
      obtain ⟨hd, hs, hnone⟩ := ih hsplit
      refine ⟨hd, by simpa using hs, fun i hi => ?_⟩
      cases i with
      | zero => exact hmatch
      | succ i => exact hnone i (by simpa using hi)

lemma leftmost_eq_none (h : leftmost text = none) (i : ℕ) :
    chatTable.matchAt (text.drop i) = none := by
  induction text generalizing i with
  | nil => rw [drop_nil]; decide
  | cons a s ih =>
    rw [leftmost, longestAt_eq] at h
    cases hmatch : chatTable.matchAt (a :: s) with
    | some e => simp [hmatch] at h
    | none =>
      simp only [hmatch, Option.map_eq_none_iff] at h
      cases i with
      | zero => exact hmatch
      | succ i => exact ih h i

lemma leftmost_length (h : leftmost text = some (before, d, after)) :
    after.length < text.length := by
  obtain ⟨hd, htext, -⟩ := leftmost_eq_some h
  have hpos := length_pos_of_ne_nil (chatTable.ne_nil d hd)
  rw [htext]
  simp only [length_append]
  omega

/-- **The reference.** Take the leftmost delimiter, the longest one at its place, route the text
before it by the state, drop the delimiter, apply its action, and go on behind it. -/
def reference (state : FilterState) (text : List Char) : Emitted :=
  match _hsplit : leftmost text with
  | none => routed state text
  | some (before, d, after) => routed state before ++ reference (applyAction d.2 state) after
termination_by text.length
decreasing_by exact leftmost_length _hsplit

/-! ## Tokens and their routes -/

/-- What the state machine emits for a sequence of characters and delimiter actions. -/
def route : FilterState → List (Char ⊕ DelimiterAction) → Emitted
  | _, [] => ⟨[], []⟩
  | state, .inl a :: ts => routed state [a] ++ route state ts
  | state, .inr action :: ts => route (applyAction action state) ts

lemma routed_append (u v : List Char) :
    routed state (u ++ v) = routed state u ++ routed state v := by
  cases state <;> rfl

lemma routed_nil_append (e : Emitted) : routed state [] ++ e = e := by
  cases state <;> rfl

variable (u : List Char)

lemma route_map_inl_append (ts : List (Char ⊕ DelimiterAction)) :
    route state (u.map .inl ++ ts) = routed state u ++ route state ts := by
  induction u with
  | nil => exact (routed_nil_append state _).symm
  | cons a u ih =>
    rw [map_cons, cons_append, route, ih, ← Emitted.append_assoc, ← routed_append]
    rfl

lemma route_map_inl : route state (u.map .inl) = routed state u := by
  have h := route_map_inl_append state u []
  rw [append_nil] at h
  rw [h]
  ext1 <;> simp [route]

/-- A text without delimiters goes where the state says. -/
lemma route_tokens_of_none {state : FilterState} (h : ∀ i, chatTable.matchAt (text.drop i) = none) :
    route state (chatTable.tokens text) = routed state text := by
  have htokens := tokens_append_of_none (T := chatTable) (u := text) (v := [])
    (fun i _ => by simpa using h i)
  rw [append_nil, tokens_nil, append_nil] at htokens
  rw [htokens, route_map_inl]

/-- The reference reads the tokens of the text. -/
theorem reference_eq_route (text : List Char) :
    reference state text = route state (chatTable.tokens text) := by
  fun_induction reference state text with
  | case1 state text hnone => exact (route_tokens_of_none (leftmost_eq_none hnone)).symm
  | case2 state text before d after hsplit ih =>
    obtain ⟨hd, htext, hnone⟩ := leftmost_eq_some hsplit
    have htokens := tokens_found (T := chatTable) hd
      (fun i hi => by simpa [htext] using hnone i hi) []
    rw [append_nil, append_nil, ← htext] at htokens
    rw [ih, htokens, route_map_inl_append, route]

/-! ## What one drain does -/

lemma len_append (s t : List Char) : len (s ++ t) = len s + len t := by simp [len]

lemma eq_nil_of_len_eq_zero (h : len s = 0) : s = [] := by
  cases s with
  | nil => rfl
  | cons a s =>
    have := Char.utf8Size_pos a
    simp only [len, map_cons, sum_cons] at h
    omega

lemma eq_of_prefix_of_len_le {s t : List Char} (h : s <+: t) (hlen : len t ≤ len s) : s = t := by
  obtain ⟨r, rfl⟩ := h
  rw [len_append] at hlen
  rw [eq_nil_of_len_eq_zero (show len r = 0 by omega), append_nil]

lemma len_le_maxDelimLen : ∀ d ∈ chatDelimiters, len d.1 ≤ StreamFilter.new.maxDelimLen := by
  decide +kernel

/-- The text that a drain has gathered. -/
def Drained.emitted (out : Drained) : Emitted := ⟨out.content, out.reasoning⟩

lemma Drained.emitted_push (out : Drained) (state : FilterState) (text : List Char) :
    (out.push state text).emitted = out.emitted ++ routed state text := by
  cases state <;> ext1 <;> simp [push, emitted, routed]

namespace StreamFilter

/-- **What is emitted is final.** Before the safe length no delimiter can start any more. -/
lemma safeEmitLength_spec {f : StreamFilter} (hmax : f.maxDelimLen = new.maxDelimLen)
    (hnone : ∀ i, chatTable.matchAt (f.buffer.drop i) = none) {i : ℕ} (hi : i < f.safeEmitLength)
    (d : List Char × DelimiterAction) (hd : d ∈ chatDelimiters) : ¬ f.buffer.drop i <+: d.1 := by
  intro hpre
  have hshort : len (f.buffer.drop i) < len d.1 := by
    by_contra hlen
    have hwhole := eq_of_prefix_of_len_le hpre (by omega)
    exact matchAt_eq_none.mp (hnone i) d hd (by rw [hwhole])
  have hat : partialAt f.buffer i = true := by
    simp only [partialAt, any_eq_true, Bool.and_eq_true, decide_eq_true_eq]
    exact ⟨d, hd, hshort, isPrefixOf_iff_prefix.mpr hpre⟩
  have hchecked : ¬ len (f.buffer.take i) < len f.buffer - (f.maxDelimLen - 1) := by
    have hsplit : len f.buffer = len (f.buffer.take i) + len (f.buffer.drop i) := by
      rw [← len_append, take_append_drop]
    have := len_le_maxDelimLen d hd
    omega
  -- the search stops at the first such offset, so it is not before the safe length
  simp only [safeEmitLength] at hi
  split at hi
  case h_1 j hj =>
    have hfirst := (find?_range_eq_some.mp hj).2.2 i hi
    simp [hchecked, hat] at hfirst
  case h_2 hfind =>
    have hlast := List.find?_range_eq_none.mp hfind i hi
    simp [hchecked, hat] at hlast

variable (f : StreamFilter) (out : Drained) (n : ℕ)

@[simp] lemma emitFront_buffer : (f.emitFront out n).1.buffer = f.buffer.drop n := by
  by_cases hn : n > 0
  · simp [emitFront, hn, drainFront]
  · simp [emitFront, show n = 0 by omega]

@[simp] lemma emitFront_state : (f.emitFront out n).1.state = f.state := by
  by_cases hn : n > 0 <;> simp [emitFront, hn, drainFront]

@[simp] lemma emitFront_maxDelimLen : (f.emitFront out n).1.maxDelimLen = f.maxDelimLen := by
  by_cases hn : n > 0 <;> simp [emitFront, hn, drainFront]

@[simp] lemma emitFront_emitted :
    (f.emitFront out n).2.emitted = out.emitted ++ routed f.state (f.buffer.take n) := by
  by_cases hn : n > 0
  · rw [← Drained.emitted_push]
    simp [emitFront, hn, Drained.emitted]
  · have hzero : n = 0 := by omega
    subst hzero
    cases hstate : f.state <;> ext1 <;> simp [emitFront, routed]

/-- What a drain leaves behind and has emitted: for every continuation of the text the output is
the one owed, and the buffer holds no complete delimiter. -/
structure Drains (f : StreamFilter) (out : Drained) (r : StreamFilter × Drained) : Prop where
  owed : ∀ v, out.emitted ++ route f.state (chatTable.tokens (f.buffer ++ v)) =
    r.2.emitted ++ route r.1.state (chatTable.tokens (r.1.buffer ++ v))
  maxDelimLen : r.1.maxDelimLen = f.maxDelimLen
  clean : ∀ i, chatTable.matchAt (r.1.buffer.drop i) = none

variable {f out}

/-- The last round: no complete delimiter is left. -/
lemma drains_emitFront (hmax : f.maxDelimLen = new.maxDelimLen)
    (hnone : ∀ i, chatTable.matchAt (f.buffer.drop i) = none) :
    Drains f out (f.emitFront out f.safeEmitLength) where
  owed := by
    intro v
    have hcut := take_append_drop f.safeEmitLength f.buffer
    have htokens := tokens_safe (T := chatTable)
      (u := f.buffer.take f.safeEmitLength)
      (fun i _ => by rw [hcut]; exact hnone i)
      (fun i hi d hd => by
        rw [hcut]
        exact safeEmitLength_spec hmax hnone (by rw [length_take] at hi; omega) d hd) v
    rw [hcut] at htokens
    rw [htokens, route_map_inl_append, emitFront_emitted, emitFront_state, emitFront_buffer,
      Emitted.append_assoc]
  maxDelimLen := emitFront_maxDelimLen ..
  clean := by
    intro i
    rw [emitFront_buffer, drop_drop]
    exact hnone _

/-- **The drain loop emits what is owed**, one delimiter a round. -/
theorem drains_drainLoop (hmax : f.maxDelimLen = new.maxDelimLen) :
    Drains f out (f.drainLoop out) := by
  fun_induction drainLoop f out with
  | case1 f out hbuffer =>
    exact ⟨fun v => rfl, rfl, fun i => by rw [hbuffer, drop_nil]; decide⟩
  | case2 f out hbuffer pos delimLen action hfound front next ih =>
    obtain ⟨d, hd, hlen, rfl, hsplit, hnone⟩ := findEarliestDelimiter_eq_some hfound
    have hbuf : next.1.buffer = f.buffer.drop (pos + delimLen) := by
      simp [next, front, consumeDelimiter, drainFront]
    have hstate : next.1.state = applyAction d.2 f.state := by
      simp [next, front, consumeDelimiter, drainFront]
    have hemit : next.2.emitted = out.emitted ++ routed f.state (f.buffer.take pos) := by
      rw [← emitFront_emitted]
      rfl
    have hnext : next.1.maxDelimLen = f.maxDelimLen := by
      simp [next, front, consumeDelimiter, drainFront]
    obtain ⟨howed, hmaxlen, hclean⟩ := ih (hnext.trans hmax)
    refine ⟨fun v => ?_, hmaxlen.trans hnext, hclean⟩
    have htokens := tokens_found (T := chatTable) hd
      (fun i hi => by
        rw [← hsplit]
        exact hnone i (by rw [length_take] at hi; omega)) v
    rw [← hsplit] at htokens
    rw [← howed, hbuf, hstate, hemit, htokens, route_map_inl_append, route,
      Emitted.append_assoc]
  | case3 f out hbuffer hfound =>
    exact drains_emitFront hmax (findEarliestDelimiter_eq_none hfound)

/-- A filter between two calls: the buffer holds no complete delimiter. -/
structure Idle (f : StreamFilter) : Prop where
  maxDelimLen : f.maxDelimLen = new.maxDelimLen
  clean : ∀ i, chatTable.matchAt (f.buffer.drop i) = none

lemma drainBuffer_emitted (f : StreamFilter) :
    f.drainBuffer.1.emitted = (f.drainLoop {}).2.emitted := by
  have hget : ∀ s : List Char, (if s = [] then none else some s).getD [] = s := by
    intro s
    by_cases hs : s = [] <;> simp [hs]
  simp only [drainBuffer, FilterOutput.emitted, Drained.emitted, hget]

/-- **One call.** It emits its share of what the whole text is owed. -/
lemma feed_spec (hf : f.Idle) (fragment : List Char) : (f.feed fragment).2.Idle ∧
      ∀ v, route f.state (chatTable.tokens (f.buffer ++ (fragment ++ v))) =
        (f.feed fragment).1.emitted ++
          route (f.feed fragment).2.state (chatTable.tokens ((f.feed fragment).2.buffer ++ v)) := by
  by_cases hempty : fragment = []
  · rw [feed, hempty]
    exact ⟨hf, fun v => rfl⟩
  · rw [feed, if_neg hempty]
    have hdrains : Drains { f with
        fragmentLengths := f.fragmentLengths ++ [len fragment]
        buffer := f.buffer ++ fragment } {} _ := drains_drainLoop hf.maxDelimLen
    refine ⟨⟨hdrains.maxDelimLen.trans hf.maxDelimLen, hdrains.clean⟩, fun v => ?_⟩
    rw [drainBuffer_emitted, ← append_assoc]
    exact hdrains.owed v

lemma flush_emitted (hf : f.Idle) :
    f.flush.1.emitted = route f.state (chatTable.tokens f.buffer) := by
  rw [route_tokens_of_none hf.clean]
  by_cases hbuffer : f.buffer = []
  · rw [flush, hbuffer]
    cases f.state <;> rfl
  · rw [flush, if_neg hbuffer]
    cases f.state <;> rfl

/-- **A whole generation** emits what the tokens of its text route to. -/
theorem stream_eq_route (hf : f.Idle) (fragments : List (List Char)) :
    f.stream fragments = route f.state (chatTable.tokens (f.buffer ++ fragments.flatten)) := by
  induction fragments generalizing f with
  | nil => rw [stream, flush_emitted hf, flatten_nil, append_nil]
  | cons fragment fragments ih =>
    obtain ⟨hidle, howed⟩ := feed_spec hf fragment
    rw [stream, ih hidle, flatten_cons, howed]

end StreamFilter

lemma idle_startFilter : (startFilter primed).Idle := by
  cases primed <;> exact ⟨rfl, fun i => by
    simp only [startFilter, StreamFilter.newPrimedOpenThinking, StreamFilter.new, Bool.false_eq_true,
      if_true, if_false, drop_nil]
    decide⟩

@[simp] lemma buffer_startFilter : (startFilter primed).buffer = [] := by
  cases primed <;> rfl

lemma stream_startFilter (fragments : List (List Char)) : (startFilter primed).stream fragments =
      route (startFilter primed).state (chatTable.tokens fragments.flatten) := by
  rw [StreamFilter.stream_eq_route (idle_startFilter primed), buffer_startFilter, nil_append]

/-- The one-piece run is what `split_reasoning_and_content` returns. -/
lemma splitReasoningAndContent_eq (text : List Char) (primed : Bool) :
    splitReasoningAndContent text primed =
      (if ((startFilter primed).stream [text]).reasoning = [] then none
        else some ((startFilter primed).stream [text]).reasoning,
       ((startFilter primed).stream [text]).content) :=
  rfl

/-- **Independence of chunking.** From either start state, the content and the reasoning that a
stream of fragments emits are those of the whole text in one piece, those that
`split_reasoning_and_content` returns, and those of the reference scan. -/
theorem stream_eq_reference (primed : Bool) (fragments : List (List Char)) :
    (startFilter primed).stream fragments = (startFilter primed).stream [fragments.flatten] ∧
      (startFilter primed).stream fragments =
        reference (startFilter primed).state fragments.flatten ∧
      splitReasoningAndContent fragments.flatten primed =
        (if ((startFilter primed).stream fragments).reasoning = [] then none
          else some ((startFilter primed).stream fragments).reasoning,
         ((startFilter primed).stream fragments).content) := by
  have hone : (startFilter primed).stream fragments =
      (startFilter primed).stream [fragments.flatten] := by
    rw [stream_startFilter, stream_startFilter, flatten_singleton]
  refine ⟨hone, ?_, ?_⟩
  · rw [stream_startFilter, reference_eq_route]
  · rw [splitReasoningAndContent_eq, hone]

end Mlxcel.ToolCalls
