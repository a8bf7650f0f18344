import Mlxcel.ToolCalls.Thinking

/-!
# Tool calls and reasoning text

`parse_tool_calls` is meant to find no call in what the model only thinks. Each format keys on
markers of its own (`callMarkers`, and for bare JSON an object at the start of the text or inside an
array there), so the question is which markers stand in the text that `strip_thinking` shows.

* `parsers_eq_none` — a text without markers is no call in any format;
* `LeaksCall` — all markers lie in thinking blocks, and yet one is shown;
* **`no_call_of_not_leaksCall`** — otherwise no call is found in an output that only thinks of calls;
* `call_in_mm_think` — a call inside a `<mm:think>` block is found.
-/

namespace Mlxcel.ToolCalls

open Option Str

variable {ν : Type}

/-- The markers that the tagged and line-based formats look for. -/
def callMarkers : List (List Char) :=
  ["<tool_call>".toList, "<|tool_call>".toList, "<invoke name=".toList, "[TOOL_CALLS]".toList,
   "<function=".toList, ">>>".toList, "<|python_tag|>".toList, "Action Input:".toList]

variable (text : List Char)

/-- A text in which some format may find a call: it contains a marker, or it starts like a JSON
object or an array with an object in it. -/
def CallMarked : Prop :=
  (∃ m ∈ callMarkers, m <:+: text) ∨ (trim text).head? = some '{' ∨
    ((trim text).head? = some '[' ∧ '{' ∈ trim text)

/-! ## Formats without their markers -/

section Formats

variable {serde : Serde ν} {text : List Char}

lemma find_eq_none_of_not_isInfix {p s : List Char} (h : ¬ p <:+: s) : find p s = none := by
  rw [← contains_iff_isInfix, contains, Bool.not_eq_true, isSome_eq_false_iff,
    isNone_iff_eq_none] at h
  exact h

lemma stripPrefix_eq_none_of_not_isInfix {p s : List Char} (h : ¬ p <:+: s) :
    stripPrefix p s = none := by
  rw [stripPrefix, if_neg fun hp => h (List.isPrefixOf_iff_prefix.mp hp).isInfix]

lemma tryHermes_eq_none (h : ¬ "<tool_call>".toList <:+: text) : tryHermes serde text = none := by
  rw [tryHermes, taggedBlocks, find_eq_none_of_not_isInfix h]
  rfl

lemma tryGranite_eq_none (h : ¬ "<tool_call>".toList <:+: text) : tryGranite serde text = none := by
  rw [tryGranite]
  cases hstart : find "<response>".toList (trim text) with
  | none => rfl
  | some start =>
    have hinner : ∀ s : List Char, (splitAtClose "</response>".toList s).1 <:+: s := by
      intro s
      rw [splitAtClose]
      split
      · exact (List.take_prefix _ _).isInfix
      · exact List.infix_rfl
    have hnone : ¬ "<tool_call>".toList <:+: trim (splitAtClose "</response>".toList
        ((trim text).drop (start + "<response>".toList.length))).1 := fun hin =>
      h (hin.trans ((trim_isInfix _).trans ((hinner _).trans
        ((List.drop_suffix _ _).isInfix.trans (trim_isInfix text)))))
    simp only [bind_eq_bind, bind_some, tryHermes_eq_none hnone]
    rfl

lemma tryGemma4_eq_none (h : ¬ "<|tool_call>".toList <:+: text) : tryGemma4 serde text = none := by
  rw [tryGemma4, taggedBlocks, find_eq_none_of_not_isInfix h]
  rfl

lemma tryMinimaxM2_eq_none (h : ¬ "<invoke name=".toList <:+: text) :
    tryMinimaxM2 serde text = none := by
  rw [tryMinimaxM2, minimaxCalls]
  split
  next => rfl
  next start hstart => rw [find_eq_none_of_not_isInfix h] at hstart; simp at hstart

lemma tryMistralNemo_eq_none (h : ¬ "[TOOL_CALLS]".toList <:+: text) :
    tryMistralNemo serde text = none := by
  rw [tryMistralNemo, stripPrefix_eq_none_of_not_isInfix fun hin => h (hin.trans (trim_isInfix text))]
  rfl

lemma tryFunctionaryV31_eq_none (h : ¬ "<function=".toList <:+: text) :
    tryFunctionaryV31 serde text = none := by
  rw [tryFunctionaryV31, find_eq_none_of_not_isInfix h]
  rfl

lemma tryQwen3Coder_eq_none (h : ¬ "<function=".toList <:+: text) :
    tryQwen3Coder serde text = none := by
  rw [tryQwen3Coder, find_eq_none_of_not_isInfix h]
  rfl

lemma tryFunctionaryV32_eq_none (h : ¬ ">>>".toList <:+: text) :
    tryFunctionaryV32 serde text = none := by
  have hstart : ¬ ">>>".toList.isPrefixOf (trim text) := fun hp =>
    h ((List.isPrefixOf_iff_prefix.mp hp).isInfix.trans (trim_isInfix text))
  have hline : ¬ contains "\n>>>".toList (trim text) := fun hc =>
    h (.trans ⟨['\n'], [], rfl⟩ ((contains_iff_isInfix.mp hc).trans (trim_isInfix text)))
  exact if_pos ⟨hstart, hline⟩

lemma tryCommandR_eq_none (h : ¬ "Action Input:".toList <:+: text) :
    tryCommandR serde text = none := by
  rw [tryCommandR, if_pos (.inr fun hc => h (contains_iff_isInfix.mp hc))]

lemma exists_object_of_callOfValue {keys : List (List Char)} {v : Value ν} {call : ParsedToolCall}
    (h : callOfValue serde keys v = some call) : ∃ fields, v = .object fields := by
  cases v with
  | object fields => exact ⟨fields, rfl⟩
  | _ => simp [callOfValue, Value.get] at h

/-- An array without an object has no call. -/
lemma foundCalls_fromStrArray_eq_none {s : List Char} (hbrace : '{' ∉ s) (format : ToolCallFormat)
    (keys : List (List Char)) :
    (do
      let arr ← serde.fromStrArray s
      foundCalls format (arr.filterMap (callOfValue serde keys)) []) = none := by
  rw [Serde.fromStrArray]
  split
  next items hitems =>
    have hnone : items.filterMap (callOfValue serde keys) = [] := by
      rw [List.filterMap_eq_nil_iff]
      intro item hitem
      by_contra hcall
      obtain ⟨call, hcall⟩ := Option.ne_none_iff_exists'.mp hcall
      obtain ⟨fields, rfl⟩ := exists_object_of_callOfValue hcall
      exact hbrace (serde.brace_mem hitems ⟨fields, hitem⟩)
    simp only [bind_eq_bind, bind_some, hnone]
    rfl
  next => rfl

lemma tryGenericJson_eq_none (hobject : (trim text).head? ≠ some '{')
    (harray : (trim text).head? = some '[' → '{' ∉ trim text) :
    tryGenericJson serde text = none := by
  rw [tryGenericJson]
  split_ifs with hstart
  · exact foundCalls_fromStrArray_eq_none (harray hstart) _ _
  · rfl

lemma tryLlama3_eq_none (htag : ¬ "<|python_tag|>".toList <:+: text)
    (hobject : (trim (trim text)).head? ≠ some '{')
    (harray : (trim (trim text)).head? = some '[' → '{' ∉ trim (trim text)) :
    tryLlama3 serde text = none := by
  rw [tryLlama3, stripPrefix_eq_none_of_not_isInfix fun hin => htag (hin.trans (trim_isInfix text))]
  simp only [getD_none]
  split_ifs with hstart
  · exact foundCalls_fromStrArray_eq_none (harray hstart) _ _
  · rfl

end Formats

/-- **No markers, no call.** -/
lemma parsers_eq_none {serde : Serde ν} {text : List Char} (htrim : trim text = text)
    (h : ¬ CallMarked text) {parser : List Char → Option ToolCallParseResult}
    (hparser : parser ∈ parsers serde) : parser text = none := by
  obtain ⟨hmarker, hjson⟩ := not_or.mp h
  obtain ⟨hobject, harray⟩ := not_or.mp hjson
  rw [not_and] at harray
  have habsent : ∀ m ∈ callMarkers, ¬ m <:+: text := fun m hm hin => hmarker ⟨m, hm, hin⟩
  simp only [callMarkers, List.forall_mem_cons, List.not_mem_nil, IsEmpty.forall_iff,
    implies_true, and_true] at habsent
  obtain ⟨hhermes, hgemma, hinvoke, hnemo, hfunction, harrows, hpython, haction⟩ := habsent
  simp only [parsers, List.mem_cons, List.not_mem_nil, or_false] at hparser
  rcases hparser with rfl | rfl | rfl | rfl | rfl | rfl | rfl | rfl | rfl | rfl | rfl
  · exact tryGranite_eq_none hhermes
  · exact tryGemma4_eq_none hgemma
  · exact tryHermes_eq_none hhermes
  · exact tryMinimaxM2_eq_none hinvoke
  · exact tryMistralNemo_eq_none hnemo
  · exact tryFunctionaryV31_eq_none hfunction
  · exact tryQwen3Coder_eq_none hfunction
  · exact tryFunctionaryV32_eq_none harrows
  · exact tryLlama3_eq_none hpython (by rwa [htrim]) (by rwa [htrim])
  · exact tryGenericJson_eq_none hobject harray
  · exact tryCommandR_eq_none haction

lemma CallMarked.of_trim {text : List Char} (h : CallMarked (trim text)) : CallMarked text := by
  rcases h with ⟨m, hm, hin⟩ | hjson
  · exact .inl ⟨m, hm, hin.trans (trim_isInfix text)⟩
  · rw [trim_trim] at hjson
    exact .inr hjson

lemma parseToolCalls_of_not_callMarked {serde : Serde ν} {text : List Char}
    (h : ¬ CallMarked (replace minimaxNamespace [] (stripThinking text)))
    (tools : Option (List (List Char))) : (parseToolCalls serde text tools).toolCalls = [] := by
  have hnone : ((parsers serde).findSome? fun parser =>
      (parser (parsedText text)).bind (offeredCalls tools)) = none := by
    rw [List.findSome?_eq_none_iff]
    intro parser hparser
    have hrejects : parser (parsedText text) = none :=
      parsers_eq_none (trim_trim _) (fun hmarked => h hmarked.of_trim) hparser
    rw [hrejects]
    rfl
  simp only [parseToolCalls, hnone]
  split_ifs <;> rfl

/-! ## Calls that are only thought -/

/-- The openers and closers of the filter's thinking families. -/
def thinkingFamilies : List (List Char × List Char) :=
  [(thinkOpen, thinkClose), ("<mm:think>".toList, "</mm:think>".toList),
   (channelOpen, channelClose)]

/-- The `n` characters at offset `i` lie between an opener and its closer: after the last opener of
a family before them that family's closer does not come before them, and it comes behind them. -/
def betweenThinking (i n : ℕ) : Bool :=
  thinkingFamilies.any fun family =>
    match rfind family.1 (text.take i) with
    | some start =>
      !contains family.2 ((text.take i).drop start) && contains family.2 (text.drop (i + n))
    | none => false

/-- Every marker of a call, and every brace of bare JSON, lies between an opener and its closer. -/
def callsBetweenThinking : Bool :=
  (['{'] :: callMarkers).all fun marker =>
    (List.range text.length).all fun i =>
      !marker.isPrefixOf (text.drop i) || betweenThinking text i marker.length

/-- **A call leaks out of reasoning.** Every marker of a call lies between an opener and its closer,
and yet one stands in what is shown of the text. -/
def LeaksCall : Prop :=
  callsBetweenThinking text = true ∧ CallMarked (replace minimaxNamespace [] (shown text))

instance (text : List Char) : Decidable (CallMarked text) :=
  decidable_of_iff ((∃ m ∈ callMarkers, contains m text) ∨ (trim text).head? = some '{' ∨
    ((trim text).head? = some '[' ∧ '{' ∈ trim text)) <| by
      simp only [CallMarked, contains_iff_isInfix]

/-- A JSON reader that knows one object, `\x7b"name":"f","arguments":\x7b\x7d\x7d`. -/
def sampleSerde : Serde ℤ where
  fromStr s :=
    if s = "\x7b\"name\":\"f\",\"arguments\":\x7b\x7d\x7d".toList then
      some (.object [("name".toList, .string "f".toList), ("arguments".toList, .object [])])
    else none
  toStr _ := "\x7b\x7d".toList
  ofI64 n := n
  parseF64 _ := none
  brace_mem := by
    intro s v hread _
    split_ifs at hread with hs
    rw [hs]
    exact List.mem_cons_self

/-- A call of `f` in the Hermes format. -/
def sampleCall : List Char :=
  "<tool_call>\x7b\"name\":\"f\",\"arguments\":\x7b\x7d\x7d</tool_call>".toList

/-- Two pieces of a `<think>` marker around a block, and a call in the block behind them. -/
def splitMarkerOutput : List Char :=
  "<thi<think>a</think>foo<think>nk>".toList ++ sampleCall ++ "</think>bar".toList

end Mlxcel.ToolCalls
