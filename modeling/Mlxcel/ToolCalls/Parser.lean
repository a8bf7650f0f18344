import Mlxcel.ToolCalls.Formats

/-!
# Parsing tool calls out of a finished generation

`parse_tool_calls` strips thinking blocks, then tries the formats in turn; when none of them finds
a call of an offered tool, it returns the text with its structural markers deleted.

A request's tools are the names of their functions.
-/

namespace Mlxcel.ToolCalls

open Str

variable {ν : Type}

/-! ## Markers -/

/-- `<think>`. -/
def thinkOpen : List Char := "<think>".toList

/-- `</think>`. -/
def thinkClose : List Char := "</think>".toList

/-- `<|channel>`. -/
def channelOpen : List Char := "<|channel>".toList

/-- `<channel|>`. -/
def channelClose : List Char := "<channel|>".toList

/-- The namespace prefix of MiniMax-M3. -/
def minimaxNamespace : List Char := "]<]minimax[>[".toList

/-! ## Stripping -/

/-- A closing marker with no opening marker before it closes a block that the prompt opened:
everything up to it goes. -/
def stripPrimed (tagOpen tagClose result : List Char) : List Char :=
  match find tagClose result with
  | some closePos =>
    if contains tagOpen (result.take closePos) then result
    else result.drop (closePos + tagClose.length)
  | none => result

/-- The blocks from an opening marker to the next closing marker go; an unclosed block reaches to
the end. -/
def stripBalanced (tagOpen tagClose : List Char) (hclose : tagClose ≠ []) (remaining : List Char) :
    List Char :=
  match find tagOpen remaining with
  | none => remaining
  | some start =>
    match _hend : find tagClose (remaining.drop start) with
    | some e =>
      remaining.take start ++
        stripBalanced tagOpen tagClose hclose (remaining.drop (start + e + tagClose.length))
    | none => remaining.take start
termination_by remaining.length
decreasing_by
  have hle := find_add_length_le _hend
  have hpos := List.length_pos_of_ne_nil hclose
  rw [List.length_drop] at hle ⊢
  omega

def stripThinking (text : List Char) : List Char :=
  let result := stripPrimed thinkOpen thinkClose text
  let result := stripPrimed channelOpen channelClose result
  let result := stripBalanced thinkOpen thinkClose (by decide) result
  stripBalanced channelOpen channelClose (by decide) result

/-- The markers that `clean_content_markers` deletes, in its order. -/
def contentMarkers : List (List Char) :=
  ["<turn|>".toList, "<|turn>".toList, "<|think|>".toList, channelClose, channelOpen,
   "<|tool_call>".toList, "<tool_call|>".toList, minimaxNamespace]

def cleanContentMarkers (text : List Char) : List Char := trim (removeAll contentMarkers text)

/-! ## Dispatch -/

/-- The format parsers, in the order they are tried. -/
def parsers (serde : Serde ν) : List (List Char → Option ToolCallParseResult) :=
  [tryGranite serde, tryGemma4 serde, tryHermes serde, tryMinimaxM2 serde, tryMistralNemo serde,
   tryFunctionaryV31 serde, tryQwen3Coder serde, tryFunctionaryV32 serde, tryLlama3 serde,
   tryGenericJson serde, tryCommandR serde]

def filterByTools (calls : List ParsedToolCall) (tools : List (List Char)) : List ParsedToolCall :=
  calls.filter fun call => call.name ∈ tools

/-- A parser's result with the calls of offered tools, if there are any. -/
def offeredCalls (tools : Option (List (List Char))) (result : ToolCallParseResult) :
    Option ToolCallParseResult :=
  let result :=
    match tools with
    | some tools => { result with toolCalls := filterByTools result.toolCalls tools }
    | none => result
  if result.hasToolCalls then some result else none

/-- The text that the formats see. -/
def parsedText (rawOutput : List Char) : List Char :=
  trim (replace minimaxNamespace [] (stripThinking rawOutput))

def parseToolCalls (serde : Serde ν) (rawOutput : List Char) (tools : Option (List (List Char))) :
    ToolCallParseResult :=
  let text := parsedText rawOutput
  if text = [] then .noCalls []
  else
    match (parsers serde).findSome? fun parser => (parser text).bind (offeredCalls tools) with
    | some result => result
    | none => .noCalls (cleanContentMarkers text)

end Mlxcel.ToolCalls
