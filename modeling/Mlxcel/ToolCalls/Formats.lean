import Mlxcel.ToolCalls.Json

/-!
# Tool-call formats

The eleven format parsers of `formats.rs`. Each takes the model output and returns the calls it
finds, or `none` when the format does not match.

The loops of the source that repeatedly search a text for the next opening tag are functions of
the text that is left, `remaining`. The recursion of the Gemma 4 argument converter is bounded by
the length of its input.
-/

namespace Mlxcel.ToolCalls

open List Str Option

variable {ν : Type}

/-- A call found in the model output: the function's name and its arguments as JSON text. -/
structure ParsedToolCall where
  name : List Char
  arguments : List Char
  deriving DecidableEq, Repr

/-- The format of a call. -/
inductive ToolCallFormat
  | hermes | llama3 | mistralNemo | functionaryV31 | functionaryV32 | commandR | granite | gemma4
  | genericJson | minimaxM2 | qwen3Coder
  deriving DecidableEq, Repr

/-- What a parser returns: the format, the calls and the text around them. -/
structure ToolCallParseResult where
  format : Option ToolCallFormat
  toolCalls : List ParsedToolCall
  content : List Char
  deriving DecidableEq, Repr

/-- `ToolCallParseResult::none`. -/
def ToolCallParseResult.noCalls (content : List Char) : ToolCallParseResult :=
  { format := none, toolCalls := [], content }

def ToolCallParseResult.hasToolCalls (r : ToolCallParseResult) : Bool := !r.toolCalls.isEmpty

/-- The result of a parser that found `calls`; no calls is no match. -/
def foundCalls (format : ToolCallFormat) (calls : List ParsedToolCall) (content : List Char) :
    Option ToolCallParseResult :=
  if calls = [] then none else some { format := some format, toolCalls := calls, content }

/-- The text up to a closing tag and the text behind it; without one, all of the text. -/
def splitAtClose (close s : List Char) : List Char × List Char :=
  match find close s with
  | some e => (s.take e, s.drop (e + close.length))
  | none => (s, [])

lemma length_splitAtClose_snd (close s : List Char) : (splitAtClose close s).2.length ≤ s.length := by
  rw [splitAtClose]
  split <;> simp

/-! ## Tagged blocks: Hermes, Granite and Gemma 4 -/

/-- The calls of the blocks between an opening and a closing tag; a block without a closing tag
reaches to the end. -/
def taggedCalls (tagOpen tagClose : List Char) (hopen : tagOpen ≠ [])
    (parse : List Char → Option ParsedToolCall) (remaining : List Char) : List ParsedToolCall :=
  match _hstart : find tagOpen remaining with
  | none => []
  | some start =>
    let block := splitAtClose tagClose (remaining.drop (start + tagOpen.length))
    (parse (trim block.1)).toList ++ taggedCalls tagOpen tagClose hopen parse block.2
termination_by remaining.length
decreasing_by
  have hle := find_add_length_le _hstart
  have hpos := length_pos_of_ne_nil hopen
  have hrest := length_splitAtClose_snd tagClose (remaining.drop (start + tagOpen.length))
  rw [length_drop] at hrest
  omega

/-- The text before the first opening tag, and the calls from there on. -/
def taggedBlocks (tagOpen tagClose : List Char) (hopen : tagOpen ≠ [])
    (parse : List Char → Option ParsedToolCall) (text : List Char) :
    Option (List Char × List ParsedToolCall) :=
  match find tagOpen text with
  | none => none
  | some firstPos =>
    some (trim (text.take firstPos), taggedCalls tagOpen tagClose hopen parse (text.drop firstPos))

variable (serde : Serde ν)

/-- The call that a JSON value describes: its `name` and the first of the `keys` that it has. -/
def callOfValue (keys : List (List Char)) (v : Value ν) : Option ParsedToolCall := do
  let name ← (← v.get "name".toList).asStr
  let arguments ← keys.findSome? v.get
  some { name, arguments := serde.argumentsText arguments }

def parseHermesJson (jsonStr : List Char) : Option ParsedToolCall := do
  callOfValue serde ["arguments".toList] (← serde.fromStr jsonStr)

def tryHermes (text : List Char) : Option ToolCallParseResult := do
  let (content, calls) ←
    taggedBlocks "<tool_call>".toList "</tool_call>".toList (by decide) (parseHermesJson serde) text
  foundCalls .hermes calls content

/-- `try_granite`: the Hermes blocks inside `<response>`, with the text before it. -/
def tryGranite (text : List Char) : Option ToolCallParseResult := do
  let trimmed := trim text
  let start ← find "<response>".toList trimmed
  let inner := (splitAtClose "</response>".toList
    (trimmed.drop (start + "<response>".toList.length))).1
  let before := trim (trimmed.take start)
  let result ← tryHermes serde (trim inner)
  let content :=
    if before = [] then result.content
    else if result.content = [] then before
    else before ++ '\n' :: result.content
  some { result with content, format := some .granite }

/-! ## Gemma 4 -/

/-- The string delimiter of Gemma 4 arguments. -/
def gemmaQuote : List Char := "<|\"|>".toList

/-- The placeholder that stands for it while an argument list is cut. -/
def strDelim : List Char := "<|\"|\u200b>".toList

def escapeJsonString (s : List Char) : List Char :=
  s.flatMap fun ch =>
    if ch = '"' then ['\\', '"']
    else if ch = '\\' then ['\\', '\\']
    else if ch = '\n' then ['\\', 'n']
    else if ch = '\r' then ['\\', 'r']
    else if ch = '\t' then ['\\', 't']
    else if ch.toNat < 0x20 then
      ['\\', 'u', '0', '0', Nat.digitChar (ch.toNat / 16), Nat.digitChar (ch.toNat % 16)]
    else [ch]

/-- `split_top_level_commas`, in the middle of a part: the symbols of a delimiter still to be
skipped, the bracket depth, whether a string is open, and the part so far. -/
def splitCommasFrom (skip : ℕ) (depth : ℤ) (inString : Bool) (part : List Char) :
    List Char → List (List Char)
  | [] => if part = [] then [] else [part]
  | a :: s =>
    match skip with
    | skip + 1 => splitCommasFrom skip depth inString (part ++ [a]) s
    | 0 =>
      if strDelim.isPrefixOf (a :: s) then
        splitCommasFrom (strDelim.length - 1) depth (!inString) (part ++ [a]) s
      else if inString then splitCommasFrom 0 depth inString (part ++ [a]) s
      else if a = '{' ∨ a = '[' then splitCommasFrom 0 (depth + 1) inString (part ++ [a]) s
      else if a = '}' ∨ a = ']' then splitCommasFrom 0 (depth - 1) inString (part ++ [a]) s
      else if a = ',' ∧ depth = 0 then part :: splitCommasFrom 0 depth inString [] s
      else splitCommasFrom 0 depth inString (part ++ [a]) s

def splitTopLevelCommas (s : List Char) : List (List Char) := splitCommasFrom 0 0 false [] s

/-- A string value between delimiters, as JSON text; an unterminated one reaches to the end. -/
def gemmaString (raw : List Char) : List Char :=
  let withoutOpen := raw.drop strDelim.length
  let content := (rfind strDelim withoutOpen).elim withoutOpen fun e => withoutOpen.take e
  '"' :: escapeJsonString content ++ ['"']

/-- The parts joined with commas. -/
def joinCommas (parts : List (List Char)) : List Char := [','].intercalate parts

mutual

def gemma4ArgsToJson : ℕ → List Char → Option (List Char)
  | 0, _ => none
  | fuel + 1, args => do
    let inner := trim (← stripSuffix ['}'] (← stripPrefix ['{'] args))
    if inner = [] then return ['{', '}']
    let pairs := splitTopLevelCommas (replace gemmaQuote strDelim inner)
    let jsonPairs ← ((pairs.map trim).filter (· ≠ [])).mapM fun pair => do
      let colonPos ← find [':'] pair
      let key := trim (pair.take colonPos)
      let jsonValue ← gemma4ValueToJson fuel (trim (pair.drop (colonPos + 1)))
      some ('"' :: escapeJsonString key ++ ['"', ':'] ++ jsonValue)
    return '{' :: joinCommas jsonPairs ++ ['}']

def gemma4ArrayToJson : ℕ → List Char → Option (List Char)
  | 0, _ => none
  | fuel + 1, arr => do
    let inner := trim (← stripSuffix [']'] (← stripPrefix ['['] arr))
    if inner = [] then return ['[', ']']
    let items := splitTopLevelCommas (replace gemmaQuote strDelim inner)
    let jsonItems ← (items.map trim).mapM (gemma4ValueToJson fuel)
    return '[' :: joinCommas jsonItems ++ [']']

/-- One value of an argument list or an array: a string, a nested object or array with its
delimiters restored, or a literal passed through. -/
def gemma4ValueToJson : ℕ → List Char → Option (List Char)
  | 0, _ => none
  | fuel + 1, raw =>
    if strDelim.isPrefixOf raw then some (gemmaString raw)
    else if raw.head? = some '{' then gemma4ArgsToJson fuel (replace strDelim gemmaQuote raw)
    else if raw.head? = some '[' then gemma4ArrayToJson fuel (replace strDelim gemmaQuote raw)
    else some raw

end

variable (serde : Serde ν) (body text : List Char)

def parseGemma4Block (block : List Char) : Option ParsedToolCall := do
  let rest ← stripPrefix "call:".toList block
  let bracePos ← find ['{'] rest
  let name := trim (rest.take bracePos)
  if name = [] then none
  let argsWithBrace := trim (rest.drop bracePos)
  let arguments ← gemma4ArgsToJson (2 * argsWithBrace.length + 1) argsWithBrace
  let _ ← serde.fromStr arguments
  some { name, arguments }

/-- Delete the occurrences of markers, one marker after the other. -/
def removeAll (markers : List (List Char)) (text : List Char) : List Char :=
  markers.foldl (fun s marker => replace marker [] s) text

def tryGemma4 : Option ToolCallParseResult := do
  let (content, calls) ←
    taggedBlocks "<|tool_call>".toList "<tool_call|>".toList (by decide) (parseGemma4Block serde)
      text
  foundCalls .gemma4 calls
    (trim (removeAll ["<turn|>".toList, "<|turn>".toList, "<|think|>".toList, "<channel|>".toList,
      "<|channel>".toList] content))

/-! ## Parameters in XML-like tags: MiniMax and Qwen3-Coder -/

/-- `MINIMAX_M2_MAX_CALLS`, `MINIMAX_M2_MAX_PARAMS_PER_CALL` and their Qwen3-Coder counterparts. -/
def maxCalls : ℕ := 1024

/-- `extract_quoted_name`: a name without its quotes. -/
def extractQuotedName (s : List Char) : List Char :=
  let s := trim s
  if s.length ≥ 2 ∧ (s.head? = some '"' ∧ s.getLast? = some '"' ∨
      s.head? = some '\'' ∧ s.getLast? = some '\'') then
    (s.drop 1).take (s.length - 2)
  else s

/-- A parameter value: one line end at each side and then white space is cut off. -/
def paramValue (raw : List Char) : List Char :=
  let raw := (stripPrefix ['\n'] raw).getD raw
  trim ((stripSuffix ['\n'] raw).getD raw)

/-- The named parameters of a body, after `pairs` that are already there. A tag that is never
closed with `>` ends the search, a value without a closing tag reaches to the end, a parameter
without a name is dropped, and the number of parameters is bounded. -/
def namedParams (serde : Serde ν) (paramOpen : List Char) (hopen : paramOpen ≠ [])
    (pairs : List (List Char × Value ν)) (remaining : List Char) : List (List Char × Value ν) :=
  match _hstart : find paramOpen remaining with
  | none => pairs
  | some start =>
    let afterTag := remaining.drop (start + paramOpen.length)
    match find ['>'] afterTag with
    | none => pairs
    | some gtPos =>
      let paramName := extractQuotedName (afterTag.take gtPos)
      let value := splitAtClose "</parameter>".toList (afterTag.drop (gtPos + 1))
      let pairs :=
        if paramName = [] then pairs
        else pairs ++ [(paramName, coerceMinimaxParam serde (paramValue value.1))]
      if pairs.length ≥ maxCalls then pairs
      else namedParams serde paramOpen hopen pairs value.2
termination_by remaining.length
decreasing_by
  have hle := find_add_length_le _hstart
  have hpos := length_pos_of_ne_nil hopen
  have hrest := length_splitAtClose_snd "</parameter>".toList (afterTag.drop (gtPos + 1))
  simp only [afterTag, length_drop] at hrest
  omega

def extractM2AttrParameters : List Char :=
  serde.toStr (objectOf (namedParams serde "<parameter name=".toList (by decide) [] body))

def extractQwenParameters : List Char :=
  serde.toStr (objectOf (namedParams serde "<parameter=".toList (by decide) [] body))

/-- `find_matching_m3_close_offset`, in the middle of the scan: the depth, the symbols of a tag
still to be skipped, and the offset. -/
def m3CloseFrom (tagOpen tagClose : List Char) : (depth skip pos : ℕ) → List Char → Option ℕ
  | _, _, _, [] => none
  | depth, skip + 1, pos, _ :: s => m3CloseFrom tagOpen tagClose depth skip (pos + 1) s
  | depth, 0, pos, a :: s =>
    if tagOpen.isPrefixOf (a :: s) then
      m3CloseFrom tagOpen tagClose (depth + 1) (tagOpen.length - 1) (pos + 1) s
    else if tagClose.isPrefixOf (a :: s) then
      if depth - 1 = 0 then some pos
      else m3CloseFrom tagOpen tagClose (depth - 1) (tagClose.length - 1) (pos + 1) s
    else m3CloseFrom tagOpen tagClose depth 0 (pos + 1) s

def findMatchingM3CloseOffset (body tagName : List Char) : Option ℕ :=
  m3CloseFrom ('<' :: tagName ++ ['>']) ('<' :: '/' :: tagName ++ ['>']) 1 0 0 body

/-- A tag name that MiniMax-M3 does not write: empty, or with attributes. -/
def attributedTag (tagName : List Char) : Bool :=
  tagName.isEmpty || tagName.any isWhitespace || tagName.any (· == '=')

/-- A tag that opens behind its `<`: name, value and the text behind the closing tag. -/
def m3Tag (afterLt : List Char) : Option (List Char × Option (List Char × List Char)) := do
  let gtOffset ← find ['>'] afterLt
  let tagName := afterLt.take gtOffset
  let body := afterLt.drop (gtOffset + 1)
  some (tagName, (findMatchingM3CloseOffset body tagName).map fun closeOffset =>
    (body.take closeOffset, body.drop (closeOffset + (tagName.length + 3))))

lemma length_of_m3Tag {afterLt tagName value rest : List Char}
    (h : m3Tag afterLt = some (tagName, some (value, rest))) : rest.length ≤ afterLt.length := by
  simp only [m3Tag, bind_eq_bind, bind_eq_some_iff, some.injEq,
    Prod.mk.injEq, map_eq_some_iff] at h
  obtain ⟨gtOffset, -, -, closeOffset, -, -, rfl⟩ := h
  simp

/-- `extract_m3_top_level_lenient`, after `pairs` that are already there. -/
def m3LenientFrom (pairs : List (List Char × List Char)) (remaining : List Char) :
    List (List Char × List Char) :=
  match _hlt : find ['<'] remaining with
  | none => pairs
  | some ltPos =>
    let afterLt := remaining.drop (ltPos + 1)
    match afterLt with
    | [] => pairs
    | next :: _ =>
      if next = '/' ∨ next = '!' ∨ next = '?' then m3LenientFrom pairs afterLt
      else
        match _htag : m3Tag afterLt with
        | none => pairs
        | some (tagName, matched) =>
          if attributedTag tagName then m3LenientFrom pairs afterLt
          else
            match matched with
            | none => pairs
            | some (value, rest) =>
              let pairs := pairs ++ [(tagName, value)]
              if pairs.length ≥ maxCalls then pairs else m3LenientFrom pairs rest
termination_by remaining.length
decreasing_by
  all_goals
    have hle := find_add_length_le _hlt
    simp only [length_singleton] at hle
  · simp only [length_drop]
    omega
  · simp only [length_drop]
    omega
  · have hrest := length_of_m3Tag _htag
    simp only [afterLt, length_drop] at hrest
    omega

/-- `decode_m3_top_level_tags`, after `pairs` that are already there: `none` as soon as the body is
not made of tag pairs only. -/
def m3StrictFrom (pairs : List (List Char × List Char)) (remaining : List Char) :
    Option (List (List Char × List Char)) :=
  match remaining with
  | [] => some pairs
  | a :: afterLt =>
    if a ≠ '<' then none
    else if afterLt.head? = none ∨ afterLt.head? = some '/' ∨ afterLt.head? = some '!' ∨
        afterLt.head? = some '?' then none
    else
      match _htag : m3Tag afterLt with
      | none => none
      | some (tagName, matched) =>
        if attributedTag tagName then none
        else
          match matched with
          | none => none
          | some (value, rest) =>
            let pairs := pairs ++ [(tagName, value)]
            if pairs.length ≥ maxCalls then some pairs else m3StrictFrom pairs (trim rest)
termination_by remaining.length
decreasing_by
  have hrest := length_of_m3Tag _htag
  have htrim := (trim_isInfix rest).length_le
  simp only [length_cons]
  omega

def decodeM3TopLevelTags : Option (List (List Char × List Char)) :=
  m3StrictFrom [] (trim body)

def m3MaxRecursionDepth : ℕ := 32

/-- `parse_m3_value`, with the levels of nesting that are still allowed. -/
def parseM3Value (serde : Serde ν) : (levels : ℕ) → List Char → Value ν
  | 0, body =>
    let trimmed := trim body
    if trimmed = [] then .string [] else coerceMinimaxParam serde trimmed
  | levels + 1, body =>
    let trimmed := trim body
    if trimmed = [] then .string []
    else
      match decodeM3TopLevelTags trimmed with
      | none | some [] => coerceMinimaxParam serde trimmed
      | some pairs =>
        if pairs.all fun pair => pair.1 = "item".toList then
          .array (pairs.map fun pair => parseM3Value serde levels pair.2)
        else objectOf (pairs.map fun pair => (pair.1, parseM3Value serde levels pair.2))

def extractM3TagParameters : List Char :=
  match m3LenientFrom [] body with
  | [] => ['{', '}']
  | pairs => serde.toStr (objectOf (pairs.map fun pair =>
    (pair.1, parseM3Value serde m3MaxRecursionDepth pair.2)))

/-- `extract_minimax_parameters`: the attribute form, and the tag form if it has none. -/
def extractMinimaxParameters : List Char :=
  let m2 := extractM2AttrParameters serde body
  if m2 ≠ ['{', '}'] then m2 else extractM3TagParameters serde body

/-- The loop of `try_minimax_m2`, after `calls` that are already there. -/
def minimaxCalls (serde : Serde ν) (calls : List ParsedToolCall) (remaining : List Char) :
    List ParsedToolCall :=
  match _hstart : find "<invoke name=".toList remaining with
  | none => calls
  | some start =>
    let afterTag := remaining.drop (start + "<invoke name=".toList.length)
    match find ['>'] afterTag with
    | none => calls
    | some nameEnd =>
      let functionName := extractQuotedName (afterTag.take nameEnd)
      if functionName = [] then minimaxCalls serde calls (afterTag.drop (nameEnd + 1))
      else
        let body := splitAtClose "</invoke>".toList (afterTag.drop (nameEnd + 1))
        let calls := calls ++
          [{ name := functionName, arguments := extractMinimaxParameters serde body.1 }]
        if calls.length ≥ maxCalls then calls else minimaxCalls serde calls body.2
termination_by remaining.length
decreasing_by
  all_goals
    have hle := find_add_length_le _hstart
    have hpos : 0 < "<invoke name=".toList.length := by decide
  · simp only [length_drop]
    omega
  · have hrest := length_splitAtClose_snd "</invoke>".toList (afterTag.drop (nameEnd + 1))
    simp only [afterTag, length_drop] at hrest
    omega

def tryMinimaxM2 : Option ToolCallParseResult :=
  foundCalls .minimaxM2 (minimaxCalls serde [] text) []

/-- The loop of `try_qwen3_coder`, after `calls` that are already there. -/
def qwenCalls (serde : Serde ν) (calls : List ParsedToolCall) (remaining : List Char) :
    List ParsedToolCall :=
  match _hstart : find "<function=".toList remaining with
  | none => calls
  | some start =>
    let afterTag := remaining.drop (start + "<function=".toList.length)
    match find ['>'] afterTag with
    | none => calls
    | some nameEnd =>
      let functionName := extractQuotedName (afterTag.take nameEnd)
      let body := splitAtClose "</function>".toList (afterTag.drop (nameEnd + 1))
      let calls :=
        if functionName = [] then calls
        else calls ++ [{ name := functionName, arguments := extractQwenParameters serde body.1 }]
      if calls.length ≥ maxCalls then calls else qwenCalls serde calls body.2
termination_by remaining.length
decreasing_by
  have hle := find_add_length_le _hstart
  have hpos : 0 < "<function=".toList.length := by decide
  have hrest := length_splitAtClose_snd "</function>".toList (afterTag.drop (nameEnd + 1))
  simp only [afterTag, length_drop] at hrest
  omega

/-- `try_qwen3_coder`: the text before the calls ends at a `<tool_call>` wrapper. -/
def tryQwen3Coder : Option ToolCallParseResult := do
  let fnPos ← find "<function=".toList text
  let boundary :=
    match find "<tool_call>".toList text with
    | some tc => if tc < fnPos then tc else fnPos
    | none => fnPos
  foundCalls .qwen3Coder (qwenCalls serde [] (text.drop fnPos)) (trim (text.take boundary))

/-! ## Bare JSON: Mistral Nemo, Llama 3 and generic -/

def tryMistralNemo : Option ToolCallParseResult := do
  let jsonPart := trim (← stripPrefix "[TOOL_CALLS]".toList (trim text))
  let arr ← serde.fromStrArray jsonPart
  foundCalls .mistralNemo (arr.filterMap (callOfValue serde ["arguments".toList])) []

/-- `parse_llama3_value`: `parameters` before `arguments`. -/
def parseLlama3Value : Value ν → Option ParsedToolCall :=
  callOfValue serde ["parameters".toList, "arguments".toList]

def tryLlama3 : Option ToolCallParseResult :=
  let cleaned := trim ((stripPrefix "<|python_tag|>".toList (trim text)).getD (trim text))
  if cleaned.head? = some '[' then do
    let arr ← serde.fromStrArray cleaned
    foundCalls .llama3 (arr.filterMap (parseLlama3Value serde)) []
  else if cleaned.head? = some '{' then do
    let call ← parseLlama3Value serde (← serde.fromStr cleaned)
    foundCalls .llama3 [call] []
  else none

/-- `parse_generic_value`: `arguments` before `parameters`. -/
def parseGenericValue : Value ν → Option ParsedToolCall :=
  callOfValue serde ["arguments".toList, "parameters".toList]

def tryGenericJson : Option ToolCallParseResult :=
  let trimmed := trim text
  if trimmed.head? = some '[' then do
    let arr ← serde.fromStrArray trimmed
    foundCalls .genericJson (arr.filterMap (parseGenericValue serde)) []
  else if trimmed.head? = some '{' then do
    let call ← parseGenericValue serde (← serde.fromStr trimmed)
    foundCalls .genericJson [call] []
  else none

/-! ## Functionary and Command R -/

/-- A call whose arguments are the given text, if that is JSON. -/
def callWithJson (name jsonStr : List Char) : List ParsedToolCall :=
  if (serde.fromStr jsonStr).isSome then [{ name, arguments := jsonStr }] else []

/-- The loop of `try_functionary_v31`: a tag without `>` is skipped. -/
def functionaryV31Calls (serde : Serde ν) (remaining : List Char) : List ParsedToolCall :=
  match _hstart : find "<function=".toList remaining with
  | none => []
  | some start =>
    let afterTag := remaining.drop (start + "<function=".toList.length)
    match find ['>'] afterTag with
    | none => functionaryV31Calls serde afterTag
    | some nameEnd =>
      let body := splitAtClose "</function>".toList (afterTag.drop (nameEnd + 1))
      callWithJson serde (afterTag.take nameEnd) (trim body.1) ++ functionaryV31Calls serde body.2
termination_by remaining.length
decreasing_by
  all_goals
    have hle := find_add_length_le _hstart
    have hpos : 0 < "<function=".toList.length := by decide
  · simp only [length_drop]
    omega
  · have hrest := length_splitAtClose_snd "</function>".toList (afterTag.drop (nameEnd + 1))
    simp only [afterTag, length_drop] at hrest
    omega

def tryFunctionaryV31 : Option ToolCallParseResult := do
  let firstPos ← find "<function=".toList text
  foundCalls .functionaryV31 (functionaryV31Calls serde (text.drop firstPos))
    (trim (text.take firstPos))

/-- What `try_functionary_v32` keeps from line to line. -/
structure V32Lines where
  calls : List ParsedToolCall := []
  content : List Char := []
  foundFirst : Bool := false
  currentName : Option (List Char) := none
  currentArgsLines : List (List Char) := []

/-- A line added to the content before the first call. -/
def pushContentLine (content line : List Char) : List Char :=
  if content = [] then line else content ++ '\n' :: line

/-- The pending call, if there is one and its lines are JSON. -/
def V32Lines.flush (st : V32Lines) : V32Lines :=
  match st.currentName with
  | none => st
  | some name =>
    let jsonStr := trim (['\n'].intercalate st.currentArgsLines)
    { st with
      calls := st.calls ++ callWithJson serde name jsonStr
      currentName := none
      currentArgsLines := [] }

/-- One line: a header starts a segment, any other line belongs to the segment or to the content
before the first one. -/
def V32Lines.step (st : V32Lines) (line : List Char) : V32Lines :=
  match stripPrefix ">>>".toList line with
  | some stripped =>
    let st := st.flush serde
    let name := trim stripped
    { st with
      foundFirst := true
      currentName := if name ≠ "all".toList ∧ name ≠ [] then some name else none }
  | none =>
    if st.foundFirst then
      if st.currentName.isSome then
        { st with currentArgsLines := st.currentArgsLines ++ [line] }
      else st
    else { st with content := pushContentLine st.content line }

/-- `try_functionary_v32`: a header stands at the start of a line. -/
def tryFunctionaryV32 : Option ToolCallParseResult :=
  let trimmed := trim text
  if ¬ ">>>".toList.isPrefixOf trimmed ∧ ¬ contains "\n>>>".toList trimmed then none
  else
    let st := ((lines trimmed).foldl (V32Lines.step serde) {}).flush serde
    foundCalls .functionaryV32 st.calls (trim st.content)

/-- What `try_command_r` keeps from line to line. -/
structure CommandRLines where
  calls : List ParsedToolCall := []
  content : List Char := []
  foundFirst : Bool := false
  pendingName : Option (List Char) := none

/-- One line: an action, its input, or content before the first action. -/
def CommandRLines.step (st : CommandRLines) (line : List Char) : CommandRLines :=
  match stripPrefix "Action:".toList (trim line) with
  | some name => { st with pendingName := some (trim name), foundFirst := true }
  | none =>
    match stripPrefix "Action Input:".toList (trim line) with
    | some jsonPart =>
      match st.pendingName with
      | some name =>
        { st with
          calls := st.calls ++ callWithJson serde name (trim jsonPart)
          pendingName := none }
      | none => st
    | none =>
      if st.foundFirst then st
      else { st with content := pushContentLine st.content line }

def tryCommandR : Option ToolCallParseResult :=
  if ¬ contains "Action:".toList text ∨ ¬ contains "Action Input:".toList text then none
  else
    let st := (lines text).foldl (CommandRLines.step serde) {}
    foundCalls .commandR st.calls (trim st.content)

end Mlxcel.ToolCalls
