import Pyharmonics.DurableFacts
import Pyharmonics.JsonText
import Pyharmonics.Library.Decimals
import Pyharmonics.Library.LineLogs

/-! Tool calls of a model without tool calling: asked for in the prompt, read from its replies. -/
namespace Pyharmonics.PromptProvider

open Braces Braces.Marks TextLines VibeAgent DurableFacts
open Json (marks dumps Writer integerWriter)

/-- A tool call as it is read: the name is what the JSON holds. -/
structure PromptCall where
  id : String
  name : Json
  arguments : Json

/-- The response of a provider. -/
structure Response where
  content : Option (List Char) := none
  toolCalls : List PromptCall := []
  inputTokens : ℕ := 0
  outputTokens : ℕ := 0
  error : Option String := none

/-- `_extract_json_objects` -/
def extractJsonObjects (text : List Char) : List (List Char) := marks.extract 0 text

def fence : List Char := ['\x60', '\x60', '\x60']

/-- What matches `json` where case is ignored. -/
def tag : List (List Char) := [['j', 'J'], ['s', 'S', 'ſ'], ['o', 'O'], ['n', 'N']]

/-- `(?:json)?` -/
def dropTag (text : List Char) : List Char :=
  if tag.length ≤ text.length ∧ (tag.zip text).all fun (letters, c) => c ∈ letters then
    text.drop tag.length
  else text

/-- A match of `_FENCED_JSON_RE` at the start of a text: its group, and all of it. -/
def matchFence (text : List Char) : Option (List Char × List Char) := do
  let body ← text.dropPrefix? fence
  let (inner, rest) ← ((dropTag body).dropWhile isSpace).dropInfix? fence
  return (inner, text.take (text.length - rest.length))

/-- `_FENCED_JSON_RE.finditer(text)`, after the first `skip` characters. -/
def finditer : ℕ → List Char → List (List Char × List Char)
  | _, [] => []
  | skip + 1, _ :: text => finditer skip text
  | 0, c :: text =>
    match matchFence (c :: text) with
    | some (inner, whole) => (inner, whole) :: finditer (whole.length - 1) text
    | none => finditer 0 text

/-- `text.replace(needle, "")`, after the first `skip` characters. -/
def removeAll (needle : List Char) : ℕ → List Char → List Char
  | _, [] => []
  | skip + 1, _ :: text => removeAll needle skip text
  | 0, c :: text =>
    if needle <+: c :: text then removeAll needle (needle.length - 1) text
    else c :: removeAll needle 0 text

/-- What `_parse_tool_json` takes for JSON: first what is fenced, then the objects of the rest. -/
def candidates (text : List Char) : List (List Char) :=
  let blocks := finditer 0 text
  let remaining := blocks.foldl (fun remaining block => removeAll block.2 0 remaining) text
  blocks.flatMap (fun block => extractJsonObjects block.1) ++ extractJsonObjects remaining

/-- The call of an object with a tool. -/
def addCall (toolCalls : List PromptCall) (data : List (String × Json)) : List PromptCall :=
  match data.lookup "tool" with
  | some name => toolCalls ++
      [⟨"prompt_" ++ toString toolCalls.length, name, (data.lookup "arguments").getD (.dict [])⟩]
  | none => toolCalls

/-- `json.loads`: nothing where it raises `JSONDecodeError`. -/
abbrev Loads := List Char → Except PyError (Option Json)

variable (loads : Loads)

/-- A candidate that is no JSON, or no call, is passed over. -/
def readCandidate (toolCalls : List PromptCall) (candidate : List Char) :
    Except PyError (List PromptCall) := do
  match ← loads candidate with
  | some (.dict data) => return addCall toolCalls data
  | _ => return toolCalls

/-- `_parse_tool_json` -/
def parseToolJson (text : List Char) : Except PyError (List PromptCall) :=
  (candidates text).foldlM (readCandidate loads) []

/-- What was read of a response: its calls, and the lines that remain. -/
abbrev Reading := List PromptCall × List (List Char)

def readLine (r : Reading) (line : List Char) : Except PyError Reading :=
  let stripped := strip line
  if stripped = [] then return (r.1, r.2 ++ [line])
  else do
    let parsed ← parseToolJson loads stripped
    if parsed.isEmpty then return (r.1, r.2 ++ [line])
    else return (r.1 ++ parsed, r.2)

/-- `text or None` -/
def orNone (text : List Char) : Option (List Char) := if text = [] then none else some text

/-- `_parse_response` -/
def parseResponse (text : List Char) : Except PyError (Option (List Char) × List PromptCall) := do
  let (toolCalls, remaining) ← (splitLines (universal text)).foldlM (readLine loads) ([], [])
  return (orNone (strip (['\n'].intercalate remaining)), toolCalls)

/-- `_format_tools` -/
def formatTools (B : Builtins) (w : Writer) (tools : List Json) : Except PyError (List Char) := do
  let lines ← tools.mapM fun tool => do
    let fn ← ((← tool.asDict).lookup "function").getD (.dict []) |>.asDict
    let name ← (Json.get fn "name").text B
    let description ← ((fn.lookup "description").getD (.str "")).text B
    return ["- ".toList ++ name.toList ++ ": ".toList ++ description.toList,
      "  参数：".toList ++ dumps w ((fn.lookup "parameters").getD (.dict []))]
  return ['\n'].intercalate lines.flatten

/-- The text before the tools in the prompt. -/
def instructions : List Char :=
  ("\n\n你可以使用以下工具。如需调用工具，请在回复中 STRICTLY 输出一段 JSON，格式如下：\n" ++
    "\x7b\"tool\": \"tool_name\", \"arguments\": \x7b\"arg1\": \"value1\"\x7d\x7d\n" ++
    "每个 JSON 占一行。你可以一次性输出多个工具调用。" ++
    "如果不需要工具，直接回复用户即可。\n\n可用工具：\n").toList

abbrev Message := List (String × Json)

/-- `msg.get("content", "") + injection` of the first system message. -/
def extend (injection : String) (msg : Message) : Except PyError Message :=
  match (msg.lookup "content").getD (.str "") with
  | .str content => .ok [("role", .str "system"), ("content", .str (content ++ injection))]
  | .list _ => .error (.typeError "can only concatenate list (not \"str\") to list")
  | j => .error (.typeError ("unsupported operand type(s) for +: '" ++ j.typeName ++ "' and 'str'"))

def isSystem (msg : Message) : Bool :=
  match msg.lookup "role" with
  | some (.str role) => role = "system"
  | _ => false

/-- The loop of `_inject_tool_prompt`: the messages, and whether one was extended. -/
def injectFirst (injection : String) : List Message → Except PyError (List Message × Bool)
  | [] => .ok ([], false)
  | msg :: messages =>
    if isSystem msg then do return ((← extend injection msg) :: messages, true)
    else do
      let (rest, injected) ← injectFirst injection messages
      return (msg :: rest, injected)

/-- `_inject_tool_prompt` -/
def injectToolPrompt (B : Builtins) (w : Writer) (messages : List Message) (tools : List Json) :
    Except PyError (List Message) := do
  let injection := String.ofList (instructions ++ (← formatTools B w tools))
  let (newMessages, injected) ← injectFirst injection messages
  if injected then return newMessages
  else return [("role", .str "system"), ("content", .str injection)] :: newMessages

/-- `chat`, with the provider below it. -/
def chat (B : Builtins) (w : Writer) (base : List Message → Response) (messages : List Message)
    (tools : List Json) : Except PyError Response := do
  let messages ← if tools = [] then pure messages else injectToolPrompt B w messages tools
  let response := base messages
  if response.error.isSome then return response
  else
    let (content, toolCalls) ← parseResponse loads (response.content.getD [])
    return ⟨content, toolCalls, response.inputTokens, response.outputTokens, none⟩

variable {loads : Loads} {w : Writer} {text front rest inner line gap : List Char}
  {calls : List PromptCall} {n : ℕ}

/-- Two fences, one after the other. -/
def Fenced (text : List Char) : Prop :=
  ∃ front inner rest, text = front ++ fence ++ inner ++ fence ++ rest

theorem fenced_of_block (h : Fenced text) (hline : text <:+: line) : Fenced line := by
  obtain ⟨a, b, c, rfl⟩ := h
  obtain ⟨front, rest, rfl⟩ := hline
  exact ⟨front ++ a, b, c ++ rest, by simp⟩

theorem not_fenced (h : '\x60' ∉ text) : ¬ Fenced text := by
  rintro ⟨a, b, c, rfl⟩
  simp [fence] at h

theorem dropTag_suffix : dropTag text <:+ text := by
  unfold dropTag
  split
  · exact List.drop_suffix _ _
  · exact List.suffix_rfl

/-- A match takes two fences. -/
theorem fenced_of_matchFence {p : List Char × List Char} (h : matchFence text = some p) :
    Fenced text := by
  rw [matchFence, Option.bind_eq_bind, Option.bind_eq_some_iff] at h
  obtain ⟨body, hbody, h⟩ := h
  rw [Option.bind_eq_bind, Option.bind_eq_some_iff] at h
  obtain ⟨⟨inner, rest⟩, hinner, -⟩ := h
  obtain ⟨start, rfl, hstart⟩ := List.dropPrefix?_eq_some_iff.mp hbody
  obtain rfl := eq_of_beq hstart
  obtain ⟨hgroup, -⟩ := of_dropInfix (by decide) hinner
  have hsuffix : (dropTag body).dropWhile isSpace <:+ body :=
    (List.dropWhile_suffix _).trans dropTag_suffix
  obtain ⟨front, hfront⟩ := hsuffix
  exact ⟨[], front ++ inner, rest, by rw [← hfront, hgroup]; simp⟩

theorem finditer_eq_nil (h : ¬ Fenced text) : finditer 0 text = [] := by
  induction text with
  | nil => rfl
  | cons c text ih =>
    have hnone : matchFence (c :: text) = none := by
      cases hmatch : matchFence (c :: text) with
      | none => rfl
      | some p => exact absurd (fenced_of_matchFence hmatch) h
    rw [finditer, hnone]
    exact ih fun hfenced => h (fenced_of_block hfenced (List.infix_cons List.infix_rfl))

theorem candidates_unfenced (h : ¬ Fenced text) : candidates text = extractJsonObjects text := by
  simp [candidates, finditer_eq_nil h]

theorem strip_infix : strip text <:+: text :=
  (List.rdropWhile_prefix _ _).isInfix.trans (List.dropWhile_suffix _).isInfix

/-- Space before a text is no part of an object. -/
theorem extractJsonObjects_dropWhile :
    extractJsonObjects (text.dropWhile isSpace ++ rest) = extractJsonObjects (text ++ rest) := by
  have hopening : marks.opening ∉ text.takeWhile isSpace := by
    intro hmem
    exact absurd (List.mem_takeWhile_imp hmem) (by decide)
  rw [extractJsonObjects, ← extract_gap hopening, ← List.append_assoc,
    List.takeWhile_append_dropWhile, extractJsonObjects]

theorem extractJsonObjects_rstrip :
    extractJsonObjects (front ++ rstrip text) = extractJsonObjects (front ++ text) := by
  have hclosing : marks.closing ∉ text.rtakeWhile isSpace := by
    intro hmem
    exact absurd (List.mem_rtakeWhile_imp hmem) (by decide)
  rw [extractJsonObjects, ← extract_append_of_not_mem hclosing, List.append_assoc, rstrip,
    List.rdropWhile_append_rtakeWhile, extractJsonObjects]

theorem extractJsonObjects_strip : extractJsonObjects (strip text) = extractJsonObjects text := by
  have hstart : extractJsonObjects (text.dropWhile isSpace ++ []) = extractJsonObjects (text ++ []) :=
    extractJsonObjects_dropWhile
  have hend : extractJsonObjects ([] ++ rstrip (text.dropWhile isSpace)) =
      extractJsonObjects ([] ++ text.dropWhile isSpace) := extractJsonObjects_rstrip
  rw [List.nil_append, List.nil_append] at hend
  rw [strip, hend]
  simpa using hstart

section Fences

variable {back : List Char}

theorem finditer_skip : finditer front.length (front ++ text) = finditer 0 text := by
  induction front with
  | nil => rfl
  | cons c front ih => simpa [finditer] using ih

/-- A match starts with a fence. -/
theorem finditer_append (h : '\x60' ∉ front) : finditer 0 (front ++ text) = finditer 0 text := by
  induction front with
  | nil => rfl
  | cons c front ih =>
    rw [List.mem_cons, not_or] at h
    have hnone : matchFence (c :: (front ++ text)) = none := by
      simp [matchFence, List.dropPrefix?, fence, Ne.symm h.1]
    rw [List.cons_append, finditer, hnone]
    exact ih h.2

theorem finditer_match {group whole : List Char} (hne : whole ≠ [])
    (h : matchFence (whole ++ text) = some (group, whole)) :
    finditer 0 (whole ++ text) = (group, whole) :: finditer 0 text := by
  obtain ⟨c, whole, rfl⟩ := List.exists_cons_of_ne_nil hne
  rw [List.cons_append] at h ⊢
  rw [finditer, h]
  simpa using finditer_skip

theorem dropWhile_fence : (front ++ fence ++ rest).dropWhile isSpace =
    front.dropWhile isSpace ++ fence ++ rest := by
  have hfence : (fence ++ rest).dropWhile isSpace = fence ++ rest := rfl
  rw [List.append_assoc, List.dropWhile_append, hfence]
  split
  · rename_i hempty
    simp [List.isEmpty_iff.mp hempty]
  · simp

theorem rstrip_fence : rstrip (front ++ fence ++ back) = front ++ fence ++ rstrip back := by
  have hreverse : (front ++ fence ++ back).reverse = back.reverse ++ fence ++ front.reverse := by
    simp [fence]
  rw [rstrip, List.rdropWhile, hreverse, dropWhile_fence]
  simp [rstrip, List.rdropWhile, fence]

theorem strip_fence : strip (front ++ fence ++ inner ++ fence ++ back) =
    front.dropWhile isSpace ++ fence ++ inner ++ fence ++ rstrip back := by
  have hstart : (front ++ fence ++ inner ++ fence ++ back).dropWhile isSpace =
      front.dropWhile isSpace ++ fence ++ inner ++ fence ++ back := by
    have hfirst : (front ++ fence ++ (inner ++ fence ++ back)).dropWhile isSpace =
        front.dropWhile isSpace ++ fence ++ (inner ++ fence ++ back) := dropWhile_fence
    simpa using hfirst
  rw [strip, hstart, rstrip_fence]

theorem dropTag_append : dropTag (inner ++ '\x60' :: rest) = dropTag inner ++ '\x60' :: rest := by
  rcases inner with _ | ⟨a, _ | ⟨b, _ | ⟨c, _ | ⟨d, inner⟩⟩⟩⟩
  all_goals simp [dropTag, tag]
  split_ifs <;> rfl

theorem dropInfix_fence (h : '\x60' ∉ inner) :
    (inner ++ fence ++ back).dropInfix? fence = some (inner, back) := by
  refine List.dropInfix?_eq_some_iff.mpr ⟨⟨fence, rfl, BEq.rfl⟩, fun start found stop hsplit hj => ?_⟩
  obtain rfl := eq_of_beq hj
  by_contra hlt
  rw [List.append_assoc, List.append_assoc, List.append_eq_append_iff] at hsplit
  rcases hsplit with ⟨more, rfl, _⟩ | ⟨more, rfl, hmore⟩
  · simp at hlt
  · cases more with
    | nil => simp at hlt
    | cons c more =>
      obtain ⟨rfl, -⟩ : c = '\x60' ∧ _ := by simpa [fence] using hmore.symm
      simp at h

/-- The block of a line with one: its group has no label and no space before it. -/
theorem matchFence_block (h : '\x60' ∉ inner) :
    matchFence (fence ++ inner ++ fence ++ back) =
      some ((dropTag inner).dropWhile isSpace, fence ++ inner ++ fence) := by
  have hbody : (fence ++ inner ++ fence ++ back).dropPrefix? fence = some (inner ++ fence ++ back) :=
    List.dropPrefix?_eq_some_iff.mpr ⟨fence, by simp, BEq.rfl⟩
  have htag : dropTag (inner ++ fence ++ back) = dropTag inner ++ fence ++ back := by
    rw [List.append_assoc, List.append_assoc]
    exact dropTag_append
  have hgroup : '\x60' ∉ (dropTag inner).dropWhile isSpace := fun hmem =>
    h (dropTag_suffix.subset ((List.dropWhile_suffix _).subset hmem))
  have hwhole : (fence ++ inner ++ fence ++ back).take
      ((fence ++ inner ++ fence ++ back).length - back.length) = fence ++ inner ++ fence := by
    rw [List.length_append, Nat.add_sub_cancel]
    exact List.take_left
  rw [matchFence, hbody]
  simp only [Option.bind_eq_bind, Option.bind_some, htag, dropWhile_fence, dropInfix_fence hgroup, hwhole]
  rfl

theorem removeAll_skip {needle : List Char} :
    removeAll needle front.length (front ++ text) = removeAll needle 0 text := by
  induction front with
  | nil => rfl
  | cons c front ih => simpa [removeAll] using ih

theorem removeAll_needle {needle : List Char} (hne : needle ≠ []) :
    removeAll needle 0 (needle ++ text) = removeAll needle 0 text := by
  obtain ⟨c, needle, rfl⟩ := List.exists_cons_of_ne_nil hne
  have hpre : c :: needle <+: c :: (needle ++ text) := List.prefix_append (c :: needle) text
  rw [List.cons_append, removeAll, if_pos hpre]
  simpa using removeAll_skip

theorem removeAll_append (h : '\x60' ∉ front) :
    removeAll (fence ++ inner) 0 (front ++ text) = front ++ removeAll (fence ++ inner) 0 text := by
  induction front with
  | nil => rfl
  | cons c front ih =>
    rw [List.mem_cons, not_or] at h
    have hnot : ¬ fence ++ inner <+: c :: (front ++ text) := by
      intro hpre
      exact h.1 (List.cons_prefix_cons.mp hpre).1
    rw [List.cons_append, removeAll, if_neg hnot, ih h.2, List.cons_append]

/-- No object begins in the label of a block or in the space after it. -/
theorem extractJsonObjects_group :
    extractJsonObjects ((dropTag inner).dropWhile isSpace) = extractJsonObjects inner := by
  have hspace : marks.opening ∉ (dropTag inner).takeWhile isSpace := by
    intro hmem
    exact absurd (List.mem_takeWhile_imp hmem) (by decide)
  have htag : extractJsonObjects (dropTag inner) = extractJsonObjects inner := by
    unfold dropTag
    split
    · rename_i h
      obtain ⟨hlength, hletters⟩ := h
      have hlabel : marks.opening ∉ inner.take tag.length := by
        rcases inner with _ | ⟨a, _ | ⟨b, _ | ⟨c, _ | ⟨d, inner⟩⟩⟩⟩
        all_goals simp [tag] at hlength
        simp only [tag, List.zip_cons_cons, List.all_cons, Bool.and_eq_true, decide_eq_true_eq] at hletters
        intro hmem
        simp only [tag, List.length_cons, List.length_nil, List.take_succ_cons, List.take_zero,
          List.mem_cons, List.not_mem_nil, or_false] at hmem
        rcases hmem with rfl | rfl | rfl | rfl
        · exact absurd hletters.1 (by decide)
        · exact absurd hletters.2.1 (by decide)
        · exact absurd hletters.2.2.1 (by decide)
        · exact absurd hletters.2.2.2.1 (by decide)
      rw [extractJsonObjects, extractJsonObjects, ← extract_gap hlabel, List.take_append_drop]
    · rfl
  rw [← htag, extractJsonObjects, extractJsonObjects, ← extract_gap hspace,
    List.takeWhile_append_dropWhile]

/-- A block on a line is cut out of it, and its objects come first. -/
theorem candidates_fenced (hfront : '\x60' ∉ front) (hinner : '\x60' ∉ inner)
    (hback : '\x60' ∉ back) :
    candidates (front ++ fence ++ inner ++ fence ++ back) =
      extractJsonObjects inner ++ extractJsonObjects (front ++ back) := by
  have hblocks : finditer 0 (front ++ (fence ++ inner ++ fence ++ back)) =
      [((dropTag inner).dropWhile isSpace, fence ++ inner ++ fence)] := by
    rw [finditer_append hfront, finditer_match (by simp [fence]) (matchFence_block hinner),
      finditer_eq_nil (not_fenced hback)]
  have hremaining : removeAll (fence ++ inner ++ fence) 0 (front ++ (fence ++ inner ++ fence ++ back)) =
      front ++ back := by
    rw [List.append_assoc fence, removeAll_append hfront, removeAll_needle (by simp [fence])]
    have hend : removeAll (fence ++ (inner ++ fence)) 0 (back ++ []) =
        back ++ removeAll (fence ++ (inner ++ fence)) 0 [] := removeAll_append hback
    simpa [removeAll] using hend
  rw [show front ++ fence ++ inner ++ fence ++ back = front ++ (fence ++ inner ++ fence ++ back) by simp,
    candidates, hblocks]
  simp only [List.flatMap_cons, List.flatMap_nil, List.append_nil, List.foldl_cons, List.foldl_nil,
    hremaining, extractJsonObjects_group]

end Fences

/-- What `addCall` takes from an object: the tool, and its arguments. -/
def request (data : List (String × Json)) : Option (Json × Json) :=
  (data.lookup "tool").map fun name => (name, (data.lookup "arguments").getD (.dict []))

/-- Requests in order, each with the number of its place. -/
def numbered (n : ℕ) (requests : List (Json × Json)) : List PromptCall :=
  (requests.zipIdx n).map fun (r, i) => ⟨"prompt_" ++ toString i, r.1, r.2⟩

@[simp] theorem numbered_nil : numbered n [] = [] := rfl

@[simp] theorem length_numbered {requests : List (Json × Json)} :
    (numbered n requests).length = requests.length := by simp [numbered]

theorem numbered_append {requests more : List (Json × Json)} :
    numbered n (requests ++ more) = numbered n requests ++ numbered (n + requests.length) more := by
  simp [numbered, List.zipIdx_append]

theorem addCall_numbered {requests : List (Json × Json)} {data : List (String × Json)} :
    addCall (numbered 0 requests) data = numbered 0 (requests ++ (request data).toList) := by
  cases htool : data.lookup "tool" with
  | none => simp [addCall, request, htool]
  | some name => rw [numbered_append]; simp [addCall, request, htool, numbered]

/-- Objects after text that opens none, and such a text at the end. -/
structure Inline where
  parts : List (List Char × List (String × Json))
  tail : List Char

namespace Inline

def render (w : Writer) (t : Inline) : List Char :=
  t.parts.flatMap (fun part => part.1 ++ dumps w (.dict part.2)) ++ t.tail

def objects (t : Inline) : List (List (String × Json)) := t.parts.map Prod.snd

/-- It opens objects only where it has them. -/
def Plain (t : Inline) : Prop := (∀ part ∈ t.parts, '\x7b' ∉ part.1) ∧ '\x7b' ∉ t.tail

variable {t u : Inline}

theorem extract_render (h : t.Plain) :
    marks.extract 0 (t.render w ++ text) =
      t.objects.map (fun data => dumps w (.dict data)) ++ marks.extract 0 text := by
  obtain ⟨parts, tail⟩ := t
  obtain ⟨hgaps, htail⟩ := h
  induction parts with
  | nil => simpa [render, objects] using extract_gap htail
  | cons part parts ih =>
    have hrest := ih (fun part' hpart' => hgaps part' (by simp [hpart'])) htail
    simp only [render, objects, List.flatMap_cons, List.append_assoc, List.map_cons,
      List.cons_append] at hrest ⊢
    rw [extract_gap (hgaps part (by simp)), extract_object Json.object_dumps, hrest]

theorem extractJsonObjects_render (h : t.Plain) :
    extractJsonObjects (t.render w) = t.objects.map fun data => dumps w (.dict data) := by
  have hall : marks.extract 0 (t.render w ++ []) = _ := extract_render h
  simpa [extractJsonObjects] using hall

end Inline

/-- A line of a response, with at most one fenced block: what is before the block, and the block
with what follows it. -/
structure Line where
  front : Inline
  block : Option (Inline × Inline) := none

namespace Line

def render (w : Writer) (l : Line) : List Char :=
  match l.block with
  | none => l.front.render w
  | some (inside, back) =>
    l.front.render w ++ fence ++ inside.render w ++ fence ++ back.render w

/-- The objects of a line, those of its block first. -/
def objects (l : Line) : List (List (String × Json)) :=
  match l.block with
  | none => l.front.objects
  | some (inside, back) => inside.objects ++ (l.front.objects ++ back.objects)

def toolCalls (l : Line) : List PromptCall := numbered 0 (l.objects.filterMap request)

/-- It is one line, it opens objects only where it has them, and its only block is the one it has. -/
structure Plain (w : Writer) (l : Line) : Prop where
  front : l.front.Plain
  block : ∀ b ∈ l.block, b.1.Plain ∧ b.2.Plain ∧
    ∀ t ∈ [l.front, b.1, b.2], '\x60' ∉ t.render w
  unfenced : l.block = none → ¬ Fenced (l.front.render w)
  unbroken : Unbroken (l.render w)

/-- `json.loads` undoes `json.dumps` on the objects of the line. -/
def Loaded (loads : Loads) (w : Writer) (l : Line) : Prop :=
  ∀ data ∈ l.objects, loads (dumps w (.dict data)) = .ok (some (.dict data))

variable {l : Line} {lines : List Line} {remaining : List (List Char)}

theorem candidates_render (h : l.Plain w) :
    candidates (strip (l.render w)) = l.objects.map fun data => dumps w (.dict data) := by
  obtain ⟨front, block⟩ := l
  cases block with
  | none =>
    have hunfenced : ¬ Fenced (strip (front.render w)) :=
      fun hfenced => h.unfenced rfl (fenced_of_block hfenced strip_infix)
    rw [render, candidates_unfenced hunfenced, extractJsonObjects_strip,
      Inline.extractJsonObjects_render h.front]
    rfl
  | some block =>
    obtain ⟨inside, back⟩ := block
    obtain ⟨hinside, hback, hfences⟩ := h.block (inside, back) rfl
    simp only [List.forall_mem_cons, List.not_mem_nil, false_implies, implies_true, and_true] at hfences
    obtain ⟨hfence, hfence', hfence''⟩ := hfences
    have hstart : '\x60' ∉ (front.render w).dropWhile isSpace := fun hmem =>
      hfence ((List.dropWhile_suffix _).subset hmem)
    have hend : '\x60' ∉ rstrip (back.render w) := fun hmem =>
      hfence'' ((List.rdropWhile_prefix _ _).subset hmem)
    have haround : extractJsonObjects (front.render w ++ back.render w) =
        (front.objects ++ back.objects).map fun data => dumps w (.dict data) := by
      rw [extractJsonObjects, Inline.extract_render h.front, ← extractJsonObjects,
        Inline.extractJsonObjects_render hback, List.map_append]
    rw [render, strip_fence, candidates_fenced hstart hfence' hend, extractJsonObjects_rstrip,
      extractJsonObjects_dropWhile, Inline.extractJsonObjects_render hinside, haround]
    simp [objects]

theorem foldlM_objects {objects : List (List (String × Json))} {requests : List (Json × Json)}
    (h : ∀ data ∈ objects, loads (dumps w (.dict data)) = .ok (some (.dict data))) :
    (objects.map fun data => dumps w (.dict data)).foldlM (readCandidate loads)
        (numbered 0 requests) =
      .ok (numbered 0 (requests ++ objects.filterMap request)) := by
  induction objects generalizing requests with
  | nil => simp [pure, Except.pure]
  | cons data objects ih =>
    have hread : readCandidate loads (numbered 0 requests) (dumps w (.dict data)) =
        .ok (addCall (numbered 0 requests) data) := by
      rw [readCandidate, h data (by simp), ok_bind]
      rfl
    rw [List.map_cons, List.foldlM_cons, hread, ok_bind, addCall_numbered,
      ih fun data' hdata' => h data' (by simp [hdata']), List.append_assoc]
    cases hrequest : request data <;> simp [hrequest]

theorem parseToolJson_render (h : l.Plain w) (hloads : l.Loaded loads w) :
    parseToolJson loads (strip (l.render w)) = .ok l.toolCalls := by
  rw [parseToolJson, candidates_render h, ← numbered_nil (n := 0), foldlM_objects hloads]
  rfl

/-- A line with calls gives them, and any other line remains. -/
theorem readLine_render (h : l.Plain w) (hloads : l.Loaded loads w) :
    readLine loads (calls, remaining) (l.render w) =
      .ok (calls ++ l.toolCalls,
        if l.toolCalls.isEmpty then remaining ++ [l.render w] else remaining) := by
  rw [readLine]
  by_cases hstrip : strip (l.render w) = []
  · -- an empty line has no object
    have hobjects : l.objects = [] := by
      have hcandidates := candidates_render h
      rw [hstrip] at hcandidates
      simpa [candidates, finditer, extractJsonObjects] using hcandidates.symm
    simp [hstrip, toolCalls, hobjects, pure, Except.pure]
  · rw [if_neg hstrip, parseToolJson_render h hloads, ok_bind]
    cases hcalls : l.toolCalls with
    | nil => simp [pure, Except.pure]
    | cons call calls => simp [pure, Except.pure]

theorem foldlM_readLine (h : ∀ l ∈ lines, l.Plain w ∧ l.Loaded loads w) :
    (lines.map (render w)).foldlM (readLine loads) (calls, remaining) =
      .ok (calls ++ lines.flatMap toolCalls,
        remaining ++ (lines.filter (·.toolCalls.isEmpty)).map (render w)) := by
  induction lines generalizing calls remaining with
  | nil => simp [pure, Except.pure]
  | cons l lines ih =>
    obtain ⟨hplain, hloads⟩ := h l (by simp)
    rw [List.map_cons, List.foldlM_cons, readLine_render hplain hloads, ok_bind,
      ih fun l' hl' => h l' (by simp [hl'])]
    by_cases hcalls : l.toolCalls.isEmpty <;> simp [hcalls]

end Line

/-- The response of the lines, joined. -/
theorem parseResponse_lines {lines : List Line}
    (h : ∀ l ∈ lines, l.Plain w ∧ l.Loaded loads w)
    (hlast : ∀ l ∈ lines.getLast?, l.render w ≠ []) :
    parseResponse loads (['\n'].intercalate (lines.map (Line.render w))) =
      .ok (orNone (strip (['\n'].intercalate
          ((lines.filter (·.toolCalls.isEmpty)).map (Line.render w)))),
        lines.flatMap Line.toolCalls) := by
  have hunbroken : ∀ line ∈ lines.map (Line.render w), Unbroken line := by
    intro line hline
    obtain ⟨l, hl, rfl⟩ := List.mem_map.mp hline
    exact (h l hl).1.unbroken
  have hnonempty : ∀ line ∈ (lines.map (Line.render w)).getLast?, line ≠ [] := by
    intro line hline
    rw [List.getLast?_map] at hline
    obtain ⟨l, hl, rfl⟩ := Option.map_eq_some_iff.mp hline
    exact hlast l hl
  rw [parseResponse, universal_of_clean (clean_intercalate hunbroken),
    splitLines_intercalate hunbroken hnonempty, Line.foldlM_readLine h, ok_bind]
  simp [pure, Except.pure]

/-- A line of text, a block with a call, and a call behind text. -/
def checking : List Line :=
  [⟨⟨[], "Checking:".toList⟩, none⟩,
    ⟨⟨[], []⟩, some (⟨[("json ".toList, [("tool", .str "scan")])], []⟩, ⟨[], []⟩)⟩,
    ⟨⟨[("then ".toList, [("tool", .str "draw"), ("arguments", .dict [("n", .int 3)])])], []⟩, none⟩]

def checkingObjects : List (List (String × Json)) := checking.flatMap Line.objects

/-- `json.loads` on the objects of these lines. -/
def checkingLoads : Loads := fun text =>
  .ok ((checkingObjects.find? fun data => dumps integerWriter (.dict data) = text).map .dict)

theorem checking_plain : ∀ l ∈ checking, l.Plain integerWriter ∧
    l.Loaded checkingLoads integerWriter := by
  simp only [checking, List.forall_mem_cons, List.not_mem_nil, false_implies, implies_true, and_true]
  refine ⟨⟨⟨⟨by simp, by decide⟩, nofun, fun _ => not_fenced (by decide), by decide⟩, ?_⟩,
    ⟨⟨⟨by simp, by decide⟩, ?_, nofun, by decide⟩, ?_⟩,
    ⟨⟨⟨by simp, by decide⟩, nofun, fun _ => not_fenced (by decide), by decide⟩, ?_⟩⟩
  · nofun
  · rintro _ ⟨⟩
    refine ⟨⟨by simp, by decide⟩, ⟨by simp, by decide⟩, ?_⟩
    simp only [List.forall_mem_cons, List.not_mem_nil, false_implies, implies_true, and_true]
    exact ⟨by decide, by decide, by decide⟩
  · intro data hdata
    obtain rfl := List.mem_singleton.mp hdata
    rfl
  · intro data hdata
    obtain rfl := List.mem_singleton.mp hdata
    rfl

theorem parseResponse_lines_checking :
    parseResponse checkingLoads
        (['\n'].intercalate (checking.map (Line.render integerWriter))) =
      .ok (some "Checking:".toList, [⟨"prompt_0", .str "scan", .dict []⟩,
        ⟨"prompt_0", .str "draw", .dict [("n", .int 3)]⟩]) :=
  parseResponse_lines checking_plain (by decide)

/-- The pieces found are those of the text, each taken where it begins. -/
theorem extractJsonObjects_iff {objects : List (List Char)} :
    extractJsonObjects text = objects ↔ marks.Extracts text objects := extract_eq_iff

section Ids

variable {content : Option (List Char)} {reading reading' : Reading} {lines : List (List Char)}

/-- The calls of a line. -/
def callsOf (loads : Loads) (line : List Char) : List PromptCall :=
  (parseToolJson loads (strip line)).toOption.getD []

theorem readCandidate_numbered {candidate : List Char} {requests : List (Json × Json)}
    (h : readCandidate loads (numbered 0 requests) candidate = .ok calls) :
    ∃ more, calls = numbered 0 (requests ++ more) := by
  obtain ⟨read, -, h⟩ := bind_ok.mp h
  split at h
  · rename_i data
    cases h
    exact ⟨_, addCall_numbered⟩
  · cases h
    exact ⟨[], by simp⟩

theorem foldlM_numbered {found : List (List Char)} {requests : List (Json × Json)}
    (h : found.foldlM (readCandidate loads) (numbered 0 requests) = .ok calls) :
    ∃ more, calls = numbered 0 (requests ++ more) := by
  induction found generalizing requests with
  | nil =>
    cases h
    exact ⟨[], by simp⟩
  | cons candidate found ih =>
    rw [List.foldlM_cons] at h
    obtain ⟨next, hnext, h⟩ := bind_ok.mp h
    obtain ⟨more, rfl⟩ := readCandidate_numbered hnext
    obtain ⟨more', rfl⟩ := ih h
    exact ⟨more ++ more', by simp⟩

/-- On each line the numbers begin again. -/
theorem callsOf_numbered (line : List Char) : ∃ requests, callsOf loads line = numbered 0 requests := by
  cases h : parseToolJson loads (strip line) with
  | error e => exact ⟨[], by simp [callsOf, h, Except.toOption]⟩
  | ok calls =>
    obtain ⟨requests, hrequests⟩ : ∃ requests, calls = numbered 0 ([] ++ requests) :=
      foldlM_numbered h
    exact ⟨requests, by simp [callsOf, h, Except.toOption, hrequests]⟩

theorem readLine_calls (h : readLine loads reading line = .ok reading') :
    reading'.1 = reading.1 ++ callsOf loads line := by
  rw [readLine] at h
  split at h
  · rename_i hstrip
    cases h
    simp [callsOf, hstrip, parseToolJson, candidates, finditer, extractJsonObjects, Except.toOption,
      pure, Except.pure]
  · obtain ⟨parsed, hparsed, h⟩ := bind_ok.mp h
    have hcalls : callsOf loads line = parsed := by simp [callsOf, hparsed, Except.toOption]
    split at h
    · rename_i hempty
      cases h
      simp [hcalls, List.isEmpty_iff.mp hempty]
    · cases h
      rw [hcalls]

theorem foldlM_calls (h : lines.foldlM (readLine loads) reading = .ok reading') :
    reading'.1 = reading.1 ++ lines.flatMap (callsOf loads) := by
  induction lines generalizing reading with
  | nil => cases h; simp
  | cons line lines ih =>
    rw [List.foldlM_cons] at h
    obtain ⟨next, hnext, h⟩ := bind_ok.mp h
    rw [ih h, readLine_calls hnext]
    simp

theorem nodup_numbered {requests : List (Json × Json)} :
    ((numbered n requests).map PromptCall.id).Nodup := by
  have hsnd : (requests.zip (List.range' n requests.length)).map Prod.snd =
      List.range' n requests.length := List.map_snd_zip (by simp)
  have hids : (numbered n requests).map PromptCall.id =
      (List.range' n requests.length).map fun i => "prompt_" ++ toString i := by
    rw [← hsnd]
    simp [numbered, List.zipIdx_eq_zip_range', Function.comp_def]
  rw [hids]
  refine List.Nodup.map (fun i j h => ?_) List.nodup_range'
  have hdigits : Decimals.digits i = Decimals.digits j := by
    simpa [Decimals.digits, toString, Nat.repr] using congrArg String.toList h
  rw [← Decimals.value_digits i, hdigits, Decimals.value_digits]

/-- Every line with calls has a call of the first number. -/
theorem first_id_mem (h : callsOf loads line ≠ []) :
    "prompt_0" ∈ (callsOf loads line).map PromptCall.id := by
  obtain ⟨requests, hrequests⟩ : ∃ requests, callsOf loads line = numbered 0 requests :=
    callsOf_numbered line
  rw [hrequests] at h ⊢
  cases requests with
  | nil => simp at h
  | cons request requests => exact List.mem_cons_self

theorem nodup_flatMap_iff :
    ((lines.flatMap (callsOf loads)).map PromptCall.id).Nodup ↔
      (lines.filter fun line => !(callsOf loads line).isEmpty).length ≤ 1 := by
  induction lines with
  | nil => simp
  | cons line lines ih =>
    by_cases hline : callsOf loads line = []
    · simpa [hline] using ih
    · have hnodup : ((callsOf loads line).map PromptCall.id).Nodup := by
        obtain ⟨requests, hrequests⟩ : ∃ requests, callsOf loads line = numbered 0 requests :=
    callsOf_numbered line
        rw [hrequests]
        exact nodup_numbered
      have hfilter : (line :: lines).filter (fun line => !(callsOf loads line).isEmpty) =
          line :: lines.filter fun line => !(callsOf loads line).isEmpty := by simp [hline]
      rw [hfilter, List.flatMap_cons, List.map_append, List.nodup_append']
      constructor
      · rintro ⟨-, -, hdisjoint⟩
        -- another line with calls would give the first number again
        have hnone : lines.filter (fun line => !(callsOf loads line).isEmpty) = [] := by
          rw [List.filter_eq_nil_iff]
          intro other hother hcalls
          have hid : "prompt_0" ∈ (callsOf loads other).map PromptCall.id :=
            first_id_mem (by simpa using hcalls)
          refine hdisjoint (first_id_mem hline) ?_
          rw [List.map_flatMap]
          exact List.mem_flatMap.mpr ⟨other, hother, hid⟩
        simp [hnone]
      · intro hlength
        have hnone : lines.filter (fun line => !(callsOf loads line).isEmpty) = [] := by
          simpa using hlength
        have hempty : lines.flatMap (callsOf loads) = [] := by
          simpa [List.flatMap_eq_nil_iff, List.filter_eq_nil_iff] using hnone
        simp [hempty, hnodup]

/-- The ids of the calls differ exactly when one line at most has calls. -/
theorem nodup_ids_iff (h : parseResponse loads text = .ok (content, calls)) :
    (calls.map PromptCall.id).Nodup ↔
      ((splitLines (universal text)).filter
        fun line => !(callsOf loads line).isEmpty).length ≤ 1 := by
  obtain ⟨reading, hreading, h⟩ := bind_ok.mp h
  have hcalls : reading.1 = calls := (Prod.mk.inj (Except.ok.inj h)).2
  rw [← hcalls, foldlM_calls hreading, List.nil_append]
  exact nodup_flatMap_iff

theorem nodup_ids_iff_checking :
    ((Line.toolCalls checking[2]).map PromptCall.id).Nodup ↔
      ((splitLines (universal (Line.render integerWriter checking[2]))).filter
        fun line => !(callsOf checkingLoads line).isEmpty).length ≤ 1 :=
  nodup_ids_iff (show parseResponse checkingLoads (Line.render integerWriter checking[2]) =
    .ok (none, Line.toolCalls checking[2]) from rfl)

end Ids

/-- The prompt goes to the first system message, and every other message is as before. -/
theorem injectFirst_ok {injection : String} {messages newMessages : List Message} {injected : Bool}
    (h : injectFirst injection messages = .ok (newMessages, injected)) :
    if injected then ∃ before msg extended after, messages = before ++ msg :: after ∧
      newMessages = before ++ extended :: after ∧ (∀ m ∈ before, isSystem m = false) ∧
      isSystem msg ∧ extend injection msg = .ok extended
    else newMessages = messages ∧ ∀ m ∈ messages, isSystem m = false := by
  induction messages generalizing newMessages with
  | nil =>
    cases h
    simp
  | cons msg messages ih =>
    rw [injectFirst] at h
    split at h
    · rename_i hsystem
      obtain ⟨extended, hextended, h⟩ := bind_ok.mp h
      cases h
      exact ⟨[], msg, extended, messages, rfl, rfl, nofun, hsystem, hextended⟩
    · rename_i hsystem
      obtain ⟨⟨rest, injected'⟩, hrest, h⟩ := bind_ok.mp h
      cases h
      have hplain : isSystem msg = false := by simpa using hsystem
      have hih := ih hrest
      cases injected with
      | false =>
        simp only [Bool.false_eq_true, if_false] at hih ⊢
        obtain ⟨rfl, hnone⟩ := hih
        exact ⟨rfl, List.forall_mem_cons.mpr ⟨hplain, hnone⟩⟩
      | true =>
        simp only [if_true] at hih ⊢
        obtain ⟨before, m, extended, after, rfl, rfl, hbefore, hm, hextended⟩ := hih
        exact ⟨msg :: before, m, extended, after, rfl, rfl,
          List.forall_mem_cons.mpr ⟨hplain, hbefore⟩, hm, hextended⟩

end Pyharmonics.PromptProvider
