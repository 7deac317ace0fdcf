import Mathlib.Data.List.Basic
import Mathlib.Tactic
import Pyharmonics.VibeReducer

/-! The messages of a run's first LLM call: the stored session, loaded, compressed and framed. -/
namespace Pyharmonics.VibeAgent

open VibeChat (Role)

variable {J : Type*}

/-- A stored message of a session, as far as `_load_history` reads it. -/
structure StoredRow (J : Type*) where
  role : Role
  content : Option String := none
  toolCalls : Option J := none
  toolCallId : Option String := none
  toolOutputSummary : Option J := none
  deriving DecidableEq

/-- A message to the LLM. -/
inductive ChatMessage (J : Type*)
  | system (content : String)
  | user (content : String)
  | assistant (content : String) (toolCalls : Option J)
  | tool (toolCallId : Option String) (content : String)
  deriving DecidableEq

/-- What the system prompt tells of the tools, the session and the time. -/
structure PromptContext where
  toolDescriptions : String
  defaultMarket : String := "binance"
  defaultSymbol : String := "BTCUSDT"
  positionSummary : Option String := none
  now : String

/-- `position_summary or "用户尚未设置仓位配置。"` -/
def PromptContext.positionText (context : PromptContext) : String :=
  (context.positionSummary.filter (· ≠ "")).getD "用户尚未设置仓位配置。"

def buildSystemPrompt (context : PromptContext) : String :=
  "你是一位专业的技术分析助手，名为 AI 交易助手。" ++
  "你只提供市场研究、谐波形态分析、信号生成和风险提示，不提供具体投资建议。\n\n" ++
  "可用工具：\n" ++ context.toolDescriptions ++ "\n\n" ++
  "安全约束：\n" ++
  "- 禁止建议用户满仓、杠杆、借贷或进行任何真实资金操作。\n" ++
  "- 任何涉及仓位的问题必须先调用 position_check 工具检查风控等级。\n" ++
  "- 任何交易信号必须同时给出止损价；风险收益比低于 1.0 时，必须标注“风险收益比不佳”。\n" ++
  "- 若用户问题超出技术分析范畴，礼貌拒绝并说明范围。\n\n" ++
  "会话上下文：\n" ++
  "- 默认市场：" ++ context.defaultMarket ++ "\n" ++
  "- 默认标的：" ++ context.defaultSymbol ++ "\n" ++
  "- 仓位配置摘要：" ++ context.positionText ++ "\n\n" ++
  "当前时间：" ++ context.now

/-- The line of an older message in the summary; only questions and answers have one. -/
def summaryPart : ChatMessage J → Option String
  | .user content => some ("用户之前问：" ++ (content.take 100).toString)
  | .assistant content _ => some ("助手之前答：" ++ (content.take 100).toString)
  | .system _ | .tool _ _ => none

def summary (older : List (ChatMessage J)) : String :=
  "\n".intercalate (older.filterMap summaryPart)

/-- Keep recent messages and summarize older ones. -/
def compressMessages (messages : List (ChatMessage J)) (maxRecent : ℕ) : List (ChatMessage J) :=
  if messages.length ≤ maxRecent then messages
  else
    .system ("以下是对话历史摘要：\n" ++ summary (messages.take (messages.length - maxRecent))) ::
      messages.drop (messages.length - maxRecent)

/-- `list_messages`, oldest first. -/
def listMessages (rows : List (StoredRow J)) (limit offset : ℕ) : List (StoredRow J) :=
  (rows.drop offset).take limit

/-- One row as `_load_history` formats it; `dumps` is the JSON text of a summary, or of `{}`. -/
def format (dumps : Option J → String) (row : StoredRow J) : ChatMessage J :=
  match row.role with
  | .tool => .tool row.toolCallId (dumps row.toolOutputSummary)
  | .assistant => .assistant (row.content.getD "") row.toolCalls
  | .user => .user (row.content.getD "")
  | .system => .system (row.content.getD "")

/-- Load and compress recent session messages. -/
def loadHistory (dumps : Option J → String) (rows : List (StoredRow J)) : List (ChatMessage J) :=
  compressMessages ((listMessages rows 50 0).map (format dumps)) 6

def promptRow (userPrompt : String) : StoredRow J := { role := .user, content := some userPrompt }

/-- The messages of the first LLM call: the prompt is stored before the history is loaded. -/
def firstMessages (dumps : Option J → String) (context : PromptContext) (rows : List (StoredRow J))
    (userPrompt : String) : List (ChatMessage J) :=
  .system (buildSystemPrompt context) :: loadHistory dumps (rows ++ [promptRow userPrompt]) ++ [.user userPrompt]

/-- What they should be: the system prompt, all that was stored, compressed, and the prompt. -/
def intendedMessages (dumps : Option J → String) (context : PromptContext) (rows : List (StoredRow J))
    (userPrompt : String) : List (ChatMessage J) :=
  .system (buildSystemPrompt context) :: compressMessages (rows.map (format dumps)) 6 ++ [.user userPrompt]

variable {l l' : List (ChatMessage J)} {x : ChatMessage J} {parts more : List String}
  {dumps : Option J → String} {rows : List (StoredRow J)} {context : PromptContext} {userPrompt : String}

theorem summaryPart_ne_empty {s : String} (h : summaryPart x = some s) : s ≠ "" := by
  cases x with
  | user content =>
    cases h
    simp
  | assistant content toolCalls =>
    cases h
    simp
  | system content => cases h
  | tool toolCallId content => cases h

/-- More lines make a longer text. -/
theorem intercalate_append_eq (hmore : ∀ s ∈ more, s ≠ "") :
    "\n".intercalate (parts ++ more) = "\n".intercalate parts ↔ more = [] := by
  constructor
  · intro h
    by_contra hne
    rcases eq_or_ne parts [] with rfl | hparts
    · obtain ⟨s, rest, rfl⟩ := List.exists_cons_of_ne_nil hne
      cases rest with
      | nil => exact hmore s (by simp) (by simpa using h)
      | cons t rest =>
        have hlen := congrArg String.length h
        simp at hlen
    · rw [String.intercalate_append_of_ne_nil hparts hne] at h
      have hlen := congrArg String.length h
      simp only [String.length_append] at hlen
      have hone : "\n".length = 1 := rfl
      omega
  · rintro rfl
    rw [List.append_nil]

theorem summary_append_eq : summary (l ++ l') = summary l ↔ l'.filterMap summaryPart = [] := by
  rw [summary, summary, List.filterMap_append]
  refine intercalate_append_eq ?_
  intro s hs
  obtain ⟨x, -, hx⟩ := List.mem_filterMap.mp hs
  exact summaryPart_ne_empty hx

theorem compress_of_lt (h : 6 < l.length) : compressMessages l 6 =
    .system ("以下是对话历史摘要：\n" ++ summary (l.take (l.length - 6))) :: l.drop (l.length - 6) :=
  if_neg (by omega)

theorem length_compress (l : List (ChatMessage J)) :
    (compressMessages l 6).length = if l.length ≤ 6 then l.length else 7 := by
  rw [compressMessages]
  split
  · rfl
  · simp only [List.length_cons, List.length_drop]
    omega

/-- Two long histories compress alike when their recent messages and their summaries are alike. -/
theorem compress_eq_iff (h : 6 < l.length) (h' : 6 < l'.length) :
    compressMessages l 6 = compressMessages l' 6 ↔
      summary (l.take (l.length - 6)) = summary (l'.take (l'.length - 6)) ∧
        l.drop (l.length - 6) = l'.drop (l'.length - 6) := by
  rw [compress_of_lt h, compress_of_lt h', List.cons.injEq, ChatMessage.system.injEq]
  refine and_congr_left' ?_
  constructor
  · intro heq
    have hlist := congrArg String.toList heq
    rw [String.toList_append, String.toList_append] at hlist
    exact String.toList_injective (List.append_cancel_left hlist)
  · intro heq
    rw [heq]

/-- A list that a shift by one element does not change begins with the one shifted in. -/
theorem eq_of_shift {α : Type*} {l : List α} {a x : α} (h : l ++ [x] = a :: l) : a = x := by
  induction l generalizing a with
  | nil => simpa using h.symm
  | cons b l ih =>
    simp only [List.cons_append, List.cons.injEq] at h
    obtain ⟨rfl, h⟩ := h
    exact ih h

/-- One message of a user more is never compressed away. -/
theorem compress_concat_ne (hx : summaryPart x ≠ none) :
    compressMessages (l ++ [x]) 6 ≠ compressMessages l 6 := by
  intro heq
  have hlen := congrArg List.length heq
  rw [length_compress, length_compress, List.length_append, List.length_singleton] at hlen
  have hlong : 6 < l.length := by
    by_contra hshort
    split_ifs at hlen <;> omega
  rw [compress_eq_iff (by simp; omega) hlong, List.length_append, List.length_singleton] at heq
  obtain ⟨hsummary, hrecent⟩ := heq
  have hindex : l.length - 6 < l.length := by omega
  have hstep : l.length + 1 - 6 = l.length - 6 + 1 := by omega
  rw [hstep, List.drop_append_of_le_length (by omega), List.drop_eq_getElem_cons hindex] at hrecent
  have hfirst : l[l.length - 6] = x := eq_of_shift hrecent
  rw [hstep, List.take_append_of_le_length (by omega), List.take_add_one,
    List.getElem?_eq_getElem hindex, hfirst, Option.toList_some, summary_append_eq] at hsummary
  obtain ⟨s, hs⟩ := Option.ne_none_iff_exists'.mp hx
  simp [hs] at hsummary

theorem summaryPart_format {row : StoredRow J} :
    summaryPart (format dumps row) = none ↔ row.role ≠ .user ∧ row.role ≠ .assistant := by
  cases h : row.role <;> simp [format, h, summaryPart]

/-- The messages first sent are the intended ones exactly when at least 50 were stored, the last six
of these look like the 45th to the 50th, and none of those in between is a question or an answer; so
with 50 stored, and never with fewer. -/
theorem firstMessages_eq_iff :
    firstMessages dumps context rows userPrompt =
        intendedMessages dumps context rows userPrompt ↔
      50 ≤ rows.length ∧
      ((rows.take 50).drop 44).map (format dumps) =
        (rows.drop (rows.length - 6)).map (format dumps) ∧
      ∀ row ∈ (rows.take (rows.length - 6)).drop 44, row.role ≠ .user ∧ row.role ≠ .assistant := by
  have hcancel : firstMessages dumps context rows userPrompt =
      intendedMessages dumps context rows userPrompt ↔
      compressMessages (((rows ++ [promptRow userPrompt]).take 50).map (format dumps)) 6 =
        compressMessages (rows.map (format dumps)) 6 := by
    simp [firstMessages, intendedMessages, loadHistory, listMessages]
  rw [hcancel]
  by_cases h50 : 50 ≤ rows.length
  · rw [List.take_append_of_le_length h50, compress_eq_iff (by simp; omega) (by simp; omega),
      and_comm, and_iff_right h50]
    have hlen : ((rows.take 50).map (format dumps)).length - 6 = 44 := by simp [h50]
    rw [hlen, List.length_map]
    refine and_congr ?_ ?_
    · rw [List.map_drop, List.map_drop]
    · have hsplit : (rows.map (format dumps)).take (rows.length - 6) =
          ((rows.take 50).map (format dumps)).take 44 ++
            ((rows.take (rows.length - 6)).drop 44).map (format dumps) := by
        rw [← List.map_take, ← List.map_take, ← List.map_append, List.take_take]
        congr 1
        have hle : min 44 50 = min 44 (rows.length - 6) := by omega
        rw [hle, ← List.take_take, List.take_append_drop]
      rw [hsplit, eq_comm, summary_append_eq, List.filterMap_eq_nil_iff, List.forall_mem_map]
      simp only [summaryPart_format]
  · have htake : (rows ++ [promptRow userPrompt]).take 50 = rows ++ [promptRow userPrompt] :=
      List.take_of_length_le (by simp; omega)
    rw [htake, List.map_append, List.map_singleton]
    refine iff_of_false (compress_concat_ne ?_) (fun h => h50 h.1)
    simp [format, promptRow, summaryPart]

/-- The first prompt of a session is sent twice. -/
theorem firstMessages_repeats_prompt :
    (firstMessages (fun _ : Option String => "{}") ⟨"", "binance", "BTCUSDT", none, ""⟩ []
      "BTC?").tail = [.user "BTC?", .user "BTC?"] ∧
    firstMessages (fun _ : Option String => "{}") ⟨"", "binance", "BTCUSDT", none, ""⟩ [] "BTC?" ≠
      intendedMessages (fun _ : Option String => "{}") ⟨"", "binance", "BTCUSDT", none, ""⟩ []
        "BTC?" := by
  constructor
  · decide
  · intro heq
    exact absurd (congrArg List.length heq) (by decide)

end Pyharmonics.VibeAgent
