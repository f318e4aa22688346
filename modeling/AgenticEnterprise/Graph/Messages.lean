import AgenticEnterprise.Core.Text

/-! Chat messages and the schemas a model's answer is read into. -/

set_option autoImplicit false

namespace AgenticEnterprise.Graph

open Core

/-- An argument of a tool call. Values other than strings are only ever printed,
so they are known by their `repr`. -/
inductive Argument where
  | text (value : String)
  | other (printed : String)
  deriving DecidableEq, Repr

def Argument.pyRepr : Argument → String
  | .text value => Text.pyRepr value
  | .other printed => printed

structure ToolCall where
  id : String
  name : String
  args : List (String × Argument)
  deriving DecidableEq, Repr

inductive Message where
  | system (content : String)
  | human (content : String)
  | ai (content : String) (toolCalls : List ToolCall)
  | tool (content toolCallId : String)
  deriving DecidableEq, Repr

namespace Message

def content : Message → String
  | .system content | .human content | .ai content _ | .tool content _ => content

/-- `BaseMessage.type`. -/
def type : Message → String
  | .system _ => "system"
  | .human _ => "human"
  | .ai _ _ => "ai"
  | .tool _ _ => "tool"

def toolCalls : Message → List ToolCall
  | .ai _ toolCalls => toolCalls
  | _ => []

def isAi : Message → Bool
  | .ai _ _ => true
  | _ => false

end Message

/-- What a chat model answers with: the fields of the `AIMessage` it returns. -/
structure Reply where
  content : String
  toolCalls : List ToolCall := []
  deriving DecidableEq, Repr

def Reply.message (reply : Reply) : Message :=
  .ai reply.content reply.toolCalls

/-- What is handed to a model: a message list, or one text for structured output. -/
inductive Prompt where
  | messages (messages : List Message)
  | text (text : String)
  deriving DecidableEq, Repr

/-- The result of `get_market_metrics`; the source returns fixed values for all
but the ticker. -/
structure MarketMetrics where
  ticker : Argument
  deriving DecidableEq, Repr

def MarketMetrics.pyRepr (metrics : MarketMetrics) : String :=
  "\x7b'ticker': " ++ metrics.ticker.pyRepr ++
    ", 'price': 150.0, 'volume': '1M', 'status': 'LIVE'\x7d"

inductive Sentiment where
  | bullish
  | bearish
  | neutral
  deriving DecidableEq, Repr

/-- The bounds that pydantic enforces are part of the type. -/
structure InvestmentAnalysis where
  ticker : String
  sentiment : Sentiment
  riskScore : Int
  keyDrivers : List String
  complianceCheck : Bool := true
  riskScore_ge : 1 ≤ riskScore
  riskScore_le : riskScore ≤ 10
  keyDrivers_min : 3 ≤ keyDrivers.length
  deriving DecidableEq, Repr

structure ResearchReport where
  topic : String
  summary : String
  sourcesConsulted : List String := []
  confidence : Rat
  summary_min : 20 ≤ summary.length
  confidence_ge : 0 ≤ confidence
  confidence_le : confidence ≤ 1
  deriving DecidableEq, Repr

end AgenticEnterprise.Graph
