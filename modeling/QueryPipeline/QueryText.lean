import QueryPipeline.Fault
import QueryPipeline.Json.Reader

/-! Query objects as the texts that come with requests. -/

namespace QueryPipeline.QueryText

/-- Reads the query object in a text. No text, or an empty one, is an empty query object. -/
def read (text : Option String) : Except Flaw Document :=
  let cs := (text.getD "").toList
  if cs.isEmpty then .ok []
  else
    match Json.read digitLimit cs with
    | .error mistake => .error (.unreadableText cs mistake)
    | .ok (.object entries) => .ok entries
    | .ok v => .error (.textNotObject v)

end QueryPipeline.QueryText
