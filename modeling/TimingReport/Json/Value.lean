/-!
# JSON values

The values that summaries and tables are written as. The members of an object keep their
order.
-/

namespace TimingReport.Json

inductive Value where
  | null
  | bool (value : Bool)
  | integer (value : Int)
  | number (value : Float)
  | string (value : String)
  | array (items : List Value)
  | object (members : List (String × Value))

/-- An absent value is null. -/
def Value.ofOption {α : Type} (encode : α → Value) : Option α → Value
  | none => .null
  | some value => encode value

def Value.strings (texts : List String) : Value := .array (texts.map .string)

def Value.numbers (values : List Float) : Value := .array (values.map .number)

end TimingReport.Json
