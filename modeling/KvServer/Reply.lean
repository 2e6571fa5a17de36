import KvServer.Numeral.Decimal
import KvServer.Tag
import KvServer.Text.Utf8

/-!
# Replies

A reply is what the server sends back to a client: a line of text, an integer, a byte string or an
array of replies.

* `encode` writes the wire form. Text stays on one line, because `lineText` puts a space for every
  line-end character; byte strings and arrays are announced by their size.
* `display` writes the form a person reads.
-/

namespace KvServer

/-- A reply. The two nulls are different answers, as are a status and a byte string of one text. -/
inductive Reply where
  | status (text : String)
  | error (text : String)
  | integer (value : Int64)
  | bulk (data : Bytes)
  | null
  | array (items : List Reply)
  | nullArray
  deriving Inhabited

namespace Reply

/-- The acknowledgement of a write. -/
def ok : Reply := .status "OK"

/-- The answer to a bare ping. -/
def pong : Reply := .status "PONG"

/-! ## Wire form -/

/-- A text on one line: a space stands for each carriage return and line feed. -/
def lineText (text : String) : String :=
  String.ofList (text.toList.map fun c => if c = '\r' ∨ c = '\n' then ' ' else c)

/-- A line of text under a tag. -/
def line (tag : Tag) (body : Bytes) : Bytes :=
  tag.byte :: body ++ Bytes.crlf

/-- The line that announces a size, or carries an integer. -/
def header (tag : Tag) (value : Int) : Bytes :=
  line tag (Decimal.ofInt value)

mutual

def encode : Reply → Bytes
  | .status text => line .status (Utf8.encode (lineText text))
  | .error text => line .error (Utf8.encode (lineText text))
  | .integer value => header .integer value.toInt
  | .bulk data => header .bulk data.length ++ data ++ Bytes.crlf
  | .null => header .bulk (-1)
  | .array items => header .array items.length ++ encodeAll items
  | .nullArray => header .array (-1)

/-- The wire forms of replies, one after the other. -/
def encodeAll : List Reply → Bytes
  | [] => []
  | item :: items => encode item ++ encodeAll items

end

theorem encodeAll_eq_flatMap (items : List Reply) : encodeAll items = items.flatMap encode := by
  induction items with
  | nil => simp [encodeAll]
  | cons item items ih => simp [encodeAll, ih]

@[simp] theorem encodeAll_append (left right : List Reply) :
    encodeAll (left ++ right) = encodeAll left ++ encodeAll right := by
  simp [encodeAll_eq_flatMap]

/-! ## Readable form -/

mutual

/-- The readable form of a reply. -/
def display : Reply → String
  | .status text => text
  | .error text => "(error) " ++ text
  | .integer value => "(integer) " ++ toString value.toInt
  | .bulk data =>
    match Utf8.decode? data with
    | some text => "\"" ++ text ++ "\""
    | none => "(binary data, " ++ toString data.length ++ " bytes)"
  | .null => "(nil)"
  | .array [] => "(empty array)"
  | .array items => displayFrom 1 items
  | .nullArray => "(nil)"

/-- The lines of an array from the element with the given number on. -/
def displayFrom (number : Nat) : List Reply → String
  | [] => ""
  | item :: items =>
    toString number ++ ") " ++ display item ++ "\n" ++ displayFrom (number + 1) items

end

/-! ## Parts -/

def isNull : Reply → Bool
  | .null | .nullArray => true
  | _ => false

def isError : Reply → Bool
  | .error _ => true
  | _ => false

def integer? : Reply → Option Int64
  | .integer value => some value
  | _ => none

def bulk? : Reply → Option Bytes
  | .bulk data => some data
  | _ => none

end Reply

end KvServer
