/-
JSON values as the program meets them in the output of its tool. Numbers written with a
fraction or an exponent are binary floating point numbers, all others are integers of any
size. Texts are lists of code points because an escape may name a surrogate that has no
partner. The members of an object keep their order.
-/

import RedirectMonitor.Binary64
import RedirectMonitor.Text.Quoted

namespace RedirectMonitor

inductive Json where
  | null
  | boolean (value : Bool)
  | integer (value : Int)
  | real (value : Binary64)
  | string (value : Text.CodePoints)
  | array (items : List Json)
  | object (members : List (Text.CodePoints × Json))
deriving Inhabited, Repr

namespace Json

/-- The kinds of values that messages tell apart. -/
inductive Kind where
  | null
  | boolean
  | integer
  | real
  | string
  | array
  | object
deriving DecidableEq, Repr

def kind : Json → Kind
  | null => .null
  | boolean _ => .boolean
  | integer _ => .integer
  | real _ => .real
  | string _ => .string
  | array _ => .array
  | object _ => .object

def Kind.name : Kind → String
  | .null => "NoneType"
  | .boolean => "bool"
  | .integer => "int"
  | .real => "float"
  | .string => "str"
  | .array => "list"
  | .object => "dict"

/-- The code points of a key written in a program text. -/
def key (name : String) : Text.CodePoints := Text.codePoints name.toList

def member? (name : Text.CodePoints) : List (Text.CodePoints × Json) → Option Json
  | [] => none
  | (key, value) :: rest => if key = name then some value else member? name rest

/-- The members with one more: a key that is there keeps its place and takes the new value. -/
def setMember (name : Text.CodePoints) (value : Json) :
    List (Text.CodePoints × Json) → List (Text.CodePoints × Json)
  | [] => [(name, value)]
  | (key, old) :: rest =>
    if key = name then (key, value) :: rest else (key, old) :: setMember name value rest

end Json

end RedirectMonitor
