/-!
# JSON values

The values that a JSON text can denote.  Numbers are kept as they are written, because nothing here
computes with them, and objects keep all their members as they are written, repeated keys included;
what a repeated key means is decided where the members are used.
-/

namespace TreeGen

inductive Json where
  | null
  | boolean (value : Bool)
  | number (source : String)
  | string (value : String)
  | array (items : List Json)
  | object (members : List (String × Json))
deriving Repr

namespace Json

inductive Kind where
  | null
  | boolean
  | number
  | string
  | array
  | object
deriving DecidableEq, Repr

def Kind.description : Kind → String
  | .null => "null"
  | .boolean => "a boolean"
  | .number => "a number"
  | .string => "a string"
  | .array => "an array"
  | .object => "an object"

def kind : Json → Kind
  | .null => .null
  | .boolean _ => .boolean
  | .number _ => .number
  | .string _ => .string
  | .array _ => .array
  | .object _ => .object

end Json

end TreeGen
