/-!
# Filling in a template

A template is literal text with at most three kinds of token: the name, the type and the children
of a node, each written as a word between braces.  A token is active when it has a value.  One pass
from left to right replaces every active token by its value and copies everything else; inserted
values are never looked at again, so text that happens to contain a token is safe to insert.
-/

namespace TreeGen.Template

/-- The values that stand for the tokens; a token without a value is left as it is. -/
structure Values where
  name : Option String
  typeName : Option String
  children : Option String
deriving DecidableEq, Repr

def nameToken : List Char := "\x7bName\x7d".toList

def typeToken : List Char := "\x7bType\x7d".toList

def childrenToken : List Char := "\x7bChildren\x7d".toList

namespace Values

def active (values : Values) : List (List Char × List Char) :=
  [(nameToken, values.name), (typeToken, values.typeName), (childrenToken, values.children)]
    |>.filterMap fun (token, value?) => value?.map fun value => (token, value.toList)

def tokenAt? (values : Values) (text : List Char) : Option (List Char × List Char) :=
  values.active.find? fun (token, _) => token.isPrefixOf text

/-- Fill in a template that is given as characters: an active token gives way to its value, and
any other character stays. -/
def fillChars (values : Values) : List Char → List Char
  | [] => []
  | c :: rest =>
    match values.tokenAt? (c :: rest) with
    | some (token, value) => value ++ fillChars values (rest.drop (token.length - 1))
    | none => c :: fillChars values rest
termination_by text => text.length
decreasing_by
  all_goals simp only [List.length_drop, List.length_cons]; omega

/-- Replace every active token in a template by its value. -/
def fill (values : Values) (template : String) : String :=
  String.ofList (values.fillChars template.toList)

end Values

end TreeGen.Template
