import TreeGen.Toml.Reading

/-!
# Unquoted values in TOML

Booleans, numbers, dates and times are written without quotes, as one run of characters.  White
space belongs to the run when more of it follows on the same line, which is how a date and a time
can be parted by a space.

What a run denotes is decided in two steps.  Reading decides between the kinds of values and looks
at where signs, radix prefixes, leading zeros and underscores stand.  It checks every character of
a number with a radix prefix, of a floating-point number and of a date or time; a decimal integer
with underscores is only checked around these, and there hexadecimal digits pass as well.  Whether
an integer denotes a number is decided when the number is asked for.
-/

namespace TreeGen.Toml

/-! ## Runs -/

def endsRun (c : Char) : Bool :=
  c ∈ ['=', ',', '[', ']', '{', '}', '#', '\r', '\n']

/-- Whether the text behind white space goes on with an unquoted value. -/
def continuesRun : List Char → Bool
  | [] => false
  | c :: _ => !(endsRun c || c == '.' || c == '"' || c == '\'')

def splitRun : List Char → List Char × List Char
  | [] => ([], [])
  | c :: rest =>
    if endsRun c ∨ (isSpace c ∧ !continuesRun (skipSpace rest)) then ([], c :: rest)
    else
      let (run, behind) := splitRun rest
      (c :: run, behind)

def splitSign : List Char → List Char × List Char
  | '+' :: rest => (['+'], rest)
  | '-' :: rest => (['-'], rest)
  | text => ([], text)

/-- Whether every underscore stands between digits; `digitBefore` tells whether the character
before the text counts as one. -/
def partsDigits (isDigit : Char → Bool) (digitBefore : Bool) : List Char → Bool
  | [] => true
  | ['_'] => false
  | '_' :: c :: rest => digitBefore && isDigit c && partsDigits isDigit true rest
  | c :: rest => partsDigits isDigit (isDigit c) rest

/-! ## Integers -/

def digitValue? (c : Char) : Option Nat :=
  if c.isDigit then some (c.toNat - '0'.toNat)
  else if 'a' ≤ c.toLower ∧ c.toLower ≤ 'f' then some (c.toLower.toNat - 'a'.toNat + 10)
  else none

def isDigitOf (radix : Nat) (c : Char) : Bool :=
  match digitValue? c with
  | some digit => decide (digit < radix)
  | none => false

/-- The number that digits of a radix denote; there must be one at least. -/
def natural? (radix : Nat) (digits : List Char) : Option Nat :=
  if digits ≠ [] ∧ digits.all (isDigitOf radix) then
    some (digits.foldl (fun number c => number * radix + (digitValue? c).getD 0) 0)
  else none

def signed? (radix : Nat) (source : List Char) : Option Int :=
  let (sign, digits) := splitSign source
  (natural? radix digits).map fun number => if sign = ['-'] then -(number : Int) else number

/-- The number that a value is, if it is an integer that denotes one. -/
def integer? : Toml → Option Int
  | .integer radix source => signed? radix source
  | _ => none

def prefixed? (radix : Nat) (run : List Char) : Option Toml :=
  if run.all (fun c => isDigitOf radix c || c == '_') ∧ partsDigits (isDigitOf 16) false run then
    some (.integer radix (run.filter (· ≠ '_')))
  else none

/-! ## Decimal numbers, dates and times -/

/-- Split off digits and underscores; whether there was a digit, and whether a zero stood before
another digit. -/
def splitDigits (text : List Char) : (Bool × Bool) × List Char :=
  let run := text.takeWhile fun c => c.isDigit || c == '_'
  let count := run.countP Char.isDigit
  ((decide (0 < count), run.head? == some '0' && decide (1 < count)), text.drop run.length)

def isScale : List Char → Bool
  | [] => true
  | mark :: rest =>
    (mark == 'e' || mark == 'E') &&
      (let ((filled, _), behind) := splitDigits (splitSign rest).2
       filled && behind.isEmpty)

/-- Whether a text without a sign has the parts of a floating-point number. -/
def isFloating (text : List Char) : Bool :=
  match splitDigits text with
  | ((true, false), '.' :: rest) =>
    let ((filled, _), behind) := splitDigits rest
    filled && isScale behind
  | ((true, false), rest) => isScale rest
  | _ => false

/-- The value that a run denotes, where `unsigned` is the run behind its sign. -/
def decimal? (sign unsigned : List Char) : Option Toml :=
  let rest := unsigned.dropWhile Char.isDigit
  let run := sign ++ unsigned
  match rest with
  | [] =>
    if unsigned = [] ∨ (unsigned.head? = some '0' ∧ unsigned ≠ ['0']) then none
    else some (.integer 10 run)
  | c :: _ =>
    if c = '-' ∨ c = ':' then (Moment.ofChars? run).map .moment
    else if ' ' ∈ rest then none
    else if rest.any fun c => c == '.' || c == 'e' || c == 'E' then
      if isFloating unsigned ∧ partsDigits Char.isDigit (sign ≠ []) unsigned then
        some (.float (String.ofList run))
      else none
    else if c = '_' ∧ unsigned.head? ≠ some '0' ∧ partsDigits (isDigitOf 16) (sign ≠ []) unsigned
    then some (.integer 10 (run.filter (· ≠ '_')))
    else none

/-! ## Any unquoted value -/

def scalarOfRun? (run : List Char) : Option Toml :=
  if run = "true".toList then some (.boolean true)
  else if run = "false".toList then some (.boolean false)
  else
    match run with
    | '0' :: 'x' :: digits => prefixed? 16 digits
    | '0' :: 'o' :: digits => prefixed? 8 digits
    | '0' :: 'b' :: digits => prefixed? 2 digits
    | _ =>
      let (sign, unsigned) := splitSign run
      if unsigned = "inf".toList ∨ unsigned = "nan".toList then some (.float (String.ofList run))
      else decimal? sign unsigned

def scalar : Reader Toml := fun text =>
  let (run, behind) := splitRun text
  (scalarOfRun? run).map fun value => (value, behind)

end TreeGen.Toml
