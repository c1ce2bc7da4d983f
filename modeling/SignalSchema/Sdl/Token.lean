import SignalSchema.Sdl.Quoted

/-!
# Tokens of the schema language

A schema text is a sequence of tokens. White space, commas, byte order marks and comments
between them are dropped.
-/

namespace SignalSchema.Sdl

/-- A token. -/
inductive Token where
  | mark (c : Char)
  | spread
  | name (text : String)
  | int (text : String)
  | float (text : String)
  | string (value : String)
  deriving DecidableEq, Repr

namespace Token

/-- Characters that stand for themselves. -/
def isMark (c : Char) : Bool :=
  ['!', '$', '&', '(', ')', ':', '=', '@', '[', ']', '{', '|', '}'].contains c

/-- Characters that separate tokens. -/
def isSeparator (c : Char) : Bool :=
  c == ' ' || c == '\t' || c == '\n' || c == '\r' || c == ',' || c.toNat == 0xFEFF

/-- Whether a name can start with a character. -/
def isNameStart (c : Char) : Bool :=
  c.isAlpha || c == '_'

/-- Whether a name can go on with a character. -/
def isNameContinue (c : Char) : Bool :=
  c.isAlphanum || c == '_'

/-- What may not follow a number. -/
def endsNumber : List Char → Bool
  | [] => true
  | c :: _ => !(isNameContinue c || c == '.')

/-- The digits of an exponent, with its mark and sign, and the rest. -/
def readExponent : List Char → Option (List Char × List Char)
  | e :: rest => do
    let (sign, rest) :=
      match rest with
      | '+' :: rest => (['+'], rest)
      | '-' :: rest => (['-'], rest)
      | rest => ([], rest)
    let (digits, rest) ← RawJson.readDigits rest
    some (e :: (sign ++ digits), rest)
  | [] => none

/-- A number without its sign: the token and the rest. -/
def readNumber (sign : List Char) (cs : List Char) : Option (Token × List Char) := do
  let (whole, rest) ← RawJson.readDigits cs
  if whole.head? = some '0' && whole.length ≠ 1 then none
  else
    let (fraction, rest) ←
      match rest with
      | '.' :: rest => (RawJson.readDigits rest).map fun (ds, rest) => ('.' :: ds, rest)
      | rest => some ([], rest)
    let (exponent, rest) ←
      match rest with
      | 'e' :: _ => readExponent rest
      | 'E' :: _ => readExponent rest
      | rest => some ([], rest)
    if !endsNumber rest then none
    else if fraction.isEmpty && exponent.isEmpty then
      some (.int (String.ofList (sign ++ whole)), rest)
    else some (.float (String.ofList (sign ++ whole ++ fraction ++ exponent)), rest)

/-- The tokens of a text. The fuel bounds their number. -/
def scanWith : Nat → List Char → Option (List Token)
  | _, [] => some []
  | 0, _ => none
  | fuel + 1, c :: rest =>
    if isSeparator c then scanWith fuel rest
    else if c = '#' then scanWith fuel (rest.dropWhile fun c => c != '\n' && c != '\r')
    else if isMark c then (scanWith fuel rest).map (.mark c :: ·)
    else if isNameStart c then
      (scanWith fuel (rest.dropWhile isNameContinue)).map
        (.name (String.ofList (c :: rest.takeWhile isNameContinue)) :: ·)
    else if c = '"' then do
      let (value, rest) ← readQuoted rest
      (scanWith fuel rest).map (.string value :: ·)
    else if c = '-' then do
      let (token, rest) ← readNumber ['-'] rest
      (scanWith fuel rest).map (token :: ·)
    else if c.isDigit then do
      let (token, rest) ← readNumber [] (c :: rest)
      (scanWith fuel rest).map (token :: ·)
    else
      match c, rest with
      | '.', '.' :: '.' :: rest => (scanWith fuel rest).map (.spread :: ·)
      | _, _ => none

/-- The tokens of a text, none if some part of it is no token. -/
def scan? (source : String) : Option (List Token) :=
  let cs := source.toList
  scanWith cs.length cs

end Token

end SignalSchema.Sdl
