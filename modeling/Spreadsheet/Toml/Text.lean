import Spreadsheet.Toml.Reader

namespace Spreadsheet.Toml

open Reader

def isSpace (c : Char) : Bool :=
  c == ' ' || c == '\t'

def isPlain (c : Char) : Bool :=
  c == '\t' || (0x20 ≤ c.toNat && c.toNat != 0x7F)

def spaces : Reader Unit :=
  fun cs => some ((), cs.dropWhile isSpace)

def lineBreak : Reader Unit
  | '\n' :: cs => some ((), cs)
  | '\r' :: '\n' :: cs => some ((), cs)
  | _ => none

def comment : Reader Unit := do
  expect ['#']
  let _ ← takeWhile isPlain

def lineEnd : Reader Unit := do
  spaces
  comment <|> pure ()
  lineBreak <|> atEnd

def trivia (size : Nat) : Reader Unit := do
  spaces
  let _ ← upTo size (do comment <|> pure (); lineBreak; spaces)

def hexValue (ds : List Char) : Option Nat :=
  if ds.all fun c => c.isDigit || ('a' ≤ c.toLower && c.toLower ≤ 'f') then
    some (ds.foldl (fun n c =>
      16 * n + (if c.isDigit then c.toNat - '0'.toNat else c.toLower.toNat - 'a'.toNat + 10)) 0)
  else none

def charOfHex? (ds : List Char) : Option Char :=
  (hexValue ds).bind fun n => if n.isValidChar then some (Char.ofNat n) else none

def charOfEscape? : Char → Option Char
  | 'b' => some '\x08'
  | 't' => some '\t'
  | 'n' => some '\n'
  | 'f' => some '\x0c'
  | 'r' => some '\r'
  | '"' => some '"'
  | '\\' => some '\\'
  | _ => none

def basicText (read : List Char) : Reader String
  | '"' :: cs => some (String.ofList read.reverse, cs)
  | '\\' :: 'u' :: a :: b :: c :: d :: cs => do
    basicText ((← charOfHex? [a, b, c, d]) :: read) cs
  | '\\' :: 'U' :: a :: b :: c :: d :: e :: f :: g :: h :: cs => do
    basicText ((← charOfHex? [a, b, c, d, e, f, g, h]) :: read) cs
  | '\\' :: c :: cs => do basicText ((← charOfEscape? c) :: read) cs
  | c :: cs => if isPlain c then basicText (c :: read) cs else none
  | [] => none

/-- One or two quotes may stand before the closing ones. A backslash at the end of a line drops all blanks
and line breaks that follow, which `joining` says it does. -/
def longBasicText (joining : Bool) (read : List Char) : Reader String
  | '"' :: '"' :: '"' :: '"' :: '"' :: cs => some (String.ofList ('"' :: '"' :: read).reverse, cs)
  | '"' :: '"' :: '"' :: '"' :: cs => some (String.ofList ('"' :: read).reverse, cs)
  | '"' :: '"' :: '"' :: cs => some (String.ofList read.reverse, cs)
  | '\\' :: 'u' :: a :: b :: c :: d :: cs => do
    longBasicText false ((← charOfHex? [a, b, c, d]) :: read) cs
  | '\\' :: 'U' :: a :: b :: c :: d :: e :: f :: g :: h :: cs => do
    longBasicText false ((← charOfHex? [a, b, c, d, e, f, g, h]) :: read) cs
  | '\\' :: c :: cs =>
    match charOfEscape? c with
    | some c => longBasicText false (c :: read) cs
    | none => if (lineBreak ((c :: cs).dropWhile isSpace)).isSome then
        longBasicText true read (c :: cs)
      else none
  | '\r' :: '\n' :: cs => longBasicText joining (if joining then read else '\n' :: read) cs
  | '\n' :: cs => longBasicText joining (if joining then read else '\n' :: read) cs
  | c :: cs =>
    if joining && isSpace c then longBasicText true read cs
    else if isPlain c then longBasicText false (c :: read) cs
    else none
  | [] => none

def literalText (read : List Char) : Reader String
  | '\'' :: cs => some (String.ofList read.reverse, cs)
  | c :: cs => if isPlain c then literalText (c :: read) cs else none
  | [] => none

def longLiteralText (read : List Char) : Reader String
  | '\'' :: '\'' :: '\'' :: '\'' :: '\'' :: cs =>
    some (String.ofList ('\'' :: '\'' :: read).reverse, cs)
  | '\'' :: '\'' :: '\'' :: '\'' :: cs => some (String.ofList ('\'' :: read).reverse, cs)
  | '\'' :: '\'' :: '\'' :: cs => some (String.ofList read.reverse, cs)
  | '\r' :: '\n' :: cs => longLiteralText ('\n' :: read) cs
  | '\n' :: cs => longLiteralText ('\n' :: read) cs
  | c :: cs => if isPlain c then longLiteralText (c :: read) cs else none
  | [] => none

def quotedText : Reader String
  | '"' :: '"' :: '"' :: cs => (do lineBreak <|> pure (); longBasicText false []) cs
  | '"' :: cs => basicText [] cs
  | '\'' :: '\'' :: '\'' :: cs => (do lineBreak <|> pure (); longLiteralText []) cs
  | '\'' :: cs => literalText [] cs
  | _ => none

def isKeyChar (c : Char) : Bool :=
  c.isAlphanum || c == '_' || c == '-'

def simpleKey : Reader String
  | '"' :: cs => basicText [] cs
  | '\'' :: cs => literalText [] cs
  | cs => do
    let (word, cs) ← takeWhile isKeyChar cs
    if word = [] then none else some (String.ofList word, cs)

def maxDepth : Nat := 79

def key : Reader (List String) := do
  let parts ← separated (maxDepth + 1) '.' (do
    spaces
    let part ← simpleKey
    spaces
    return part)
  if parts.length ≤ maxDepth then return parts else failure

end Spreadsheet.Toml
