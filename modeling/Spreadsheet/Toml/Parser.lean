import Spreadsheet.Toml.Scalar
import Spreadsheet.Toml.Table

namespace Spreadsheet.Toml

open Reader

def inlineTable (items : List (List String × Document)) : Option Document := do
  let entries ← items.foldlM (fun entries (path, d) => Node.addValue path d .header entries) []
  return .fields (Node.fieldsOf entries)

/-- A value in which lists and tables may be nested so deeply; none has more than `size` parts. -/
def value (size : Nat) : Nat → Reader Document
  | 0 => .text <$> quotedText <|> scalar
  | depth + 1 =>
    .text <$> quotedText <|> scalar
    <|> (do
      expect ['[']
      let items ← separated size ',' (do
        trivia size
        let d ← value size depth
        trivia size
        return d) <|> pure []
      if items ≠ [] then expect [','] <|> pure ()
      trivia size
      expect [']']
      return .list items)
    <|> (do
      expect ['\x7b']
      let items ← separated size ',' (do
        let path ← key
        expect ['=']
        spaces
        let d ← value size depth
        spaces
        return (path, d)) <|> pure []
      spaces
      expect ['\x7d']
      verify (inlineTable items))

inductive Statement
  | assign (path : List String) (d : Document)
  | header (path : List String)
  | item (path : List String)

def statement (size : Nat) : Reader Statement := do
  let s ← (do
      expect ['[', '[']
      let path ← key
      expect [']', ']']
      return Statement.item path)
    <|> (do
      expect ['[']
      let path ← key
      expect [']']
      return .header path)
    <|> (do
      let path ← key
      expect ['=']
      spaces
      return .assign path (← value size maxDepth))
  lineEnd
  return s

abbrev Builder := Node.Entries × List String

def Statement.build (b : Builder) : Statement → Option Builder
  | .assign path d => do
    return (← Node.within false (fun _ => Node.addValue path d .header) b.2 .header b.1, b.2)
  | .header path => do return (← Node.addHeader path b.1, path)
  | .item path => do return (← Node.addItem path b.1, path)

def statements (size : Nat) : Reader (List Statement) := do
  trivia size
  let found ← upTo size (do
    let s ← statement size
    trivia size
    return s)
  comment <|> pure ()
  atEnd
  return found

def parse? (s : String) : Option Document := do
  let cs := s.toList
  let cs := if cs.head? = some '\ufeff' then cs.tail else cs
  let (found, _) ← statements cs.length cs
  let (root, _) ← found.foldlM Statement.build ([], [])
  return .fields (Node.fieldsOf root)

end Spreadsheet.Toml
