namespace Spreadsheet.Toml

abbrev Reader := StateT (List Char) Option

namespace Reader

def satisfy (p : Char → Bool) : Reader Char
  | [] => none
  | c :: cs => if p c then some (c, cs) else none

def takeWhile (p : Char → Bool) : Reader (List Char) :=
  fun cs => some (cs.takeWhile p, cs.dropWhile p)

def expect (word : List Char) : Reader Unit :=
  fun cs => if word.isPrefixOf cs then some ((), cs.drop word.length) else none

def atEnd : Reader Unit
  | [] => some ((), [])
  | _ :: _ => none

def upTo {α : Type} (count : Nat) (p : Reader α) : Reader (List α) :=
  go count []
where
  go : Nat → List α → Reader (List α)
    | 0, found, cs => some (found.reverse, cs)
    | n + 1, found, cs => match p cs with
      | some (x, rest) => go n (x :: found) rest
      | none => some (found.reverse, cs)

def separated {α : Type} (count : Nat) (separator : Char) (p : Reader α) : Reader (List α) := do
  let first ← p
  let others ← upTo count (do expect [separator]; p)
  return first :: others

def verify {α : Type} (x : Option α) : Reader α :=
  fun cs => x.map (·, cs)

end Reader

end Spreadsheet.Toml
