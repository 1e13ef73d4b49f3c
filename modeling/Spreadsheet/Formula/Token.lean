import Spreadsheet.Formula.Error
import Spreadsheet.Number.Numeral

namespace Spreadsheet

inductive Token
  | number (n : Binary64)
  | text (s : String)
  | address (a : Address)
  | name (s : String)
  | plus
  | minus
  | star
  | slash
  | opening
  | closing
  | colon
  | comma
  deriving DecidableEq

namespace Token

def ofSymbol? : Char → Option Token
  | '+' => some .plus
  | '-' => some .minus
  | '*' => some .star
  | '/' => some .slash
  | '(' => some .opening
  | ')' => some .closing
  | ':' => some .colon
  | ',' => some .comma
  | _ => none

def splitQuoted : List Char → Option (List Char × List Char)
  | [] => none
  | '"' :: '"' :: cs => (splitQuoted cs).map fun (s, rest) => ('"' :: s, rest)
  | '"' :: cs => some ([], cs)
  | c :: cs => (splitQuoted cs).map fun (s, rest) => (c :: s, rest)

theorem length_of_splitQuoted {cs s rest : List Char} (h : splitQuoted cs = some (s, rest)) :
    rest.length < cs.length := by
  fun_induction splitQuoted cs generalizing s rest with
  | case1 => simp at h
  | case2 cs ih =>
    obtain ⟨⟨t, u⟩, ht, he⟩ := Option.map_eq_some_iff.1 h
    cases he
    have := ih ht
    simp only [List.length_cons]
    omega
  | case3 => cases h; simp
  | case4 c cs _ _ ih =>
    obtain ⟨⟨t, u⟩, ht, he⟩ := Option.map_eq_some_iff.1 h
    cases he
    have := ih ht
    simp only [List.length_cons]
    omega

def isWordStart (c : Char) : Bool :=
  c.isAlpha || c == '_'

def isWordPart (c : Char) : Bool :=
  c.isAlphanum || c == '_'

def isNumeralPart (c : Char) : Bool :=
  c.isDigit || c == '.'

def ofWord (word : List Char) : Except SyntaxError Token :=
  match Address.parseList? word with
  | some a => .ok (.address a)
  | none =>
-- A name holds no digit and is kept in capitals.
    if word.any Char.isDigit then .error (.unknownName (String.ofList word))
    else .ok (.name (String.ofList (word.map Char.toUpper)))

def ofNumeral (run : List Char) : Except SyntaxError Token :=
  match Binary64.read? run with
  | some n => .ok (.number n)
  | none => .error (.invalidNumber (String.ofList run))

def next (c : Char) (cs : List Char) : Except SyntaxError (Token × List Char) :=
  match ofSymbol? c with
  | some t => .ok (t, cs)
  | none =>
    if c = '"' then
      match splitQuoted cs with
      | some (s, rest) => .ok (.text (String.ofList s), rest)
      | none => .error .unterminatedText
    else if isWordStart c then
      (ofWord (c :: cs.takeWhile isWordPart)).map (·, cs.dropWhile isWordPart)
    else if isNumeralPart c then
      (ofNumeral (c :: cs.takeWhile isNumeralPart)).map (·, cs.dropWhile isNumeralPart)
    else .error (.unexpectedChar c)

theorem length_dropWhile_le (p : Char → Bool) (cs : List Char) :
    (cs.dropWhile p).length ≤ cs.length :=
  (List.dropWhile_suffix p).length_le

theorem length_of_next {c : Char} {cs rest : List Char} {t : Token}
    (h : next c cs = .ok (t, rest)) : rest.length ≤ cs.length := by
  unfold next at h
  split at h
  · cases h; exact Nat.le_refl _
  · split at h
    · split at h
      · next hq => cases h; exact Nat.le_of_lt (length_of_splitQuoted hq)
      · cases h
    · split at h
      · cases hw : ofWord (c :: cs.takeWhile isWordPart) with
        | error => rw [hw] at h; cases h
        | ok => rw [hw] at h; cases h; exact length_dropWhile_le _ _
      · split at h
        · cases hn : ofNumeral (c :: cs.takeWhile isNumeralPart) with
          | error => rw [hn] at h; cases h
          | ok => rw [hn] at h; cases h; exact length_dropWhile_le _ _
        · cases h

def tokens : List Char → Except SyntaxError (List Token)
  | [] => .ok []
  | c :: cs =>
    if Text.isBlank c then tokens cs
    else match h : next c cs with
      | .error e => .error e
      | .ok (t, rest) =>
        have := length_of_next h
        (tokens rest).map (t :: ·)
  termination_by cs => cs.length

end Token

end Spreadsheet
