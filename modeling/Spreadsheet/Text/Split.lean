namespace Spreadsheet.Text

def splitList (separator : Char) : List Char → List (List Char)
  | [] => [[]]
  | c :: cs =>
    if c = separator then [] :: splitList separator cs
    else match splitList separator cs with
      | [] => [[c]]
      | piece :: pieces => (c :: piece) :: pieces

def splitFirst? (separator : Char) (cs : List Char) : Option (List Char × List Char) :=
  match cs.dropWhile (· != separator) with
  | [] => none
  | _ :: rest => some (cs.takeWhile (· != separator), rest)

end Spreadsheet.Text
