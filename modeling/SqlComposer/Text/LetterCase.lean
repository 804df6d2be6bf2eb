import SqlComposer.Text.LetterCase.Table
import SqlComposer.Text.LetterCase.Neighbour
import SqlComposer.Text.Range

/-! Letter case. A capital or a small letter may take several characters (sharp s becomes SS), so
the maps of a character answer a list. The maps of a whole text work character by character, but for
the small sigma, which has a form of its own at the end of a word. -/

namespace SqlComposer.Text

def mapByTables (expansions : List (Nat × List Nat)) (runs : List CaseRun) (c : Char) : List Char :=
  match expansions.find? (·.1 == c.toNat) with
  | some e => e.2.map Char.ofNat
  | none =>
    match runs.find? (·.covers c.toNat) with
    | some r => [Char.ofNat (r.apply c.toNat)]
    | none => [c]

def lowerChar (c : Char) : List Char :=
  if c.toNat < 0x80 then [c.toLower] else mapByTables lowerExpansions lowerRuns c

def upperChar (c : Char) : List Char :=
  if c.toNat < 0x80 then [c.toUpper] else mapByTables upperExpansions upperRuns c

def isCapital (c : Char) : Bool :=
  if c.toNat < 0x80 then c.isUpper else capitalRuns.any (·.covers c.toNat)

def upper (s : String) : String :=
  String.ofList (s.toList.flatMap upperChar)

def isCaseIgnorable (c : Char) : Bool :=
  inRanges caseIgnorableRanges c.toNat

def isCased (c : Char) : Bool :=
  inRanges casedRanges c.toNat

def meetsCased (cs : List Char) : Bool :=
  match cs.dropWhile isCaseIgnorable with
  | c :: _ => isCased c
  | [] => false

/-- A capital sigma ends a word: a cased letter comes before it and none after it. -/
def endsWord (before after : List Char) : Bool :=
  meetsCased before && !meetsCased after

/-- The first argument holds the characters already passed, the nearest first. -/
def lowerFrom (before : List Char) : List Char → List Char
  | [] => []
  | c :: cs =>
    let small :=
      if c = 'Σ' then [if endsWord before cs then 'ς' else 'σ'] else lowerChar c
    small ++ lowerFrom (c :: before) cs

def lower (s : String) : String :=
  String.ofList (lowerFrom [] s.toList)

end SqlComposer.Text
