/-! # Suggestions

A name that is not known may be meant as a name that contains its characters in the same order. How
close such a candidate is shows in a score: every matched character counts, more so at the start of a
word of the candidate and right behind another match, and characters passed over between matches count
against it.

The score is found in two rows of cells, one for the characters of the name at even places and one for
those at odd places. A cell holds the best score that ends in a match at its column, the best that ends
in a gap, and the bonus that a run of matches carries along. The rows are used again and again, so a
cell that a character does not reach keeps what an earlier character left there.
-/

namespace ClassSchema

namespace Closeness

/-- A score that stands for none. -/
def noScore : Int := -32768

/-- The scores at one column. -/
structure Cell where
  matched : Int
  gapped : Int
  bonus : Int

/-- What a character is for the start of words. -/
inductive CharacterRole where
  | separator
  | punctuation
  | digit
  | capital
  | other
deriving DecidableEq

/-- The role of a character. -/
def roleOf (c : Char) : CharacterRole :=
  if c = '\x00' ∨ " /\\|()[]\x7b\x7d".toList.contains c then .separator
  else if "!\"#$%&'*+,-.:;<=>?@^_\x60~".toList.contains c then .punctuation
  else if c.isDigit then .digit
  else if c.isUpper then .capital
  else .other

/-- The bonus of a character that follows another one. -/
def placeBonus (previous c : Char) : Int :=
  match roleOf previous, roleOf c with
  | .separator, _ => 8
  | .punctuation, _ => 7
  | .other, .capital => 6
  | .digit, .capital => 6
  | _, _ => 0

/-- The bonuses of the characters behind `previous`. -/
def bonusesAfter (previous : Char) : List Char → List Int
  | [] => []
  | c :: rest => placeBonus previous c :: bonusesAfter c rest

/-- The bonuses of a candidate's characters; that of the first one counts twice. -/
def placeBonuses (candidate : List Char) : List Int :=
  match bonusesAfter '\x00' candidate with
  | [] => []
  | first :: rest => 2 * first :: rest

/-- Whether two characters are taken as the same. -/
def sameChar (caseMatters : Bool) (a b : Char) : Bool :=
  a == b || (!caseMatters && a.toLower == b.toLower)

/-- The columns at which a name's characters are first found in a candidate from `column` on, one after
the other. -/
def firstColumns? (caseMatters : Bool) (column : Nat) : List Char → List Char → Option (List Nat)
  | [], _ => some []
  | _ :: _, [] => none
  | c :: name, d :: candidate =>
    if sameChar caseMatters c d then
      (firstColumns? caseMatters (column + 1) name candidate).map (column :: ·)
    else firstColumns? caseMatters (column + 1) (c :: name) candidate

/-- Fill in a row from `cell` on for the character `c`: `later` are the cells behind it, `previous` the
cells of the other row from the same column on, `places` and `candidate` the bonuses and characters
there. -/
def fillRow (caseMatters : Bool) (c : Char) (cell : Cell) (later previous : List Cell)
    (places : List Int) (candidate : List Char) : List Cell :=
  match later, previous, places, candidate with
  | next :: later, before :: previous, place :: places, d :: candidate =>
    let gapped := max (cell.matched - 4) (cell.gapped - 1)
    if sameChar caseMatters c d then
      let bonus := max (max cell.bonus place) 4
      let matched := max (before.matched + bonus) (before.gapped + place) + if c = d then 16 else 14
      { cell with bonus := bonus } ::
        fillRow caseMatters c ⟨matched, gapped, next.bonus⟩ later previous places candidate
    else cell :: fillRow caseMatters c ⟨noScore, gapped, 0⟩ later previous places candidate
  | _, _, _, _ => cell :: later

/-- Fill in a row from a column on. -/
def fillRowFrom (caseMatters : Bool) (c : Char) (column : Nat) (row other : List Cell)
    (places : List Int) (candidate : List Char) : List Cell :=
  match row.drop column with
  | [] => row
  | cell :: later =>
    row.take column ++
      fillRow caseMatters c cell later (other.drop column) (places.drop column) (candidate.drop column)

/-- Take up a name's characters from left to right. `other` is the row of the character before, `row`
the row to be filled in; the result is the row of the last character. -/
def fillRows (caseMatters : Bool) (row other : List Cell) (places : List Int) (candidate : List Char) :
    List (Char × Nat) → List Cell
  | [] => other
  | (c, column) :: rest =>
    fillRows caseMatters other (fillRowFrom caseMatters c column row other places candidate) places
      candidate rest

/-- How close a candidate is to a name; `none` if it does not contain the name's characters in order.
Case matters only for a name with a capital letter. -/
def score? (name candidate : String) : Option Int :=
  let nameChars := name.toList
  let chars := candidate.toList
  let caseMatters := nameChars.any Char.isUpper
  match firstColumns? caseMatters 0 nameChars chars with
  | none => none
  | some columns =>
    match columns.getLast? with
    | none => some 0
    | some lastColumn =>
      let first := List.replicate (chars.length + 1) (⟨noScore, -1, 0⟩ : Cell)
      let second := List.replicate (chars.length + 1) (⟨noScore, noScore, 0⟩ : Cell)
      let final := fillRows caseMatters second first (placeBonuses chars) chars (nameChars.zip columns)
      some ((final.drop lastColumn).foldl (fun best cell => max best cell.matched) noScore)

end Closeness

/-- The closest of the candidates to a name, the last one of several. -/
def suggest? (name : String) (candidates : List String) : Option String :=
  let scored := candidates.filterMap fun candidate =>
    (Closeness.score? name candidate).map (candidate, ·)
  (scored.foldl (fun best next =>
    match best with
    | none => some next
    | some held => if held.2 ≤ next.2 then some next else some held) none).map Prod.fst

end ClassSchema
