import RecordQuery.Text.CaseTable

/-!
# Lower case

Substring search ignores letter case, and so does the search for a similar name. `lowercase` is
the full mapping of a text: one character may become two (`İ` becomes `i` and a dot above), and a
capital sigma becomes `ς` at the end of a word and `σ` elsewhere.

A sigma stands **at the end of a word** when the nearest character before it that is not
ignorable is cased and the nearest one after it is not. The image of a sigma therefore depends on
its neighbours, and a piece of a text need not be lowered as the whole text is.
-/

namespace RecordQuery.Text

/-- Whether a code point lies in one of the ranges. -/
def inRanges (rs : List (Nat × Nat)) (n : Nat) : Bool :=
  rs.any fun r => r.1 ≤ n && n ≤ r.2

/-- Whether looking for a cased neighbour skips the character. -/
def isCaseIgnorable (c : Char) : Bool := inRanges caseIgnorableRanges c.toNat

/-- Whether the character is cased and not ignorable. -/
def isCased (c : Char) : Bool := inRanges casedRanges c.toNat

/-- Whether the first character that is not ignorable is cased. -/
def startsCased (cs : List Char) : Bool :=
  match cs.dropWhile isCaseIgnorable with
  | [] => false
  | c :: _ => isCased c

/-- Whether a code point belongs to a run. -/
def CaseRun.covers (r : CaseRun) (n : Nat) : Bool :=
  r.first ≤ n && n ≤ r.last && (n - r.first) % r.step == 0

/-- The lower-case partner of a character, itself when it has none. -/
def simpleLower (c : Char) : Char :=
  match lowerRuns.find? (·.covers c.toNat) with
  | none => c
  | some r => Char.ofNat ((c.toNat : Int) + r.shift).toNat

/-- The capital sigma, whose image depends on its neighbours. -/
def capitalSigma : Char := 'Σ'

/-- **The image of one character between two texts**; `before` is the text in front of it, nearest
character first. -/
def lowerBetween (before : List Char) (c : Char) (after : List Char) : List Char :=
  if c = capitalSigma then
    if startsCased before && !startsCased after then ['ς'] else ['σ']
  else if c = 'İ' then ['i', '\u0307']
  else [simpleLower c]

/-- Lowers a text that follows `before`. -/
def lowercaseAfter (before : List Char) : List Char → List Char
  | [] => []
  | c :: rest => lowerBetween before c rest ++ lowercaseAfter (c :: before) rest

/-- **The lower case of a text.** -/
def lowercase (cs : List Char) : List Char := lowercaseAfter [] cs

end RecordQuery.Text
