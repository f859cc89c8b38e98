namespace RuleTables.Text

def consHead (c : Char) : List (List Char) → List (List Char)
  | [] => [[c]]
  | p :: ps => (c :: p) :: ps

/-- There is one piece more than there are separators, so the empty text has one empty piece. -/
def splitAt (sep : Char) : List Char → List (List Char)
  | [] => [[]]
  | c :: cs => if c = sep then [] :: splitAt sep cs else consHead c (splitAt sep cs)

/-- Cuts at each pair `a b`, read from the left. -/
def splitAtPair (a b : Char) : List Char → List (List Char)
  | [] => [[]]
  | [c] => [[c]]
  | c :: d :: cs =>
    if c = a ∧ d = b then [] :: splitAtPair a b cs else consHead c (splitAtPair a b (d :: cs))

def pieces (sep : Char) (s : String) : List String :=
  (splitAt sep s.toList).map String.ofList

def pairPieces (a b : Char) (s : String) : List String :=
  (splitAtPair a b s.toList).map String.ofList

def hasInfix (word : List Char) : List Char → Bool
  | [] => word.isEmpty
  | c :: cs => word.isPrefixOf (c :: cs) || hasInfix word cs

def holds (s word : String) : Bool :=
  hasInfix word.toList s.toList

def join (sep : String) (parts : List String) : String :=
  String.intercalate sep parts

end RuleTables.Text
