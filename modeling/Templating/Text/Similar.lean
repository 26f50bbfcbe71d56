/-!
# Similar names

The likeness of two words counts the characters in their matching blocks: the longest block they
have in common, and recursively the blocks to its left and to its right. In a word of two hundred
characters or more, a character that makes up over a hundredth of it starts no block. `closest?` is
the most similar candidate among those that share at least three fifths with the word; of equally
similar ones the greatest.
-/

namespace Templating.Text.Similar

/-- The characters too frequent in a long word to start a block. -/
def isPopular (word : List Char) (c : Char) : Bool :=
  200 ≤ word.length && word.length / 100 + 1 < word.count c

structure Block where
  left : Nat
  right : Nat
  size : Nat
deriving DecidableEq, Repr

/-- One row of block lengths: entry `j` is the length of the block ending at `c` and at position
`j`. -/
def nextRow (popular : Char → Bool) (c : Char) : Nat → List Char → List Nat → List Nat
  | _, [], _ => []
  | corner, d :: word, row =>
    (if d = c ∧ popular d = false then corner + 1 else 0) ::
      nextRow popular c (row.headD 0) word row.tail

/-- The better of the best block so far and the blocks that end in this row. -/
def bestInRow (i : Nat) : Nat → List Nat → Block → Block
  | _, [], best => best
  | j, size :: row, best =>
    bestInRow i (j + 1) row (if best.size < size then ⟨i + 1 - size, j + 1 - size, size⟩ else best)

def bestBlock (popular : Char → Bool) (word : List Char) :
    Nat → List Char → List Nat → Block → Block
  | _, [], _, best => best
  | i, c :: other, row, best =>
    let next := nextRow popular c 0 word row
    bestBlock popular word (i + 1) other next (bestInRow i 0 next best)

def commonLength : List Char → List Char → Nat
  | c :: cs, d :: ds => if c = d then commonLength cs ds + 1 else 0
  | _, _ => 0

/-- The longest common block of two words, the leftmost in `other` and then in `word`, stretched at
both ends as far as the words agree. -/
def longestBlock (popular : Char → Bool) (other word : List Char) : Block :=
  let best := bestBlock popular word 0 other [] ⟨0, 0, 0⟩
  let before := commonLength (other.take best.left).reverse (word.take best.right).reverse
  let left := best.left - before
  let right := best.right - before
  let size := best.size + before
  ⟨left, right, size + commonLength (other.drop (left + size)) (word.drop (right + size))⟩

/-- The number of characters in the matching blocks; `fuel` bounds the depth of the division. -/
def matchesWithin (popular : Char → Bool) : Nat → List Char → List Char → Nat
  | 0, _, _ => 0
  | fuel + 1, other, word =>
    let block := longestBlock popular other word
    if block.size = 0 then 0
    else
      block.size +
        matchesWithin popular fuel (other.take block.left) (word.take block.right) +
        matchesWithin popular fuel (other.drop (block.left + block.size))
          (word.drop (block.right + block.size))

def matchCount (other word : List Char) : Nat :=
  matchesWithin (isPopular word) (word.length + 1) other word

/-- Twice the matches over the joint length; two empty words are alike. -/
structure Likeness where
  shared : Nat
  total : Nat
deriving DecidableEq, Repr

def likeness (other word : List Char) : Likeness :=
  if other.length + word.length = 0 then ⟨1, 1⟩
  else ⟨2 * matchCount other word, other.length + word.length⟩

def Likeness.isClose (x : Likeness) : Bool := 3 * x.total ≤ 5 * x.shared

def Likeness.below (x y : Likeness) : Bool := x.shared * y.total < y.shared * x.total

def better (x y : Likeness × String) : Likeness × String :=
  if x.1.below y.1 then y
  else if y.1.below x.1 then x
  else if x.2 < y.2 then y else x

def closest? (word : String) (candidates : List String) : Option String :=
  let close := (candidates.map fun c => (likeness c.toList word.toList, c)).filter (·.1.isClose)
  match close with
  | [] => none
  | first :: rest => some (rest.foldl better first).2

end Templating.Text.Similar
