import NetForge.Python.Text

/-! # Lines and words

`str.splitlines`, `str.split` without an argument, and `str.startswith`.
-/

namespace NetForge.Python

def startsWithText (start s : String) : Bool := start.toList.isPrefixOf s.toList

def isLineEnd (c : Char) : Bool :=
  let n := c.toNat
  (0xa ≤ n && n ≤ 0xd) || (0x1c ≤ n && n ≤ 0x1e) || n == 0x85 || n == 0x2028 || n == 0x2029

def linesOf : List Char → List (List Char)
  | [] => []
  | '\r' :: '\n' :: cs => [] :: linesOf cs
  | c :: cs =>
      if isLineEnd c then [] :: linesOf cs
      else
        match linesOf cs with
        | [] => [[c]]
        | line :: lines => (c :: line) :: lines

def splitLines (s : String) : List String := (linesOf s.toList).map String.ofList

/-- The runs of characters of `cs` that are not blank. -/
def wordsOf : List Char → List (List Char)
  | [] => []
  | c :: cs =>
      if isSpace c then wordsOf cs
      else if cs.head?.all isSpace then [c] :: wordsOf cs
      else
        match wordsOf cs with
        | [] => [[c]]
        | word :: words => (c :: word) :: words

/-- `s.split()`. -/
def splitWords (s : String) : List String := (wordsOf s.toList).map String.ofList

example : splitLines "a\r\n\nb\n" = ["a", "", "b"] ∧ splitWords "  up  down " = ["up", "down"] := by
  decide

theorem linesOf_cons {c : Char} (h : isLineEnd c = false) (cs : List Char) :
    linesOf (c :: cs) =
      match linesOf cs with
      | [] => [[c]]
      | line :: lines => (c :: line) :: lines := by
  have hreturn : c ≠ '\r' := by
    rintro rfl
    exact absurd h (by decide)
  rw [linesOf]
  · rw [if_neg (by simp [h])]
  · intro rest hc
    exact absurd hc hreturn

theorem linesOf_newline (cs : List Char) : linesOf ('\n' :: cs) = [] :: linesOf cs := by
  rw [linesOf]
  · rfl
  · intro rest hc
    exact absurd hc (by decide)

/-- A line that is ended by a line feed is the first of the lines. -/
theorem linesOf_append {line : List Char} (h : ∀ c ∈ line, isLineEnd c = false) (cs : List Char) :
    linesOf (line ++ '\n' :: cs) = line :: linesOf cs := by
  induction line with
  | nil => exact linesOf_newline cs
  | cons c line ih =>
      have hrest := ih fun d hd => h d (List.mem_cons_of_mem _ hd)
      rw [List.cons_append, linesOf_cons (h c List.mem_cons_self), hrest]

/-- Lines that are each ended by a line feed are the lines of the text. -/
theorem linesOf_flatMap {lines : List (List Char)}
    (h : ∀ line ∈ lines, ∀ c ∈ line, isLineEnd c = false) :
    linesOf (lines.flatMap (· ++ ['\n'])) = lines := by
  induction lines with
  | nil => rfl
  | cons line lines ih =>
      have hrest := ih fun l hl => h l (List.mem_cons_of_mem _ hl)
      rw [List.flatMap_cons, List.append_assoc, List.singleton_append,
        linesOf_append (h line List.mem_cons_self), hrest]

end NetForge.Python
