import MaterialViewer.Text.Blank

/-!
# Splitting text

A list written as one text has its parts between separator characters. `splitOn` keeps every part,
also empty ones, so joining the parts again gives the text; `fields` trims the parts and keeps only
those that are not empty, which is how lists are read wherever a document or a setting holds one.
-/

namespace MaterialViewer.Text

/-- The parts of a text between occurrences of `sep`; there is one more part than separators. -/
def splitOn (sep : Char) : List Char → List (List Char)
  | [] => [[]]
  | c :: cs =>
    if c = sep then [] :: splitOn sep cs
    else
      match splitOn sep cs with
      | [] => [[c]]
      | part :: parts => (c :: part) :: parts

/-- The trimmed parts of a separated list that are not empty. -/
def fieldChars (sep : Char) (cs : List Char) : List (List Char) :=
  ((splitOn sep cs).map (trimWhile isBlank)).filter (· ≠ [])

/-- The trimmed parts of a separated list that are not empty, as texts. -/
def fields (sep : Char) (s : String) : List String :=
  (fieldChars sep s.toList).map String.ofList

/-- The words of a text: its parts between blanks that are not empty. -/
def words (cs : List Char) : List (List Char) :=
  (splitOn ' ' (cs.map fun c => if isBlank c then ' ' else c)).filter (· ≠ [])

/-- The text before and after the last occurrence of `sep`, if there is one. -/
def splitAtLast? (sep : Char) : List Char → Option (List Char × List Char)
  | [] => none
  | c :: cs =>
    match splitAtLast? sep cs with
    | some (front, back) => some (c :: front, back)
    | none => if c = sep then some ([], cs) else none

/-- The text before and after the first occurrence of `pattern`, if there is one. -/
def splitAtFirst? (pattern : List Char) : List Char → Option (List Char × List Char)
  | [] => if pattern = [] then some ([], []) else none
  | c :: cs =>
    if pattern.isPrefixOf (c :: cs) then some ([], (c :: cs).drop pattern.length)
    else (splitAtFirst? pattern cs).map fun (front, back) => (c :: front, back)

/-- Whether `pattern` occurs in a text. -/
def occursIn (pattern : String) (s : String) : Bool :=
  (splitAtFirst? pattern.toList s.toList).isSome

theorem length_of_splitAtFirst? {pattern cs front back : List Char} (h : pattern ≠ [])
    (hs : splitAtFirst? pattern cs = some (front, back)) : back.length < cs.length := by
  induction cs generalizing front with
  | nil => simp [splitAtFirst?, h] at hs
  | cons c cs ih =>
    simp only [splitAtFirst?] at hs
    split at hs
    · simp only [Option.some.injEq, Prod.mk.injEq] at hs
      have : 0 < pattern.length := List.length_pos_iff.2 h
      rw [← hs.2, List.length_drop, List.length_cons]
      omega
    · simp only [Option.map_eq_some_iff] at hs
      obtain ⟨⟨front', back'⟩, h', heq⟩ := hs
      simp only [Prod.mk.injEq] at heq
      have := ih (heq.2 ▸ h')
      simp only [List.length_cons]
      omega

/-- The text with every occurrence of `pattern` replaced, from the front and without overlap; an
empty pattern occurs nowhere. -/
def replaceEach (pattern replacement : List Char) (cs : List Char) : List Char :=
  if _h : pattern = [] then cs
  else
    match _hs : splitAtFirst? pattern cs with
    | none => cs
    | some (front, back) => front ++ (replacement ++ replaceEach pattern replacement back)
termination_by cs.length
decreasing_by exact length_of_splitAtFirst? _h _hs

/-- The texts joined with `sep` between neighbours. -/
def joinWith (sep : String) (parts : List String) : String := sep.intercalate parts

theorem splitOn_ne_nil (sep : Char) (cs : List Char) : splitOn sep cs ≠ [] := by
  induction cs with
  | nil => simp [splitOn]
  | cons c cs ih =>
    simp only [splitOn]
    split
    · simp
    · split <;> simp

end MaterialViewer.Text
