import InfraWeave.Lib.ByteSlice
import InfraWeave.Lib.Text

/-!
# The text of a graph

A line of the text is a node with its label, an edge, or it is passed over.  The lines are matched
with regular expressions, whose groups take as little as they can.
-/

namespace InfraWeave
namespace Graph

/-! ## Lines -/

def dropSpaces (cs : List Char) : List Char :=
  cs.dropWhile Text.isWhitespace

/-- `(.+?)"` and what the rest of the expression makes of the text after it; `captured` has the
characters of the group that have been read, the last one first. -/
def captureLazy (after : List Char → Option β) : List Char → List Char → Option (List Char × β)
  | _, [] => none
  | captured, c :: cs =>
      if c = '"' && !captured.isEmpty then
        match after cs with
        | some found => some (captured.reverse, found)
        | none => captureLazy after (c :: captured) cs
      else captureLazy after (c :: captured) cs

/-- The text after a mark. -/
def afterMark (mark : List Char) (cs : List Char) : Option (List Char) :=
  if mark.isPrefixOf cs then some (cs.drop mark.length) else none

/-- `"(.+?)"` at the end of an expression. -/
def captureQuoted (cs : List Char) : Option (List Char) := do
  let cs ← afterMark ['"'] cs
  let (captured, ()) ← captureLazy (fun _ => some ()) [] cs
  some captured

/-- `\s*\[label\s*=\s*"(.+?)"`. -/
def captureLabel (cs : List Char) : Option (List Char) := do
  let cs ← afterMark "[label".toList (dropSpaces cs)
  let cs ← afterMark ['='] (dropSpaces cs)
  captureQuoted (dropSpaces cs)

/-- `\s*->\s*"(.+?)"`. -/
def captureTarget (cs : List Char) : Option (List Char) := do
  let cs ← afterMark ['-', '>'] (dropSpaces cs)
  captureQuoted (dropSpaces cs)

/-- `^[\t\s]*"(.+?)"` and what comes after it. -/
def captureLine (after : List Char → Option (List Char)) (line : String) :
    Option (String × String) := do
  let cs ← afterMark ['"'] (dropSpaces line.toList)
  let (first, second) ← captureLazy after [] cs
  some (.ofList first, .ofList second)

/-- The nodes and the edges of the text. -/
def parseDot (dotContent : String) : List (String × String) × List (String × String) :=
  (Text.lines dotContent).foldl (fun (rawNodes, rawEdges) line =>
    match captureLine captureLabel line with
    | some node => (rawNodes ++ [node], rawEdges)
    | none =>
        match captureLine captureTarget line with
        | some edge => (rawNodes, rawEdges ++ [edge])
        | none => (rawNodes, rawEdges)) ([], [])

/-! ## Addresses -/

/-- The text up to the first ` (`. -/
def beforeParen : List Char → List Char
  | [] => []
  | c :: cs => if [' ', '('].isPrefixOf (c :: cs) then [] else c :: beforeParen cs

/-- The text between quotation marks; none where the slice panics. -/
def unquote (s : String) : Option String :=
  if s.toList.head? = some '"' && s.toList.getLast? = some '"' then
    (ByteSlice.slice s.toList 1 (ByteSlice.byteLength s.toList - 1)).map fun inner =>
      Text.replace (.ofList inner) "\\\"" "\""
  else some s

def cleanLabel (label : String) : Option String :=
  (unquote (Text.trim label)).map fun s => .ofList (beforeParen s.toList)

def parseDotId (dotId : String) : String :=
  let s := Text.trim dotId
  let s := (Text.stripPrefix "[root] " s).getD s
  .ofList (beforeParen s.toList)

/-- The slice between the first and the last byte of a text that begins and ends with a quotation
mark. -/
theorem slice_eq_none_iff {rest : List Char} (hlast : ('"' :: rest).getLast? = some '"') :
    ByteSlice.slice ('"' :: rest) 1 (ByteSlice.byteLength ('"' :: rest) - 1) = none ↔
      rest = [] := by
  have hsize : '"'.utf8Size = 1 := by decide
  by_cases hrest : rest = []
  · simp [hrest, ByteSlice.slice, hsize]
  · rcases List.getLast?_eq_some_iff.1 hlast with ⟨front, hfront⟩
    cases front with
    | nil => exact absurd (List.cons.inj hfront).2 hrest
    | cons c mid =>
        obtain rfl : rest = mid ++ ['"'] := (List.cons.inj hfront).2
        have hlength : ByteSlice.byteLength ('"' :: (mid ++ ['"'])) - 1 - 1 =
            ByteSlice.byteLength mid := by
          simp only [ByteSlice.byteLength_cons, ByteSlice.byteLength_append,
            ByteSlice.byteLength_nil, hsize]
          omega
        have hle : 1 ≤ ByteSlice.byteLength ('"' :: (mid ++ ['"'])) - 1 := by
          simp only [ByteSlice.byteLength_cons, ByteSlice.byteLength_append,
            ByteSlice.byteLength_nil, hsize]
          omega
        have hfrom : ByteSlice.sliceFrom ('"' :: (mid ++ ['"'])) 1 = some (mid ++ ['"']) := by
          simp [ByteSlice.sliceFrom, ByteSlice.splitAt?, hsize]
        rw [ByteSlice.slice, if_pos hle, hfrom, Option.bind_some, hlength,
          ByteSlice.sliceTo_append]
        simp

theorem unquote_eq_none_iff {s : String} : unquote s = none ↔ s = "\"" := by
  unfold unquote
  split
  · rename_i hquoted
    have hends : s.toList.head? = some '"' ∧ s.toList.getLast? = some '"' := by
      simpa using hquoted
    rcases List.head?_eq_some_iff.1 hends.1 with ⟨rest, hrest⟩
    have hstring : s = "\"" ↔ rest = [] := by
      rw [← String.toList_inj, hrest]
      simp
    rw [Option.map_eq_none_iff, hstring, hrest]
    exact slice_eq_none_iff (hrest ▸ hends.2)
  · rename_i hquoted
    simp only [reduceCtorEq, false_iff]
    rintro rfl
    exact hquoted (by decide)

/-- Reading a label panics exactly when it is a single quotation mark. -/
theorem cleanLabel_eq_none_iff {label : String} :
    cleanLabel label = none ↔ Text.trim label = "\"" := by
  rw [cleanLabel, Option.map_eq_none_iff, unquote_eq_none_iff]

end Graph
end InfraWeave
