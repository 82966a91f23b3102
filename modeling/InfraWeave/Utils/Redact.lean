import InfraWeave.Lib.ByteSlice
import InfraWeave.Lib.Text
import Mathlib.Data.List.Infix

/-!
# Redaction of command lines

A command line is logged with the values of credentials masked.  The key of an argument ends at the
first equals sign with a credential's name before it; the argument is sliced there at numbers of
bytes.
-/

namespace InfraWeave

open InfraWeave.ByteSlice

namespace Redact

/-- Characters kept at each end of a masked value. -/
def keep : Nat := 3

def minLenToReveal : Nat := 12

def describeLen : Nat → String
  | 1 => "1 char"
  | n => toString n ++ " chars"

def maskValue (value : List Char) : String :=
  let len := describeLen value.length
  if value.isEmpty then "(empty)"
  else if value.length < minLenToReveal then "***(" ++ len ++ ")"
  else
    .ofList (value.take keep) ++ "***" ++ .ofList (value.drop (value.length - keep)) ++
      "(" ++ len ++ ")"

def needles : List String :=
  ["secret", "password", "passwd", "token", "credential", "access_key", "accesskey", "api_key",
    "apikey", "private", "auth"]

def isSensitiveKey (key : List Char) : Bool :=
  let lower := String.ofList (key.map Char.toLower)
  needles.any fun needle => Text.contains lower needle

/-- `match_indices('=')`, the number of bytes before each equals sign. -/
def matchIndices : List Char → Nat → List Nat
  | [], _ => []
  | c :: cs, start =>
      if c = '=' then start :: matchIndices cs (start + c.utf8Size)
      else matchIndices cs (start + c.utf8Size)

/-- The first of these splits whose left side is sensitive; none at all when a slice panics. -/
def findSensitive (arg : List Char) : List Nat → Option (Option (List Char × List Char))
  | [] => some none
  | start :: starts => do
      let key ← sliceTo arg start
      let value ← sliceFrom arg (start + 1)
      if isSensitiveKey key then some (some (key, value)) else findSensitive arg starts

def splitAtSensitiveKey (arg : List Char) : Option (Option (List Char × List Char)) :=
  findSensitive arg (matchIndices arg 0)

def sanitizeArg (arg : String) : Option String :=
  (splitAtSensitiveKey arg.toList).map fun split =>
    match split with
    | some (key, value) => .ofList key ++ "=" ++ maskValue value
    | none => arg

/-- `sanitize_cli_args`, or none when it panics. -/
def sanitizeCliArgs (args : List String) : Option String :=
  (args.mapM sanitizeArg).map fun parts => " ".intercalate parts

/-! ## The split -/

/-- A sensitive key, and no shorter part before an equals sign is one. -/
structure SensitivePrefix (key : List Char) : Prop where
  sensitive : isSensitiveKey key = true
  shortest : ∀ shorter rest, key = shorter ++ '=' :: rest → isSensitiveKey shorter = false

/-- The split at the first sensitive key, after the characters that have been passed. -/
def firstSensitive (passed : List Char) : List Char → Option (List Char × List Char)
  | [] => none
  | c :: cs =>
      if c = '=' && isSensitiveKey passed then some (passed, cs)
      else firstSensitive (passed ++ [c]) cs

theorem sliceFrom_append (front back : List Char) :
    sliceFrom (front ++ back) (byteLength front) = some back := by
  rw [sliceFrom, splitAt?_eq_some_iff.2 ⟨rfl, rfl⟩]
  rfl

/-- An equals sign is one byte, so that no slice panics. -/
theorem findSensitive_eq (passed cs : List Char) :
    findSensitive (passed ++ cs) (matchIndices cs (byteLength passed)) =
      some (firstSensitive passed cs) := by
  induction cs generalizing passed with
  | nil => rfl
  | cons c cs ih =>
      have hnext := ih (passed ++ [c])
      rw [List.append_assoc, List.singleton_append, byteLength_append, byteLength_cons,
        byteLength_nil, Nat.add_zero] at hnext
      by_cases hc : c = '='
      · subst hc
        have hkey := sliceTo_append passed ('=' :: cs)
        have hvalue : sliceFrom (passed ++ '=' :: cs) (byteLength passed + 1) = some cs := by
          have hslice := sliceFrom_append (passed ++ ['=']) cs
          rw [byteLength_append, List.append_assoc] at hslice
          exact hslice
        rw [matchIndices, if_pos rfl, findSensitive, hkey, hvalue, firstSensitive]
        cases hsensitive : isSensitiveKey passed with
        | true => simp [hsensitive]
        | false => simpa [hsensitive] using hnext
      · rw [matchIndices, if_neg hc, firstSensitive, hnext]
        simp [hc]

theorem splitAtSensitiveKey_eq (arg : List Char) :
    splitAtSensitiveKey arg = some (firstSensitive [] arg) :=
  findSensitive_eq [] arg

theorem firstSensitive_append (passed key value : List Char)
    (hsensitive : isSensitiveKey (passed ++ key) = true)
    (hshortest : ∀ shorter rest, key = shorter ++ '=' :: rest →
      isSensitiveKey (passed ++ shorter) = false) :
    firstSensitive passed (key ++ '=' :: value) = some (passed ++ key, value) := by
  induction key generalizing passed with
  | nil =>
      rw [List.append_nil] at hsensitive
      simp [firstSensitive, hsensitive]
  | cons c key ih =>
      have hfalse : (decide (c = '=') && isSensitiveKey passed) = false := by
        by_cases hc : c = '='
        · have hshorter := hshortest [] key (by rw [hc]; rfl)
          rw [List.append_nil] at hshorter
          simp [hshorter]
        · simp [hc]
      have hassoc : ∀ l, passed ++ [c] ++ l = passed ++ c :: l := by simp
      rw [List.cons_append, firstSensitive, hfalse, if_neg Bool.false_ne_true, ih, hassoc]
      · rw [hassoc]
        exact hsensitive
      · intro shorter rest hrest
        rw [hassoc]
        exact hshortest (c :: shorter) rest (by rw [hrest]; rfl)

/-- The split depends on the key only. -/
theorem sanitizeArg_eq {key value : List Char} (hkey : SensitivePrefix key) :
    sanitizeArg (.ofList (key ++ '=' :: value)) =
      some (.ofList key ++ "=" ++ maskValue value) := by
  have hsplit : firstSensitive [] (key ++ '=' :: value) = some (key, value) :=
    firstSensitive_append [] key value hkey.sensitive hkey.shortest
  rw [sanitizeArg, String.toList_ofList, splitAtSensitiveKey_eq, hsplit]
  rfl

/-! ## What is logged -/

/-- Values that may not be told apart: of one length, and when they are long with the same ends. -/
structure Alike (v w : List Char) : Prop where
  length : v.length = w.length
  head : minLenToReveal ≤ v.length → v.take keep = w.take keep
  tail : minLenToReveal ≤ v.length → v.drop (v.length - keep) = w.drop (w.length - keep)

theorem maskValue_eq {v w : List Char} (h : Alike v w) : maskValue v = maskValue w := by
  have hempty : v.isEmpty = w.isEmpty := by
    rw [Bool.eq_iff_iff, List.isEmpty_iff_length_eq_zero, List.isEmpty_iff_length_eq_zero, h.length]
  unfold maskValue
  by_cases hshort : v.length < minLenToReveal
  · have hshort' : w.length < minLenToReveal := h.length ▸ hshort
    simp only [hempty, h.length, if_pos hshort']
  · have hlong : minLenToReveal ≤ v.length := Nat.le_of_not_lt hshort
    have hhead := h.head hlong
    have htail := h.tail hlong
    rw [h.length] at htail
    simp only [hempty, hhead, htail, h.length]

/-- No argument makes the redaction panic. -/
theorem exists_sanitizeArgs (args : List String) : ∃ parts, args.mapM sanitizeArg = some parts := by
  induction args with
  | nil => exact ⟨[], rfl⟩
  | cons arg args ih =>
      rcases ih with ⟨parts, hparts⟩
      have harg : ∃ text, sanitizeArg arg = some text := by
        rw [sanitizeArg, splitAtSensitiveKey_eq]
        exact ⟨_, rfl⟩
      rcases harg with ⟨text, htext⟩
      exact ⟨text :: parts, by simp [List.mapM_cons, htext, hparts]⟩

/-- The logged text is the same for values that may not be told apart. -/
theorem sanitizeCliArgs_alike {key v w : List Char} (hkey : SensitivePrefix key) (h : Alike v w)
    (before after : List String) :
    ∃ text, sanitizeCliArgs (before ++ .ofList (key ++ '=' :: v) :: after) = some text ∧
      sanitizeCliArgs (before ++ .ofList (key ++ '=' :: w) :: after) = some text := by
  have harg : sanitizeArg (.ofList (key ++ '=' :: v)) =
      sanitizeArg (.ofList (key ++ '=' :: w)) := by
    rw [sanitizeArg_eq hkey, sanitizeArg_eq hkey, maskValue_eq h]
  have hargs : sanitizeCliArgs (before ++ .ofList (key ++ '=' :: v) :: after) =
      sanitizeCliArgs (before ++ .ofList (key ++ '=' :: w) :: after) := by
    simp only [sanitizeCliArgs, List.mapM_append, List.mapM_cons, harg]
  rcases exists_sanitizeArgs (before ++ .ofList (key ++ '=' :: v) :: after) with ⟨parts, hparts⟩
  have hlogged : sanitizeCliArgs (before ++ .ofList (key ++ '=' :: v) :: after) =
      some (" ".intercalate parts) := by
    rw [sanitizeCliArgs, hparts]
    rfl
  exact ⟨_, hlogged, hargs ▸ hlogged⟩

/-- Two keys of one length, one padded with an equals sign and one with a credential's name. -/
theorem sanitizeCliArgs_alike_secretKey :
    ∃ text,
      sanitizeCliArgs ["init", "-backend-config=secret_key=aGVsbG8tw6Q=bG8=", "-reconfigure"] =
        some text ∧
      sanitizeCliArgs ["init", "-backend-config=secret_key=aGVtoken=äxxbG8=", "-reconfigure"] =
        some text := by
  have hkey : SensitivePrefix "-backend-config=secret_key".toList :=
    { sensitive := by decide
      shortest := by
        have hinits : ∀ shorter ∈ "-backend-config=secret_key".toList.inits,
            "-backend-config=secret_key".toList[shorter.length]? = some '=' →
              isSensitiveKey shorter = false := by decide
        intro shorter rest hrest
        have hmem : shorter ∈ "-backend-config=secret_key".toList.inits :=
          (List.mem_inits _ _).2 ⟨'=' :: rest, hrest.symm⟩
        exact hinits shorter hmem (by rw [hrest]; simp) }
  have halike : Alike "aGVsbG8tw6Q=bG8=".toList "aGVtoken=äxxbG8=".toList :=
    { length := by decide
      head := fun _ => by decide
      tail := fun _ => by decide }
  exact sanitizeCliArgs_alike hkey halike ["init"] ["-reconfigure"]

end Redact
end InfraWeave
