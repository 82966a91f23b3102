import Mathlib.Data.List.DropRight
import Mathlib.Data.List.Infix

/-!
# Splitting and trimming text

Rust's `str::split` on a character and `str::trim`.  A text is read as its list of characters;
whitespace is the Unicode property `White_Space`.
-/

namespace InfraWeave
namespace Text

def isWhitespace (c : Char) : Bool :=
  let n := c.toNat
  (0x9 ≤ n && n ≤ 0xd) || n == 0x20 || n == 0x85 || n == 0xa0 || n == 0x1680 ||
    (0x2000 ≤ n && n ≤ 0x200a) || n == 0x2028 || n == 0x2029 || n == 0x202f || n == 0x205f ||
    n == 0x3000

def trimChars (cs : List Char) : List Char :=
  (cs.dropWhile isWhitespace).rdropWhile isWhitespace

def trim (s : String) : String :=
  .ofList (trimChars s.toList)

def split (sep : Char) (s : String) : List String :=
  (s.toList.splitOn sep).map String.ofList

/-- `str::lines`: a line ends with a line feed, or with a carriage return before it. -/
def lines (s : String) : List String :=
  let pieces := s.toList.splitOn '\n'
  let kept := if pieces.getLast? = some [] then pieces.dropLast else pieces
  kept.map fun piece => .ofList (if piece.getLast? = some '\r' then piece.dropLast else piece)

/-- `str::strip_prefix`. -/
def stripPrefix (start s : String) : Option String :=
  if start.toList.isPrefixOf s.toList then some (.ofList (s.toList.drop start.toList.length))
  else none

/-- `str::contains` with a text. -/
def contains (s part : String) : Bool :=
  s.toList.tails.any fun rest => part.toList.isPrefixOf rest

/-- The text with the matches of `part` replaced, from left to right; after a match, `skip` of its
characters are still to be passed. -/
def replaceChars (part new : List Char) : List Char → Nat → List Char
  | [], _ => []
  | _ :: cs, skip + 1 => replaceChars part new cs skip
  | c :: cs, 0 =>
      if part.isPrefixOf (c :: cs) then new ++ replaceChars part new cs (part.length - 1)
      else c :: replaceChars part new cs 0

/-- `str::replace`, for a part that is not empty. -/
def replace (s part new : String) : String :=
  .ofList (replaceChars part.toList new.toList s.toList 0)

/-- `str::to_lowercase` on the ASCII letters, which is enough to compare with a lower-case ASCII
word: no other character has an ASCII lower case except the Kelvin sign. -/
def toLowercase (s : String) : String :=
  .ofList (s.toList.map Char.toLower)

/-- `str::parse::<i64>`. -/
def parseI64 (s : String) : Option Int :=
  let (negative, digits) :=
    match s.toList with
    | '-' :: digits => (true, digits)
    | '+' :: digits => (false, digits)
    | digits => (false, digits)
  if digits.isEmpty || !digits.all Char.isDigit then none
  else
    let n : Int := digits.foldl (fun n c => 10 * n + (c.toNat - '0'.toNat : Nat)) 0
    let n := if negative then -n else n
    if -9223372036854775808 ≤ n ∧ n < 9223372036854775808 then some n else none

/-- `str::parse::<i32>`. -/
def parseI32 (s : String) : Option Int :=
  (parseI64 s).filter fun n => -2147483648 ≤ n ∧ n < 2147483648

/-! ## Numbers that are printed -/

theorem foldl_digits (digits : List Char) (init : Nat) :
    digits.foldl (fun (n : Int) c => 10 * n + (c.toNat - '0'.toNat : Nat)) (init : Int) =
      (Nat.ofDigitChars 10 digits init : Nat) := by
  induction digits generalizing init with
  | nil => simp
  | cons c digits ih =>
      rw [List.foldl_cons, Nat.ofDigitChars_cons, ← ih]
      rfl

/-- The digits of a number, with a sign or without, are read as the number. -/
theorem parseI64_of_digits (negative : Bool) (n : Nat) {s : String} {value : Int}
    (hs : s.toList = if negative then '-' :: Nat.toDigits 10 n else Nat.toDigits 10 n)
    (hvalue : value = if negative then -(n : Int) else n)
    (h : -9223372036854775808 ≤ value) (h' : value < 9223372036854775808) :
    parseI64 s = some value := by
  have hdigits : ∀ c ∈ Nat.toDigits 10 n, c.isDigit = true := fun c hc =>
    Nat.isDigit_of_mem_toDigits (by decide) (by decide) hc
  have hne : (Nat.toDigits 10 n).isEmpty = false :=
    List.isEmpty_eq_false_iff.2 Nat.toDigits_ne_nil
  have hall : (Nat.toDigits 10 n).all Char.isDigit = true := List.all_eq_true.2 hdigits
  have hfold := foldl_digits (Nat.toDigits 10 n) 0
  rw [Nat.ofDigitChars_ten_toDigits] at hfold
  have hzero : (0 : Int) = ((0 : Nat) : Int) := rfl
  have hbounds : -9223372036854775808 ≤ value ∧ value < 9223372036854775808 := ⟨h, h'⟩
  cases negative with
  | true =>
      simp only [if_true] at hs hvalue
      unfold parseI64
      rw [hs]
      simp only [hne, hall, Bool.not_true, Bool.or_self, Bool.false_eq_true, if_false, if_true]
      rw [hzero, hfold, ← hvalue, if_pos hbounds]
  | false =>
      simp only [Bool.false_eq_true, if_false] at hs hvalue
      have hsign : ∀ c cs, Nat.toDigits 10 n = c :: cs → c ≠ '-' ∧ c ≠ '+' := by
        intro c cs hcons
        have hc := hdigits c (hcons ▸ List.mem_cons_self)
        constructor
        · rintro rfl
          exact absurd hc (by decide)
        · rintro rfl
          exact absurd hc (by decide)
      unfold parseI64
      rw [hs]
      split
      rename_i negative digits heq
      split at heq
      · rename_i cs hcons
        exact absurd rfl (hsign _ cs hcons).1
      · rename_i cs hcons
        exact absurd rfl (hsign _ cs hcons).2
      · rcases Prod.mk.inj heq with ⟨rfl, rfl⟩
        simp only [hne, hall, Bool.not_true, Bool.or_self, Bool.false_eq_true, if_false]
        rw [hzero, hfold, ← hvalue, if_pos hbounds]

theorem parseI64_toString {n : Int} (h : -9223372036854775808 ≤ n) (h' : n < 9223372036854775808) :
    parseI64 (toString n) = some n := by
  rw [Int.toString_eq_repr]
  cases n with
  | ofNat m => exact parseI64_of_digits false m Nat.toList_repr rfl h h'
  | negSucc m =>
      refine parseI64_of_digits true m.succ ?_ rfl h h'
      rw [Int.repr, String.toList_append, Nat.toList_repr]
      rfl

/-! ## Lower case -/

theorem toLower_toLower (c : Char) : c.toLower.toLower = c.toLower := by
  unfold Char.toLower
  split
  · rename_i h
    refine dif_neg ?_
    rintro ⟨hlow, hhigh⟩
    -- The code of a capital letter plus 32 is beyond the capital letters.
    simp only [ge_iff_le, UInt32.le_iff_toNat_le, UInt32.toNat_add] at h hlow hhigh
    have hA : ('A'.val).toNat = 65 := rfl
    have hZ : ('Z'.val).toNat = 90 := rfl
    have hgap : ('a'.val - 'A'.val).toNat = 32 := rfl
    omega
  · rfl

theorem toLowercase_toLowercase (s : String) : toLowercase (toLowercase s) = toLowercase s := by
  unfold toLowercase
  rw [String.toList_ofList, List.map_map]
  congr 1
  exact List.map_congr_left fun c _ => toLower_toLower c

/-! ## Trimming -/

/-- A text without one of the characters of another one does not contain it. -/
theorem contains_eq_false {c : Char} {s part : String} (hpart : c ∈ part.toList)
    (hs : c ∉ s.toList) : contains s part = false := by
  refine Bool.eq_false_iff.2 fun h => hs ?_
  obtain ⟨rest, hrest, hprefix⟩ := List.any_eq_true.1 h
  have hsuffix : rest <:+ s.toList := (List.mem_tails rest s.toList).1 hrest
  exact hsuffix.subset ((List.isPrefixOf_iff_prefix.1 hprefix).subset hpart)

theorem mem_of_mem_trim {c : Char} {s : String} (h : c ∈ (trim s).toList) : c ∈ s.toList := by
  simp only [trim, String.toList_ofList] at h
  have hkept := (List.rdropWhile_prefix isWhitespace (l := s.toList.dropWhile isWhitespace))
  exact (List.dropWhile_suffix isWhitespace).subset (hkept.subset h)

/-- What is left after trimming starts with a character that is kept. -/
theorem trimChars_trimChars (cs : List Char) : trimChars (trimChars cs) = trimChars cs := by
  have hdrop : (trimChars cs).dropWhile isWhitespace = trimChars cs := by
    rw [List.dropWhile_eq_self_iff]
    intro hl
    have hne : cs.dropWhile isWhitespace ≠ [] := by
      intro h
      simp [trimChars, h] at hl
    have hhead : (trimChars cs)[0] = (cs.dropWhile isWhitespace).head hne := by
      have := (List.rdropWhile_prefix isWhitespace (l := cs.dropWhile isWhitespace)).getElem hl
      rw [List.head_eq_getElem]
      exact this
    rw [hhead]
    simpa using List.head_dropWhile_not isWhitespace hne
  unfold trimChars at hdrop ⊢
  rw [hdrop, List.rdropWhile_idempotent]

@[simp] theorem trim_trim (s : String) : trim (trim s) = trim s := by
  simp [trim, trimChars_trimChars]

/-! ## Replacing -/

theorem replaceChars_skip (part new cs : List Char) (skip : Nat) :
    replaceChars part new cs skip = replaceChars part new (cs.drop skip) 0 := by
  induction cs generalizing skip with
  | nil => simp [replaceChars]
  | cons c cs ih =>
      cases skip with
      | zero => rfl
      | succ skip => exact ih skip

theorem replaceChars_cons {part : List Char} {c : Char} {cs : List Char}
    (h : ¬ part <+: c :: cs) (new : List Char) :
    replaceChars part new (c :: cs) 0 = c :: replaceChars part new cs 0 := by
  rw [← List.isPrefixOf_iff_prefix] at h
  simp only [replaceChars, h, Bool.false_eq_true, if_false]

theorem replaceChars_self {part : List Char} (h : part ≠ []) (new cs : List Char) :
    replaceChars part new (part ++ cs) 0 = new ++ replaceChars part new cs 0 := by
  obtain ⟨c, part, rfl⟩ := List.exists_cons_of_ne_nil h
  have hprefix : (c :: part).isPrefixOf (c :: (part ++ cs)) = true :=
    List.isPrefixOf_iff_prefix.2 (List.prefix_append _ _)
  rw [List.cons_append]
  simp only [replaceChars, hprefix, if_true]
  rw [replaceChars_skip]
  simp

/-- A text in which no match starts is passed as it is. -/
theorem replaceChars_append {part xs ys : List Char}
    (h : ∀ u w, xs = u ++ w → w ≠ [] → ¬ part <+: w ++ ys) (new : List Char) :
    replaceChars part new (xs ++ ys) 0 = xs ++ replaceChars part new ys 0 := by
  induction xs with
  | nil => rfl
  | cons x xs ih =>
      have hhere : ¬ part <+: x :: (xs ++ ys) := h [] (x :: xs) rfl (by simp)
      rw [List.cons_append, replaceChars_cons hhere, ih fun u w hxs hw => h (x :: u) w (by simp [hxs]) hw]
      rfl

/-! ## Splitting -/

theorem notMem_of_mem_splitOn {sep : Char} {cs piece : List Char} (h : piece ∈ cs.splitOn sep) :
    sep ∉ piece := by
  induction cs generalizing piece with
  | nil =>
      simp only [List.splitOn_nil, List.mem_singleton] at h
      simp [h]
  | cons c cs ih =>
      rw [List.splitOn_cons_eq_if_modifyHead] at h
      split at h
      · rcases List.mem_cons.1 h with rfl | h
        · simp
        · exact ih h
      · -- Only the first piece of the rest has grown.
        rename_i hc
        cases hsplit : cs.splitOn sep with
        | nil => simp [hsplit] at h
        | cons first rest =>
            rw [hsplit] at h
            rcases List.mem_cons.1 (by simpa using h : piece ∈ (c :: first) :: rest) with rfl | h
            · have hfirst : sep ∉ first := ih (by simp [hsplit])
              have hne : ¬ sep = c := fun heq => hc (by simp [heq])
              simp [hne, hfirst]
            · exact ih (by simp [hsplit, h])

/-- There is a piece more than there are separators. -/
theorem length_splitOn (sep : Char) (cs : List Char) :
    (cs.splitOn sep).length = cs.count sep + 1 := by
  induction cs with
  | nil => rfl
  | cons c cs ih =>
      rw [List.splitOn_cons_eq_if_modifyHead, List.count_cons]
      split
      · rw [List.length_cons, ih]
      · rw [List.length_modifyHead, ih]

theorem notMem_of_mem_split {sep : Char} {s piece : String} (h : piece ∈ split sep s) :
    sep ∉ piece.toList := by
  rcases List.mem_map.1 h with ⟨cs, hcs, rfl⟩
  simpa using notMem_of_mem_splitOn hcs

theorem split_eq_singleton {sep : Char} {s : String} (h : sep ∉ s.toList) : split sep s = [s] := by
  simp [split, List.splitOn_eq_singleton h]

end Text
end InfraWeave
