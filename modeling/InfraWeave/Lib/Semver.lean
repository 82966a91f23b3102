import Mathlib.Data.List.DropRight
import Mathlib.Logic.Function.Basic

/-!
# Semantic versions

The versions of the `semver` crate: how a text is parsed, how a version is printed, and the two
orders on versions.  `precedence` is the order of the semver specification, which ignores build
metadata; `compare` is the crate's own order, which looks at the build metadata last.

The identifiers of a version (its pre-release and its build metadata) carry the fact that they
consist of identifier characters, so that a printed version can be read back in one way only.
-/

namespace InfraWeave
namespace Semver

open Std

/-! ## Versions and their text -/

def isIdentifierChar (c : Char) : Bool :=
  c.isAlphanum || c == '-' || c == '.'

/-- Pre-release identifiers or build metadata; empty when there are none. -/
def Identifiers :=
  {text : List Char // text.all isIdentifierChar = true}
  deriving DecidableEq

def Identifiers.empty : Identifiers :=
  ⟨[], rfl⟩

structure Version where
  major : Nat
  minor : Nat
  patch : Nat
  pre : Identifiers
  build : Identifiers
  deriving DecidableEq

/-- A part of a version that is left out when it is empty. -/
def markedText (marker : Char) (part : Identifiers) : List Char :=
  if part.val = [] then [] else marker :: part.val

/-- A version whose numbers are written by `number`. -/
def Version.textWith (number : Nat → List Char) (v : Version) : List Char :=
  number v.major ++ '.' :: (number v.minor ++ '.' :: (number v.patch ++
    (markedText '-' v.pre ++ markedText '+' v.build)))

protected def Version.toString (v : Version) : String :=
  .ofList (v.textWith (Nat.toDigits 10))

/-! ## Parsing -/

/-- A number without leading zeros that fits in 64 bits, and what follows it. -/
def numericIdentifier (cs : List Char) : Option (Nat × List Char) :=
  let digits := cs.takeWhile Char.isDigit
  let value := Nat.ofDigitChars 10 digits 0
  if digits = [] ∨ (digits.head? = some '0' ∧ digits.length ≠ 1) then none
  else if value < 18446744073709551616 then some (value, cs.dropWhile Char.isDigit)
  else none

def dot : List Char → Option (List Char)
  | '.' :: cs => some cs
  | _ => none

def hasLeadingZero (segment : List Char) : Bool :=
  segment.all Char.isDigit && segment.head? == some '0' && segment.length != 1

/-- Dot-separated segments, none of them empty, and what follows them. -/
def identifiers (leadingZeros : Bool) (cs : List Char) : Option (Identifiers × List Char) :=
  let text := cs.takeWhile isIdentifierChar
  if (text.splitOn '.').all fun segment =>
      !segment.isEmpty && (leadingZeros || !hasLeadingZero segment) then
    some (⟨text, List.all_takeWhile⟩, cs.dropWhile isIdentifierChar)
  else none

/-- Identifiers that start with `marker`, or nothing. -/
def markedIdentifiers (marker : Char) (leadingZeros : Bool) :
    List Char → Option (Identifiers × List Char)
  | [] => some (.empty, [])
  | c :: cs => if c = marker then identifiers leadingZeros cs else some (.empty, c :: cs)

def parseChars (cs : List Char) : Option Version := do
  let (major, cs) ← numericIdentifier cs
  let cs ← dot cs
  let (minor, cs) ← numericIdentifier cs
  let cs ← dot cs
  let (patch, cs) ← numericIdentifier cs
  let (pre, cs) ← markedIdentifiers '-' false cs
  let (build, cs) ← markedIdentifiers '+' true cs
  if cs = [] then some ⟨major, minor, patch, pre, build⟩ else none

/-- `Version::parse`. -/
def parse (text : String) : Option Version :=
  parseChars text.toList

/-! ## Orders -/

/-- Segments of digits are numbers and come before the others. -/
def segmentCompare : List Char → List Char → Ordering :=
  compareLex (compareOn fun s => !s.all Char.isDigit) <|
    compareLex (compareOn fun s => if s.all Char.isDigit then s.length else 0)
      (compareOn id)

/-- Segments of build metadata may have leading zeros: `0 < 00 < 1 < 01 < 2`. -/
def buildSegmentCompare : List Char → List Char → Ordering :=
  compareLex (compareOn fun s => !s.all Char.isDigit) <|
    compareLex (compareOn fun s =>
      if s.all Char.isDigit then (s.dropWhile (· = '0')).length else 0) <|
    compareLex (compareOn fun s => if s.all Char.isDigit then s.dropWhile (· = '0') else s)
      (compareOn List.length)

/-- A release comes after its pre-releases. -/
def preCompare : Identifiers → Identifiers → Ordering :=
  compareLex (compareOn fun p => p.val.isEmpty)
    fun a b => List.compareLex segmentCompare (a.val.splitOn '.') (b.val.splitOn '.')

def buildCompare (a b : Identifiers) : Ordering :=
  List.compareLex buildSegmentCompare (a.val.splitOn '.') (b.val.splitOn '.')

def precedence : Version → Version → Ordering :=
  compareLex (compareOn Version.major) <|
    compareLex (compareOn Version.minor) <|
    compareLex (compareOn Version.patch)
      fun a b => preCompare a.pre b.pre

/-- The order of the crate. -/
protected def compare : Version → Version → Ordering :=
  compareLex precedence fun a b => buildCompare a.build b.build

def Version.stripBuildMetadata (v : Version) : Version :=
  { v with build := .empty }

theorem compare_stripBuildMetadata (v w : Version) :
    Semver.compare v.stripBuildMetadata w.stripBuildMetadata = precedence v w := by
  have hbuild : buildCompare Identifiers.empty Identifiers.empty = .eq := by decide
  have hprec : precedence v.stripBuildMetadata w.stripBuildMetadata = precedence v w := rfl
  calc
    Semver.compare v.stripBuildMetadata w.stripBuildMetadata
        = (precedence v w).then (buildCompare Identifiers.empty Identifiers.empty) := by
          rw [← hprec]
          rfl
    _ = precedence v w := by rw [hbuild, Ordering.then_eq]

instance : TransCmp segmentCompare :=
  inferInstanceAs (TransCmp (compareLex _ (compareLex _ _)))

/-- A comparison of images keeps the laws of an order. -/
theorem transCmp_comap {α β : Type*} (cmp : β → β → Ordering) [TransCmp cmp] (f : α → β) :
    TransCmp fun a b => cmp (f a) (f b) where
  eq_swap {a b} := (OrientedCmp.eq_swap : cmp (f a) (f b) = (cmp (f b) (f a)).swap)
  isLE_trans {a _ c} hab hbc := (TransCmp.isLE_trans hab hbc : (cmp (f a) (f c)).isLE = true)

instance : TransCmp preCompare :=
  have := transCmp_comap (List.compareLex segmentCompare) fun p : Identifiers => p.val.splitOn '.'
  inferInstanceAs (TransCmp (compareLex _ _))

instance : TransCmp precedence :=
  have := transCmp_comap preCompare Version.pre
  inferInstanceAs (TransCmp (compareLex _ (compareLex _ (compareLex _ _))))

instance : TransCmp buildSegmentCompare :=
  inferInstanceAs (TransCmp (compareLex _ (compareLex _ (compareLex _ _))))

instance : TransCmp buildCompare :=
  transCmp_comap (List.compareLex buildSegmentCompare) fun p : Identifiers => p.val.splitOn '.'

instance : TransCmp Semver.compare :=
  have := transCmp_comap buildCompare Version.build
  inferInstanceAs (TransCmp (compareLex precedence _))

theorem precedence_self (v : Version) : precedence v v = .eq :=
  ReflCmp.compare_self

/-- The order of precedence is total. -/
theorem isLE_precedence_swap {v w : Version} (h : precedence v w ≠ .lt) :
    (precedence w v).isLE = true := by
  have hswap : precedence w v = (precedence v w).swap := OrientedCmp.eq_swap
  rw [hswap]
  cases hcompare : precedence v w with
  | lt => exact absurd hcompare h
  | eq | gt => rfl

/-! ## Reading a printed version back -/

/-- The longest prefix with a property does not depend on what follows it. -/
theorem append_inj_of_all {p : Char → Bool} {a b r s : List Char} (ha : a.all p = true)
    (hb : b.all p = true) (hr : ∀ c, r.head? = some c → p c = false)
    (hs : ∀ c, s.head? = some c → p c = false) (h : a ++ r = b ++ s) : a = b ∧ r = s := by
  induction a generalizing b with
  | nil =>
      cases b with
      | nil => exact ⟨rfl, h⟩
      | cons d b =>
          have hd : p d = false := hr d (by simpa using congrArg List.head? h)
          simp [hd] at hb
  | cons c a ih =>
      cases b with
      | nil =>
          have hc : p c = false := hs c (by simpa using congrArg List.head? h.symm)
          simp [hc] at ha
      | cons d b =>
          simp only [List.cons_append, List.cons.injEq] at h
          obtain ⟨rfl, h⟩ := h
          simp only [List.all_cons, Bool.and_eq_true] at ha hb
          obtain ⟨rfl, hrest⟩ := ih ha.2 hb.2 h
          exact ⟨rfl, hrest⟩

theorem head?_markedText {marker c : Char} {part : Identifiers}
    (h : (markedText marker part).head? = some c) : c = marker := by
  unfold markedText at h
  split at h
  · simp at h
  · simpa using h.symm

theorem markedText_marker_inj {marker : Char} {a b : Identifiers}
    (h : markedText marker a = markedText marker b) : a = b := by
  apply Subtype.ext
  unfold markedText at h
  split at h <;> split at h <;> simp_all

theorem markedText_inj {a b c d : Identifiers}
    (h : markedText '-' a ++ markedText '+' b = markedText '-' c ++ markedText '+' d) :
    a = c ∧ b = d := by
  have hplus : ∀ part : Identifiers, ∀ e, (markedText '+' part).head? = some e →
      isIdentifierChar e = false := by
    intro part e he
    rw [head?_markedText he]
    decide
  have hall : ∀ part : Identifiers, (markedText '-' part).all isIdentifierChar = true := by
    intro part
    unfold markedText
    split
    · rfl
    · simp only [List.all_cons, part.property, Bool.and_true]
      decide
  obtain ⟨hpre, hbuild⟩ := append_inj_of_all (hall a) (hall c) (hplus b) (hplus d) h
  refine ⟨?_, markedText_marker_inj hbuild⟩
  apply Subtype.ext
  unfold markedText at hpre
  split at hpre <;> split at hpre <;> simp_all

/-- A version can be read back when its numbers can, as texts of digits. -/
theorem textWith_injective {number : Nat → List Char} (hnum : Function.Injective number)
    (hdigits : ∀ n, (number n).all Char.isDigit = true) {v w : Version}
    (h : v.textWith number = w.textWith number) : v = w := by
  have hdot : ∀ (r : List Char) (c : Char), ('.' :: r).head? = some c → c.isDigit = false := by
    intro r c hc
    obtain rfl : '.' = c := by simpa using hc
    decide
  have hmarked : ∀ (v : Version) (c : Char),
      (markedText '-' v.pre ++ markedText '+' v.build).head? = some c → c.isDigit = false := by
    intro v c hc
    rw [List.head?_append] at hc
    cases hpre : (markedText '-' v.pre).head? with
    | some d =>
        obtain rfl : d = c := by simpa [hpre] using hc
        rw [head?_markedText hpre]
        decide
    | none =>
        rw [head?_markedText (by simpa [hpre] using hc : (markedText '+' v.build).head? = some c)]
        decide
  obtain ⟨hmajor, h⟩ := append_inj_of_all (hdigits _) (hdigits _) (hdot _) (hdot _) h
  obtain ⟨hminor, h⟩ :=
    append_inj_of_all (hdigits _) (hdigits _) (hdot _) (hdot _) (List.cons_eq_cons.1 h).2
  obtain ⟨hpatch, h⟩ :=
    append_inj_of_all (hdigits _) (hdigits _) (hmarked v) (hmarked w) (List.cons_eq_cons.1 h).2
  obtain ⟨hpre, hbuild⟩ := markedText_inj h
  have hmajor := hnum hmajor
  have hminor := hnum hminor
  have hpatch := hnum hpatch
  cases v
  cases w
  simp_all

/-! ## Parsing and printing -/

theorem digitChar_toNat {c : Char} (h : c.isDigit = true) :
    c.toNat - 48 < 10 ∧ Nat.digitChar (c.toNat - 48) = c := by
  have hrange : 48 ≤ c.toNat ∧ c.toNat ≤ 57 := by
    simpa [Char.isDigit, UInt32.le_iff_toNat_le] using h
  have hlt : c.toNat - 48 < 10 := by omega
  refine ⟨hlt, ?_⟩
  apply Char.toNat_inj.1
  have hback := Nat.toNat_digitChar_sub_48_of_lt_ten hlt
  have hdigit : ∀ n < 10, 48 ≤ (Nat.digitChar n).toNat := by decide
  have := hdigit _ hlt
  omega

/-- A number that does not start with zero is printed as it was written. -/
theorem toDigits_ofDigitChars {ds : List Char} (hne : ds ≠ []) (hall : ds.all Char.isDigit = true)
    (hhead : ds.head? ≠ some '0') :
    Nat.toDigits 10 (Nat.ofDigitChars 10 ds 0) = ds ∧ 0 < Nat.ofDigitChars 10 ds 0 := by
  induction ds using List.reverseRecOn with
  | nil => exact absurd rfl hne
  | append_singleton ds c ih =>
      simp only [List.all_append, List.all_cons, List.all_nil, Bool.and_true,
        Bool.and_eq_true] at hall
      obtain ⟨hlt, hchar⟩ := digitChar_toNat hall.2
      rw [Nat.ofDigitChars_append, Nat.ofDigitChars_cons, Nat.ofDigitChars_nil]
      have hzero : '0'.toNat = 48 := rfl
      rw [hzero]
      by_cases hds : ds = []
      · subst hds
        simp only [Nat.ofDigitChars_nil, Nat.mul_zero, Nat.zero_add, List.nil_append]
        rw [Nat.toDigits_of_lt_base hlt, hchar]
        refine ⟨rfl, Nat.pos_of_ne_zero fun h0 => hhead ?_⟩
        rw [h0] at hchar
        simp [← hchar]
      · have hhead' : ds.head? ≠ some '0' := by
          rwa [List.head?_append_of_ne_nil _ hds] at hhead
        obtain ⟨hdigits, hpos⟩ := ih hds hall.1 hhead'
        rw [← Nat.toDigits_append_toDigits (by decide) hpos hlt, hdigits,
          Nat.toDigits_of_lt_base hlt, hchar]
        exact ⟨rfl, by omega⟩

theorem numericIdentifier_eq_some {cs rest : List Char} {n : Nat}
    (h : numericIdentifier cs = some (n, rest)) : cs = Nat.toDigits 10 n ++ rest := by
  simp only [numericIdentifier] at h
  split at h
  · cases h
  · rename_i hvalid
    split at h
    · simp only [Option.some.injEq, Prod.mk.injEq] at h
      obtain ⟨rfl, rfl⟩ := h
      simp only [not_or, not_and, not_not] at hvalid
      have hdigits : Nat.toDigits 10 (Nat.ofDigitChars 10 (cs.takeWhile Char.isDigit) 0) =
          cs.takeWhile Char.isDigit := by
        by_cases hzero : (cs.takeWhile Char.isDigit).head? = some '0'
        · -- Only the number zero starts with a zero.
          have hlen := hvalid.2 hzero
          obtain ⟨c, hc⟩ := List.length_eq_one_iff.1 hlen
          rw [hc] at hzero ⊢
          obtain rfl : c = '0' := by simpa using hzero
          decide
        · exact (toDigits_ofDigitChars hvalid.1 List.all_takeWhile hzero).1
      rw [hdigits, List.takeWhile_append_dropWhile]
    · cases h

theorem dot_eq_some {cs rest : List Char} (h : dot cs = some rest) : cs = '.' :: rest := by
  unfold dot at h
  split at h
  · simpa using h
  · cases h

theorem identifiers_eq_some {leadingZeros : Bool} {cs rest : List Char} {part : Identifiers}
    (h : identifiers leadingZeros cs = some (part, rest)) :
    cs = part.val ++ rest ∧ part.val ≠ [] := by
  simp only [identifiers] at h
  split at h
  · rename_i hsegments
    obtain ⟨rfl, rfl⟩ := Prod.mk.inj (Option.some.inj h)
    refine ⟨List.takeWhile_append_dropWhile.symm, fun hnil => ?_⟩
    have hnil : cs.takeWhile isIdentifierChar = [] := hnil
    simp [hnil] at hsegments
  · cases h

theorem markedIdentifiers_eq_some {marker : Char} {leadingZeros : Bool} {cs rest : List Char}
    {part : Identifiers} (h : markedIdentifiers marker leadingZeros cs = some (part, rest)) :
    cs = markedText marker part ++ rest := by
  unfold markedIdentifiers at h
  split at h
  · simp only [Option.some.injEq, Prod.mk.injEq] at h
    obtain ⟨rfl, rfl⟩ := h
    rfl
  · split at h
    · rename_i hmarker
      obtain ⟨rfl, hne⟩ := identifiers_eq_some h
      simp [markedText, hne, hmarker]
    · simp only [Option.some.injEq, Prod.mk.injEq] at h
      obtain ⟨rfl, rfl⟩ := h
      rfl

/-- A text that parses is the text of its version. -/
theorem toString_of_parse {text : String} {v : Version} (h : parse text = some v) :
    v.toString = text := by
  simp only [parse, parseChars, Option.bind_eq_bind, Option.bind_eq_some_iff] at h
  obtain ⟨⟨major, cs₁⟩, h₁, cs₂, h₂, ⟨minor, cs₃⟩, h₃, cs₄, h₄, ⟨patch, cs₅⟩, h₅, ⟨pre, cs₆⟩, h₆,
    ⟨build, cs₇⟩, h₇, h⟩ := h
  dsimp only at h₂ h₄ h₆ h₇ h
  split at h
  · rename_i hend
    obtain rfl := Option.some.inj h
    have htext : text.toList = Nat.toDigits 10 major ++ '.' :: (Nat.toDigits 10 minor ++
        '.' :: (Nat.toDigits 10 patch ++ (markedText '-' pre ++ markedText '+' build))) := by
      rw [numericIdentifier_eq_some h₁, dot_eq_some h₂, numericIdentifier_eq_some h₃,
        dot_eq_some h₄, numericIdentifier_eq_some h₅, markedIdentifiers_eq_some h₆,
        markedIdentifiers_eq_some h₇, hend, List.append_nil]
    rw [Version.toString, Version.textWith, ← htext, String.ofList_toList]
  · cases h

theorem parse_inj {s t : String} {v : Version} (hs : parse s = some v) (ht : parse t = some v) :
    s = t :=
  (toString_of_parse hs).symm.trans (toString_of_parse ht)

/-! ## Versions that compare as equal -/

instance : LawfulEqCmp segmentCompare where
  eq_of_compare h := by
    have hrest := (compareLex_eq_eq.1 h).2
    exact LawfulEqOrd.eq_of_compare (compareLex_eq_eq.1 hrest).2

/-- Digits are their zeros at the start and the rest. -/
theorem eq_of_dropWhile_zeros {s t : List Char} (hlength : s.length = t.length)
    (hdrop : s.dropWhile (· = '0') = t.dropWhile (· = '0')) : s = t := by
  have hzeros : ∀ u : List Char, u.takeWhile (· = '0') =
      List.replicate (u.length - (u.dropWhile (· = '0')).length) '0' := by
    intro u
    refine List.eq_replicate_iff.2 ⟨?_, fun c hc => by simpa using List.mem_takeWhile_imp hc⟩
    have hparts := congrArg List.length (List.takeWhile_append_dropWhile (p := (· = '0')) (l := u))
    rw [List.length_append] at hparts
    omega
  calc
    s = s.takeWhile (· = '0') ++ s.dropWhile (· = '0') := List.takeWhile_append_dropWhile.symm
    _ = t.takeWhile (· = '0') ++ t.dropWhile (· = '0') := by
      rw [hzeros s, hzeros t, hlength, hdrop]
    _ = t := List.takeWhile_append_dropWhile

instance : LawfulEqCmp buildSegmentCompare where
  eq_of_compare {s t} h := by
    rcases compareLex_eq_eq.1 h with ⟨hdigits, h⟩
    have hdigits : (!s.all Char.isDigit) = !t.all Char.isDigit :=
      LawfulEqOrd.eq_of_compare hdigits
    rcases compareLex_eq_eq.1 (compareLex_eq_eq.1 h).2 with ⟨hvalue, hlength⟩
    have hvalue : (if s.all Char.isDigit then s.dropWhile (· = '0') else s) =
        if t.all Char.isDigit then t.dropWhile (· = '0') else t := LawfulEqOrd.eq_of_compare hvalue
    have hlength : s.length = t.length := LawfulEqOrd.eq_of_compare hlength
    have hsame : s.all Char.isDigit = t.all Char.isDigit := by simpa using hdigits
    by_cases hs : s.all Char.isDigit = true
    · rw [if_pos hs, if_pos (hsame ▸ hs)] at hvalue
      exact eq_of_dropWhile_zeros hlength hvalue
    · rw [if_neg hs, if_neg (hsame ▸ hs)] at hvalue
      exact hvalue

theorem eq_of_splitOn_eq {a b : Identifiers} (h : a.val.splitOn '.' = b.val.splitOn '.') :
    a = b := by
  refine Subtype.ext ?_
  calc
    a.val = ['.'].intercalate (a.val.splitOn '.') := (List.intercalate_splitOn '.').symm
    _ = b.val := by rw [h, List.intercalate_splitOn]

instance : LawfulEqCmp preCompare where
  eq_of_compare h := eq_of_splitOn_eq (LawfulEqCmp.eq_of_compare (compareLex_eq_eq.1 h).2)

instance : LawfulEqCmp buildCompare where
  eq_of_compare h := eq_of_splitOn_eq (LawfulEqCmp.eq_of_compare h)

/-- The order of the crate tells any two versions apart. -/
instance : LawfulEqCmp Semver.compare where
  eq_of_compare {v w} h := by
    rcases compareLex_eq_eq.1 h with ⟨hprecedence, hbuild⟩
    rcases compareLex_eq_eq.1 hprecedence with ⟨hmajor, hprecedence⟩
    rcases compareLex_eq_eq.1 hprecedence with ⟨hminor, hprecedence⟩
    rcases compareLex_eq_eq.1 hprecedence with ⟨hpatch, hpre⟩
    have hmajor : v.major = w.major := LawfulEqOrd.eq_of_compare hmajor
    have hminor : v.minor = w.minor := LawfulEqOrd.eq_of_compare hminor
    have hpatch : v.patch = w.patch := LawfulEqOrd.eq_of_compare hpatch
    have hpre : v.pre = w.pre := LawfulEqCmp.eq_of_compare hpre
    have hbuild : v.build = w.build := LawfulEqCmp.eq_of_compare hbuild
    cases v
    cases w
    simp_all

end Semver
end InfraWeave
