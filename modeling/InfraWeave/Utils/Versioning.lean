import InfraWeave.Lib.Semver

/-!
# Versions as sort keys and as tracks
-/

namespace InfraWeave

open Semver

/-- `format!("{:0width$}", n)`. -/
def zeroPad (width n : Nat) : List Char :=
  (Nat.toDigits 10 n).leftpad width '0'

/-- `zero_pad_semver`: a version as a text that sorts by its numbers. -/
def zeroPadSemver (ver : String) (padLength : Nat) : Option String :=
  (parse ver).map fun version => .ofList (version.textWith (zeroPad padLength))

def getVersionTrack (ver : String) : Option String :=
  (parse ver).map fun version =>
    if version.pre.val = [] then "stable" else .ofList version.pre.val

def semverParseWithoutBuild (ver : String) : Option Version :=
  (parse ver).map Version.stripBuildMetadata

example : zeroPadSemver "1.2.3-alpha.1" 3 = some "001.002.003-alpha.1" := by decide

example : getVersionTrack "0.0.36-dev+test.10" = some "dev" := by decide

/-! ## Sort keys tell versions apart -/

theorem isDigit_of_mem_toDigits {n : Nat} {c : Char} (h : c ∈ Nat.toDigits 10 n) :
    c.isDigit = true :=
  Nat.isDigit_of_mem_toDigits (by decide) (by decide) h

theorem all_isDigit_zeroPad (width n : Nat) : (zeroPad width n).all Char.isDigit = true := by
  rw [List.all_eq_true]
  intro c hc
  rcases List.mem_append.1 hc with hc | hc
  · rw [List.eq_of_mem_replicate hc]
    decide
  · exact isDigit_of_mem_toDigits hc

theorem zeroPad_injective (width : Nat) : Function.Injective (zeroPad width) := by
  intro m n h
  have hvalue : ∀ k, Nat.ofDigitChars 10 (zeroPad width k) 0 = k := by
    intro k
    rw [zeroPad, List.leftpad, Nat.ofDigitChars_append, Nat.ofDigitChars_replicate_zero,
      Nat.mul_zero, Nat.ofDigitChars_ten_toDigits]
  calc
    m = Nat.ofDigitChars 10 (zeroPad width m) 0 := (hvalue m).symm
    _ = Nat.ofDigitChars 10 (zeroPad width n) 0 := by rw [h]
    _ = n := hvalue n

/-- Versions with one sort key are the same text. -/
theorem zeroPadSemver_inj {padLength : Nat} {s t key : String}
    (hs : zeroPadSemver s padLength = some key) (ht : zeroPadSemver t padLength = some key) :
    s = t := by
  simp only [zeroPadSemver, Option.map_eq_some_iff] at hs ht
  obtain ⟨v, hv, hkey⟩ := hs
  obtain ⟨w, hw, rfl⟩ := ht
  have htext : v.textWith (zeroPad padLength) = w.textWith (zeroPad padLength) :=
    String.ofList_injective hkey
  have hvw : v = w :=
    textWith_injective (zeroPad_injective padLength) (all_isDigit_zeroPad padLength) htext
  exact parse_inj hv (hvw ▸ hw)

/-- A track that a version gives has no colon in it. -/
theorem colon_notMem_track {s track : String} (h : getVersionTrack s = some track) :
    ':' ∉ track.toList := by
  simp only [getVersionTrack, Option.map_eq_some_iff] at h
  obtain ⟨v, -, rfl⟩ := h
  split
  · decide
  · intro hmem
    rw [String.toList_ofList] at hmem
    have := List.all_eq_true.1 v.pre.property _ hmem
    exact absurd this (by decide)

end InfraWeave
