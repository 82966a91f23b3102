import InfraWeave.EnvCommon.Catalogue
import InfraWeave.Utils.Versioning

/-!
# References in an OCI registry

A module is pushed under a tag that joins its name and its version with a dash.  A tag cannot hold
the plus sign before build metadata, which becomes a dash too.
-/

namespace InfraWeave
namespace EnvCommon

open Semver

/-! ## Tags -/

/-- `version.replace("+", "-")`. -/
def dashed (version : String) : List Char :=
  version.toList.map fun c => if c = '+' then '-' else c

def referenceTag (module : ModuleResp) : List Char :=
  module.module.toList ++ '-' :: dashed module.version

def fullPath (registry : String) (module : ModuleResp) : String :=
  registry ++ ":" ++ .ofList (referenceTag module)

/-- `Metadata::validate_name`, for the names of modules and of stacks. -/
def validateMetadataName (name : String) : Bool :=
  match name.toList with
  | [] => false
  | c :: cs => !cs.isEmpty && c.isLower && cs.all fun d => d.isLower || d.isDigit

/-- The checks of a publish on the version of the record. -/
def Publishable (services : Services) (module : ModuleResp) : Prop :=
  ensureTrackMatchesVersion services module.track module.version = .ok ()

instance (services : Services) (module : ModuleResp) : Decidable (Publishable services module) :=
  inferInstanceAs (Decidable (_ = _))

/-! ## The grammar of references -/

variable (word : Char → Bool)

def isTagChar (c : Char) : Bool :=
  word c || c == '.' || c == '-'

/-- A text that `\w[\w.-]*` matches. -/
def isTagText : List Char → Bool
  | [] => false
  | c :: cs => word c && cs.all (isTagChar word)

/-- A tag of the grammar, `\w[\w.-]{0,127}`. -/
def isTag (text : List Char) : Bool :=
  isTagText word text && text.length ≤ 128

/-- What is relied on of references: word characters are letters, digits and others but no dash,
and what follows the registry's repository has to be a tag. -/
structure ReferenceGrammar (parses : String → Bool) (services : Services)
    (registry : String) : Prop where
  alphanum : ∀ c : Char, c.isAlphanum = true → word c = true
  dash : word '-' = false
  tags : ∀ module, Publishable services module →
    parses (fullPath registry module) = isTag word (referenceTag module)

/-- Both references parse, and they are the same for one name and version only. -/
structure ReferencesApart (parses : String → Bool) (registry : String)
    (module module' : ModuleResp) : Prop where
  first : parses (fullPath registry module) = true
  second : parses (fullPath registry module') = true
  injective : fullPath registry module = fullPath registry module' →
    module.module = module'.module ∧ module.version = module'.version

/-! ## Which tags are apart -/

/-- The build metadata of a release reads as the pre-release and the build metadata of the other
version. -/
def Shadows (v w : Version) : Prop :=
  v.pre.val = [] ∧ w.pre.val ≠ [] ∧ v.build.val = w.pre.val ++ markedText '-' w.build

def numbers (v : Version) : Nat × Nat × Nat :=
  (v.major, v.minor, v.patch)

/-- The longer name goes on with a dash and the start of the other version. -/
def Overlaps (module module' : ModuleResp) : Prop :=
  ∃ cs, module'.module.toList = module.module.toList ++ '-' :: cs ∧
    dashed module.version = cs ++ '-' :: dashed module'.version

/-- The name can start a tag, and leaves room for the version. -/
structure FitsTag (module : ModuleResp) : Prop where
  name : isTagText word module.module.toList = true
  short : module.module.length + module.version.length < 128

structure TagsApart (module module' : ModuleResp) : Prop where
  fits : FitsTag word module
  fits' : FitsTag word module'
  versions : module.module = module'.module → ∀ v w, parse module.version = some v →
    parse module'.version = some w → numbers v = numbers w → ¬ Shadows v w ∧ ¬ Shadows w v
  names : ¬ Overlaps module module' ∧ ¬ Overlaps module' module

variable {word : Char → Bool} {parses : String → Bool} {services : Services} {registry : String}
  {module module' : ModuleResp} {v w : Version}

/-! ## Versions in tags -/

/-- The three numbers of a version. -/
def coreText (v : Version) : List Char :=
  Nat.toDigits 10 v.major ++ '.' :: (Nat.toDigits 10 v.minor ++ '.' :: Nat.toDigits 10 v.patch)

def dashedParts (v : Version) : List Char :=
  markedText '-' v.pre ++ markedText '-' v.build

theorem isIdentifierChar_of_mem (part : Identifiers) {c : Char} (h : c ∈ part.val) :
    isIdentifierChar c = true :=
  List.all_eq_true.1 part.property c h

theorem isIdentifierChar_markedText (part : Identifiers) {c : Char} (h : c ∈ markedText '-' part) :
    isIdentifierChar c = true := by
  unfold markedText at h
  split at h
  · cases h
  · rcases List.mem_cons.1 h with rfl | hmem
    · decide
    · exact isIdentifierChar_of_mem part hmem

theorem isIdentifierChar_toDigits {n : Nat} {c : Char} (h : c ∈ Nat.toDigits 10 n) :
    isIdentifierChar c = true := by
  have hdigit := isDigit_of_mem_toDigits h
  simp [isIdentifierChar, Char.isAlphanum, hdigit]

theorem isIdentifierChar_coreText {c : Char} (h : c ∈ coreText v) : isIdentifierChar c = true := by
  simp only [coreText, List.mem_append, List.mem_cons] at h
  rcases h with h | rfl | h | rfl | h
  · exact isIdentifierChar_toDigits h
  · decide
  · exact isIdentifierChar_toDigits h
  · decide
  · exact isIdentifierChar_toDigits h

/-- A text without a plus sign keeps its characters. -/
theorem map_dash_eq_self {cs : List Char} (h : ∀ c ∈ cs, isIdentifierChar c = true) :
    cs.map (fun c => if c = '+' then '-' else c) = cs := by
  induction cs with
  | nil => rfl
  | cons c cs ih =>
      have hne : c ≠ '+' := by
        intro hc
        have hplus := h c List.mem_cons_self
        rw [hc] at hplus
        exact absurd hplus (by decide)
      rw [List.map_cons, if_neg hne, ih fun d hd => h d (List.mem_cons_of_mem c hd)]

theorem map_dash_markedText (part : Identifiers) :
    (markedText '+' part).map (fun c => if c = '+' then '-' else c) = markedText '-' part := by
  unfold markedText
  split
  · rfl
  · rw [List.map_cons, if_pos rfl, map_dash_eq_self fun _ => isIdentifierChar_of_mem part]

theorem dashed_of_parse {version : String} (h : parse version = some v) :
    dashed version = coreText v ++ dashedParts v := by
  have htext : version.toList = coreText v ++ (markedText '-' v.pre ++ markedText '+' v.build) := by
    rw [← toString_of_parse h, Version.toString, String.toList_ofList, Version.textWith, coreText]
    simp
  rw [dashed, htext, List.map_append, List.map_append,
    map_dash_eq_self fun _ => isIdentifierChar_coreText,
    map_dash_eq_self fun _ => isIdentifierChar_markedText v.pre, map_dash_markedText]
  rfl

/-- The dots between the numbers, and the dash or the end after them, give the numbers away. -/
theorem coreText_append_inj {r s : List Char} (hr : ∀ c, r.head? = some c → c = '-')
    (hs : ∀ c, s.head? = some c → c = '-') (h : coreText v ++ r = coreText w ++ s) :
    numbers v = numbers w ∧ r = s := by
  have hdigits : ∀ n, (Nat.toDigits 10 n).all Char.isDigit = true := fun n =>
    List.all_eq_true.2 fun _ => isDigit_of_mem_toDigits
  have hdot : ∀ (r : List Char) (c : Char), ('.' :: r).head? = some c → c.isDigit = false := by
    intro r c hc
    obtain rfl : '.' = c := by simpa using hc
    decide
  have hdash : ∀ r : List Char, (∀ c, r.head? = some c → c = '-') →
      ∀ c, r.head? = some c → c.isDigit = false := by
    intro r hr c hc
    rw [hr c hc]
    decide
  have hinjective : ∀ {m n : Nat}, Nat.toDigits 10 m = Nat.toDigits 10 n → m = n := by
    intro m n hmn
    have hvalue := congrArg (fun ds => Nat.ofDigitChars 10 ds 0) hmn
    simpa [Nat.ofDigitChars_toDigits] using hvalue
  simp only [coreText, List.append_assoc, List.cons_append] at h
  rcases append_inj_of_all (hdigits _) (hdigits _) (hdot _) (hdot _) h with ⟨hmajor, h⟩
  rcases append_inj_of_all (hdigits _) (hdigits _) (hdot _) (hdot _) (List.cons_eq_cons.1 h).2 with
    ⟨hminor, h⟩
  rcases append_inj_of_all (hdigits _) (hdigits _) (hdash r hr) (hdash s hs)
    (List.cons_eq_cons.1 h).2 with ⟨hpatch, hrest⟩
  refine ⟨?_, hrest⟩
  simp only [numbers, hinjective hmajor, hinjective hminor, hinjective hpatch]

theorem head?_dashedParts (v : Version) {c : Char} (h : (dashedParts v).head? = some c) :
    c = '-' := by
  rw [dashedParts, List.head?_append] at h
  cases hpre : (markedText '-' v.pre).head? with
  | some d =>
      obtain rfl : d = c := by simpa [hpre] using h
      exact head?_markedText hpre
  | none =>
      rw [hpre, Option.none_or] at h
      exact head?_markedText h

theorem markedText_of_nil {marker : Char} {part : Identifiers} (h : part.val = []) :
    markedText marker part = [] := if_pos h

theorem markedText_of_ne_nil {marker : Char} {part : Identifiers} (h : part.val ≠ []) :
    markedText marker part = marker :: part.val := if_neg h

/-- The build metadata of a release begins where the pre-release of the other version does. -/
theorem dashedParts_eq_of_release (hv : v.pre.val = []) (hw : w.pre.val ≠ []) :
    dashedParts v = dashedParts w ↔ Shadows v w := by
  rw [dashedParts, dashedParts, markedText_of_nil hv, markedText_of_ne_nil hw, List.nil_append]
  unfold Shadows
  by_cases hbuild : v.build.val = []
  · simp [markedText_of_nil hbuild, hbuild, hw]
  · simp [markedText_of_ne_nil hbuild, hv, hw]

/-- The pre-releases that a publish accepts have no dash, so that they end at the first one. -/
theorem dashedParts_eq_iff (hv : '-' ∉ v.pre.val) (hw : '-' ∉ w.pre.val) :
    dashedParts v = dashedParts w ↔
      v.pre = w.pre ∧ v.build = w.build ∨ Shadows v w ∨ Shadows w v := by
  by_cases hvpre : v.pre.val = [] <;> by_cases hwpre : w.pre.val = []
  · have hpre : v.pre = w.pre := Subtype.ext (hvpre.trans hwpre.symm)
    have hshadows : ¬ (Shadows v w ∨ Shadows w v) := by
      simp [Shadows, hvpre, hwpre]
    rw [or_iff_left hshadows, dashedParts, dashedParts, markedText_of_nil hvpre,
      markedText_of_nil hwpre, List.nil_append, List.nil_append]
    exact ⟨fun h => ⟨hpre, markedText_marker_inj h⟩, fun h => by rw [h.2]⟩
  · have hpre : v.pre ≠ w.pre := fun heq => hwpre (heq ▸ hvpre)
    have hshadows : ¬ Shadows w v := fun h => hwpre h.1
    rw [dashedParts_eq_of_release hvpre hwpre]
    simp [hpre, hshadows]
  · have hpre : v.pre ≠ w.pre := fun heq => hvpre (heq ▸ hwpre)
    have hshadows : ¬ Shadows v w := fun h => hvpre h.1
    rw [eq_comm, dashedParts_eq_of_release hwpre hvpre]
    simp [hpre, hshadows]
  · have hshadows : ¬ (Shadows v w ∨ Shadows w v) := by
      simp [Shadows, hvpre, hwpre]
    rw [or_iff_left hshadows]
    constructor
    · intro h
      have hall : ∀ {cs : List Char}, '-' ∉ cs → cs.all (· != '-') = true := by
        intro cs hcs
        refine List.all_eq_true.2 fun c hc => ?_
        have hne : c ≠ '-' := fun heq => hcs (heq ▸ hc)
        simpa using hne
      have hhead : ∀ (part : Identifiers) (c : Char), (markedText '-' part).head? = some c →
          (c != '-') = false := by
        intro part c hc
        rw [head?_markedText hc]
        rfl
      rw [dashedParts, dashedParts, markedText_of_ne_nil hvpre, markedText_of_ne_nil hwpre,
        List.cons_append, List.cons_append] at h
      rcases append_inj_of_all (hall hv) (hall hw) (hhead _) (hhead _) (List.cons_eq_cons.1 h).2
        with ⟨hpre, hbuild⟩
      exact ⟨Subtype.ext hpre, markedText_marker_inj hbuild⟩
    · intro h
      rw [dashedParts, dashedParts, h.1, h.2]

theorem publishable_version (h : Publishable services module) :
    ∃ v, parse module.version = some v ∧ '-' ∉ v.pre.val := by
  unfold Publishable ensureTrackMatchesVersion at h
  rcases bind_eq_ok_iff.1 h with ⟨v, hparse, hchecks⟩
  refine ⟨v, parsed_eq_ok (mapError_eq_ok_iff.1 hparse), ?_⟩
  have hpre : v.pre.val = (preText v).toList := String.toList_ofList.symm
  rw [hpre]
  split at hchecks
  · rename_i htrack
    rw [htrack]
    split at hchecks
    · rename_i hmem
      simp only [List.mem_cons, List.not_mem_nil, or_false] at hmem
      rcases hmem with hmem | hmem | hmem | hmem <;> rw [hmem] <;> decide
    · split at hchecks <;> cases hchecks
  · split at hchecks
    · rename_i hstable
      rw [hstable.1]
      decide
    · cases hchecks

/-! ## References -/

theorem fullPath_inj_iff :
    fullPath registry module = fullPath registry module' ↔
      referenceTag module = referenceTag module' := by
  constructor
  · intro h
    simpa [fullPath] using congrArg String.toList h
  · intro h
    rw [fullPath, fullPath, h]

theorem isTagText_append_dash {name rest : List Char} (hdash : word '-' = false)
    (hrest : rest.all (isTagChar word) = true) :
    isTagText word (name ++ '-' :: rest) = isTagText word name := by
  cases name with
  | nil => simp [isTagText, hdash]
  | cons c cs => simp [isTagText, isTagChar, hrest]

theorem isTag_referenceTag_iff (hgrammar : ReferenceGrammar word parses services registry)
    (h : Publishable services module) :
    isTag word (referenceTag module) = true ↔ FitsTag word module := by
  rcases publishable_version h with ⟨v, hparse, -⟩
  have hidentifier : ∀ {c : Char}, isIdentifierChar c = true → isTagChar word c = true := by
    intro c hc
    simp only [isIdentifierChar, Bool.or_eq_true] at hc
    rcases hc with (hc | hc) | hc
    · simp [isTagChar, hgrammar.alphanum c hc]
    · simp [isTagChar, hc]
    · simp [isTagChar, hc]
  have hdashed : (dashed module.version).all (isTagChar word) = true := by
    rw [dashed_of_parse hparse, List.all_eq_true]
    intro c hc
    rcases List.mem_append.1 hc with hc | hc
    · exact hidentifier (isIdentifierChar_coreText hc)
    · rcases List.mem_append.1 hc with hc | hc
      · exact hidentifier (isIdentifierChar_markedText v.pre hc)
      · exact hidentifier (isIdentifierChar_markedText v.build hc)
  have hlength : (dashed module.version).length = module.version.length := by
    rw [dashed, List.length_map, String.length_toList]
  rw [isTag, referenceTag, isTagText_append_dash hgrammar.dash hdashed]
  simp only [Bool.and_eq_true, decide_eq_true_eq, List.length_append, List.length_cons, hlength,
    String.length_toList]
  constructor
  · rintro ⟨hname, hshort⟩
    exact ⟨hname, by omega⟩
  · rintro ⟨hname, hshort⟩
    exact ⟨hname, by omega⟩

/-- Where two texts end at a dash, they are the same or one goes on after the other. -/
theorem append_dash_eq {a b s t : List Char} (h : a ++ '-' :: s = b ++ '-' :: t) :
    a = b ∧ s = t ∨ (∃ cs, b = a ++ '-' :: cs ∧ s = cs ++ '-' :: t) ∨
      ∃ cs, a = b ++ '-' :: cs ∧ t = cs ++ '-' :: s := by
  rcases List.append_eq_append_iff.1 h with ⟨cs, hb, hs⟩ | ⟨cs, ha, ht⟩
  · cases cs with
    | nil =>
        rw [List.append_nil] at hb
        exact Or.inl ⟨hb.symm, (List.cons_eq_cons.1 hs).2⟩
    | cons c cs =>
        rw [List.cons_append] at hs
        rcases List.cons_eq_cons.1 hs with ⟨rfl, hrest⟩
        exact Or.inr (Or.inl ⟨cs, hb, hrest⟩)
  · cases cs with
    | nil =>
        rw [List.append_nil] at ha
        exact Or.inl ⟨ha, (List.cons_eq_cons.1 ht).2.symm⟩
    | cons c cs =>
        rw [List.cons_append] at ht
        rcases List.cons_eq_cons.1 ht with ⟨rfl, hrest⟩
        exact Or.inr (Or.inr ⟨cs, ha, hrest⟩)

theorem Overlaps.referenceTag_eq (h : Overlaps module module') :
    referenceTag module = referenceTag module' := by
  rcases h with ⟨cs, hname, hversion⟩
  simp [referenceTag, hname, hversion]

theorem Overlaps.name_ne (h : Overlaps module module') : module.module ≠ module'.module := by
  intro heq
  rcases h with ⟨cs, hname, -⟩
  rw [heq] at hname
  simpa using congrArg List.length hname

/-- The records of one name are apart when neither version shadows the other. -/
theorem dashed_eq_iff (hparse : parse module.version = some v)
    (hparse' : parse module'.version = some w) (hv : '-' ∉ v.pre.val) (hw : '-' ∉ w.pre.val) :
    dashed module.version = dashed module'.version ↔
      module.version = module'.version ∨
        numbers v = numbers w ∧ (Shadows v w ∨ Shadows w v) := by
  rw [dashed_of_parse hparse, dashed_of_parse hparse']
  constructor
  · intro h
    rcases coreText_append_inj (fun _ => head?_dashedParts v) (fun _ => head?_dashedParts w) h with
      ⟨hnumbers, hparts⟩
    rcases (dashedParts_eq_iff hv hw).1 hparts with ⟨hpre, hbuild⟩ | hshadows
    · left
      have heq : v = w := by
        cases v
        cases w
        simp_all [numbers]
      exact parse_inj hparse (heq ▸ hparse')
    · exact Or.inr ⟨hnumbers, hshadows⟩
  · rintro (heq | ⟨hnumbers, hshadows⟩)
    · rw [heq] at hparse
      rw [Option.some.inj (hparse.symm.trans hparse')]
    · have hcore : coreText v = coreText w := by
        simp only [numbers, Prod.mk.injEq] at hnumbers
        rw [coreText, coreText, hnumbers.1, hnumbers.2.1, hnumbers.2.2]
      rw [hcore, (dashedParts_eq_iff hv hw).2 (Or.inr hshadows)]

theorem referencesApart_iff (hgrammar : ReferenceGrammar word parses services registry)
    (h : Publishable services module) (h' : Publishable services module') :
    ReferencesApart parses registry module module' ↔ TagsApart word module module' := by
  rcases publishable_version h with ⟨v, hparse, hv⟩
  rcases publishable_version h' with ⟨w, hparse', hw⟩
  have hfits : parses (fullPath registry module) = true ↔ FitsTag word module := by
    rw [hgrammar.tags module h, isTag_referenceTag_iff hgrammar h]
  have hfits' : parses (fullPath registry module') = true ↔ FitsTag word module' := by
    rw [hgrammar.tags module' h', isTag_referenceTag_iff hgrammar h']
  constructor
  · intro hapart
    have hsame : referenceTag module = referenceTag module' →
        module.module = module'.module ∧ module.version = module'.version :=
      fun htag => hapart.injective (fullPath_inj_iff.2 htag)
    refine
      { fits := hfits.1 hapart.first
        fits' := hfits'.1 hapart.second
        versions := ?_
        names :=
          ⟨fun h => h.name_ne (hsame h.referenceTag_eq).1,
            fun h => h.name_ne (hsame h.referenceTag_eq.symm).1.symm⟩ }
    intro hname v' w' hv' hw' hnumbers
    obtain rfl : v = v' := Option.some.inj (hparse.symm.trans hv')
    obtain rfl : w = w' := Option.some.inj (hparse'.symm.trans hw')
    refine not_or.1 fun hshadows => ?_
    have hdashed : dashed module.version = dashed module'.version :=
      (dashed_eq_iff hparse hparse' hv hw).2 (Or.inr ⟨hnumbers, hshadows⟩)
    have htag : referenceTag module = referenceTag module' := by
      rw [referenceTag, referenceTag, hname, hdashed]
    have heq : v = w := by
      rw [(hsame htag).2] at hparse
      exact Option.some.inj (hparse.symm.trans hparse')
    subst heq
    rcases hshadows with hshadows | hshadows <;> exact hshadows.2.1 hshadows.1
  · intro hapart
    refine ⟨hfits.2 hapart.fits, hfits'.2 hapart.fits', fun hpath => ?_⟩
    rcases append_dash_eq (fullPath_inj_iff.1 hpath) with ⟨hname, hdashed⟩ | hover | hover
    · have hname : module.module = module'.module := String.toList_injective hname
      refine ⟨hname, ?_⟩
      rcases (dashed_eq_iff hparse hparse' hv hw).1 hdashed with hversion | ⟨hnumbers, hshadows⟩
      · exact hversion
      · exact absurd hshadows (not_or.2 (hapart.versions hname v w hparse hparse' hnumbers))
    · exact absurd hover hapart.names.1
    · exact absurd hover hapart.names.2

/-! ## Names without dashes -/

theorem isAlphanum_of_validateMetadataName {name : String} (h : validateMetadataName name = true) :
    ∃ c cs, name.toList = c :: cs ∧ ∀ d ∈ c :: cs, d.isAlphanum = true := by
  unfold validateMetadataName at h
  split at h
  · cases h
  · rename_i c cs hname
    simp only [Bool.and_eq_true, List.all_eq_true, Bool.or_eq_true] at h
    refine ⟨c, cs, hname, fun d hd => ?_⟩
    have hcases : d.isAlphanum = (d.isUpper || d.isLower || d.isDigit) := rfl
    rw [hcases]
    rcases List.mem_cons.1 hd with rfl | hmem
    · rw [h.1.2, Bool.or_true, Bool.true_or]
    · rcases h.2 d hmem with hlower | hdigit
      · rw [hlower, Bool.or_true, Bool.true_or]
      · rw [hdigit, Bool.or_true]

/-- Names that the command line accepts end at the first dash of the tag, and can start it. -/
theorem tagsApart_iff_of_validateMetadataName
    (hgrammar : ReferenceGrammar word parses services registry)
    (hname : validateMetadataName module.module = true)
    (hname' : validateMetadataName module'.module = true) :
    TagsApart word module module' ↔
      module.module.length + module.version.length < 128 ∧
      module'.module.length + module'.version.length < 128 ∧
      (module.module = module'.module → ∀ v w, parse module.version = some v →
        parse module'.version = some w → numbers v = numbers w →
          ¬ Shadows v w ∧ ¬ Shadows w v) := by
  have htext : ∀ {name : String}, validateMetadataName name = true →
      isTagText word name.toList = true := by
    intro name h
    rcases isAlphanum_of_validateMetadataName h with ⟨c, cs, hcs, halphanum⟩
    have hword : ∀ d ∈ c :: cs, word d = true := fun d hd =>
      hgrammar.alphanum d (halphanum d hd)
    rw [hcs, isTagText, hword c List.mem_cons_self, Bool.true_and, List.all_eq_true]
    intro d hd
    simp [isTagChar, hword d (List.mem_cons_of_mem c hd)]
  have hoverlaps : ∀ {module module' : ModuleResp}, validateMetadataName module'.module = true →
      ¬ Overlaps module module' := by
    rintro module module' h ⟨rest, hrest, -⟩
    rcases isAlphanum_of_validateMetadataName h with ⟨c, cs, hcs, halphanum⟩
    have hdash : '-' ∈ c :: cs := by
      rw [← hcs, hrest]
      simp
    exact absurd (halphanum '-' hdash) (by decide)
  constructor
  · intro h
    exact ⟨h.fits.short, h.fits'.short, h.versions⟩
  · rintro ⟨hshort, hshort', hversions⟩
    exact
      { fits := ⟨htext hname, hshort⟩
        fits' := ⟨htext hname', hshort'⟩
        versions := hversions
        names := ⟨hoverlaps hname', hoverlaps hname⟩ }

/-! ## A registry of modules -/

def asciiWord (c : Char) : Bool :=
  c.isAlphanum || c == '_'

/-- The references that start with the repository. -/
def parsesReference (text : String) : Bool :=
  "ghcr.io/acme/modules:".toList.isPrefixOf text.toList &&
    isTag asciiWord (text.toList.drop "ghcr.io/acme/modules:".toList.length)

theorem referenceGrammar_local :
    ReferenceGrammar asciiWord parsesReference localServices "ghcr.io/acme/modules" where
  alphanum c hc := by simp [asciiWord, hc]
  dash := by decide
  tags module _ := by
    have htext : (fullPath "ghcr.io/acme/modules" module).toList =
        "ghcr.io/acme/modules:".toList ++ referenceTag module := by
      simp [fullPath]
    rw [parsesReference, htext, List.drop_left,
      List.isPrefixOf_iff_prefix.2 (List.prefix_append _ _), Bool.true_and]

/-- A release and its pre-release with the same build metadata. -/
theorem referencesApart_webModules :
    ReferencesApart parsesReference "ghcr.io/acme/modules" (webModule "dev" "1.0.0-dev+7")
      (webModule "stable" "1.0.0+7") := by
  have hdev : Publishable localServices (webModule "dev" "1.0.0-dev+7") := by decide
  have hstable : Publishable localServices (webModule "stable" "1.0.0+7") := by decide
  refine (referencesApart_iff referenceGrammar_local hdev hstable).2 ?_
  refine (tagsApart_iff_of_validateMetadataName referenceGrammar_local (by decide) (by decide)).2 ?_
  refine ⟨by decide, by decide, fun _ v w hv hw _ => ?_⟩
  have hpre : v.pre.val = "dev".toList := by
    have hparsed : (parse "1.0.0-dev+7").map (fun v => v.pre.val) = some "dev".toList := by decide
    have hmap := congrArg (Option.map fun v : Version => v.pre.val) hv
    exact Option.some.inj (hmap.symm.trans hparsed)
  have hbuild : w.build.val = "7".toList := by
    have hparsed : (parse "1.0.0+7").map (fun v => v.build.val) = some "7".toList := by decide
    have hmap := congrArg (Option.map fun v : Version => v.build.val) hw
    exact Option.some.inj (hmap.symm.trans hparsed)
  constructor
  · intro h
    exact absurd (hpre.symm.trans h.1) (by decide)
  · intro h
    have htext := h.2.2
    rw [hbuild, hpre] at htext
    simp at htext

/-- A release with the build metadata `dev` takes the tag of the pre-release. -/
theorem not_referencesApart_dev :
    Publishable localServices (webModule "dev" "1.0.0-dev") ∧
      Publishable localServices (webModule "stable" "1.0.0+dev") ∧
      validateMetadataName (webModule "dev" "1.0.0-dev").module = true ∧
      ¬ ReferencesApart parsesReference "ghcr.io/acme/modules" (webModule "dev" "1.0.0-dev")
        (webModule "stable" "1.0.0+dev") := by
  refine ⟨by decide, by decide, by decide, fun h => ?_⟩
  have hversion := (h.injective (fullPath_inj_iff.2 (by decide))).2
  exact absurd hversion (by decide)

end EnvCommon
end InfraWeave
