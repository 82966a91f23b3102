import InfraWeave.Lib.Separator

/-!
# The words of an identifier

An identifier is read as words: they end at characters that are no letter or digit, where a capital
follows a small letter, and before the last of several capitals that a small letter follows.  Only
the letters of ASCII have a case here.
-/

namespace InfraWeave
namespace Words

inductive WordMode where
  | boundary
  | lowercase
  | uppercase
  deriving DecidableEq

/-- The words of a run of letters and digits; `word` is what has been read of the current one. -/
def caseWords : WordMode → List Char → List Char → List (List Char)
  | _, word, [] => [word]
  | _, word, [c] => [word ++ [c]]
  | mode, word, c :: next :: cs =>
      let nextMode :=
        if c.isLower then .lowercase else if c.isUpper then .uppercase else mode
      if nextMode = .lowercase ∧ next.isUpper then
        (word ++ [c]) :: caseWords .boundary [] (next :: cs)
      else if mode = .uppercase ∧ c.isUpper ∧ next.isLower then
        word :: caseWords .boundary [c] (next :: cs)
      else caseWords nextMode (word ++ [c]) (next :: cs)

def words (s : String) : List (List Char) :=
  ((s.toList.splitOnP fun c => !c.isAlphanum).flatMap (caseWords .boundary [])).filter (· ≠ [])

def lower (word : List Char) : List Char :=
  word.map Char.toLower

def capitalize : List Char → List Char
  | [] => []
  | c :: cs => c.toUpper :: lower cs

def toSnakeCase (s : String) : String :=
  .ofList (['_'].intercalate ((words s).map lower))

def toLowerCamelCase (s : String) : String :=
  match words s with
  | [] => ""
  | word :: rest => .ofList (lower word ++ rest.flatMap capitalize)

example : toSnakeCase "UPPERCASEAndlowercase" = "uppercase_andlowercase" := by decide

example : toLowerCamelCase "default_tags" = "defaultTags" := by decide

/-! ## Classes of characters -/

theorem isLower_iff {c : Char} : c.isLower = true ↔ 97 ≤ c.toNat ∧ c.toNat ≤ 122 := by
  change (decide (c.val ≥ 'a'.val) && decide (c.val ≤ 'z'.val)) = true ↔ _
  rw [Bool.and_eq_true, decide_eq_true_iff, decide_eq_true_iff]
  exact Iff.rfl

theorem isUpper_iff {c : Char} : c.isUpper = true ↔ 65 ≤ c.toNat ∧ c.toNat ≤ 90 := by
  change (decide (c.val ≥ 'A'.val ∧ c.val ≤ 'Z'.val)) = true ↔ _
  rw [decide_eq_true_iff]
  exact Iff.rfl

theorem isDigit_iff {c : Char} : c.isDigit = true ↔ 48 ≤ c.toNat ∧ c.toNat ≤ 57 := by
  change (decide (c.val ≥ '0'.val) && decide (c.val ≤ '9'.val)) = true ↔ _
  rw [Bool.and_eq_true, decide_eq_true_iff, decide_eq_true_iff]
  exact Iff.rfl

theorem isAlphanum_iff {c : Char} :
    c.isAlphanum = true ↔ c.isUpper = true ∨ c.isLower = true ∨ c.isDigit = true := by
  change (c.isUpper || c.isLower || c.isDigit) = true ↔ _
  rw [Bool.or_eq_true, Bool.or_eq_true, or_assoc]

theorem toLower_of_isUpper_false {c : Char} (h : c.isUpper = false) : c.toLower = c := by
  have hbetween : ¬ (c.val ≥ 'A'.val ∧ c.val ≤ 'Z'.val) := of_decide_eq_false h
  unfold Char.toLower
  rw [dif_neg hbetween]

theorem toNat_toLower {c : Char} (h : c.isUpper = true) : c.toLower.toNat = c.toNat + 32 := by
  have hbetween : c.val ≥ 'A'.val ∧ c.val ≤ 'Z'.val := of_decide_eq_true h
  have hval : c.toLower.val = c.val + ('a'.val - 'A'.val) := by
    unfold Char.toLower
    rw [dif_pos hbetween]
  have hle := (isUpper_iff.1 h).2
  change c.toLower.val.toNat = _
  rw [hval, UInt32.toNat_add]
  change (c.toNat + 32) % 4294967296 = _
  omega

theorem isAlphanum_toLower {c : Char} (h : c.isAlphanum = true) : c.toLower.isAlphanum = true := by
  cases hupper : c.isUpper with
  | false =>
      rw [toLower_of_isUpper_false hupper]
      exact h
  | true =>
      have hrange := isUpper_iff.1 hupper
      refine isAlphanum_iff.2 (Or.inr (Or.inl (isLower_iff.2 ?_)))
      rw [toNat_toLower hupper]
      omega

theorem isUpper_eq_false {c : Char} (h : c.isLower = true ∨ c.isDigit = true) :
    c.isUpper = false := by
  rw [Bool.eq_false_iff]
  intro hupper
  have hrange := isUpper_iff.1 hupper
  rcases h with hlower | hdigit
  · have := isLower_iff.1 hlower
    omega
  · have := isDigit_iff.1 hdigit
    omega

/-! ## Characters -/

theorem mem_caseWords {mode : WordMode} {word cs w : List Char} {c : Char}
    (hw : w ∈ caseWords mode word cs) (hc : c ∈ w) : c ∈ word ∨ c ∈ cs := by
  induction mode, word, cs using caseWords.induct with
  | case1 mode word =>
      obtain rfl := List.mem_singleton.1 hw
      exact Or.inl hc
  | case2 mode word d =>
      obtain rfl := List.mem_singleton.1 hw
      exact List.mem_append.1 hc
  | case3 mode word d next cs nextMode hsplit ih =>
      rw [caseWords, if_pos hsplit] at hw
      rcases List.mem_cons.1 hw with rfl | hw
      · exact (List.mem_append.1 hc).imp_right fun h => List.mem_cons.2 (Or.inl (by simpa using h))
      · exact Or.inr (List.mem_cons_of_mem _ ((ih hw).resolve_left List.not_mem_nil))
  | case4 mode word d next cs nextMode hsplit hcapital ih =>
      rw [caseWords, if_neg hsplit, if_pos hcapital] at hw
      rcases List.mem_cons.1 hw with rfl | hw
      · exact Or.inl hc
      · rcases ih hw with h | h
        · exact Or.inr (List.mem_cons.2 (Or.inl (by simpa using h)))
        · exact Or.inr (List.mem_cons_of_mem _ h)
  | case5 mode word d next cs nextMode hsplit hcapital ih =>
      rw [caseWords, if_neg hsplit, if_neg hcapital] at hw
      rcases ih hw with h | h
      · exact (List.mem_append.1 h).imp_right fun h => List.mem_cons.2 (Or.inl (by simpa using h))
      · exact Or.inr (List.mem_cons_of_mem _ h)

theorem not_of_mem_splitOnP {p : Char → Bool} {cs piece : List Char} (h : piece ∈ cs.splitOnP p)
    {c : Char} (hc : c ∈ piece) : p c = false := by
  induction cs generalizing piece with
  | nil =>
      obtain rfl := List.mem_singleton.1 (by simpa using h)
      cases hc
  | cons d cs ih =>
      rw [List.splitOnP_cons_eq_if_modifyHead] at h
      split at h
      · rcases List.mem_cons.1 h with rfl | h
        · cases hc
        · exact ih h hc
      · -- Only the first piece of the rest has grown.
        rename_i hd
        cases hsplit : cs.splitOnP p with
        | nil => simp [hsplit] at h
        | cons first rest =>
            rw [hsplit] at h
            rcases List.mem_cons.1 (by simpa using h : piece ∈ (d :: first) :: rest) with rfl | h
            · rcases List.mem_cons.1 hc with rfl | hc
              · simpa using hd
              · exact ih (by simp [hsplit]) hc
            · exact ih (by simp [hsplit, h]) hc

theorem isAlphanum_of_mem_words {s : String} {w : List Char} (hw : w ∈ words s) {c : Char}
    (hc : c ∈ w) : c.isAlphanum = true := by
  obtain ⟨run, hrun, hw⟩ := List.mem_flatMap.1 (List.mem_filter.1 hw).1
  have hmem : c ∈ run := (mem_caseWords hw hc).resolve_left List.not_mem_nil
  simpa using not_of_mem_splitOnP hrun hmem

theorem mem_intercalate {ws : List (List Char)} {c d : Char} (h : c ∈ [d].intercalate ws) :
    (∃ w ∈ ws, c ∈ w) ∨ c = d := by
  induction ws with
  | nil => cases h
  | cons w ws ih =>
      cases ws with
      | nil => exact Or.inl ⟨w, List.mem_cons_self, by simpa [List.intercalate] using h⟩
      | cons w' ws =>
          rw [List.intercalate_cons_cons] at h
          rcases List.mem_append.1 h with h | h
          · rcases List.mem_append.1 h with h | h
            · exact Or.inl ⟨w, List.mem_cons_self, h⟩
            · exact Or.inr (List.mem_singleton.1 h)
          · refine (ih h).imp_left fun hw => ?_
            obtain ⟨w'', hw'', hc⟩ := hw
            exact ⟨w'', List.mem_cons_of_mem _ hw'', hc⟩

/-- A snake case consists of letters, digits and underscores. -/
theorem mem_toSnakeCase {s : String} {c : Char} (h : c ∈ (toSnakeCase s).toList) :
    c.isAlphanum = true ∨ c = '_' := by
  unfold toSnakeCase at h
  rw [String.toList_ofList] at h
  refine (mem_intercalate h).imp_left fun hword => ?_
  obtain ⟨w, hw, hc⟩ := hword
  obtain ⟨word, hword, rfl⟩ := List.mem_map.1 hw
  obtain ⟨d, hd, rfl⟩ := List.mem_map.1 hc
  exact isAlphanum_toLower (isAlphanum_of_mem_words hword hd)

/-- No letter of a snake case is a capital. -/
theorem isUpper_of_mem_toSnakeCase {s : String} {c : Char} (h : c ∈ (toSnakeCase s).toList) :
    c.isUpper = false := by
  unfold toSnakeCase at h
  rw [String.toList_ofList] at h
  rcases mem_intercalate h with hword | rfl
  · obtain ⟨w, hw, hc⟩ := hword
    obtain ⟨word, -, rfl⟩ := List.mem_map.1 hw
    obtain ⟨d, -, rfl⟩ := List.mem_map.1 hc
    cases hupper : d.isUpper with
    | false =>
        rw [toLower_of_isUpper_false hupper]
        exact hupper
    | true =>
        have hrange := isUpper_iff.1 hupper
        refine isUpper_eq_false (Or.inl (isLower_iff.2 ?_))
        rw [toNat_toLower hupper]
        omega
  · rfl

/-! ## Underscores stand alone -/

/-- Words joined by single underscores: no underscore is next to another one or at the end. -/
theorem separable_intercalate {ws : List (List Char)}
    (h : ∀ w ∈ ws, w ≠ [] ∧ '_' ∉ w) : Separable ['_', '_'] (['_'].intercalate ws) := by
  induction ws with
  | nil => exact separable_nil (List.cons_ne_nil _ _)
  | cons w ws ih =>
      obtain ⟨⟨hne, hw⟩, hws⟩ := List.forall_mem_cons.1 h
      cases ws with
      | nil => simpa [List.intercalate] using separable_of_notMem hw
      | cons w' ws =>
          have hrest := ih hws
          obtain ⟨⟨hne', hw'⟩, -⟩ := List.forall_mem_cons.1 hws
          obtain ⟨c, cs, rfl⟩ := List.exists_cons_of_ne_nil hne'
          have hc : ¬ '_' = c := fun heq => hw' (heq ▸ List.mem_cons_self)
          obtain ⟨tail, htail⟩ : ∃ tail, ['_'].intercalate ((c :: cs) :: ws) = c :: tail := by
            cases ws with
            | nil => exact ⟨cs, by simp [List.intercalate]⟩
            | cons w'' ws => exact ⟨_, by rw [List.intercalate_cons_cons]; rfl⟩
          have hcut : ['_'].intercalate (w :: (c :: cs) :: ws) =
              w ++ '_' :: ['_'].intercalate ((c :: cs) :: ws) := by
            rw [List.intercalate_cons_cons]
            simp
          rw [hcut]
          refine Separable.append_left ?_ hw
          rw [htail] at hrest ⊢
          intro hinside
          rcases List.infix_cons_iff.1 hinside with hhere | hlater
          · simp [hc] at hhere
          · exact hrest hlater

theorem separable_toSnakeCase (s : String) :
    Separable ['_', '_'] (toSnakeCase s).toList := by
  unfold toSnakeCase
  rw [String.toList_ofList]
  refine separable_intercalate fun w hw => ?_
  obtain ⟨word, hword, rfl⟩ := List.mem_map.1 hw
  have hne : word ≠ [] := by simpa using (List.mem_filter.1 hword).2
  refine ⟨fun heq => hne (List.map_eq_nil_iff.1 heq), fun hmem => ?_⟩
  obtain ⟨d, hd, heq⟩ := List.mem_map.1 hmem
  have halnum := isAlphanum_toLower (isAlphanum_of_mem_words hword hd)
  rw [heq] at halnum
  exact absurd halnum (by decide)

/-! ## Words of small letters -/

theorem caseWords_of_small (mode : WordMode) (word : List Char) {cs : List Char}
    (h : ∀ c ∈ cs, c.isUpper = false) : caseWords mode word cs = [word ++ cs] := by
  induction mode, word, cs using caseWords.induct with
  | case1 mode word => simp [caseWords]
  | case2 mode word d => rfl
  | case3 mode word d next cs nextMode hsplit ih =>
      have hnext := h next (by simp)
      rw [hnext] at hsplit
      exact absurd hsplit.2 (by decide)
  | case4 mode word d next cs nextMode hsplit hcapital ih =>
      have hd := h d List.mem_cons_self
      rw [hd] at hcapital
      exact absurd hcapital.2.1 (by decide)
  | case5 mode word d next cs nextMode hsplit hcapital ih =>
      rw [caseWords, if_neg hsplit, if_neg hcapital,
        ih fun c hc => h c (List.mem_cons_of_mem _ hc), List.append_assoc]
      rfl

/-- A name of small letters and digits is its own snake case. -/
theorem toSnakeCase_of_small {s : String} (hne : s ≠ "")
    (h : ∀ c ∈ s.toList, c.isLower = true ∨ c.isDigit = true) : toSnakeCase s = s := by
  have halnum : ∀ c ∈ s.toList, (!c.isAlphanum) = false := by
    intro c hc
    rw [isAlphanum_iff.2 (Or.inr (h c hc))]
    rfl
  have hupper : ∀ c ∈ s.toList, c.isUpper = false := fun c hc => isUpper_eq_false (h c hc)
  have hrun : (s.toList.splitOnP fun c => !c.isAlphanum) = [s.toList] :=
    List.splitOnP_eq_singleton halnum
  have hwords : words s = [s.toList] := by
    have hne' : s.toList ≠ [] := fun heq => hne (String.toList_eq_nil_iff.1 heq)
    have hcase := caseWords_of_small .boundary [] hupper
    simp [words, hrun, hcase, hne']
  have hlower : lower s.toList = s.toList := by
    calc
      lower s.toList = s.toList.map id :=
        List.map_congr_left fun c hc => toLower_of_isUpper_false (hupper c hc)
      _ = s.toList := List.map_id _
  rw [toSnakeCase, hwords, List.map_singleton, hlower]
  simp [List.intercalate]

end Words
end InfraWeave
