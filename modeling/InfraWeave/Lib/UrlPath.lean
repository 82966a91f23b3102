import InfraWeave.Lib.FormUrlencoded
import Mathlib.Data.List.DropRight

/-!
# Paths of URLs

How the path of an address is read: blanks at its end are left out, so are tabs and line breaks, it
ends at a question mark or a number sign, a backslash separates segments as a slash does, and
segments of dots are resolved.  The reader of a segment decodes the escapes in it.  A text arrives
as the segments that it was joined of exactly when it needs none of this.
-/

namespace InfraWeave
namespace UrlPath

/-! ## Reading -/

/-- A blank or control character; at the end of an address it is left out. -/
def isTrimmed (c : Char) : Bool :=
  c.toNat ≤ 32

def isDropped (c : Char) : Bool :=
  c == '\t' || c == '\n' || c == '\r'

def endsPath (c : Char) : Bool :=
  c == '#' || c == '?'

def isSeparator (c : Char) : Bool :=
  c == '/' || c == '\\'

/-- The characters of the path. -/
def read (cs : List Char) : List Char :=
  ((cs.rdropWhile isTrimmed).filter (!isDropped ·)).takeWhile (!endsPath ·)

/-- The segment with the escapes of a dot replaced. -/
def undot : List Char → List Char
  | '%' :: '2' :: 'e' :: cs => '.' :: undot cs
  | '%' :: '2' :: 'E' :: cs => '.' :: undot cs
  | c :: cs => c :: undot cs
  | [] => []

def isSingleDot (segment : List Char) : Bool :=
  undot segment == ['.']

def isDoubleDot (segment : List Char) : Bool :=
  undot segment == ['.', '.']

/-- Segments of dots are resolved; `kept` are the segments so far, the last one first. -/
def resolve : List (List Char) → List (List Char) → List (List Char)
  | kept, [] => kept.reverse
  | kept, [segment] =>
      if isDoubleDot segment then (kept.drop 1).reverse ++ [[]]
      else if isSingleDot segment then kept.reverse ++ [[]]
      else kept.reverse ++ [segment]
  | kept, segment :: next :: segments =>
      if isDoubleDot segment then resolve (kept.drop 1) (next :: segments)
      else if isSingleDot segment then resolve kept (next :: segments)
      else resolve (segment :: kept) (next :: segments)

/-- The segments of a path. -/
def parse (cs : List Char) : List (List Char) :=
  resolve [] ((read cs).splitOnP isSeparator)

def text (segments : List (List Char)) : List Char :=
  ['/'].intercalate segments

/-! ## Texts that stand for themselves -/

def IsPlainChar (c : Char) : Prop :=
  isDropped c = false ∧ endsPath c = false ∧ c ≠ '\\'

instance (c : Char) : Decidable (IsPlainChar c) :=
  inferInstanceAs (Decidable (_ ∧ _ ∧ _))

/-- The text does not end in what is left out. -/
def EndsPlainly (cs : List Char) : Prop :=
  ∀ c, cs.getLast? = some c → isTrimmed c = false

instance (cs : List Char) : Decidable (EndsPlainly cs) :=
  decidable_of_iff (cs.getLast?.all (!isTrimmed ·) = true)
    (by simp [EndsPlainly, Option.all_eq_true])

/-- The segment is not one of dots. -/
def IsDotless (segment : List Char) : Prop :=
  isSingleDot segment = false ∧ isDoubleDot segment = false

structure Plain (cs : List Char) : Prop where
  chars : ∀ c ∈ cs, IsPlainChar c
  ends : EndsPlainly cs
  segments : ∀ segment ∈ cs.splitOn '/', IsDotless segment

/-! ## Lengths -/

/-- The length of the segments, each with a separator. -/
def size : List (List Char) → Nat
  | [] => 0
  | segment :: segments => segment.length + 1 + size segments

@[simp] theorem size_append (xs ys : List (List Char)) : size (xs ++ ys) = size xs + size ys := by
  induction xs with
  | nil => simp [size]
  | cons x xs ih =>
      simp only [List.cons_append, size, ih]
      omega

@[simp] theorem size_reverse (xs : List (List Char)) : size xs.reverse = size xs := by
  induction xs with
  | nil => rfl
  | cons x xs ih =>
      simp only [List.reverse_cons, size_append, size, ih]
      omega

theorem length_text {segments : List (List Char)} (h : segments ≠ []) :
    (text segments).length + 1 = size segments := by
  unfold text
  induction segments with
  | nil => exact absurd rfl h
  | cons segment segments ih =>
      cases segments with
      | nil => simp [size]
      | cons next segments =>
          have hrest := ih (List.cons_ne_nil _ _)
          rw [List.intercalate_cons_cons, List.length_append, List.length_append, size]
          simp only [List.length_singleton]
          omega

theorem size_splitOnP (p : Char → Bool) (cs : List Char) :
    size (cs.splitOnP p) = cs.length + 1 := by
  induction cs with
  | nil => rfl
  | cons c cs ih =>
      rw [List.splitOnP_cons_eq_if_modifyHead]
      split
      · simp only [size, ih, List.length_nil, List.length_cons]
        omega
      · cases hsplit : cs.splitOnP p with
        | nil => exact absurd hsplit (List.splitOnP_ne_nil _ _)
        | cons segment segments =>
            rw [hsplit] at ih
            simp only [size, List.modifyHead_cons, List.length_cons] at ih ⊢
            omega

theorem size_drop_le (xs : List (List Char)) : size (xs.drop 1) ≤ size xs := by
  cases xs with
  | nil => exact Nat.le_refl _
  | cons x xs =>
      simp only [List.drop_one, List.tail_cons, size]
      omega

theorem ne_nil_of_dots {segment : List Char}
    (h : isSingleDot segment = true ∨ isDoubleDot segment = true) : segment ≠ [] := by
  intro hnil
  rw [hnil] at h
  exact absurd h (by decide)

/-- Segments of dots make a path shorter; without any, nothing is resolved. -/
theorem size_resolve (kept segments : List (List Char)) :
    size (resolve kept segments) ≤ size kept + size segments ∧
      (size (resolve kept segments) = size kept + size segments →
        ∀ segment ∈ segments, IsDotless segment) := by
  induction kept, segments using resolve.induct with
  | case1 kept => simp [resolve, size]
  | case2 kept segment hdouble =>
      have hpos := List.length_pos_iff.2 (ne_nil_of_dots (Or.inr hdouble))
      have hdrop := size_drop_le kept
      rw [resolve, if_pos hdouble, size_append, size_reverse]
      simp only [size, List.length_nil]
      refine ⟨by omega, fun h => ?_⟩
      omega
  | case3 kept segment hdouble hsingle =>
      have hpos := List.length_pos_iff.2 (ne_nil_of_dots (Or.inl hsingle))
      rw [resolve, if_neg hdouble, if_pos hsingle, size_append, size_reverse]
      simp only [size, List.length_nil]
      refine ⟨by omega, fun h => ?_⟩
      omega
  | case4 kept segment hdouble hsingle =>
      rw [resolve, if_neg hdouble, if_neg hsingle, size_append, size_reverse]
      refine ⟨Nat.le_refl _, fun _ s hs => ?_⟩
      obtain rfl := List.mem_singleton.1 hs
      exact ⟨by simpa using hsingle, by simpa using hdouble⟩
  | case5 kept segment next segments hdouble ih =>
      have hdrop := size_drop_le kept
      rw [resolve, if_pos hdouble]
      simp only [size] at ih ⊢
      refine ⟨by omega, fun h => ?_⟩
      omega
  | case6 kept segment next segments hdouble hsingle ih =>
      rw [resolve, if_neg hdouble, if_pos hsingle]
      simp only [size] at ih ⊢
      refine ⟨by omega, fun h => ?_⟩
      omega
  | case7 kept segment next segments hdouble hsingle ih =>
      rw [resolve, if_neg hdouble, if_neg hsingle]
      simp only [size] at ih ⊢
      refine ⟨by omega, fun h s hs => ?_⟩
      rcases List.mem_cons.1 hs with rfl | hs
      · exact ⟨by simpa using hsingle, by simpa using hdouble⟩
      · exact ih.2 (by omega) s hs

theorem resolve_of_dotless {kept segments : List (List Char)}
    (h : ∀ segment ∈ segments, IsDotless segment) :
    resolve kept segments = kept.reverse ++ segments := by
  induction kept, segments using resolve.induct with
  | case1 kept => simp [resolve]
  | case4 kept segment hdouble hsingle => rw [resolve, if_neg hdouble, if_neg hsingle]
  | case7 kept segment next segments hdouble hsingle ih =>
      rw [resolve, if_neg hdouble, if_neg hsingle, ih fun s hs => h s (List.mem_cons_of_mem _ hs)]
      simp
  | case2 kept segment hdouble =>
      have hdotless := h segment List.mem_cons_self
      rw [hdotless.2] at hdouble
      cases hdouble
  | case3 kept segment _ hsingle =>
      have hdotless := h segment List.mem_cons_self
      rw [hdotless.1] at hsingle
      cases hsingle
  | case5 kept segment next segments hdouble ih =>
      have hdotless := h segment List.mem_cons_self
      rw [hdotless.2] at hdouble
      cases hdouble
  | case6 kept segment next segments _ hsingle ih =>
      have hdotless := h segment List.mem_cons_self
      rw [hdotless.1] at hsingle
      cases hsingle

/-! ## Characters -/

theorem read_sublist (cs : List Char) : (read cs).Sublist cs :=
  (List.takeWhile_sublist _).trans
    (List.filter_sublist.trans (List.rdropWhile_prefix _ _).sublist)

/-- What is read is the whole text if and only if nothing of it is left out. -/
theorem read_eq_self_iff (cs : List Char) : read cs = cs ↔
    (∀ c ∈ cs, isDropped c = false ∧ endsPath c = false) ∧ EndsPlainly cs := by
  have hends : cs.rdropWhile isTrimmed = cs ↔ EndsPlainly cs := by
    rw [List.rdropWhile_eq_self_iff]
    constructor
    · intro h c hc
      rcases List.getLast?_eq_some_iff.1 hc with ⟨front, rfl⟩
      simpa using h (by simp)
    · intro h hne
      simpa using h (cs.getLast hne) (List.getLast?_eq_some_getLast hne)
  constructor
  · intro h
    -- Each stage gives a part of the one before, and the last gives everything.
    have htrim : cs.rdropWhile isTrimmed = cs := by
      refine (List.rdropWhile_prefix isTrimmed cs).sublist.eq_of_length_le ?_
      calc
        cs.length = (read cs).length := by rw [h]
        _ ≤ (cs.rdropWhile isTrimmed).length :=
            ((List.takeWhile_sublist _).trans List.filter_sublist).length_le
    unfold read at h
    rw [htrim] at h
    have hfilter : cs.filter (!isDropped ·) = cs := by
      refine List.filter_sublist.eq_of_length_le ?_
      calc
        cs.length = ((cs.filter (!isDropped ·)).takeWhile (!endsPath ·)).length := by rw [h]
        _ ≤ (cs.filter (!isDropped ·)).length := (List.takeWhile_sublist _).length_le
    rw [hfilter, List.takeWhile_eq_self_iff] at h
    refine ⟨fun c hc => ⟨?_, by simpa using h c hc⟩, hends.1 htrim⟩
    simpa using List.filter_eq_self.1 hfilter c hc
  · intro h
    have hfilter : cs.filter (!isDropped ·) = cs :=
      List.filter_eq_self.2 fun c hc => by simp [(h.1 c hc).1]
    unfold read
    rw [hends.2 h.2, hfilter, List.takeWhile_eq_self_iff]
    exact fun c hc => by simp [(h.1 c hc).2]

/-- Backslashes become slashes. -/
theorem text_splitOnP (cs : List Char) :
    text (cs.splitOnP isSeparator) = cs.map fun c => if isSeparator c then '/' else c := by
  unfold text
  induction cs with
  | nil => rfl
  | cons c cs ih =>
      rw [List.splitOnP_cons_eq_if_modifyHead]
      cases hsplit : cs.splitOnP isSeparator with
      | nil => exact absurd hsplit (List.splitOnP_ne_nil _ _)
      | cons segment segments =>
          rw [hsplit] at ih
          split
          · rename_i hc
            rw [List.intercalate_cons_cons, ih]
            simp [hc]
          · rename_i hc
            rw [List.modifyHead_cons]
            cases segments with
            | nil => simpa [hc, List.intercalate] using ih
            | cons next segments =>
                rw [List.intercalate_cons_cons] at ih ⊢
                simp [hc, ← ih]

theorem splitOnP_isSeparator {cs : List Char} (h : '\\' ∉ cs) :
    cs.splitOnP isSeparator = cs.splitOn '/' := by
  rw [List.splitOn_eq_splitOnP]
  induction cs with
  | nil => rfl
  | cons c cs ih =>
      have hc : isSeparator c = (c == '/') := by
        have hne : c ≠ '\\' := fun hc => h (hc ▸ List.mem_cons_self)
        simp [isSeparator, hne]
      rw [List.splitOnP_cons_eq_if_modifyHead, List.splitOnP_cons_eq_if_modifyHead, hc,
        ih fun hmem => h (List.mem_cons_of_mem _ hmem)]

/-! ## Parsing -/

/-- A path is not longer than its text, and as long only if nothing is left out. -/
theorem size_parse (cs : List Char) :
    size (parse cs) ≤ cs.length + 1 ∧
      (size (parse cs) = cs.length + 1 →
        read cs = cs ∧ ∀ segment ∈ cs.splitOnP isSeparator, IsDotless segment) := by
  have hread := (read_sublist cs).length_le
  have hsplit := size_splitOnP isSeparator (read cs)
  have hresolve := size_resolve [] ((read cs).splitOnP isSeparator)
  unfold parse
  simp only [size, Nat.zero_add] at hresolve
  refine ⟨by omega, fun h => ?_⟩
  have hself : read cs = cs := (read_sublist cs).eq_of_length_le (by omega)
  refine ⟨hself, ?_⟩
  rw [hself] at hresolve hsplit h
  exact hresolve.2 (by omega)

theorem parse_of_plain {cs : List Char} (h : Plain cs) : parse cs = cs.splitOn '/' := by
  have hread : read cs = cs :=
    (read_eq_self_iff cs).2 ⟨fun c hc => ⟨(h.chars c hc).1, (h.chars c hc).2.1⟩, h.ends⟩
  have hslash : '\\' ∉ cs := fun hmem => (h.chars _ hmem).2.2 rfl
  unfold parse
  rw [hread, splitOnP_isSeparator hslash, resolve_of_dotless h.segments]
  rfl

/-- A text that arrives as it was, and as long as it was, is plain. -/
theorem plain_of_parse {cs : List Char} (hsize : size (parse cs) = cs.length + 1)
    (htext : text (parse cs) = cs) : Plain cs := by
  rcases (size_parse cs).2 hsize with ⟨hread, hdotless⟩
  have hparse : parse cs = cs.splitOnP isSeparator := by
    unfold parse
    rw [hread, resolve_of_dotless hdotless]
    rfl
  rw [hparse, text_splitOnP] at htext
  have hslash : '\\' ∉ cs := by
    intro hmem
    have himage : (if isSeparator '\\' then '/' else '\\') = '\\' :=
      List.map_inj_left.1 (htext.trans (List.map_id cs).symm) _ hmem
    exact absurd himage (by decide)
  rcases (read_eq_self_iff cs).1 hread with ⟨hchars, hends⟩
  refine ⟨fun c hc => ⟨(hchars c hc).1, (hchars c hc).2, fun heq => hslash (heq ▸ hc)⟩, hends, ?_⟩
  rwa [splitOnP_isSeparator hslash] at hdotless

/-! ## Joined segments -/

theorem text_cons_cons (segment next : List Char) (segments : List (List Char)) :
    text (segment :: next :: segments) = segment ++ '/' :: text (next :: segments) := by
  unfold text
  rw [List.intercalate_cons_cons]
  simp

theorem text_cons {segments : List (List Char)} (h : segments ≠ []) (segment : List Char) :
    text (segment :: segments) = segment ++ '/' :: text segments := by
  cases segments with
  | nil => exact absurd rfl h
  | cons next segments => exact text_cons_cons segment next segments

theorem text_append {segments rest : List (List Char)} (h : segments ≠ []) (hrest : rest ≠ []) :
    text (segments ++ rest) = text segments ++ '/' :: text rest := by
  induction segments with
  | nil => exact absurd rfl h
  | cons segment segments ih =>
      cases segments with
      | nil =>
          rw [List.singleton_append, text_cons hrest]
          simp [text, List.intercalate]
      | cons next segments =>
          have hne : next :: segments ++ rest ≠ [] := List.cons_ne_nil _ _
          rw [List.cons_append, text_cons hne, ih (List.cons_ne_nil _ _), text_cons_cons,
            List.append_assoc, List.cons_append]

theorem forall_mem_text {P : Char → Prop} (hslash : P '/') {segments : List (List Char)} :
    (∀ c ∈ text segments, P c) ↔ ∀ segment ∈ segments, ∀ c ∈ segment, P c := by
  induction segments with
  | nil => simp [text]
  | cons segment segments ih =>
      cases segments with
      | nil => simp [text, List.intercalate]
      | cons next segments =>
          rw [text_cons_cons, List.forall_mem_append, List.forall_mem_cons, ih]
          constructor
          · exact fun h => List.forall_mem_cons.2 ⟨h.1, h.2.2⟩
          · intro h
            have hparts := List.forall_mem_cons.1 h
            exact ⟨hparts.1, hslash, hparts.2⟩

theorem endsPlainly_append_slash (front segment : List Char) :
    EndsPlainly (front ++ '/' :: segment) ↔ EndsPlainly segment := by
  unfold EndsPlainly
  cases hlast : segment.getLast? with
  | none =>
      rw [List.getLast?_eq_none_iff] at hlast
      simp [hlast, isTrimmed]
  | some c => simp [List.getLast?_append, List.getLast?_cons, hlast]

theorem endsPlainly_text {segments : List (List Char)} (h : segments ≠ []) :
    EndsPlainly (text segments) ↔ EndsPlainly (segments.getLast h) := by
  induction segments with
  | nil => exact absurd rfl h
  | cons segment segments ih =>
      cases segments with
      | nil => simp [text, List.intercalate]
      | cons next segments =>
          rw [text_cons_cons, endsPlainly_append_slash, ih (List.cons_ne_nil _ _),
            List.getLast_cons (List.cons_ne_nil _ _)]

theorem splitOn_text {segments : List (List Char)} (h : segments ≠ [])
    (hslash : ∀ segment ∈ segments, '/' ∉ segment) : (text segments).splitOn '/' = segments :=
  List.splitOn_intercalate '/' hslash h

theorem splitOn_text_eq_flatMap {segments : List (List Char)} (h : segments ≠ []) :
    (text segments).splitOn '/' = segments.flatMap (·.splitOn '/') := by
  induction segments with
  | nil => exact absurd rfl h
  | cons segment segments ih =>
      cases segments with
      | nil => simp [text, List.intercalate]
      | cons next segments =>
          rw [text_cons_cons, List.splitOn_append_cons_self, ih (List.cons_ne_nil _ _),
            ← List.flatMap_cons]

/-- Segments are at least as many when they are split, and as many only if none is. -/
theorem flatMap_splitOn (segments : List (List Char)) :
    segments.length ≤ (segments.flatMap (·.splitOn '/')).length ∧
      ((segments.flatMap (·.splitOn '/')).length = segments.length →
        segments.flatMap (·.splitOn '/') = segments) := by
  induction segments with
  | nil => exact ⟨Nat.le_refl _, fun _ => rfl⟩
  | cons segment segments ih =>
      have hlength := Text.length_splitOn '/' segment
      rw [List.flatMap_cons, List.length_append, List.length_cons]
      refine ⟨by omega, fun h => ?_⟩
      have hslash : '/' ∉ segment := List.count_eq_zero.1 (by omega)
      rw [List.splitOn_eq_singleton hslash, ih.2 (by omega), List.singleton_append]

/-! ## Decoding -/

open FormUrlencoded (hasEscape)

/-- How the escapes in a segment are decoded.  A segment without escapes arrives as it is; every
escape is shorter when it has been decoded. -/
structure Decoder where
  decode : List Char → Option (List Char)
  decode_plain : ∀ cs, hasEscape cs = false → decode cs = some cs
  length_decode : ∀ cs ds, hasEscape cs = true → decode cs = some ds → ds.length < cs.length

namespace Decoder

variable (d : Decoder)

theorem length_le {cs ds : List Char} (h : d.decode cs = some ds) :
    ds.length ≤ cs.length ∧ (ds.length = cs.length → hasEscape cs = false ∧ ds = cs) := by
  cases hescape : hasEscape cs with
  | true =>
      have hlt := d.length_decode cs ds hescape h
      exact ⟨by omega, fun heq => by omega⟩
  | false =>
      have hself := (d.decode_plain cs hescape).symm.trans h
      obtain rfl := Option.some.inj hself
      exact ⟨Nat.le_refl _, fun _ => ⟨rfl, rfl⟩⟩

theorem size_le {segments decoded : List (List Char)} (h : segments.mapM d.decode = some decoded) :
    size decoded ≤ size segments ∧ (size decoded = size segments →
      decoded = segments ∧ ∀ segment ∈ segments, hasEscape segment = false) := by
  induction segments generalizing decoded with
  | nil =>
      obtain rfl : [] = decoded := Option.some.inj h
      exact ⟨Nat.le_refl _, fun _ => ⟨rfl, by simp⟩⟩
  | cons segment segments ih =>
      rw [List.mapM_cons] at h
      rcases Option.bind_eq_some_iff.1 h with ⟨ds, hds, hrest⟩
      rcases Option.bind_eq_some_iff.1 hrest with ⟨rest, hmap, heq⟩
      obtain rfl : ds :: rest = decoded := Option.some.inj heq
      have hlength := d.length_le hds
      have hsize := ih hmap
      simp only [size]
      refine ⟨by omega, fun h => ?_⟩
      rcases hlength.2 (by omega) with ⟨hescape, rfl⟩
      rcases hsize.2 (by omega) with ⟨rfl, hescapes⟩
      exact ⟨rfl, List.forall_mem_cons.2 ⟨hescape, hescapes⟩⟩

theorem ne_nil_of_mapM {segments decoded : List (List Char)}
    (h : segments.mapM d.decode = some decoded) (hne : segments ≠ []) : decoded ≠ [] := by
  rintro rfl
  cases segments with
  | nil => exact hne rfl
  | cons segment segments =>
      rw [List.mapM_cons] at h
      rcases Option.bind_eq_some_iff.1 h with ⟨ds, -, hrest⟩
      rcases Option.bind_eq_some_iff.1 hrest with ⟨rest, -, heq⟩
      cases heq

theorem mapM_of_plain {segments : List (List Char)}
    (h : ∀ segment ∈ segments, hasEscape segment = false) :
    segments.mapM d.decode = some segments := by
  induction segments with
  | nil => rfl
  | cons segment segments ih =>
      have hparts := List.forall_mem_cons.1 h
      rw [List.mapM_cons, d.decode_plain segment hparts.1, ih hparts.2]
      rfl

/-- Only segments without escapes are decoded. -/
def literal : Decoder where
  decode cs := if hasEscape cs then none else some cs
  decode_plain cs h := by simp [h]
  length_decode cs ds h hdecode := by simp [h] at hdecode

end Decoder

/-- A segment that stands for itself. -/
structure IsSegment (cs : List Char) : Prop where
  slash : '/' ∉ cs
  chars : ∀ c ∈ cs, IsPlainChar c
  dotless : IsDotless cs
  escape : hasEscape cs = false

def isSegment (cs : List Char) : Bool :=
  cs.all (fun c => c != '/' && !isDropped c && !endsPath c && c != '\\') && !isSingleDot cs &&
    !isDoubleDot cs && !hasEscape cs

theorem isSegment_iff {cs : List Char} : isSegment cs = true ↔ IsSegment cs := by
  simp only [isSegment, Bool.and_eq_true, List.all_eq_true, bne_iff_ne, Bool.not_eq_true']
  constructor
  · rintro ⟨⟨⟨hchars, hsingle⟩, hdouble⟩, hescape⟩
    exact
      { slash := fun hmem => (hchars _ hmem).1.1.1 rfl
        chars := fun c hc => ⟨(hchars c hc).1.1.2, (hchars c hc).1.2, (hchars c hc).2⟩
        dotless := ⟨hsingle, hdouble⟩
        escape := hescape }
  · intro h
    refine ⟨⟨⟨fun c hc => ?_, h.dotless.1⟩, h.dotless.2⟩, h.escape⟩
    have hplain := h.chars c hc
    exact ⟨⟨⟨fun heq => h.slash (heq ▸ hc), hplain.1⟩, hplain.2.1⟩, hplain.2.2⟩

instance (cs : List Char) : Decidable (IsSegment cs) :=
  decidable_of_iff _ isSegment_iff

end UrlPath
end InfraWeave
