import Mathlib.Data.List.Induction
import Mathlib.Data.List.Nodup

/-!
# Maps and sets in the order of insertion

A map that iterates in the order in which its keys came first is kept as the list of its entries;
`upsert` changes the entry of a key at its place, or appends one.  `firsts` keeps of all elements
with one key the first.
-/

namespace InfraWeave
namespace InsertionOrder

universe u v

/-! ## Entries -/

section

variable {κ : Type u} {ν : Type v} [DecidableEq κ]

/-- `entry(key).and_modify(f).or_insert(new)`. -/
def upsert (key : κ) (new : ν) (f : ν → ν) : List (κ × ν) → List (κ × ν)
  | [] => [(key, new)]
  | entry :: m =>
      if entry.1 = key then (entry.1, f entry.2) :: m else entry :: upsert key new f m

theorem lookup_upsert (key key' : κ) (new : ν) (f : ν → ν) (m : List (κ × ν)) :
    (upsert key new f m).lookup key' =
      if key' = key then some (((m.lookup key).map f).getD new) else m.lookup key' := by
  induction m with
  | nil =>
      by_cases h : key' = key
      · simp [upsert, h]
      · have hne : (key' == key) = false := beq_eq_false_iff_ne.2 h
        simp [upsert, List.lookup_cons, h, hne]
  | cons entry m ih =>
      obtain ⟨l, v⟩ := entry
      by_cases hl : l = key
      · subst hl
        by_cases h : key' = l
        · simp [upsert, h]
        · have hne : (key' == l) = false := beq_eq_false_iff_ne.2 h
          simp [upsert, List.lookup_cons, h, hne]
      · have hkey : (key == l) = false := beq_eq_false_iff_ne.2 fun heq => hl heq.symm
        simp only [upsert, hl, if_false]
        by_cases h : key' = l
        · subst h
          simp [hl]
        · have hne : (key' == l) = false := beq_eq_false_iff_ne.2 h
          rw [List.lookup_cons, hne, ih]
          simp [List.lookup_cons, hkey, hne]

theorem mem_keys_upsert {key key' : κ} {new : ν} {f : ν → ν} {m : List (κ × ν)} :
    key' ∈ (upsert key new f m).map Prod.fst ↔ key' = key ∨ key' ∈ m.map Prod.fst := by
  induction m with
  | nil => simp [upsert]
  | cons entry m ih =>
      by_cases h : entry.1 = key
      · simp [upsert, h]
      · simp only [upsert, h, if_false, List.map_cons, List.mem_cons, ih]
        exact or_left_comm

theorem nodup_keys_upsert {key : κ} {new : ν} {f : ν → ν} {m : List (κ × ν)}
    (h : (m.map Prod.fst).Nodup) : ((upsert key new f m).map Prod.fst).Nodup := by
  induction m with
  | nil => exact List.nodup_singleton key
  | cons entry m ih =>
      obtain ⟨hentry, hrest⟩ := List.nodup_cons.1 h
      by_cases hkey : entry.1 = key
      · simpa [upsert, hkey] using h
      · simp only [upsert, hkey, if_false, List.map_cons]
        refine List.nodup_cons.2 ⟨fun hmem => ?_, ih hrest⟩
        rcases mem_keys_upsert.1 hmem with heq | hmem
        · exact hkey heq
        · exact hentry hmem

theorem mem_keys_foldl_upsert (f : ν → ν → ν) (entries : List (κ × ν)) (key : κ) :
    key ∈ (entries.foldl (fun m entry => upsert entry.1 entry.2 (f · entry.2) m) []).map Prod.fst ↔
      key ∈ entries.map Prod.fst := by
  induction entries using List.reverseRecOn with
  | nil => rfl
  | append_singleton entries entry ih =>
      rw [List.foldl_append, List.map_append, List.mem_append]
      change key ∈ (upsert entry.1 entry.2 _ _).map Prod.fst ↔ _
      rw [mem_keys_upsert, ih, or_comm, List.map_singleton, List.mem_singleton]

/-- What an entry is after a change. -/
theorem of_mem_upsert {key : κ} {new : ν} {f : ν → ν} {m : List (κ × ν)} {entry : κ × ν}
    (hkeys : (m.map Prod.fst).Nodup) (h : entry ∈ upsert key new f m) :
    entry ∈ m ∧ entry.1 ≠ key ∨
      entry.1 = key ∧ ((∃ v, (key, v) ∈ m ∧ entry.2 = f v) ∨
        key ∉ m.map Prod.fst ∧ entry.2 = new) := by
  induction m with
  | nil =>
      rw [upsert, List.mem_singleton] at h
      exact Or.inr ⟨congrArg Prod.fst h, Or.inr ⟨by simp, congrArg Prod.snd h⟩⟩
  | cons first m ih =>
      rcases List.nodup_cons.1 hkeys with ⟨hfirst, hrest⟩
      by_cases hkey : first.1 = key
      · rw [upsert, if_pos hkey] at h
        rcases List.mem_cons.1 h with rfl | h
        · exact Or.inr ⟨hkey, Or.inl ⟨first.2, by simp [← hkey], rfl⟩⟩
        · refine Or.inl ⟨List.mem_cons_of_mem _ h, fun heq => hfirst ?_⟩
          rw [hkey, ← heq]
          exact List.mem_map_of_mem h
      · rw [upsert, if_neg hkey] at h
        rcases List.mem_cons.1 h with rfl | h
        · exact Or.inl ⟨List.mem_cons_self, hkey⟩
        · rcases ih hrest h with ⟨hmem, hne⟩ | ⟨heq, ⟨v, hv, hvalue⟩ | ⟨hnew, hvalue⟩⟩
          · exact Or.inl ⟨List.mem_cons_of_mem _ hmem, hne⟩
          · exact Or.inr ⟨heq, Or.inl ⟨v, List.mem_cons_of_mem _ hv, hvalue⟩⟩
          · refine Or.inr ⟨heq, Or.inr ⟨fun hmem => ?_, hvalue⟩⟩
            rcases List.mem_cons.1 hmem with hmem | hmem
            · exact hkey hmem.symm
            · exact hnew hmem

/-- The elements that are collected under a key are those that have been given for it. -/
theorem mem_value_foldl_upsert {α : Type v} {entries : List (κ × List α)} {entry : κ × List α}
    (h : entry ∈ entries.foldl (fun m e => upsert e.1 e.2 (· ++ e.2) m) []) (a : α) :
    a ∈ entry.2 ↔ ∃ e ∈ entries, e.1 = entry.1 ∧ a ∈ e.2 := by
  have hkeys : ∀ entries : List (κ × List α),
      ((entries.foldl (fun m e => upsert e.1 e.2 (· ++ e.2) m) []).map Prod.fst).Nodup := by
    intro entries
    induction entries using List.reverseRecOn with
    | nil => exact List.nodup_nil
    | append_singleton entries e ih =>
        rw [List.foldl_append]
        exact nodup_keys_upsert ih
  induction entries using List.reverseRecOn generalizing entry with
  | nil => cases h
  | append_singleton entries e ih =>
      rw [List.foldl_append] at h
      simp only [List.mem_append, List.mem_singleton, or_and_right, exists_or, exists_eq_left]
      rcases of_mem_upsert (hkeys entries) h with ⟨hmem, hne⟩ | ⟨heq, ⟨v, hv, hvalue⟩ | ⟨hnew, hvalue⟩⟩
      · have hother : ¬ e.1 = entry.1 := fun heq => hne heq.symm
        simp [ih hmem, hother]
      · simp [hvalue, ih hv, heq]
      · have hnone : ¬ ∃ e' ∈ entries, e'.1 = entry.1 ∧ a ∈ e'.2 := by
          rintro ⟨e', he', hkey, -⟩
          refine hnew ((mem_keys_foldl_upsert (· ++ ·) entries e.1).2 ?_)
          rw [← heq, ← hkey]
          exact List.mem_map_of_mem he'
        rw [or_iff_right hnone, hvalue, heq]
        exact (and_iff_right rfl).symm

/-! ## Changes that may fail -/

/-- `entry(key).and_modify(f).or_insert(new)`, where `f` may fail. -/
def tryUpsert (key : κ) (new : ν) (f : ν → Option ν) : List (κ × ν) → Option (List (κ × ν))
  | [] => some [(key, new)]
  | entry :: m =>
      if entry.1 = key then (f entry.2).map fun v => (entry.1, v) :: m
      else (tryUpsert key new f m).map (entry :: ·)

theorem keys_tryUpsert {key : κ} {new : ν} {f : ν → Option ν} {m m' : List (κ × ν)}
    (h : tryUpsert key new f m = some m') :
    m'.map Prod.fst = (upsert key new id m).map Prod.fst := by
  induction m generalizing m' with
  | nil =>
      obtain rfl := Option.some.inj h
      rfl
  | cons entry m ih =>
      unfold tryUpsert at h
      unfold upsert
      split at h
      · rename_i hkey
        obtain ⟨v, -, rfl⟩ := Option.map_eq_some_iff.1 h
        simp [hkey]
      · rename_i hkey
        obtain ⟨rest, hrest, rfl⟩ := Option.map_eq_some_iff.1 h
        simp [hkey, ih hrest]

theorem lookup_tryUpsert {key : κ} {new : ν} {f : ν → Option ν} {m m' : List (κ × ν)}
    (h : tryUpsert key new f m = some m') (key' : κ) :
    m'.lookup key' =
      if key' = key then (m.lookup key).elim (some new) f else m.lookup key' := by
  induction m generalizing m' with
  | nil =>
      obtain rfl := Option.some.inj h
      by_cases hkey : key' = key
      · simp [hkey]
      · have hne : (key' == key) = false := beq_eq_false_iff_ne.2 hkey
        simp [List.lookup_cons, hkey, hne]
  | cons entry m ih =>
      obtain ⟨l, v⟩ := entry
      unfold tryUpsert at h
      split at h
      · rename_i hl
        obtain rfl : l = key := hl
        obtain ⟨w, hw, rfl⟩ := Option.map_eq_some_iff.1 h
        by_cases hkey : key' = l
        · simp [hkey, hw]
        · have hne : (key' == l) = false := beq_eq_false_iff_ne.2 hkey
          simp [List.lookup_cons, hkey, hne]
      · rename_i hl
        obtain ⟨rest, hrest, rfl⟩ := Option.map_eq_some_iff.1 h
        have hkeyl : (key == l) = false := beq_eq_false_iff_ne.2 fun heq => hl heq.symm
        rw [List.lookup_cons, List.lookup_cons, List.lookup_cons, hkeyl, ih hrest]
        by_cases hkey : key' = l
        · have hne : key' ≠ key := fun heq => hl (hkey.symm.trans heq)
          simp [hkey, hl]
        · have hne : (key' == l) = false := beq_eq_false_iff_ne.2 hkey
          simp [hne]

theorem tryUpsert_eq_none {key : κ} {new : ν} {f : ν → Option ν} {m : List (κ × ν)} :
    tryUpsert key new f m = none ↔ ∃ v, m.lookup key = some v ∧ f v = none := by
  induction m with
  | nil => simp [tryUpsert]
  | cons entry m ih =>
      obtain ⟨l, w⟩ := entry
      unfold tryUpsert
      by_cases hl : l = key
      · subst hl
        simp
      · have hkey : (key == l) = false := beq_eq_false_iff_ne.2 fun heq => hl heq.symm
        simp [hl, List.lookup_cons, hkey, ih]

/-- All values of a key, one after the other, in the order of the entries. -/
def valuesOf (entries : List (κ × ν)) (key : κ) : List ν :=
  (entries.filter fun entry => entry.1 = key).map Prod.snd

def tryCollect (f : ν → ν → Option ν) (entries : List (κ × ν)) : Option (List (κ × ν)) :=
  entries.foldlM (fun m entry => tryUpsert entry.1 entry.2 (f · entry.2) m) []

/-- What all values of a key are made into. -/
def combine (f : ν → ν → Option ν) : List ν → Option (Option ν)
  | [] => some none
  | v :: vs => (vs.foldlM f v).map some

theorem valuesOf_append (entries : List (κ × ν)) (key' : κ) (v : ν) (key : κ) :
    valuesOf (entries ++ [(key', v)]) key =
      if key = key' then valuesOf entries key ++ [v] else valuesOf entries key := by
  unfold valuesOf
  rw [List.filter_append, List.map_append]
  by_cases h : key = key'
  · simp [h]
  · simp [h, Ne.symm h]

theorem combine_append (f : ν → ν → Option ν) (vs : List ν) (v : ν) :
    combine f (vs ++ [v]) =
      (combine f vs).bind fun r => (r.elim (some v) (f · v)).map some := by
  cases vs with
  | nil => rfl
  | cons w ws =>
      simp only [combine, List.cons_append, List.foldlM_append, List.foldlM_cons, List.foldlM_nil]
      cases ws.foldlM f w with
      | none => rfl
      | some r => simp

theorem tryCollect_append (f : ν → ν → Option ν) (entries : List (κ × ν)) (entry : κ × ν) :
    tryCollect f (entries ++ [entry]) =
      (tryCollect f entries).bind (tryUpsert entry.1 entry.2 (f · entry.2)) := by
  unfold tryCollect
  rw [List.foldlM_append]
  simp only [List.foldlM_cons, List.foldlM_nil, Option.bind_eq_bind]
  cases entries.foldlM (fun m entry => tryUpsert entry.1 entry.2 (f · entry.2) m) [] with
  | none => rfl
  | some m => simp

/-- What is collected is what the values of each key are made into. -/
theorem lookup_tryCollect {f : ν → ν → Option ν} {entries m : List (κ × ν)}
    (h : tryCollect f entries = some m) (key : κ) :
    combine f (valuesOf entries key) = some (m.lookup key) := by
  induction entries using List.reverseRecOn generalizing m with
  | nil =>
      obtain rfl := Option.some.inj h
      rfl
  | append_singleton entries entry ih =>
      obtain ⟨key', v⟩ := entry
      rw [tryCollect_append] at h
      obtain ⟨before, hbefore, hlast⟩ := Option.bind_eq_some_iff.1 h
      rw [lookup_tryUpsert hlast, valuesOf_append]
      by_cases hkey : key = key'
      · subst hkey
        rw [if_pos rfl, if_pos rfl, combine_append, ih hbefore]
        cases hfound : before.lookup key with
        | none => rfl
        | some w =>
            have hsome : f w v ≠ none := by
              intro hnone
              rw [tryUpsert_eq_none.2 ⟨w, hfound, hnone⟩] at hlast
              cases hlast
            obtain ⟨r, hr⟩ := Option.ne_none_iff_exists'.1 hsome
            simp [hr]
      · rw [if_neg hkey, if_neg hkey]
        exact ih hbefore

theorem exists_of_tryCollect_eq_none {f : ν → ν → Option ν} {entries : List (κ × ν)}
    (h : tryCollect f entries = none) : ∃ key, combine f (valuesOf entries key) = none := by
  induction entries using List.reverseRecOn with
  | nil => cases h
  | append_singleton entries entry ih =>
      obtain ⟨key', v⟩ := entry
      rw [tryCollect_append] at h
      cases hbefore : tryCollect f entries with
      | none =>
          obtain ⟨key, hkey⟩ := ih hbefore
          refine ⟨key, ?_⟩
          rw [valuesOf_append]
          split
          · rw [combine_append, hkey]
            rfl
          · exact hkey
      | some before =>
          rw [hbefore] at h
          obtain ⟨w, hfound, hnone⟩ := tryUpsert_eq_none.1 h
          refine ⟨key', ?_⟩
          rw [valuesOf_append, if_pos rfl, combine_append, lookup_tryCollect hbefore, hfound]
          simp [hnone]

theorem nodup_keys_tryCollect {f : ν → ν → Option ν} {entries m : List (κ × ν)}
    (h : tryCollect f entries = some m) : (m.map Prod.fst).Nodup := by
  induction entries using List.reverseRecOn generalizing m with
  | nil =>
      obtain rfl := Option.some.inj h
      exact List.nodup_nil
  | append_singleton entries entry ih =>
      rw [tryCollect_append] at h
      obtain ⟨before, hbefore, hlast⟩ := Option.bind_eq_some_iff.1 h
      rw [keys_tryUpsert hlast]
      exact nodup_keys_upsert (ih hbefore)

end

/-! ## First elements -/

section

variable {α : Type u} {κ : Type v} [DecidableEq κ] (key : α → κ)

/-- An element is added unless there is one with its key. -/
def addFirst (kept : List α) (x : α) : List α :=
  if kept.any fun y => key y = key x then kept else kept ++ [x]

/-- The list keeps, of the elements with one key, the first. -/
structure Firsts (xs kept : List α) : Prop where
  nodup : (kept.map key).Nodup
  mem_iff : ∀ x, x ∈ kept ↔ xs.find? (fun y => key y = key x) = some x

theorem find?_key_of_mem {xs : List α} {x : α} (hx : x ∈ xs) :
    ∃ y, xs.find? (fun z => key z = key x) = some y := by
  have hsome : (xs.find? fun z => key z = key x).isSome = true :=
    List.find?_isSome.2 ⟨x, hx, by simp⟩
  exact Option.isSome_iff_exists.1 hsome

variable {key}

theorem key_of_find? {xs : List α} {k : κ} {y : α} (h : xs.find? (fun z => key z = k) = some y) :
    key y = k := by
  simpa using List.find?_some h

theorem Firsts.addFirst {xs kept : List α} (h : Firsts key xs kept) (x : α) :
    Firsts key (xs ++ [x]) (addFirst key kept x) := by
  have hseen : (kept.any fun y => key y = key x) = true ↔ ∃ y ∈ xs, key y = key x := by
    rw [List.any_eq_true]
    constructor
    · rintro ⟨y, hy, hkey⟩
      exact ⟨y, List.mem_of_find?_eq_some ((h.mem_iff y).1 hy), of_decide_eq_true hkey⟩
    · rintro ⟨y, hy, hkey⟩
      obtain ⟨z, hz⟩ := find?_key_of_mem key hy
      rw [hkey] at hz
      have hkeyz := key_of_find? hz
      exact ⟨z, (h.mem_iff z).2 (by simpa only [hkeyz] using hz), decide_eq_true hkeyz⟩
  unfold InsertionOrder.addFirst
  by_cases hx : (kept.any fun y => key y = key x) = true
  · rw [if_pos hx]
    refine ⟨h.nodup, fun y => ?_⟩
    rw [h.mem_iff, List.find?_append]
    cases hfind : xs.find? fun z => key z = key y with
    | some z => rfl
    | none =>
        -- The element that is left out has a key that has been seen.
        obtain ⟨z, hz, hkey⟩ := hseen.1 hx
        have hne : key x ≠ key y := by
          intro heq
          have := List.find?_eq_none.1 hfind z hz
          exact this (decide_eq_true (hkey.trans heq))
        simp [hne]
  · rw [if_neg hx]
    have hnew : ∀ y ∈ xs, key y ≠ key x := fun y hy heq => hx (hseen.2 ⟨y, hy, heq⟩)
    constructor
    · rw [List.map_append]
      refine List.Nodup.append h.nodup (List.nodup_singleton _) ?_
      intro k hk hk'
      obtain ⟨y, hy, rfl⟩ := List.mem_map.1 hk
      exact hnew y (List.mem_of_find?_eq_some ((h.mem_iff y).1 hy)) (List.mem_singleton.1 hk')
    · intro y
      rw [List.mem_append, h.mem_iff, List.find?_append, List.mem_singleton]
      cases hfind : xs.find? fun z => key z = key y with
      | some z =>
          have hkeyz := key_of_find? hfind
          have hz := List.mem_of_find?_eq_some hfind
          refine or_iff_left fun heq => ?_
          exact hnew z hz (heq ▸ hkeyz)
      | none =>
          by_cases heq : key x = key y
          · simp only [reduceCtorEq, false_or, Option.none_or, List.find?_cons, heq, decide_true]
            exact ⟨fun h => h ▸ rfl, fun h => (Option.some.inj h).symm⟩
          · have hne : y ≠ x := fun hyx => heq (hyx ▸ rfl)
            simp [heq, hne]

theorem firsts_foldl (xs : List α) : Firsts key xs (xs.foldl (InsertionOrder.addFirst key) []) := by
  induction xs using List.reverseRecOn with
  | nil => exact ⟨List.nodup_nil, fun x => by simp⟩
  | append_singleton xs x ih =>
      rw [List.foldl_append]
      exact ih.addFirst x

/-- Who looks for a key finds the same in what has been kept. -/
theorem find?_foldl_addFirst {p : α → Bool} (hp : ∀ x y, key x = key y → p x = p y)
    (xs : List α) : (xs.foldl (InsertionOrder.addFirst key) []).find? p = xs.find? p := by
  induction xs using List.reverseRecOn with
  | nil => rfl
  | append_singleton xs x ih =>
      rw [List.foldl_append, List.foldl_cons, List.foldl_nil, List.find?_append, ← ih]
      generalize xs.foldl (InsertionOrder.addFirst key) [] = kept
      unfold InsertionOrder.addFirst
      split
      · rename_i hany
        rcases List.any_eq_true.1 hany with ⟨y, hy, hkey⟩
        -- What is left out would not be found: the element with its key comes before it.
        cases hfind : kept.find? p with
        | some z => rfl
        | none =>
            have hfalse : p x = false := by
              have hy' := List.find?_eq_none.1 hfind y hy
              rw [← hp y x (of_decide_eq_true hkey)]
              simpa using hy'
            simp [hfalse]
      · rw [List.find?_append]

/-- The keys that are kept are those that there are. -/
theorem Firsts.mem_keys_iff {xs kept : List α} (h : Firsts key xs kept) {k : κ} :
    k ∈ kept.map key ↔ k ∈ xs.map key := by
  constructor
  · intro hk
    obtain ⟨x, hx, rfl⟩ := List.mem_map.1 hk
    exact List.mem_map_of_mem (List.mem_of_find?_eq_some ((h.mem_iff x).1 hx))
  · intro hk
    obtain ⟨x, hx, rfl⟩ := List.mem_map.1 hk
    obtain ⟨y, hy⟩ := find?_key_of_mem key hx
    have hkey := key_of_find? hy
    exact List.mem_map.2 ⟨y, (h.mem_iff y).2 (by simpa only [hkey] using hy), hkey⟩

end

end InsertionOrder
end InfraWeave
