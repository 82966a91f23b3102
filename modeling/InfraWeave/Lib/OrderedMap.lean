import Mathlib.Data.List.Basic
import Mathlib.Data.List.Induction
import Mathlib.Order.RelClasses

/-!
# Ordered maps as association lists

A map with ordered keys is kept as the list of its entries in ascending key order, which is how a
`BTreeMap` iterates.  `insert` puts an entry at its place or replaces the one already there;
lookups are those of `List.lookup`.  None of the lookup lemmas needs the list to be sorted.
-/

namespace InfraWeave
namespace OrderedMap

variable {κ ν : Type*} [DecidableEq κ]

def keys (m : List (κ × ν)) : List κ :=
  m.map Prod.fst

theorem lookup_cons_ite (k l : κ) (v : ν) (m : List (κ × ν)) :
    ((l, v) :: m).lookup k = if k = l then some v else m.lookup k := by
  by_cases h : k = l
  · simp [h]
  · have hne : (k == l) = false := beq_eq_false_iff_ne.mpr h
    simp [List.lookup_cons, hne, h]

theorem mem_keys_iff {k : κ} {m : List (κ × ν)} : k ∈ keys m ↔ ∃ v, m.lookup k = some v := by
  rw [← Option.isSome_iff_exists, List.lookup_isSome_iff]
  simp [keys]

theorem mem_of_lookup {k : κ} {v : ν} {m : List (κ × ν)} (h : m.lookup k = some v) : (k, v) ∈ m := by
  obtain ⟨l₁, l₂, rfl, -⟩ := List.lookup_eq_some_iff.1 h
  exact List.mem_append_right l₁ List.mem_cons_self

/-- Where no key is there twice, an entry is what its key leads to. -/
theorem lookup_of_mem {k : κ} {v : ν} {m : List (κ × ν)} (hkeys : (keys m).Nodup)
    (h : (k, v) ∈ m) : m.lookup k = some v := by
  induction m with
  | nil => cases h
  | cons entry rest ih =>
      obtain ⟨hentry, hrest⟩ := List.nodup_cons.1 hkeys
      rw [lookup_cons_ite]
      rcases List.mem_cons.1 h with rfl | h
      · exact if_pos rfl
      · have hne : k ≠ entry.1 := fun heq => hentry (heq ▸ List.mem_map_of_mem h)
        rw [if_neg hne]
        exact ih hrest h

theorem lookup_perm {k : κ} {m m' : List (κ × ν)} (hkeys : (keys m).Nodup) (h : m.Perm m') :
    m.lookup k = m'.lookup k := by
  have hkeys' : (keys m').Nodup := (h.map Prod.fst).nodup_iff.1 hkeys
  refine Option.ext fun v => ⟨fun hlookup => ?_, fun hlookup => ?_⟩
  · exact lookup_of_mem hkeys' (h.mem_iff.1 (mem_of_lookup hlookup))
  · exact lookup_of_mem hkeys (h.mem_iff.2 (mem_of_lookup hlookup))

/-! ## Insertion -/

variable [LT κ] [DecidableLT κ]

def insert (k : κ) (v : ν) : List (κ × ν) → List (κ × ν)
  | [] => [(k, v)]
  | (k', v') :: rest =>
      if k < k' then (k, v) :: (k', v') :: rest
      else if k = k' then (k, v) :: rest
      else (k', v') :: insert k v rest

theorem lookup_insert (k k' : κ) (v : ν) (m : List (κ × ν)) :
    (insert k v m).lookup k' = if k' = k then some v else m.lookup k' := by
  induction m with
  | nil =>
      simp [insert, lookup_cons_ite]
  | cons entry rest ih =>
      rcases entry with ⟨l, w⟩
      by_cases hlt : k < l
      · simp [insert, lookup_cons_ite, hlt]
      · by_cases hkl : k = l
        · subst hkl
          by_cases h : k' = k <;> simp [insert, lookup_cons_ite, hlt, h]
        · -- The head key differs from `k`, so the two lookups of `k'` exclude each other.
          by_cases h : k' = l
          · have hne : k' ≠ k := fun h' => hkl (h'.symm.trans h)
            simp [insert, hlt, hkl, h, Ne.symm hkl]
          · simp [insert, lookup_cons_ite, hlt, hkl, h, ih]

@[simp] theorem lookup_insert_self (k : κ) (v : ν) (m : List (κ × ν)) :
    (insert k v m).lookup k = some v := by
  simp [lookup_insert]

theorem mem_insert {k : κ} {v : ν} {entry : κ × ν} {m : List (κ × ν)}
    (h : entry ∈ insert k v m) : entry = (k, v) ∨ entry ∈ m := by
  induction m with
  | nil => exact Or.inl (List.mem_singleton.1 h)
  | cons first rest ih =>
      unfold insert at h
      split at h
      · exact (List.mem_cons.1 h).imp_right id
      · split at h
        · exact (List.mem_cons.1 h).imp_right (List.mem_cons_of_mem _)
        · rcases List.mem_cons.1 h with rfl | h
          · exact Or.inr List.mem_cons_self
          · exact (ih h).imp_right (List.mem_cons_of_mem _)

/-- `k` gets the value `v`, or loses the one it has. -/
def alter (k : κ) (v : Option ν) (m : List (κ × ν)) : List (κ × ν) :=
  match v with
  | some v => insert k v m
  | none => m.filter fun entry => entry.1 ≠ k

theorem lookup_alter (k k' : κ) (v : Option ν) (m : List (κ × ν)) :
    (alter k v m).lookup k' = if k' = k then v else m.lookup k' := by
  cases v with
  | some v => exact lookup_insert k k' v m
  | none =>
      induction m with
      | nil => simp [alter]
      | cons entry rest ih =>
          rcases entry with ⟨l, w⟩
          change (rest.filter fun entry => entry.1 ≠ k).lookup k' = _ at ih
          change (((l, w) :: rest).filter fun entry => entry.1 ≠ k).lookup k' = _
          rw [List.filter_cons, lookup_cons_ite]
          by_cases hl : l = k
          · -- The head is dropped.
            subst hl
            rw [if_neg (by simp), ih]
            by_cases h : k' = l
            · rw [if_pos h, if_pos h]
            · rw [if_neg h, if_neg h, if_neg h]
          · rw [if_pos (by simpa using hl), lookup_cons_ite, ih]
            by_cases h : k' = l
            · rw [if_pos h, if_pos h, if_neg (h ▸ hl)]
            · rw [if_neg h, if_neg h]

theorem mem_alter {k : κ} {v : Option ν} {entry : κ × ν} {m : List (κ × ν)}
    (h : entry ∈ alter k v m) : some entry.2 = v ∨ entry ∈ m := by
  cases v with
  | some v =>
      refine (mem_insert h).imp_left fun heq => ?_
      rw [heq]
  | none => exact Or.inr (List.mem_of_mem_filter h)

/-! ## Ascending keys -/

section

variable [IsStrictTotalOrder κ (· < ·)]

theorem pairwise_insert (k : κ) (v : ν) {m : List (κ × ν)}
    (h : m.Pairwise fun a b => a.1 < b.1) : (insert k v m).Pairwise fun a b => a.1 < b.1 := by
  induction m with
  | nil => exact List.pairwise_singleton _ _
  | cons first rest ih =>
      obtain ⟨hfirst, hrest⟩ := List.pairwise_cons.1 h
      unfold insert
      split
      · rename_i hlt
        refine List.pairwise_cons.2 ⟨fun entry hentry => ?_, h⟩
        rcases List.mem_cons.1 hentry with rfl | hentry
        · exact hlt
        · exact trans_of (· < ·) hlt (hfirst entry hentry)
      · rename_i hlt
        split
        · rename_i heq
          subst heq
          exact List.pairwise_cons.2 ⟨hfirst, hrest⟩
        · rename_i hne
          refine List.pairwise_cons.2 ⟨fun entry hentry => ?_, ih hrest⟩
          rcases mem_insert hentry with rfl | hentry
          · rcases trichotomous_of (· < ·) k first.1 with h' | h' | h'
            · exact absurd h' hlt
            · exact absurd h' hne
            · exact h'
          · exact hfirst entry hentry

theorem pairwise_alter (k : κ) (v : Option ν) {m : List (κ × ν)}
    (h : m.Pairwise fun a b => a.1 < b.1) : (alter k v m).Pairwise fun a b => a.1 < b.1 := by
  cases v with
  | some v => exact pairwise_insert k v h
  | none => exact h.filter _

omit [DecidableLT κ] in
/-- Under ascending keys, an entry is what its key leads to. -/
theorem mem_iff_lookup {k : κ} {v : ν} {m : List (κ × ν)}
    (h : m.Pairwise fun a b => a.1 < b.1) : (k, v) ∈ m ↔ m.lookup k = some v := by
  induction m with
  | nil => simp
  | cons first rest ih =>
      obtain ⟨hfirst, hrest⟩ := List.pairwise_cons.1 h
      rw [lookup_cons_ite, List.mem_cons]
      by_cases hk : k = first.1
      · have hnot : (k, v) ∉ rest := fun hmem => irrefl_of (· < ·) k (by
          simpa [hk] using hfirst _ hmem)
        rw [if_pos hk, Option.some_inj, or_iff_left hnot]
        constructor
        · intro heq
          rw [← heq]
        · intro heq
          rw [hk, ← heq]
      · have hne : (k, v) ≠ first := fun heq => hk (congrArg Prod.fst heq)
        rw [if_neg hk, or_iff_right hne]
        exact ih hrest

omit [DecidableEq κ] [DecidableLT κ] in
/-- Ascending maps with the same entries are the same. -/
theorem eq_of_mem_iff {m m' : List (κ × ν)} (h : m.Pairwise fun a b => a.1 < b.1)
    (h' : m'.Pairwise fun a b => a.1 < b.1) (hmem : ∀ entry, entry ∈ m ↔ entry ∈ m') : m = m' := by
  have hnodup : ∀ {l : List (κ × ν)}, (l.Pairwise fun a b => a.1 < b.1) → l.Nodup := by
    intro l hl
    refine hl.imp fun {a b} hlt heq => ?_
    rw [heq] at hlt
    exact irrefl_of (· < ·) b.1 hlt
  have hperm : m.Perm m' := (List.perm_ext_iff_of_nodup (hnodup h) (hnodup h')).2 hmem
  refine hperm.eq_of_pairwise (fun a b _ _ hlt hgt => ?_) h h'
  exact absurd (trans_of (· < ·) hlt hgt) (irrefl_of (· < ·) a.1)

/-- The map of entries in any order; of two with one key, the later stays. -/
def collect (entries : List (κ × ν)) : List (κ × ν) :=
  entries.foldl (fun m entry => insert entry.1 entry.2 m) []

theorem pairwise_collect (entries : List (κ × ν)) :
    (collect entries).Pairwise fun a b => a.1 < b.1 := by
  suffices h : ∀ m : List (κ × ν), (m.Pairwise fun a b => a.1 < b.1) →
      (entries.foldl (fun m entry => insert entry.1 entry.2 m) m).Pairwise
        fun a b => a.1 < b.1 from h [] List.Pairwise.nil
  induction entries with
  | nil => exact fun m hm => hm
  | cons entry rest ih => exact fun m hm => ih _ (pairwise_insert entry.1 entry.2 hm)

omit [IsStrictTotalOrder κ (· < ·)] in
theorem collect_concat (entries : List (κ × ν)) (entry : κ × ν) :
    collect (entries ++ [entry]) = insert entry.1 entry.2 (collect entries) :=
  List.foldl_append

omit [IsStrictTotalOrder κ (· < ·)] in
/-- Of the entries with one key, the last one stays. -/
theorem lookup_collect_reverse (entries : List (κ × ν)) (k : κ) :
    (collect entries).lookup k = entries.reverse.lookup k := by
  induction entries using List.reverseRecOn with
  | nil => rfl
  | append_singleton entries entry ih =>
      rw [collect_concat, lookup_insert, List.reverse_append, ih]
      exact (lookup_cons_ite k entry.1 entry.2 _).symm

omit [IsStrictTotalOrder κ (· < ·)] in
theorem keys_collect {entries : List (κ × ν)} {k : κ} :
    k ∈ keys (collect entries) ↔ k ∈ keys entries := by
  rw [mem_keys_iff, lookup_collect_reverse, ← mem_keys_iff]
  simp [keys]

omit [IsStrictTotalOrder κ (· < ·)] in
theorem lookup_collect {entries : List (κ × ν)} (hkeys : (keys entries).Nodup) (k : κ) :
    (collect entries).lookup k = entries.lookup k := by
  suffices h : ∀ m : List (κ × ν),
      (entries.foldl (fun m entry => insert entry.1 entry.2 m) m).lookup k =
        (entries.lookup k).or (m.lookup k) by
    have hnil := h []
    rw [List.lookup_nil, Option.or_none] at hnil
    exact hnil
  induction entries with
  | nil => exact fun m => rfl
  | cons entry rest ih =>
      intro m
      obtain ⟨hentry, hrest⟩ := List.nodup_cons.1 hkeys
      rw [List.foldl_cons, ih hrest, lookup_insert, lookup_cons_ite]
      by_cases hk : k = entry.1
      · have hnone : rest.lookup k = none := by
          rw [← Option.not_isSome_iff_eq_none, Option.isSome_iff_exists, ← mem_keys_iff, hk]
          exact hentry
        rw [if_pos hk, if_pos hk, hnone, Option.none_or, Option.some_or]
      · rw [if_neg hk, if_neg hk]

theorem mem_collect {entries : List (κ × ν)} (hkeys : (keys entries).Nodup) (entry : κ × ν) :
    entry ∈ collect entries ↔ entry ∈ entries := by
  obtain ⟨k, v⟩ := entry
  rw [mem_iff_lookup (pairwise_collect entries), lookup_collect hkeys]
  exact ⟨mem_of_lookup, lookup_of_mem hkeys⟩

/-- The order of the entries is lost. -/
theorem collect_perm {entries entries' : List (κ × ν)} (hkeys : (keys entries).Nodup)
    (h : entries.Perm entries') : collect entries = collect entries' := by
  have hkeys' : (keys entries').Nodup := (h.map Prod.fst).nodup_iff.1 hkeys
  refine eq_of_mem_iff (pairwise_collect entries) (pairwise_collect entries') fun entry => ?_
  rw [mem_collect hkeys, mem_collect hkeys', h.mem_iff]

omit [IsStrictTotalOrder κ (· < ·)] in
theorem mem_of_mem_collect {entries : List (κ × ν)} {entry : κ × ν}
    (h : entry ∈ collect entries) : entry ∈ entries := by
  induction entries using List.reverseRecOn with
  | nil => cases h
  | append_singleton entries last ih =>
      rw [collect_concat] at h
      rcases mem_insert h with rfl | hmem
      · exact List.mem_append_right _ List.mem_cons_self
      · exact List.mem_append_left _ (ih hmem)

omit [DecidableEq κ] [DecidableLT κ] in
theorem nodup_keys_of_pairwise {m : List (κ × ν)} (h : m.Pairwise fun a b => a.1 < b.1) :
    (keys m).Nodup := by
  refine List.pairwise_map.2 (h.imp fun {a b} hlt heq => ?_)
  rw [heq] at hlt
  exact irrefl_of (· < ·) b.1 hlt

/-- An ascending map is collected from its entries in any order. -/
theorem collect_of_perm {m entries : List (κ × ν)} (h : m.Pairwise fun a b => a.1 < b.1)
    (hperm : entries.Perm m) : collect entries = m := by
  have hkeys : (keys entries).Nodup :=
    (hperm.map Prod.fst).nodup_iff.2 (nodup_keys_of_pairwise h)
  refine eq_of_mem_iff (pairwise_collect entries) h fun entry => ?_
  rw [mem_collect hkeys, hperm.mem_iff]

end

end OrderedMap
end InfraWeave
