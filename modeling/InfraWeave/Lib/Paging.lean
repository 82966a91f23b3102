import Mathlib.Data.List.Basic

/-!
# Pages of a list

A source answers with a page of rows and, unless it is the last one, a cursor after which the next
page begins.  A listing follows the cursors from page to page to the end.  Rows can be hidden: they
count for a page, and do not show in it.
-/

namespace InfraWeave

universe u v w

structure Page (κ : Type u) (ι : Type v) where
  items : List ι
  next : Option κ
  deriving DecidableEq

namespace Page

variable {κ : Type u} {ι : Type v} {ε : Type w}

instance : Nonempty (Page κ ι) :=
  ⟨⟨[], none⟩⟩

def map {κ' : Type*} (f : κ → κ') (page : Page κ ι) : Page κ' ι :=
  ⟨page.items, page.next.map f⟩

/-- The pages from a cursor to the last one, and the items on them. -/
inductive Listing (source : Option κ → Except ε (Page κ ι)) : Option κ → List ι → Prop
  | last {cursor : Option κ} {page : Page κ ι} (hpage : source cursor = .ok page)
      (hnext : page.next = none) : Listing source cursor page.items
  | more {cursor : Option κ} {page : Page κ ι} {k : κ} {items : List ι}
      (hpage : source cursor = .ok page) (hnext : page.next = some k)
      (hrest : Listing source (some k) items) : Listing source cursor (page.items ++ items)

/-- From the rows before a cursor, the source goes on with the rows after it, at least one at a
time. -/
def Pages (source : Option κ → Except ε (Page κ ι)) (rows : List (κ × Option ι)) : Prop :=
  ∀ before after, rows = before ++ after →
    ∃ now later next, after = now ++ later ∧
      source ((before.getLast?).map Prod.fst) = .ok ⟨now.filterMap Prod.snd, next⟩ ∧
      (next = none ∧ later = [] ∨ ∃ row, now.getLast? = some row ∧ next = some row.1)

variable {source : Option κ → Except ε (Page κ ι)} {rows : List (κ × Option ι)}

theorem Listing.of_error {cursor : Option κ} {items : List ι} (h : Listing source cursor items) :
    ∃ page, source cursor = .ok page := by
  cases h with
  | last hpage _ => exact ⟨_, hpage⟩
  | more hpage _ _ => exact ⟨_, hpage⟩

/-- A source that answers with its last page at once lists that page. -/
theorem listing_iff_of_last {cursor : Option κ} {page : Page κ ι} (hpage : source cursor = .ok page)
    (hnext : page.next = none) {items : List ι} :
    Listing source cursor items ↔ items = page.items := by
  constructor
  · intro h
    cases h with
    | last hpage' _ => rw [Except.ok.inj (hpage.symm.trans hpage')]
    | more hpage' hnext' _ =>
        obtain rfl := Except.ok.inj (hpage.symm.trans hpage')
        rw [hnext] at hnext'
        cases hnext'
  · rintro rfl
    exact .last hpage hnext

/-- The listing has all that shows of the rows. -/
theorem Pages.listing (h : Pages source rows) : Listing source none (rows.filterMap Prod.snd) := by
  -- By induction on the number of rows that are left.
  have hleft : ∀ n before after, after.length ≤ n → rows = before ++ after →
      Listing source ((before.getLast?).map Prod.fst) (after.filterMap Prod.snd) := by
    intro n
    induction n with
    | zero =>
        intro before after hlength hrows
        obtain rfl := List.length_eq_zero_iff.1 (Nat.le_zero.1 hlength)
        obtain ⟨now, later, next, hafter, hsource, hnext⟩ := h before [] hrows
        obtain ⟨rfl, rfl⟩ := List.nil_eq_append_iff.1 hafter
        rcases hnext with ⟨rfl, -⟩ | ⟨row, hlast, -⟩
        · exact .last hsource rfl
        · cases hlast
    | succ n ih =>
        intro before after hlength hrows
        obtain ⟨now, later, next, rfl, hsource, hnext⟩ := h before after hrows
        rcases hnext with ⟨rfl, rfl⟩ | ⟨row, hlast, rfl⟩
        · rw [List.append_nil]
          exact .last hsource rfl
        · have hnow : 0 < now.length := by
            cases now with
            | nil => cases hlast
            | cons => exact Nat.succ_pos _
          have hlater : later.length ≤ n := by
            rw [List.length_append] at hlength
            omega
          have hrest := ih (before ++ now) later hlater (by rw [hrows, List.append_assoc])
          have hcursor : ((before ++ now).getLast?).map Prod.fst = some row.1 := by
            rw [List.getLast?_append, hlast]
            rfl
          rw [hcursor] at hrest
          rw [List.filterMap_append]
          exact .more hsource rfl hrest
  exact hleft rows.length [] rows (Nat.le_refl _) rfl

/-- The first page shows a part of the rows from the first one on. -/
theorem Pages.first (h : Pages source rows) {page : Page κ ι} (hpage : source none = .ok page) :
    page.items <+: rows.filterMap Prod.snd := by
  obtain ⟨now, later, next, hrows, hsource, -⟩ := h [] rows rfl
  obtain rfl := Except.ok.inj (hpage.symm.trans hsource)
  rw [hrows, List.filterMap_append]
  exact List.prefix_append _ _

/-- First pages that together have all items are all complete. -/
theorem eq_of_prefix_of_perm {α : Type*} {f g : α → List ι} {list : List α}
    (hfirst : ∀ a ∈ list, f a <+: g a) (hperm : (list.flatMap f).Perm (list.flatMap g)) :
    ∀ a ∈ list, f a = g a := by
  have hle : ∀ list : List α, (∀ a ∈ list, f a <+: g a) →
      (list.flatMap f).length ≤ (list.flatMap g).length := by
    intro list
    induction list with
    | nil => exact fun _ => Nat.le_refl _
    | cons a list ih =>
        intro h
        have ha := (h a List.mem_cons_self).length_le
        have hlist := ih fun b hb => h b (List.mem_cons_of_mem _ hb)
        rw [List.flatMap_cons, List.flatMap_cons, List.length_append, List.length_append]
        omega
  have hlength := hperm.length_eq
  clear hperm
  induction list with
  | nil => exact fun a ha => by cases ha
  | cons a list ih =>
      have hrest : ∀ b ∈ list, f b <+: g b := fun b hb => hfirst b (List.mem_cons_of_mem _ hb)
      have ha := hfirst a List.mem_cons_self
      have ha' := ha.length_le
      have hlist := hle list hrest
      rw [List.flatMap_cons, List.flatMap_cons, List.length_append, List.length_append] at hlength
      intro b hb
      rcases List.mem_cons.1 hb with rfl | hb
      · exact ha.eq_of_length (by omega)
      · exact ih hrest (by omega) b hb

/-- The cursor is the one of a row. -/
def IsCursor (rows : List (κ × Option ι)) (cursor : Option κ) : Prop :=
  ∀ k, cursor = some k → ∃ row ∈ rows, row.1 = k

theorem Pages.isCursor_next (h : Pages source rows) {cursor : Option κ}
    (hcursor : IsCursor rows cursor) {page : Page κ ι} (hpage : source cursor = .ok page) :
    IsCursor rows page.next := by
  obtain ⟨before, after, hrows, hbefore⟩ : ∃ before after, rows = before ++ after ∧
      (before.getLast?).map Prod.fst = cursor := by
    cases cursor with
    | none => exact ⟨[], rows, rfl, rfl⟩
    | some k =>
        obtain ⟨row, hrow, hkey⟩ := hcursor k rfl
        obtain ⟨init, after, rfl⟩ := List.append_of_mem hrow
        refine ⟨init ++ [row], after, by simp, ?_⟩
        rw [List.getLast?_concat, ← hkey]
        rfl
  obtain ⟨now, later, next, hafter, hsource, hnext⟩ := h before after hrows
  rw [hbefore] at hsource
  obtain rfl := Except.ok.inj (hpage.symm.trans hsource)
  intro k hk
  change next = some k at hk
  rcases hnext with ⟨hnone, -⟩ | ⟨row, hlast, hsome⟩
  · rw [hnone] at hk
    cases hk
  · refine ⟨row, ?_, Option.some.inj (hsome.symm.trans hk)⟩
    rw [hrows, hafter]
    exact List.mem_append_right _ (List.mem_append_left _ (List.mem_of_getLast? hlast))

/-- A source that writes the cursors down, and reads them again, lists the same. -/
theorem Pages.listing_map {κ' : Type*} {source' : Option κ' → Except ε (Page κ' ι)} {f : κ → κ'}
    (h : Pages source rows)
    (hsource : ∀ cursor page, IsCursor rows cursor → source cursor = .ok page →
      IsCursor rows page.next → source' (cursor.map f) = .ok (page.map f)) :
    Listing source' none (rows.filterMap Prod.snd) := by
  have hmap : ∀ cursor items, Listing source cursor items → IsCursor rows cursor →
      Listing source' (cursor.map f) items := by
    intro cursor items hlisting
    induction hlisting with
    | @last cursor page hpage hnext =>
        intro hcursor
        have hpage' := hsource cursor page hcursor hpage (h.isCursor_next hcursor hpage)
        have hnext' : (page.map f).next = none := congrArg (Option.map f) hnext
        exact .last hpage' hnext'
    | @more cursor page k items hpage hnext hrest ih =>
        intro hcursor
        have hcursor' := h.isCursor_next hcursor hpage
        have hpage' := hsource cursor page hcursor hpage hcursor'
        have hnext' : (page.map f).next = some (f k) := congrArg (Option.map f) hnext
        exact .more hpage' hnext' (ih (hnext ▸ hcursor'))
  exact hmap none _ h.listing fun k hk => by cases hk

/-! ## Pages of a given size -/

section

variable [DecidableEq κ]

/-- The rows after a cursor. -/
def rowsAfter (rows : List (κ × Option ι)) : Option κ → List (κ × Option ι)
  | none => rows
  | some k => (rows.dropWhile fun row => row.1 ≠ k).drop 1

/-- A page of so many rows; the last page has no cursor. -/
def take (rows : List (κ × Option ι)) (size : Nat) (cursor : Option κ) : Page κ ι :=
  let after := rowsAfter rows cursor
  let now := after.take size
  ⟨now.filterMap Prod.snd,
    if size < after.length then (now.getLast?).map Prod.fst else none⟩

theorem rowsAfter_getLast {before after : List (κ × Option ι)}
    (hkeys : ((before ++ after).map Prod.fst).Nodup) :
    rowsAfter (before ++ after) ((before.getLast?).map Prod.fst) = after := by
  rcases List.eq_nil_or_concat before with rfl | ⟨init, last, rfl⟩
  · rfl
  · have hinit : ∀ row ∈ init, decide (row.1 ≠ last.1) = true := by
      intro row hrow
      rw [List.concat_eq_append, List.append_assoc, List.map_append, List.nodup_append] at hkeys
      exact decide_eq_true (hkeys.2.2 row.1 (List.mem_map_of_mem hrow) last.1
        (List.mem_map_of_mem List.mem_cons_self))
    rw [List.concat_eq_append, List.getLast?_concat, Option.map_some, rowsAfter, List.append_assoc,
      List.dropWhile_append_of_pos hinit, List.singleton_append,
      List.dropWhile_cons_of_neg (by simp), List.drop_one, List.tail_cons]

theorem pages_take (hkeys : (rows.map Prod.fst).Nodup) {size : Nat} (hsize : 0 < size) :
    Pages (ε := ε) (fun cursor => .ok (take rows size cursor)) rows := by
  intro before after hrows
  subst hrows
  have hafter := rowsAfter_getLast hkeys
  refine ⟨after.take size, after.drop size,
    if size < after.length then ((after.take size).getLast?).map Prod.fst else none,
    (List.take_append_drop size after).symm, ?_, ?_⟩
  · change Except.ok (take (before ++ after) size _) = _
    rw [take, hafter]
  · by_cases hlong : size < after.length
    · rw [if_pos hlong]
      right
      have hne : after.take size ≠ [] := by
        intro hnil
        have hlength := congrArg List.length hnil
        rw [List.length_take, List.length_nil] at hlength
        omega
      exact ⟨_, List.getLast?_eq_some_getLast hne, by
        rw [List.getLast?_eq_some_getLast hne]; rfl⟩
    · rw [if_neg hlong]
      exact Or.inl ⟨rfl, List.drop_eq_nil_of_le (Nat.le_of_not_lt hlong)⟩

end

end Page
end InfraWeave
