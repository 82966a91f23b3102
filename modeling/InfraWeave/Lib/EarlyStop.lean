import Mathlib.Data.List.Basic
import Mathlib.Data.List.TakeWhile

/-!
# Polling page by page

A poll asks for one page after the other and keeps the hits.  It stops at the first page that is
empty, and also at the first page without a hit.  On a listing of finitely many pages it always
stops, and it has every hit exactly when no page without a hit comes before one with a hit.
-/

namespace InfraWeave
namespace EarlyStop

universe u v w

inductive Stopped (ε : Type w) where
  | outOfFuel
  | failed (e : ε)

variable {α : Type u} {β : Type v} {ε : Type w}

/-- The hits among some rows. -/
def collect (take : α → Except ε (Option β)) : List α → Except ε (List β)
  | [] => .ok []
  | row :: rows => do
      let hit ← take row
      let hits ← collect take rows
      .ok (hit.toList ++ hits)

/-- The hits from a page on, after the ones in `recent`. -/
def poll (source : Nat → Except ε (List α)) (take : α → Except (Stopped ε) (Option β)) :
    Nat → Nat → List β → Except (Stopped ε) (List β)
  | 0, _, _ => .error .outOfFuel
  | fuel + 1, page, recent =>
      match source page with
      | .error e => .error (.failed e)
      | .ok [] => .ok recent
      | .ok (row :: rows) =>
          match collect take (row :: rows) with
          | .error e => .error e
          | .ok [] => .ok recent
          | .ok (hit :: hits) => poll source take fuel (page + 1) (recent ++ hit :: hits)

/-- The source answers with the pages, and with an empty page after the last one. -/
structure Answers (source : Nat → Except ε (List α)) (pages : List (List α)) : Prop where
  page : ∀ n, source (n + 1) = .ok (pages.getD n [])
  nonempty : [] ∉ pages

/-- With enough fuel a run gives the result. -/
def Terminates {σ : Type v} (run : Nat → Except (Stopped ε) σ) (result : σ) : Prop :=
  ∃ enough, ∀ fuel, enough ≤ fuel → run fuel = .ok result

/-- The hits before the first page without one. -/
def found (f : α → Option β) : List (List α) → List β
  | [] => []
  | rows :: pages =>
      match rows.filterMap f with
      | [] => []
      | hit :: hits => hit :: hits ++ found f pages

/-- After a page without a hit there is none with a hit. -/
def NoGap (f : α → Option β) (pages : List (List α)) : Prop :=
  ∀ before rows after, pages = before ++ rows :: after → rows.filterMap f = [] →
    ∀ later ∈ after, later.filterMap f = []

/-! ## The hits of a page -/

theorem collect_eq_ok {take : α → Except ε (Option β)} {f : α → Option β} {rows : List α}
    (h : ∀ row ∈ rows, take row = .ok (f row)) : collect take rows = .ok (rows.filterMap f) := by
  induction rows with
  | nil => rfl
  | cons row rows ih =>
      have hrow := h row List.mem_cons_self
      have hrows := ih fun r hr => h r (List.mem_cons_of_mem _ hr)
      have hhead : (row :: rows).filterMap f = (f row).toList ++ rows.filterMap f := by
        cases hf : f row <;> simp [hf]
      rw [collect, hrow, hrows, hhead]
      rfl

/-! ## A run -/

theorem poll_eq_ok {source : Nat → Except ε (List α)} {take : α → Except (Stopped ε) (Option β)}
    {f : α → Option β} {pages : List (List α)} {n : Nat}
    (hpage : ∀ k, source (n + k) = .ok (pages.getD k [])) (hnonempty : [] ∉ pages)
    (htake : ∀ row ∈ pages.flatten, take row = .ok (f row)) {fuel : Nat}
    (hfuel : pages.length < fuel) (recent : List β) :
    poll source take fuel n recent = .ok (recent ++ found f pages) := by
  induction pages generalizing n fuel recent with
  | nil =>
      cases fuel with
      | zero => exact absurd hfuel (Nat.not_lt_zero _)
      | succ fuel =>
          have hempty : source n = .ok [] := hpage 0
          simp [poll, hempty, found]
  | cons rows pages ih =>
      cases fuel with
      | zero => exact absurd hfuel (Nat.not_lt_zero _)
      | succ fuel =>
          have hrows : source n = .ok rows := hpage 0
          cases rows with
          | nil => exact absurd List.mem_cons_self hnonempty
          | cons row rows =>
              have hcollect : collect take (row :: rows) = .ok ((row :: rows).filterMap f) :=
                collect_eq_ok fun r hr => htake r (by
                  rw [List.flatten_cons]
                  exact List.mem_append_left _ hr)
              cases hhits : (row :: rows).filterMap f with
              | nil =>
                  rw [hhits] at hcollect
                  simp [poll, hrows, hcollect, found, hhits]
              | cons hit hits =>
                  rw [hhits] at hcollect
                  have hnext : ∀ k, source (n + 1 + k) = .ok (pages.getD k []) := by
                    intro k
                    rw [Nat.add_assoc, Nat.add_comm 1 k]
                    exact hpage (k + 1)
                  have hrest := ih hnext (fun h => hnonempty (List.mem_cons_of_mem _ h))
                    (fun r hr => htake r (by
                      rw [List.flatten_cons]
                      exact List.mem_append_right _ hr))
                    (Nat.lt_of_succ_lt_succ hfuel) (recent ++ hit :: hits)
                  simp only [poll, hrows, hcollect, hrest, found, hhits]
                  simp

theorem Answers.poll_eq_ok {source : Nat → Except ε (List α)}
    {take : α → Except (Stopped ε) (Option β)} {f : α → Option β} {pages : List (List α)}
    (h : Answers source pages) (htake : ∀ row ∈ pages.flatten, take row = .ok (f row)) {fuel : Nat}
    (hfuel : pages.length < fuel) :
    poll source take fuel 1 [] = .ok (found f pages) := by
  have hpage : ∀ k, source (1 + k) = .ok (pages.getD k []) := by
    intro k
    rw [Nat.add_comm]
    exact h.page k
  exact EarlyStop.poll_eq_ok hpage h.nonempty htake hfuel []

theorem Terminates.unique {σ : Type v} {run : Nat → Except (Stopped ε) σ} {result result' : σ}
    (h : Terminates run result) (h' : Terminates run result') : result = result' := by
  rcases h with ⟨n, hn⟩
  rcases h' with ⟨n', hn'⟩
  have hleft := hn (max n n') (Nat.le_max_left n n')
  have hright := hn' (max n n') (Nat.le_max_right n n')
  exact Except.ok.inj (hleft.symm.trans hright)

/-! ## What is missed -/

theorem noGap_cons_iff {f : α → Option β} {rows : List α} {pages : List (List α)} :
    NoGap f (rows :: pages) ↔
      (rows.filterMap f = [] → ∀ later ∈ pages, later.filterMap f = []) ∧ NoGap f pages := by
  constructor
  · intro h
    refine ⟨h [] rows pages rfl, fun before rows' after hpages => ?_⟩
    exact h (rows :: before) rows' after (by rw [hpages, List.cons_append])
  · rintro ⟨hhead, htail⟩ before rows' after hpages
    cases before with
    | nil =>
        rcases List.cons.inj hpages with ⟨rfl, rfl⟩
        exact hhead
    | cons first before =>
        rcases List.cons.inj hpages with ⟨rfl, hrest⟩
        exact htail before rows' after hrest

theorem filterMap_flatten_eq_nil {f : α → Option β} {pages : List (List α)} :
    pages.flatten.filterMap f = [] ↔ ∀ rows ∈ pages, rows.filterMap f = [] := by
  simp only [List.filterMap_eq_nil_iff, List.mem_flatten]
  constructor
  · exact fun h rows hrows row hrow => h row ⟨rows, hrows, hrow⟩
  · rintro h row ⟨rows, hrows, hrow⟩
    exact h rows hrows row hrow

theorem length_found_le (f : α → Option β) (pages : List (List α)) :
    (found f pages).length ≤ (pages.flatten.filterMap f).length := by
  induction pages with
  | nil => simp [found]
  | cons rows pages ih =>
      rw [List.flatten_cons, List.filterMap_append, found]
      cases hhits : rows.filterMap f with
      | nil => simp
      | cons hit hits =>
          simp only [List.length_append, List.length_cons]
          omega

/-- All hits are found if and only if there is no gap. -/
theorem length_found_eq_iff {f : α → Option β} {pages : List (List α)} :
    (found f pages).length = (pages.flatten.filterMap f).length ↔ NoGap f pages := by
  induction pages with
  | nil =>
      refine iff_of_true rfl fun before rows after hpages => ?_
      simp at hpages
  | cons rows pages ih =>
      rw [noGap_cons_iff, List.flatten_cons, List.filterMap_append, found, ← ih]
      have hle := length_found_le f pages
      cases hhits : rows.filterMap f with
      | nil =>
          -- Nothing is found from here on.
          have hnone : ([] : List β).length = ([] ++ pages.flatten.filterMap f).length ↔
              ∀ later ∈ pages, later.filterMap f = [] := by
            rw [← filterMap_flatten_eq_nil, List.nil_append, List.length_nil, eq_comm,
              List.length_eq_zero_iff]
          constructor
          · intro h
            have hlater := hnone.1 h
            refine ⟨fun _ => hlater, ?_⟩
            have hempty := filterMap_flatten_eq_nil.2 hlater
            rw [hempty] at hle ⊢
            exact Nat.le_zero.1 hle
          · exact fun h => hnone.2 (h.1 rfl)
      | cons hit hits =>
          simp only [List.length_append, List.length_cons, reduceCtorEq, false_implies, true_and]
          omega

theorem found_eq_of_noGap {f : α → Option β} {pages : List (List α)} (h : NoGap f pages) :
    found f pages = pages.flatten.filterMap f := by
  induction pages with
  | nil => rfl
  | cons rows pages ih =>
      rcases noGap_cons_iff.1 h with ⟨hhead, htail⟩
      rw [List.flatten_cons, List.filterMap_append, found]
      cases hhits : rows.filterMap f with
      | nil => rw [filterMap_flatten_eq_nil.2 (hhead hhits), List.append_nil]
      | cons hit hits => rw [ih htail]

theorem map_found {γ : Type*} {f : α → Option β} {g : α → Option γ} {h : β → γ}
    (hfg : ∀ a, (f a).map h = g a) (pages : List (List α)) :
    (found f pages).map h = found g pages := by
  induction pages with
  | nil => rfl
  | cons rows pages ih =>
      have hrows : rows.filterMap g = (rows.filterMap f).map h := by
        rw [List.map_filterMap]
        exact List.filterMap_congr fun a _ => (hfg a).symm
      rw [found, found, hrows]
      cases rows.filterMap f with
      | nil => rfl
      | cons hit hits => simp [ih]

theorem mem_flatten_of_mem_found {f : α → Option β} {pages : List (List α)} {b : β}
    (hb : b ∈ found f pages) : ∃ a ∈ pages.flatten, f a = some b := by
  induction pages with
  | nil => cases hb
  | cons rows pages ih =>
      rw [found] at hb
      cases hhits : rows.filterMap f with
      | nil => simp [hhits] at hb
      | cons hit hits =>
          rw [hhits] at hb
          rw [List.flatten_cons]
          rcases List.mem_append.1 hb with hb | hb
          · rw [← hhits] at hb
            rcases List.mem_filterMap.1 hb with ⟨a, ha, hfa⟩
            exact ⟨a, List.mem_append_left _ ha, hfa⟩
          · rcases ih hb with ⟨a, ha, hfa⟩
            exact ⟨a, List.mem_append_right _ ha, hfa⟩

/-- What is found is all, in any order, if and only if there is no gap. -/
theorem perm_found_iff {f : α → Option β} {pages : List (List α)} :
    (found f pages).Perm (pages.flatten.filterMap f) ↔ NoGap f pages := by
  constructor
  · exact fun h => length_found_eq_iff.1 h.length_eq
  · intro h
    rw [found_eq_of_noGap h]

end EarlyStop
end InfraWeave
