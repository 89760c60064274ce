import Mathlib.Data.Finset.Card
import Mathlib.Logic.Relation
import Mathlib.Order.Defs.LinearOrder
/-!
# Sweeping a timeline in pages

Rows carry an instant.  A sweep goes through consecutive half-open windows and
takes from each a page: its earliest rows, at most `limit` of them.  It stops
when a window ends beyond `top`.  It reaches every row up to `top` exactly when
no window holds more of them than fit on a page.
-/

namespace Dbmaster.Lib.Sweep

variable {ρ T : Type*}

/-! ## A prefix of an ordered list -/

/-- When `p` holds of an initial part of the list, the first `n` elements have
all of `p` exactly when `p` holds of at most `n`. -/
theorem filter_length_le_iff {p : ρ → Bool} {xs : List ρ} (hnodup : xs.Nodup)
    (hdown : xs.Pairwise fun x y => p y = true → p x = true) (n : Nat) :
    (xs.filter p).length ≤ n ↔ ∀ x ∈ xs, p x = true → x ∈ xs.take n := by
  induction xs generalizing n with
  | nil => simp
  | cons y ys ih =>
      obtain ⟨hy, hnodup⟩ := List.nodup_cons.mp hnodup
      obtain ⟨hhead, hdown⟩ := List.pairwise_cons.mp hdown
      by_cases hpy : p y = true
      · rw [List.filter_cons_of_pos hpy, List.length_cons]
        cases n with
        | zero =>
            constructor
            · intro h
              omega
            · intro h
              exact absurd (h y List.mem_cons_self hpy) (by simp)
        | succ n =>
            rw [Nat.add_le_add_iff_right, ih hnodup hdown n, List.take_succ_cons]
            constructor
            · intro h x hx hpx
              rcases List.mem_cons.mp hx with rfl | hx
              · exact List.mem_cons_self
              · exact List.mem_cons_of_mem _ (h x hx hpx)
            · intro h x hx hpx
              rcases List.mem_cons.mp (h x (List.mem_cons_of_mem _ hx) hpx) with rfl | hx'
              · exact absurd hx hy
              · exact hx'
      · have hnone : ∀ x ∈ ys, ¬ p x = true := fun x hx hpx => hpy (hhead x hx hpx)
        rw [List.filter_cons_of_neg hpy, List.filter_eq_nil_iff.mpr hnone]
        constructor
        · intro _ x hx hpx
          rcases List.mem_cons.mp hx with rfl | hx
          · exact absurd hpx hpy
          · exact absurd hpx (hnone x hx)
        · intro _
          exact Nat.zero_le n

/-! ## Windows and pages -/

/-- Rows with the instant each of them carries, if any. -/
structure Timeline (ρ T : Type*) where
  rows : Finset ρ
  time : ρ → Option T

variable [LinearOrder T]

namespace Timeline

/-- The rows of the window from `lo` up to, but not including, `hi`. -/
def window (tl : Timeline ρ T) (lo hi : T) : Finset ρ :=
  tl.rows.filter fun r => (tl.time r).any fun t => decide (lo ≤ t ∧ t < hi)

def upTo (tl : Timeline ρ T) (top : T) (r : ρ) : Bool := (tl.time r).any fun t => decide (t ≤ top)

theorem mem_window {tl : Timeline ρ T} {lo hi : T} {r : ρ} :
    r ∈ tl.window lo hi ↔ r ∈ tl.rows ∧ ∃ t, tl.time r = some t ∧ lo ≤ t ∧ t < hi := by
  simp [window, Option.any_eq_true]

theorem upTo_iff {tl : Timeline ρ T} {top : T} {r : ρ} :
    tl.upTo top r = true ↔ ∃ t, tl.time r = some t ∧ t ≤ top := by
  simp [upTo, Option.any_eq_true]

/-- The rows of a window in the order of their instants, cut at `limit`. -/
def IsPage (tl : Timeline ρ T) (limit : Nat) (lo hi : T) (page : List ρ) : Prop :=
  ∃ sorted : List ρ, sorted.Nodup ∧ (∀ r, r ∈ sorted ↔ r ∈ tl.window lo hi) ∧
    (sorted.Pairwise fun r r' => ∀ t t', tl.time r = some t → tl.time r' = some t' → t ≤ t') ∧
    page = sorted.take limit

/-- The rows up to `top` of the window fit on a page. -/
def Fits (tl : Timeline ρ T) (limit : Nat) (top lo hi : T) : Prop :=
  ((tl.window lo hi).filter fun r => tl.upTo top r = true).card ≤ limit

variable {tl : Timeline ρ T} {limit : Nat} {top lo hi : T} {page : List ρ}

theorem IsPage.mem_window (h : tl.IsPage limit lo hi page) {r : ρ} (hr : r ∈ page) :
    r ∈ tl.window lo hi := by
  obtain ⟨sorted, -, hmem, -, rfl⟩ := h
  exact (hmem r).mp (List.mem_of_mem_take hr)

/-- The page has every row up to `top` of its window exactly when these fit. -/
theorem IsPage.fits_iff (h : tl.IsPage limit lo hi page) :
    tl.Fits limit top lo hi ↔
      ∀ r ∈ tl.window lo hi, tl.upTo top r = true → r ∈ page := by
  classical
  obtain ⟨sorted, hnodup, hmem, hsorted, rfl⟩ := h
  have hcard : ((tl.window lo hi).filter fun r => tl.upTo top r = true).card =
      (sorted.filter (tl.upTo top)).length := by
    rw [← List.toFinset_card_of_nodup (hnodup.filter _)]
    congr 1
    ext r
    simp [hmem]
  have hdown : sorted.Pairwise fun r r' => tl.upTo top r' = true → tl.upTo top r = true := by
    refine hsorted.imp_of_mem fun {r r'} hr _ hle hup => ?_
    obtain ⟨t', ht', htop⟩ := upTo_iff.mp hup
    obtain ⟨-, t, ht, -⟩ := Timeline.mem_window.mp ((hmem r).mp hr)
    exact upTo_iff.mpr ⟨t, ht, le_trans (hle t t' ht ht') htop⟩
  rw [Fits, hcard, filter_length_le_iff hnodup hdown]
  simp only [hmem]

/-- A page that fits, of a timeline that ends at `top`, is its window. -/
theorem IsPage.exact (h : tl.IsPage limit lo hi page) (hfits : tl.Fits limit top lo hi)
    (htop : ∀ r ∈ tl.rows, ∀ t, tl.time r = some t → t ≤ top) :
    page.Nodup ∧ ∀ r, r ∈ page ↔ r ∈ tl.window lo hi := by
  refine ⟨?_, fun r => ⟨h.mem_window, fun hr => ?_⟩⟩
  · obtain ⟨sorted, hnodup, -, -, rfl⟩ := h
    exact hnodup.sublist (List.take_sublist limit sorted)
  · obtain ⟨hrow, t, ht, -, -⟩ := Timeline.mem_window.mp hr
    exact h.fits_iff.mp hfits r hr (upTo_iff.mpr ⟨t, ht, htop r hrow t ht⟩)

end Timeline

/-! ## Sweeps -/

open Timeline

/-- The pages of a sweep that starts at an instant. -/
inductive Sweeps (tl : Timeline ρ T) (limit : Nat) (step : T → Option T) (top : T) :
    T → List (List ρ) → Prop
  | last {lo hi : T} {page : List ρ} (hstep : step lo = some hi)
      (hpage : tl.IsPage limit lo hi page) (hend : top < hi) : Sweeps tl limit step top lo [page]
  | more {lo hi : T} {page : List ρ} {pages : List (List ρ)} (hstep : step lo = some hi)
      (hpage : tl.IsPage limit lo hi page) (hgo : ¬ top < hi)
      (hrest : Sweeps tl limit step top hi pages) : Sweeps tl limit step top lo (page :: pages)

/-- The window starts that the steps lead to. -/
def Leads (step : T → Option T) : T → T → Prop :=
  Relation.ReflTransGen fun t u => step t = some u

/-- In every window that starts by `top`, the rows up to `top` fit on a page. -/
def EveryWindowFits (tl : Timeline ρ T) (limit : Nat) (step : T → Option T) (top start : T) :
    Prop :=
  ∀ lo hi, Leads step start lo → step lo = some hi → lo ≤ top → tl.Fits limit top lo hi

/-- Some page has every row between `start` and `top`. -/
def Reaches (tl : Timeline ρ T) (top start : T) (pages : List (List ρ)) : Prop :=
  ∀ r ∈ tl.rows, ∀ t, tl.time r = some t → start ≤ t → t ≤ top → ∃ page ∈ pages, r ∈ page

variable {tl : Timeline ρ T} {limit : Nat} {step : T → Option T} {top start lo hi : T}
variable {pages : List (List ρ)}

theorem le_of_leads (hup : ∀ t u, step t = some u → t < u) (h : Leads step lo hi) : lo ≤ hi := by
  induction h with
  | refl => exact le_rfl
  | tail _ hstep ih => exact le_trans ih (le_of_lt (hup _ _ hstep))

theorem everyWindowFits_step (hstep : step lo = some hi) :
    EveryWindowFits tl limit step top lo ↔
      (lo ≤ top → tl.Fits limit top lo hi) ∧ EveryWindowFits tl limit step top hi := by
  constructor
  · intro h
    refine ⟨fun hle => h lo hi .refl hstep hle, ?_⟩
    intro lo' hi' hleads
    exact h lo' hi' (.head hstep hleads)
  · rintro ⟨hfirst, hrest⟩ lo' hi' hleads hstep' hle
    rcases Relation.ReflTransGen.cases_head hleads with rfl | ⟨mid, hmid, hleads⟩
    · rw [hstep, Option.some.injEq] at hstep'
      subst hstep'
      exact hfirst hle
    · rw [hstep, Option.some.injEq] at hmid
      subst hmid
      exact hrest lo' hi' hleads hstep' hle

theorem everyWindowFits_beyond (hup : ∀ t u, step t = some u → t < u) (hbeyond : top < start) :
    EveryWindowFits tl limit step top start := by
  intro lo hi hleads _ hle
  exact absurd hle (not_le_of_gt (lt_of_lt_of_le hbeyond (le_of_leads hup hleads)))

/-- A sweep that moves forward has only rows from its start on. -/
theorem Sweeps.start_le (hup : ∀ t u, step t = some u → t < u)
    (h : Sweeps tl limit step top lo pages) {page : List ρ} (hpage : page ∈ pages) {r : ρ}
    (hr : r ∈ page) : ∃ t, tl.time r = some t ∧ lo ≤ t := by
  induction h with
  | last hstep hpage' hend =>
      rw [List.mem_singleton] at hpage
      subst hpage
      obtain ⟨-, t, ht, hlo, -⟩ := Timeline.mem_window.mp (hpage'.mem_window hr)
      exact ⟨t, ht, hlo⟩
  | more hstep hpage' hgo hrest ih =>
      rcases List.mem_cons.mp hpage with rfl | hpage
      · obtain ⟨-, t, ht, hlo, -⟩ := Timeline.mem_window.mp (hpage'.mem_window hr)
        exact ⟨t, ht, hlo⟩
      · obtain ⟨t, ht, hhi⟩ := ih hpage
        exact ⟨t, ht, le_trans (le_of_lt (hup _ _ hstep)) hhi⟩

theorem Sweeps.reaches_iff_of_forward (hup : ∀ t u, step t = some u → t < u)
    (h : Sweeps tl limit step top lo pages) :
    Reaches tl top lo pages ↔ EveryWindowFits tl limit step top lo := by
  induction h with
  | @last lo hi page hstep hpage hend =>
      rw [everyWindowFits_step hstep]
      constructor
      · intro hreach
        refine ⟨fun _ => hpage.fits_iff.mpr fun r hr hup' => ?_, everyWindowFits_beyond hup hend⟩
        obtain ⟨hrow, t, ht, hlo, -⟩ := Timeline.mem_window.mp hr
        obtain ⟨t', ht', htop⟩ := upTo_iff.mp hup'
        rw [ht, Option.some.injEq] at ht'
        obtain ⟨page', hmem, hr'⟩ := hreach r hrow t ht hlo (ht' ▸ htop)
        rwa [List.mem_singleton.mp hmem] at hr'
      · rintro ⟨hfits, -⟩ r hrow t ht hlo htop
        have hwindow : r ∈ tl.window lo hi :=
          Timeline.mem_window.mpr ⟨hrow, t, ht, hlo, lt_of_le_of_lt htop hend⟩
        exact ⟨page, List.mem_singleton_self _,
          hpage.fits_iff.mp (hfits (le_trans hlo htop)) r hwindow (upTo_iff.mpr ⟨t, ht, htop⟩)⟩
  | @more lo hi page pages hstep hpage hgo hrest ih =>
      rw [everyWindowFits_step hstep, ← ih]
      constructor
      · intro hreach
        constructor
        · refine fun _ => hpage.fits_iff.mpr fun r hr hup' => ?_
          obtain ⟨hrow, t, ht, hlo, hhi⟩ := Timeline.mem_window.mp hr
          obtain ⟨t', ht', htop⟩ := upTo_iff.mp hup'
          rw [ht, Option.some.injEq] at ht'
          obtain ⟨page', hmem, hr'⟩ := hreach r hrow t ht hlo (ht' ▸ htop)
          rcases List.mem_cons.mp hmem with rfl | hmem
          · exact hr'
          · -- the later pages start where this window ends
            obtain ⟨u, hu, hle⟩ := hrest.start_le hup hmem hr'
            rw [ht, Option.some.injEq] at hu
            exact absurd hhi (not_lt_of_ge (hu ▸ hle))
        · intro r hrow t ht hhi htop
          obtain ⟨page', hmem, hr'⟩ :=
            hreach r hrow t ht (le_trans (le_of_lt (hup _ _ hstep)) hhi) htop
          rcases List.mem_cons.mp hmem with rfl | hmem
          · obtain ⟨-, u, hu, -, hlt⟩ := Timeline.mem_window.mp (hpage.mem_window hr')
            rw [ht, Option.some.injEq] at hu
            exact absurd hhi (not_le_of_gt (hu ▸ hlt))
          · exact ⟨page', hmem, hr'⟩
      · rintro ⟨hfits, hreach⟩ r hrow t ht hlo htop
        by_cases hlt : t < hi
        · have hwindow : r ∈ tl.window lo hi := Timeline.mem_window.mpr ⟨hrow, t, ht, hlo, hlt⟩
          exact ⟨page, List.mem_cons_self, hpage.fits_iff.mp (hfits (le_trans hlo htop)) r
            hwindow (upTo_iff.mpr ⟨t, ht, htop⟩)⟩
        · obtain ⟨page', hmem, hr⟩ := hreach r hrow t ht (le_of_not_gt hlt) htop
          exact ⟨page', List.mem_cons_of_mem _ hmem, hr⟩

/-- A sweep that moves backward ends only if it starts beyond `top`. -/
theorem Sweeps.beyond_of_backward (hdown : ∀ t u, step t = some u → u < t)
    (h : Sweeps tl limit step top lo pages) : top < lo := by
  induction h with
  | last hstep _ hend => exact lt_trans hend (hdown _ _ hstep)
  | more hstep _ _ _ ih => exact lt_trans ih (hdown _ _ hstep)

theorem fits_of_backward (hle : hi ≤ lo) : tl.Fits limit top lo hi := by
  have hempty : tl.window lo hi = ∅ := by
    rw [Finset.eq_empty_iff_forall_notMem]
    intro r hr
    obtain ⟨-, t, -, hlo, hhi⟩ := Timeline.mem_window.mp hr
    exact absurd (lt_of_le_of_lt hlo hhi) (not_lt_of_ge hle)
  simp [Fits, hempty]

theorem Sweeps.reaches_iff_of_backward (hdown : ∀ t u, step t = some u → u < t)
    (h : Sweeps tl limit step top lo pages) :
    Reaches tl top lo pages ↔ EveryWindowFits tl limit step top lo := by
  have hbeyond := h.beyond_of_backward hdown
  constructor
  · intro _ lo' hi' _ hstep _
    exact fits_of_backward (le_of_lt (hdown _ _ hstep))
  · intro _ r _ t _ hlo htop
    exact absurd (lt_of_lt_of_le hbeyond (le_trans hlo htop)) (lt_irrefl _)

end Dbmaster.Lib.Sweep
