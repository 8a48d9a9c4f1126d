import Mathlib.Data.List.Sort
import Mathlib.Tactic

/-! Walking through a listing page by page. A client asks for the page at a position, goes
on at the position that the page tells it, and stops at an empty page. If every page is the
beginning of what is left, the pages make up the listing as far as the walk came. -/

namespace RefractContracts.Host

variable {α : Type*}

/-- `Walk page next i ps j`: from position `i` the client sees the pages `ps` and stops at `j`. -/
inductive Walk (page : ℕ → List α) (next : ℕ → List α → ℕ) : ℕ → List (List α) → ℕ → Prop
  | done {i : ℕ} (empty : page i = []) : Walk page next i [] i
  | more {i j : ℕ} {ps : List (List α)} (nonempty : page i ≠ [])
      (rest : Walk page next (next i (page i)) ps j) : Walk page next i (page i :: ps) j

variable {page : ℕ → List α} {next : ℕ → List α → ℕ} {rest : ℕ → List α} {i j : ℕ}
  {ps : List (List α)}

/-- Positions that advance below a bound come to an end. -/
theorem exists_walk (bound : ℕ)
    (h : ∀ i, page i ≠ [] → i < next i (page i) ∧ next i (page i) ≤ bound) (i : ℕ) :
    ∃ ps j, Walk page next i ps j := by
  induction hn : bound - i using Nat.strong_induction_on generalizing i with
  | _ n ih =>
    by_cases hpage : page i = []
    · exact ⟨[], i, .done hpage⟩
    · obtain ⟨hlt, hle⟩ := h i hpage
      obtain ⟨ps, j, w⟩ := ih (bound - next i (page i)) (by omega) _ rfl
      exact ⟨_, j, .more hpage w⟩

namespace Walk

theorem ends (w : Walk page next i ps j) : page j = [] := by
  induction w with
  | done empty => exact empty
  | more nonempty rest ih => exact ih

/-- The pages, and then what is left where the walk stops. -/
theorem split (h : ∀ i, page i ≠ [] → rest i = page i ++ rest (next i (page i)))
    (w : Walk page next i ps j) : rest i = ps.flatten ++ rest j := by
  induction w with
  | done empty => rfl
  | more nonempty w ih => rw [h _ nonempty, ih, List.flatten_cons, List.append_assoc]

/-- What the pages keep of a position holds where the walk stops. -/
theorem keeps {I : ℕ → Prop} (h : ∀ i, page i ≠ [] → I i → I (next i (page i)))
    (w : Walk page next i ps j) (hi : I i) : I j := by
  induction w with
  | done empty => exact hi
  | more nonempty rest ih => exact ih (h _ nonempty hi)

end Walk

/-! ### Listings by position -/

theorem filterMap_range' (xs : List α) (i n : ℕ) :
    (List.range' i n).filterMap (xs[·]?) = (xs.drop i).take n := by
  induction n generalizing i with
  | zero => rfl
  | succ n ih =>
    rw [List.range'_succ]
    rcases lt_or_ge i xs.length with hi | hi
    · rw [List.filterMap_cons_some (List.getElem?_eq_getElem hi), ih, List.drop_eq_getElem_cons hi,
        List.take_succ_cons]
    · rw [List.filterMap_cons_none (List.getElem?_eq_none hi), ih, List.drop_of_length_le hi,
        List.drop_of_length_le (hi.trans (Nat.le_succ i)), List.take_nil, List.take_nil]

section Positions
variable {xs : List α} {limit : ℕ} (hpage : ∀ i, page i = (xs.drop i).take limit)
include hpage

theorem position_le (i : ℕ) (hne : page i ≠ []) : i + (page i).length ≤ xs.length := by
  have hpos := List.length_pos_iff.mpr hne
  rw [hpage, List.length_take, List.length_drop] at hpos ⊢
  omega

theorem exists_walk_positions : ∃ ps j, Walk page (fun i p => i + p.length) 0 ps j := by
  refine exists_walk xs.length (fun i hne => ⟨?_, position_le hpage i hne⟩) 0
  exact Nat.lt_add_of_pos_right (List.length_pos_iff.mpr hne)

/-- Pages of up to `limit` entries, each from behind the page before, are the whole list. -/
theorem walk_positions (hlimit : limit ≠ 0) (w : Walk page (fun i p => i + p.length) 0 ps j) :
    ps.flatten = xs ∧ j = xs.length := by
  have hsplit (i : ℕ) : xs.drop i = page i ++ xs.drop (i + (page i).length) := by
    rw [hpage, ← List.drop_drop]
    exact (List.prefix_iff_eq_append.mp (List.take_prefix _ _)).symm
  have hends := w.ends
  rw [hpage, List.take_eq_nil_iff, or_iff_right hlimit] at hends
  have hle : j ≤ xs.length :=
    w.keeps (I := (· ≤ xs.length)) (fun i hne _ => position_le hpage i hne) (Nat.zero_le _)
  refine ⟨?_, hle.antisymm (List.drop_eq_nil_iff.mp hends)⟩
  rw [← List.drop_zero (l := xs), w.split (fun i _ => hsplit i), hends, List.append_nil]

end Positions

/-! ### Listings by key -/

section Keys
variable {key : α → ℕ} {xs p q : List α}

theorem mem_rest {x : α} : x ∈ xs.filter (i ≤ key ·) ↔ x ∈ xs ∧ i ≤ key x := by
  rw [List.mem_filter, decide_eq_true_iff]

/-- Behind the last key of a page is what the page left. -/
theorem filter_next (hxs : xs.Pairwise (key · < key ·))
    (hsplit : xs.filter (i ≤ key ·) = p ++ q) (hp : p ≠ []) :
    xs.filter (key (p.getLast hp) + 1 ≤ key ·) = q := by
  have hlast : i ≤ key (p.getLast hp) := by
    have hmem : p.getLast hp ∈ xs.filter (i ≤ key ·) :=
      hsplit ▸ List.mem_append_left _ (List.getLast_mem hp)
    exact (mem_rest.mp hmem).2
  have hsorted : (p ++ q).Pairwise (key · < key ·) := hsplit ▸ hxs.filter _
  obtain ⟨hps, -, hpq⟩ := List.pairwise_append.mp hsorted
  have htwice : xs.filter (key (p.getLast hp) + 1 ≤ key ·) =
      (p ++ q).filter (key (p.getLast hp) + 1 ≤ key ·) := by
    rw [← hsplit, List.filter_filter]
    refine List.filter_congr fun x _ => ?_
    rw [← Bool.decide_and]
    exact decide_eq_decide.mpr (by omega)
  have hpage : p.filter (key (p.getLast hp) + 1 ≤ key ·) = [] := by
    refine List.filter_eq_nil_iff.mpr fun x hx => ?_
    rw [decide_eq_true_eq, not_le]
    rcases eq_or_ne x (p.getLast hp) with rfl | hne
    · exact Nat.lt_succ_self _
    · rw [← List.dropLast_append_getLast hp] at hps hx
      have hinit := (List.mem_append.mp hx).resolve_right fun h => hne (List.mem_singleton.mp h)
      exact Nat.lt_succ_of_lt
        ((List.pairwise_append.mp hps).2.2 x hinit _ (List.mem_singleton_self _))
  have hrest : q.filter (key (p.getLast hp) + 1 ≤ key ·) = q :=
    List.filter_eq_self.mpr fun x hx => decide_eq_true (hpq _ (List.getLast_mem hp) x hx)
  rw [htwice, List.filter_append, hpage, hrest, List.nil_append]

/-- The key behind the last entry of a page, where a client goes on. -/
def afterLast (key : α → ℕ) (i : ℕ) (p : List α) : ℕ := p.getLast?.elim i (key · + 1)

theorem afterLast_eq (hp : p ≠ []) : afterLast key i p = key (p.getLast hp) + 1 := by
  rw [afterLast, List.getLast?_eq_some_getLast hp, Option.elim_some]

section Pages
variable (hxs : xs.Pairwise (key · < key ·)) (hpage : ∀ i, page i <+: xs.filter (i ≤ key ·))
include hpage

/-- The last entry of a page is one of the listing, and not in front of the position. -/
theorem last_mem (i : ℕ) (hne : page i ≠ []) :
    (page i).getLast hne ∈ xs ∧ i ≤ key ((page i).getLast hne) :=
  mem_rest.mp ((hpage i).mem (List.getLast_mem hne))

theorem exists_walk_keys (bound : ℕ) (hbound : ∀ x ∈ xs, key x < bound) (i : ℕ) :
    ∃ ps j, Walk page (afterLast key) i ps j := by
  refine exists_walk bound (fun i hne => ?_) i
  obtain ⟨hmem, hle⟩ := last_mem hpage i hne
  rw [afterLast_eq hne]
  exact ⟨Nat.lt_succ_of_le hle, hbound _ hmem⟩

include hxs

theorem page_split (i : ℕ) (hne : page i ≠ []) : xs.filter (i ≤ key ·) =
    page i ++ xs.filter (afterLast key i (page i) ≤ key ·) := by
  obtain ⟨q, hq⟩ := hpage i
  rw [afterLast_eq hne, filter_next hxs hq.symm hne, hq]

/-- A walk has seen everything from its start on exactly if nothing is left where it stops. -/
theorem walk_complete_iff (w : Walk page (afterLast key) i ps j) :
    (∀ x ∈ xs, i ≤ key x → x ∈ ps.flatten) ↔ ∀ x ∈ xs, key x < j := by
  have hsplit : xs.filter (i ≤ key ·) = ps.flatten ++ xs.filter (j ≤ key ·) :=
    w.split (page_split hxs hpage)
  have hsorted : (ps.flatten ++ xs.filter (j ≤ key ·)).Pairwise (key · < key ·) :=
    hsplit ▸ hxs.filter _
  constructor
  · intro hall x hx
    by_contra hge
    have hle : i ≤ j := w.keeps (I := (i ≤ ·)) (fun k hne hk => by
      have := (last_mem hpage k hne).2
      rw [afterLast_eq hne]
      omega) le_rfl
    have hseen := hall x hx (hle.trans (not_lt.mp hge))
    have hleft := mem_rest.mpr ⟨hx, not_lt.mp hge⟩
    exact lt_irrefl _ ((List.pairwise_append.mp hsorted).2.2 x hseen x hleft)
  · intro hnone x hx hi
    have hmem := mem_rest.mpr ⟨hx, hi⟩
    rw [hsplit] at hmem
    refine (List.mem_append.mp hmem).resolve_right fun hleft => ?_
    have := (mem_rest.mp hleft).2
    have := hnone x hx
    omega

end Pages

/-! ### Scans with a budget -/

/-- From `i` on every key is less than `n` away from the start, or at most `n` behind another. -/
def WithinReach (key : α → ℕ) (xs : List α) (n i : ℕ) : Prop :=
  ∀ x ∈ xs, i ≤ key x →
    key x < i + n ∨ ∃ y ∈ xs, i ≤ key y ∧ key y < key x ∧ key x ≤ key y + n

section Scans
variable {n : ℕ} (hxs : xs.Pairwise (key · < key ·))
  (hpage : ∀ i, page i <+: xs.filter (i ≤ key ·)) (hscan : ∀ i, ∀ x ∈ page i, key x < i + n)
  (hempty : ∀ i, page i = [] → ∀ x ∈ xs, i ≤ key x → i + n ≤ key x)
include hxs hpage hscan

/-- A page leaves what is within reach within reach, and nothing else. -/
theorem withinReach_next (i : ℕ) (hne : page i ≠ []) :
    WithinReach key xs n i ↔ WithinReach key xs n (afterLast key i (page i)) := by
  have hsplit := page_split hxs hpage i hne
  obtain ⟨hmem, hle⟩ := last_mem hpage i hne
  rw [afterLast_eq hne] at hsplit ⊢
  generalize (page i).getLast hne = last at hsplit hmem hle ⊢
  constructor
  · intro h x hx hi
    rcases h x hx (by omega) with hlt | ⟨y, hy, hiy, hyx, hxy⟩
    · exact .inl (by omega)
    · rcases lt_or_ge (key y) (key last + 1) with hlast | hlast
      · exact .inl (by omega)
      · exact .inr ⟨y, hy, hlast, hyx, hxy⟩
  · intro h x hx hi
    rcases lt_or_ge (key x) (key last + 1) with hlast | hlast
    · have hx' := mem_rest.mpr ⟨hx, hi⟩
      rw [hsplit] at hx'
      refine .inl (hscan i x ((List.mem_append.mp hx').resolve_right fun hleft => ?_))
      have := (mem_rest.mp hleft).2
      omega
    · rcases h x hx hlast with hlt | ⟨y, hy, hiy, hyx, hxy⟩
      · exact .inr ⟨last, hmem, hle, by omega, by omega⟩
      · exact .inr ⟨y, hy, by omega, hyx, hxy⟩

include hempty

/-- Scans of `n` keys each leave nothing behind exactly if everything is within reach. -/
theorem walk_scans_iff (w : Walk page (afterLast key) i ps j) :
    (∀ x ∈ xs, key x < j) ↔ WithinReach key xs n i := by
  induction w with
  | @done i empty =>
    constructor
    · intro h x hx hi
      exact absurd (h x hx) (by omega)
    · -- nothing is in the first scan, so whatever is near it is nearer than something else
      intro h x hx
      by_contra hge
      induction hk : key x using Nat.strong_induction_on generalizing x with
      | _ k ih =>
        rcases h x hx (by omega) with hlt | ⟨y, hy, hiy, hyx, -⟩
        · have := hempty i empty x hx (by omega)
          omega
        · exact ih (key y) (hk ▸ hyx) y hy (by omega) rfl
  | @more i j ps nonempty rest ih => rw [ih, ← withinReach_next hxs hpage hscan i nonempty]

end Scans

end Keys

end RefractContracts.Host
