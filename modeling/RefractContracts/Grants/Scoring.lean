import Mathlib.Data.Prod.Lex
import RefractContracts.Host.Outcome
import RefractContracts.Host.Ranking

/-! Scoring of grant applications. The weights of a rubric add up to a whole, so the weighted
total of a reviewer's scores lies between the lowest and the highest of them. The shortlist
takes applications by total, highest first, and by lower id among equal totals. -/

namespace RefractContracts.Grants

open Host

/-- Basis points in a whole rubric. -/
def fullWeight : ℕ := 10000

/-- Highest score of one criterion. -/
def maxScore : ℕ := 10000

inductive ScoringError where
  | invalidWeights
  | duplicateCriterion
  | scoreOutOfRange
  | unknownCriterion
  | missingCriterion
  deriving DecidableEq, Repr

abbrev Scoring (α : Type) := Outcome ScoringError α

/-- Criteria and their weights. -/
structure Rubric where
  weights : Std.TreeMap ℕ ℕ

namespace Rubric

/-- One round of the loop over the criteria. -/
def addCriterion (weights : Std.TreeMap ℕ ℕ) (entry : ℕ × ℕ) : Scoring (Std.TreeMap ℕ ℕ) := do
  let (criterion, weight) := entry
  bail (weight = 0) .invalidWeights
  bail (criterion ∈ weights) .duplicateCriterion
  pure (weights.insert criterion weight)

/-- A rubric of positive weights that add up to a whole. -/
def new (criteria : List (ℕ × ℕ)) : Scoring Rubric := do
  let weights ← criteria.foldlM addCriterion ∅
  let total ← (weights.toList.map Prod.snd).foldlM (fun total weight => u64 (total + weight)) 0
  bail (total ≠ fullWeight) .invalidWeights
  pure ⟨weights⟩

/-- One round of the loop over the weights. -/
def addScore (scores : Std.TreeMap ℕ ℕ) (weighted : ℕ) (entry : ℕ × ℕ) : Scoring ℕ := do
  let (criterion, weight) := entry
  let score ← okOr scores[criterion]? .missingCriterion
  bail (maxScore < score) .scoreOutOfRange
  let product ← u64 (score * weight)
  u64 (weighted + product)

/-- The weighted total of the scores; the cast to `u32` keeps the low bits. -/
def total (rubric : Rubric) (scores : Std.TreeMap ℕ ℕ) : Scoring ℕ := do
  forM scores.keys fun criterion => bail (criterion ∉ rubric.weights) .unknownCriterion
  let weighted ← rubric.weights.toList.foldlM (addScore scores) 0
  pure (weighted / fullWeight % 2 ^ 32)

end Rubric

/-- The order of the shortlist: higher totals first, lower ids first among equal ones. -/
def ranksBefore (a b : ℕ × ℕ) : Prop := b.2 < a.2 ∨ (a.2 = b.2 ∧ a.1 ≤ b.1)

instance : DecidableRel ranksBefore := fun a b =>
  inferInstanceAs (Decidable (b.2 < a.2 ∨ (a.2 = b.2 ∧ a.1 ≤ b.1)))

/-- The ids of the best applications, at most `limit` of them. -/
def shortlist (totals : Std.TreeMap ℕ ℕ) (limit : ℕ) : List ℕ :=
  ((totals.toList.insertionSort ranksBefore).take limit).map Prod.fst

/-! ### Totals -/

namespace Rubric

/-- The weights add up to a whole. -/
def Whole (rubric : Rubric) : Prop := (rubric.weights.toList.map Prod.snd).sum = fullWeight

/-- Every criterion is scored and nothing else, and no score is above the highest. -/
structure Complete (rubric : Rubric) (scores : Std.TreeMap ℕ ℕ) : Prop where
  criteria : ∀ criterion, criterion ∈ scores ↔ criterion ∈ rubric.weights
  range : ∀ (criterion score : ℕ), scores[criterion]? = some score → score ≤ maxScore

variable {rubric : Rubric} {scores scores' : Std.TreeMap ℕ ℕ} {criteria : List (ℕ × ℕ)}

/-- A sum that is in range was added up exactly. -/
theorem foldlM_u64 {l : List ℕ} {acc n : ℕ}
    (h : l.foldlM (fun total weight => (u64 (total + weight) : Scoring ℕ)) acc = .ok n) :
    n = acc + l.sum := by
  induction l generalizing acc with
  | nil => exact ((pure_eq_ok _ _).mp h).symm
  | cons w l ih =>
    rw [List.foldlM_cons, bind_eq_ok] at h
    obtain ⟨mid, hmid, h⟩ := h
    obtain ⟨-, rfl⟩ := (u64_eq_ok _ _).mp hmid
    rw [ih h, List.sum_cons, add_assoc]

theorem new_whole (h : new criteria = .ok rubric) : rubric.Whole := by
  simp only [new, bind_eq_ok, bail_eq_ok, pure_eq_ok, not_not] at h
  obtain ⟨weights, -, n, hsum, -, rfl, rfl⟩ := h
  rw [Whole, foldlM_u64 hsum, zero_add]

/-- The score of a criterion of the rubric. -/
def scored (scores : Std.TreeMap ℕ ℕ) (entry : ℕ × ℕ) : ℕ := scores.getD entry.1 0

/-- The sum of the scores times their weights. -/
def weighted (rubric : Rubric) (scores : Std.TreeMap ℕ ℕ) : ℕ :=
  (rubric.weights.toList.map fun e => scored scores e * e.2).sum

theorem Complete.scored_eq (hc : rubric.Complete scores) {e : ℕ × ℕ}
    (he : e ∈ rubric.weights.toList) :
    scores[e.1]? = some (scored scores e) ∧ scored scores e ≤ maxScore := by
  have hkey : rubric.weights[e.1]? = some e.2 :=
    Std.TreeMap.mem_toList_iff_getElem?_eq_some.mp he
  have hmem : e.1 ∈ scores := (hc.criteria _).mpr (by
    rw [Std.TreeMap.mem_iff_isSome_getElem?, hkey]
    rfl)
  rw [Std.TreeMap.mem_iff_isSome_getElem?, Option.isSome_iff_exists] at hmem
  obtain ⟨score, hscore⟩ := hmem
  have heq : scored scores e = score := by
    rw [scored, Std.TreeMap.getD_eq_getD_getElem?, hscore, Option.getD_some]
  rw [heq]
  exact ⟨hscore, hc.range _ _ hscore⟩

/-- The loop over the weights adds up the products, which are in range. -/
theorem foldlM_addScore {l : List (ℕ × ℕ)} {acc : ℕ}
    (hl : ∀ e ∈ l, scores[e.1]? = some (scored scores e) ∧ scored scores e ≤ maxScore)
    (hfit : acc + maxScore * (l.map Prod.snd).sum ≤ maxU64) :
    l.foldlM (addScore scores) acc = .ok (acc + (l.map fun e => scored scores e * e.2).sum) := by
  induction l generalizing acc with
  | nil => simp [pure, Except.pure]
  | cons e l ih =>
    obtain ⟨⟨hscore, hle⟩, hl⟩ := List.forall_mem_cons.mp hl
    rw [List.map_cons, List.sum_cons, mul_add] at hfit
    have hproduct : scored scores e * e.2 ≤ maxScore * e.2 := Nat.mul_le_mul_right _ hle
    have hround : addScore scores acc e = .ok (acc + scored scores e * e.2) := by
      simp only [addScore, hscore, bind_eq_ok, okOr_eq_ok, bail_eq_ok, u64_eq_ok, not_lt]
      exact ⟨_, rfl, (), hle, _, ⟨by omega, rfl⟩, by omega, rfl⟩
    rw [List.foldlM_cons, hround, ok_bind, ih hl (by omega), List.map_cons, List.sum_cons,
      add_assoc]

/-- The total of complete scores is their weighted average, rounded down. -/
theorem total_eq (hw : rubric.Whole) (hc : rubric.Complete scores) :
    rubric.total scores = .ok (rubric.weighted scores / fullWeight) := by
  have hentries : ∀ e ∈ rubric.weights.toList,
      scores[e.1]? = some (scored scores e) ∧ scored scores e ≤ maxScore :=
    fun e he => hc.scored_eq he
  have hknown : forM scores.keys (fun criterion =>
      (bail (criterion ∉ rubric.weights) .unknownCriterion : Scoring Unit)) = .ok () := by
    refine forM_eq_ok.mpr fun criterion hcriterion => bail_of_not ?_ _
    exact not_not.mpr ((hc.criteria _).mp (Std.TreeMap.mem_keys.mp hcriterion))
  have hloop : rubric.weights.toList.foldlM (addScore scores) 0 = .ok (rubric.weighted scores) := by
    rw [foldlM_addScore hentries (by rw [hw]; decide), zero_add]
    rfl
  have hrange : rubric.weighted scores / fullWeight < 2 ^ 32 := by
    have hle := average_le Prod.snd fun e he => (hentries e he).2
    rw [hw] at hle
    exact (Nat.div_le_of_le_mul (hle.trans_eq (mul_comm _ _))).trans_lt (by decide)
  rw [total, hknown, ok_bind, hloop, ok_bind, Nat.mod_eq_of_lt hrange]
  rfl

theorem weighted_eq_average (hw : rubric.Whole) :
    rubric.weighted scores / fullWeight =
      (rubric.weights.toList.map fun e => scored scores e * e.2).sum /
        (rubric.weights.toList.map Prod.snd).sum := by
  rw [hw, weighted]

/-- The total lies between the lowest and the highest score given. -/
theorem total_between (hw : rubric.Whole) (hc : rubric.Complete scores) :
    (∃ (criterion low : ℕ), scores[criterion]? = some low ∧
      low ≤ rubric.weighted scores / fullWeight) ∧
      ∃ (criterion high : ℕ), scores[criterion]? = some high ∧
        rubric.weighted scores / fullWeight ≤ high := by
  have hpos : 0 < (rubric.weights.toList.map Prod.snd).sum := by
    rw [hw]
    decide
  rw [weighted_eq_average hw]
  obtain ⟨e, he, hlow⟩ := exists_le_average (scored scores) hpos
  obtain ⟨e', he', hhigh⟩ := exists_average_le (scored scores) hpos
  exact ⟨⟨_, _, (hc.scored_eq he).1, hlow⟩, ⟨_, _, (hc.scored_eq he').1, hhigh⟩⟩

/-- Higher scores, criterion by criterion, do not lower the total. -/
theorem weighted_le (hc : rubric.Complete scores) (hc' : rubric.Complete scores')
    (hle : ∀ (criterion s s' : ℕ), scores[criterion]? = some s → scores'[criterion]? = some s' →
      s ≤ s') : rubric.weighted scores ≤ rubric.weighted scores' :=
  weighted_mono _ fun _ he => hle _ _ _ (hc.scored_eq he).1 (hc'.scored_eq he).1

end Rubric

/-! ### Shortlists -/

section Shortlist
variable {totals : Std.TreeMap ℕ ℕ}

/-- The first application beats the second, or ties with it and has the lower id. -/
def Beats (totals : Std.TreeMap ℕ ℕ) (a b : ℕ) : Prop :=
  totals.getD b 0 < totals.getD a 0 ∨ (totals.getD a 0 = totals.getD b 0 ∧ a < b)

/-- The applications in the order of the shortlist. -/
structure Ranking (totals : Std.TreeMap ℕ ℕ) (ranking : List ℕ) : Prop where
  mem : ∀ id, id ∈ ranking ↔ id ∈ totals
  ordered : ranking.Pairwise (Beats totals)

/-- By total in descending order, then by id. -/
def entryKey (a : ℕ × ℕ) : ℕᵒᵈ ×ₗ ℕ := toLex (OrderDual.toDual a.2, a.1)

/-- The key of an application in the ranking. -/
def rankKey (totals : Std.TreeMap ℕ ℕ) (id : ℕ) : ℕᵒᵈ ×ₗ ℕ := entryKey (id, totals.getD id 0)

theorem ranksBefore_iff (a b : ℕ × ℕ) : ranksBefore a b ↔ entryKey a ≤ entryKey b := by
  rw [ranksBefore, entryKey, entryKey, Prod.Lex.toLex_le_toLex]
  simp

theorem beats_iff (a b : ℕ) : Beats totals a b ↔ rankKey totals a < rankKey totals b := by
  rw [Beats, rankKey, rankKey, entryKey, entryKey, Prod.Lex.toLex_lt_toLex]
  simp

/-- The key of an entry is that of its application. -/
theorem entryKey_of_mem {a : ℕ × ℕ} (ha : a ∈ totals.toList) : entryKey a = rankKey totals a.1 := by
  rw [rankKey, Std.TreeMap.getD_eq_getD_getElem?,
    Std.TreeMap.mem_toList_iff_getElem?_eq_some.mp ha, Option.getD_some]

/-- The whole ranking. -/
def ranked (totals : Std.TreeMap ℕ ℕ) : List ℕ :=
  (totals.toList.insertionSort ranksBefore).map Prod.fst

theorem shortlist_eq (totals : Std.TreeMap ℕ ℕ) (limit : ℕ) :
    shortlist totals limit = (ranked totals).take limit := List.map_take

theorem mem_ranked (id : ℕ) : id ∈ ranked totals ↔ id ∈ totals := by
  rw [ranked, ((List.perm_insertionSort ranksBefore totals.toList).map Prod.fst).mem_iff,
    Std.TreeMap.map_fst_toList_eq_keys, Std.TreeMap.mem_keys]

theorem length_ranked (totals : Std.TreeMap ℕ ℕ) : (ranked totals).length = totals.size := by
  rw [ranked, List.length_map, (List.perm_insertionSort ranksBefore totals.toList).length_eq,
    Std.TreeMap.length_toList]

theorem ranked_ordered (totals : Std.TreeMap ℕ ℕ) : (ranked totals).Pairwise (Beats totals) := by
  have hkeys : (totals.toList.map entryKey).Nodup := by
    have hids : (totals.toList.map fun a => rankKey totals a.1).Nodup := by
      refine List.pairwise_map.mpr (totals.distinct_keys_toList.imp fun hne heq => hne ?_)
      rw [compare_eq_iff_eq]
      exact congrArg (fun key => (ofLex key).2) heq
    rwa [List.map_congr_left fun a ha => entryKey_of_mem ha]
  refine List.pairwise_map.mpr ((pairwise_sortOn_lt ranksBefore_iff hkeys).imp_of_mem ?_)
  intro a b ha hb hlt
  rw [List.mem_insertionSort] at ha hb
  rwa [beats_iff, ← entryKey_of_mem ha, ← entryKey_of_mem hb]

/-- There is one ranking. -/
theorem ranking_iff {ranking : List ℕ} : Ranking totals ranking ↔ ranking = ranked totals := by
  constructor
  · intro h
    have hlt : ∀ {l : List ℕ}, l.Pairwise (Beats totals) →
        l.Pairwise fun a b => rankKey totals a < rankKey totals b :=
      fun hl => hl.imp fun hab => (beats_iff _ _).mp hab
    have hnodup : ∀ {l : List ℕ}, l.Pairwise (Beats totals) → l.Nodup :=
      fun hl => (hlt hl).imp fun hab heq => hab.ne (congrArg _ heq)
    refine eq_of_perm_of_sorted ?_ (hlt h.ordered) (hlt (ranked_ordered totals))
    refine (List.perm_ext_iff_of_nodup (hnodup h.ordered) (hnodup (ranked_ordered totals))).mpr ?_
    intro id
    rw [h.mem, mem_ranked]
  · rintro rfl
    exact ⟨fun id => mem_ranked id, ranked_ordered totals⟩

end Shortlist

/-- The total of complete scores under an accepted rubric does not overflow, lies between the
lowest and the highest of them and grows with each; and the shortlist is the front of the only
ranking, so that what is listed beats what is not. -/
theorem scoring_law :
    (∀ (criteria : List (ℕ × ℕ)) (rubric : Rubric) (scores : Std.TreeMap ℕ ℕ),
      Rubric.new criteria = .ok rubric → rubric.Complete scores →
        ∃ total, rubric.total scores = .ok total ∧
          (∃ (criterion low : ℕ), scores[criterion]? = some low ∧ low ≤ total) ∧
          (∃ (criterion high : ℕ), scores[criterion]? = some high ∧ total ≤ high) ∧
          ∀ (scores' : Std.TreeMap ℕ ℕ), rubric.Complete scores' →
            (∀ (criterion s s' : ℕ), scores[criterion]? = some s →
              scores'[criterion]? = some s' → s ≤ s') →
            ∃ total', rubric.total scores' = .ok total' ∧ total ≤ total') ∧
      ∀ (totals : Std.TreeMap ℕ ℕ) (limit : ℕ), ∃ ranking,
        (∀ other, Ranking totals other ↔ other = ranking) ∧
          shortlist totals limit = ranking.take limit ∧
          (shortlist totals limit).length = min limit totals.size ∧
          ∀ a ∈ shortlist totals limit, ∀ b ∈ totals, b ∉ shortlist totals limit →
            Beats totals a b := by
  constructor
  · intro criteria rubric scores hnew hc
    have hw := Rubric.new_whole hnew
    obtain ⟨hlow, hhigh⟩ := Rubric.total_between hw hc
    refine ⟨_, Rubric.total_eq hw hc, hlow, hhigh, fun scores' hc' hle => ?_⟩
    exact ⟨_, Rubric.total_eq hw hc', Nat.div_le_div_right (Rubric.weighted_le hc hc' hle)⟩
  · intro totals limit
    refine ⟨ranked totals, fun _ => ranking_iff, shortlist_eq totals limit, ?_, ?_⟩
    · rw [shortlist_eq, List.length_take, length_ranked]
    · rw [shortlist_eq]
      intro a ha b hb hrest
      exact rel_of_mem_take (ranked_ordered totals) ha ((mem_ranked b).mpr hb) hrest

/-- Two criteria, the first of which has the greater weight. -/
def twoCriteria : Rubric := ⟨.ofList [(1, 6000), (2, 4000)]⟩

def twoScores (first second : ℕ) : Std.TreeMap ℕ ℕ := (Std.TreeMap.insert ∅ 1 first).insert 2 second

theorem twoScores_get? (first second criterion : ℕ) : (twoScores first second)[criterion]? =
    if criterion = 2 then some second else if criterion = 1 then some first else none := by
  rw [twoScores, Std.TreeMap.getElem?_insert, Std.TreeMap.getElem?_insert,
    Std.TreeMap.getElem?_emptyc]
  simp only [compare_eq_iff_eq, @eq_comm _ _ criterion]

theorem complete_twoScores {first second : ℕ} (hfirst : first ≤ maxScore)
    (hsecond : second ≤ maxScore) : twoCriteria.Complete (twoScores first second) where
  criteria criterion := by
    simp only [twoCriteria, twoScores, Std.TreeMap.mem_insert, Std.TreeMap.mem_ofList,
      Std.TreeMap.not_mem_emptyc, compare_eq_iff_eq]
    simp [@eq_comm _ _ criterion, or_comm]
  range criterion score h := by
    rw [twoScores_get?] at h
    split_ifs at h
    · exact Option.some.inj h ▸ hsecond
    · exact Option.some.inj h ▸ hfirst

theorem scoring_law_twoCriteria :
    Rubric.new [(1, 6000), (2, 4000)] = .ok twoCriteria ∧
      twoCriteria.total (twoScores 7000 4000) = .ok 5800 ∧
      ∃ total, twoCriteria.total (twoScores 8000 4000) = .ok total ∧ 5800 ≤ total := by
  have hnew : Rubric.new [(1, 6000), (2, 4000)] = .ok twoCriteria := rfl
  obtain ⟨total, htotal, -, -, hmono⟩ := scoring_law.1 _ _ _ hnew
    (complete_twoScores (by decide) (by decide) : twoCriteria.Complete (twoScores 7000 4000))
  have hvalue : twoCriteria.total (twoScores 7000 4000) = .ok 5800 := by decide +kernel
  obtain rfl : total = 5800 := Except.ok.inj (htotal.symm.trans hvalue)
  refine ⟨hnew, hvalue, hmono _ (complete_twoScores (by decide) (by decide)) ?_⟩
  intro criterion s s' hs hs'
  rw [twoScores_get?] at hs hs'
  split_ifs at hs hs'
  · obtain rfl := Option.some.inj hs
    exact (Option.some.inj hs').le
  · obtain rfl := Option.some.inj hs
    obtain rfl := Option.some.inj hs'
    decide
example : shortlist (.ofList [(10, 500), (11, 900), (12, 900), (13, 100)]) 3 = [11, 12, 10] := by
  decide +kernel

end RefractContracts.Grants
